import DiskUsage.Proofs.Engine.Basic
import DiskUsage.Proofs.Scan.DrillDown

/-!
# What a scanner keeps from one scan to the next

After any scans and measurements, the ones that failed among them, both tables of a scanner are empty, and
its configuration is what it was.  The callers of the next scan find the table as those of a new scanner
do: as their paths are different, each measures its own directory, once.  So the scan records the same
events and gives the same entries and large files as it would on a new scanner with this cache.

* `Rested`: what holds of a scanner at rest; `Rested.scans`, `Rested.view`: it is kept by scans and by
  measurements, and so `Reached.rested`.
* `Scanning.Exact`: a scan whose directories were measured once each; `Rested.exact`: it is so at rest.
* `ScanResult.Agrees`, `SameAnswer`: the same result, but for the duration and the choice among things
  of one size.
* `Reached.exists_scan`, `Reached.exists_overview`: what a scanner does without tables is among it.
* `nothing_is_left_over`: a scan after others ends as on a new scanner.
-/

open scoped List

namespace DiskUsage

open InFlight

/-! ### At rest -/

namespace Engine

/-- What holds of a scanner while it is not asked anything. -/
structure Rested (config : ScanConfig) (e : Engine) : Prop where
  config_eq : e.scanner.config = config
  folds : ∃ paths h, Orderly paths h e.folds
  folds_idle : e.folds.isIdle = true
  overviews : ∃ paths h, Orderly paths h e.overviews
  overviews_idle : e.overviews.isIdle = true

variable {config : ScanConfig} {e e' : Engine} {w : Surroundings} {root : Path}
  {answer answer' : Except ScanError ScanResult} {entries : List (String × Node)} {turns : List Nat}

theorem rested_new (config : ScanConfig) (cache : Cache) (now : Timestamp) :
    Rested config (new config cache now) where
  config_eq := rfl
  folds := ⟨[], [], orderly_init []⟩
  folds_idle := rfl
  overviews := ⟨[], [], orderly_init []⟩
  overviews_idle := rfl

/-- **A scan**, however it ends, leaves the scanner at rest. -/
theorem Rested.scans (h : Rested config e) (hs : e.Scans w root e' answer) : Rested config e' := by
  cases hs with
  | refused => exact ⟨h.config_eq, h.folds, h.folds_idle, h.overviews, h.overviews_idle⟩
  | unstarted => exact ⟨h.config_eq, h.folds, h.folds_idle, h.overviews, h.overviews_idle⟩
  | @done entries turns happened listed large hlist hstart hidle hhappened hlisted hlarge =>
    obtain ⟨paths, deeds, hfolds⟩ := h.folds
    exact ⟨h.config_eq, ⟨_, _, (hfolds.joinedBy _).run _⟩, hidle, h.overviews, h.overviews_idle⟩

theorem config_remember (s : Scanner) (w : Surroundings) (store? : Option (Path × Nat)) :
    (s.remember w store?).1.config = s.config := by
  cases store? <;> rfl

/-- One turn of a caller that asked for a size. -/
theorem overviewTurn_spec (e : Engine) (turn : Nat × Surroundings) :
    (e.overviewTurn turn).scanner.config = e.scanner.config ∧
      (e.overviewTurn turn).folds = e.folds ∧
      ∃ schedule, (e.overviewTurn turn).overviews = e.overviews.run schedule := by
  obtain ⟨i, w⟩ := turn
  rw [overviewTurn]
  dsimp only
  split
  · exact ⟨config_remember _ _ _, rfl, _, rfl⟩
  · exact ⟨rfl, rfl, _, rfl⟩

/-- **Measurements** that all end leave the scanner at rest. -/
theorem Rested.view (h : Rested config e) {asked : List Ask} {turns : List (Nat × Surroundings)}
    (hidle : (e.view asked turns).overviews.isIdle = true) : Rested config (e.view asked turns) := by
  suffices hkept : ∀ e₁ : Engine, e₁.scanner.config = config → e₁.folds = e.folds →
      (∃ paths deeds, Orderly paths deeds e₁.overviews) →
      (turns.foldl overviewTurn e₁).scanner.config = config ∧
        (turns.foldl overviewTurn e₁).folds = e.folds ∧
        ∃ paths deeds, Orderly paths deeds (turns.foldl overviewTurn e₁).overviews by
    obtain ⟨paths, deeds, horderly⟩ := h.overviews
    obtain ⟨hconfig, hfolds, hoverviews⟩ :=
      hkept (e.ask asked) h.config_eq rfl ⟨_, _, horderly.joinedBy _⟩
    refine ⟨hconfig, ?_, ?_, hoverviews, hidle⟩
    · exact hfolds ▸ h.folds
    · exact (congrArg InFlight.isIdle hfolds).trans h.folds_idle
  clear hidle
  induction turns with
  | nil => exact fun e₁ hconfig hfolds horderly => ⟨hconfig, hfolds, horderly⟩
  | cons turn turns ih =>
    intro e₁ hconfig hfolds ⟨paths, deeds, horderly⟩
    obtain ⟨hconfig', hfolds', schedule, hrun⟩ := overviewTurn_spec e₁ turn
    exact ih _ (hconfig'.trans hconfig) (hfolds'.trans hfolds)
      ⟨_, _, hrun ▸ horderly.run schedule⟩

/-- **After any scans and measurements** the scanner is at rest. -/
theorem Reached.rested (h : Reached config e) : Rested config e := by
  induction h with
  | new cache now => exact rested_new config cache now
  | scanned h hs ih => exact ih.scans hs
  | viewed h asked turns hidle ih => exact ih.view hidle
  | heard h feed ih => exact ⟨ih.config_eq, ih.folds, ih.folds_idle, ih.overviews, ih.overviews_idle⟩

theorem table_eq_nil_of_isIdle {ε : Type} {paths : List Path} {deeds : List (Nat × InFlight.Deed ε)}
    {t : InFlight ε} (h : Orderly paths deeds t) (hidle : t.isIdle = true) : t.table = [] :=
  h.table_eq_nil fun c hc => .inl (List.all_eq_true.1 hidle c hc)

/-- At rest both tables are empty. -/
theorem Rested.tables (h : Rested config e) : e.folds.table = [] ∧ e.overviews.table = [] := by
  obtain ⟨_, _, hfolds⟩ := h.folds
  obtain ⟨_, _, hoverviews⟩ := h.overviews
  exact ⟨table_eq_nil_of_isIdle hfolds h.folds_idle, table_eq_nil_of_isIdle hoverviews h.overviews_idle⟩

/-! ### One scan -/

/-- The directories of a proper root have different paths. -/
theorem apart_of_list (s : ChildSetup) (hproper : w.fs.root.isProper = true)
    (hlist : w.fs.list w.cwd root = .ok entries) :
    ((foldedOf (prepareChildren s root entries)).map Prod.fst).Pairwise
      fun p q => p.components ≠ q.components := by
  obtain ⟨there, mode, accessed, hplace⟩ := FileSystem.exists_place_of_list hlist
  have hat : w.fs.at? there = some (.dir mode accessed entries) := FileSystem.resolve_stands hplace
  have hentries : areProper entries = true := isProper_of_descend? hproper hat
  have hroot := (FileSystem.admitted_of_resolve hplace).ne_nil
  exact List.pairwise_map.2 (folded_prepareChildren s hroot hentries).apart

/-- What is gathered for callers in a row, each for its own item, is gathered for the items. -/
theorem flatMap_range' {α β : Type} (g : α → List β) (first : Nat) (items : List α) :
    (List.range' first items.length).flatMap (fun i => (items[i - first]?.map g).getD [])
      = items.flatMap g := by
  induction items generalizing first with
  | nil => rfl
  | cons item items ih =>
    have hrest : ∀ i ∈ List.range' (first + 1) items.length,
        ((item :: items)[i - first]?.map g).getD [] = (items[i - (first + 1)]?.map g).getD [] := by
      intro i hi
      have hlt := (List.mem_range'_1.1 hi).1
      rw [show i - first = i - (first + 1) + 1 by omega, List.getElem?_cons_succ]
    rw [List.length_cons, List.range'_succ, List.flatMap_cons, List.flatMap_cons, Nat.sub_self,
      List.flatMap_congr hrest, ih]
    rfl

/-- Every directory of the scan was measured, once. -/
structure Scanning.Exact (x : Scanning) : Prop where
  trace : x.trace ~ childrenTrace (scanChildren x.setup.toChildSetup x.root x.entries)
  listed : x.listed = (scanChildren x.setup.toChildSetup x.root x.entries).filterMap SizedChild.listed?
  large : x.large ~ (scanChildren x.setup.toChildSetup x.root x.entries).flatMap SizedChild.large

/-- Callers that measure one directory each make the scan exact. -/
theorem Scanning.exact_of_each {x : Scanning}
    (hmeasured : measuredBy (x.joined.history x.schedule)
      ~ List.range' x.found.callers.length x.folded.length)
    (hreturned : x.after.callers.drop x.found.callers.length
      = (x.folded.map Prod.fst).mapIdx fun j p =>
        (p, .returned ((x.outcome (x.found.callers.length + j)).mapError some))) :
    x.Exact := by
  have hsizes : x.sizes = x.folded.map (bulkSize x.setup.toWalkSetup) := by
    rw [Scanning.sizes, hreturned]
    refine List.ext_getElem (by simp) fun j hj hj' => ?_
    have hlt : j < x.folded.length := by simpa using hj'
    simp [Scanning.outcome, Scanning.directory?, Except.mapError, Scanning.returnedSize, hlt]
  refine ⟨?_, ?_, large_prepareChildren _ _ _⟩
  · refine .trans ?_ (happened_prepareChildren _ _ _)
    refine .append_left _ ((hmeasured.flatMap_right _).trans (.of_eq ?_))
    exact flatMap_range' (bulkTrace x.setup.toWalkSetup) x.found.callers.length x.folded
  · rw [Scanning.listed, hsizes]
    exact listed_prepareChildren _ _ _

/-- **A scan at rest** measures every directory once, whatever the turns. -/
theorem Rested.exact (h : Rested config e) (hproper : w.fs.root.isProper = true)
    (hlist : w.fs.list w.cwd root = .ok entries)
    (hidle : (e.scanning w root entries turns).after.isIdle = true) :
    (e.scanning w root entries turns).Exact := by
  obtain ⟨paths, deeds, hfolds⟩ := h.folds
  have hapart := apart_of_list (e.scanner.scanSetup w root).toChildSetup hproper hlist
  obtain ⟨hmeasured, hreturned⟩ := hfolds.each_measures h.folds_idle hapart hidle
  rw [List.length_map] at hmeasured
  exact Scanning.exact_of_each hmeasured hreturned

/-- **A scan at rest** can be brought to its end. -/
theorem Rested.exists_turns (h : Rested config e) (w : Surroundings) (root : Path)
    (entries : List (String × Node)) :
    ∃ turns, (e.scanning w root entries turns).after.isIdle = true := by
  obtain ⟨paths, deeds, hfolds⟩ := h.folds
  let x := e.scanning w root entries []
  have hasking : ∀ c ∈ x.joined.callers, c.2.isReturned = true ∨ c.2 = .asking := by
    intro c hc
    rcases List.mem_append.1 hc with hc | hc
    · exact .inl (List.all_eq_true.1 h.folds_idle c hc)
    · obtain ⟨p, -, rfl⟩ := List.mem_map.1 hc
      exact .inr rfl
  exact (hfolds.joinedBy _).exists_turns hasking x.outcome

/-! ### How a scan ends -/

/-- How a scan ends that is told by its setup alone. -/
inductive Ends (s : ScanSetup) (root : Path) : Except ScanError ScanResult → Counters → Prop
  | refused {error : SystemError} (hlist : s.list root = .error error) :
      Ends s root (.error (.ofSystem root error)) .zero
  | unstarted {entries : List (String × Node)} {error : SystemError}
      (hlist : s.list root = .ok entries) (hstart : s.startFailure? entries.length = some error) :
      Ends s root (.error (.ofStart error)) .zero
  | done {entries : List (String × Node)} {listed : List DirEntry} {large : List LargeFile}
      (hlist : s.list root = .ok entries) (hstart : s.startFailure? entries.length = none)
      (hlisted : listed ~ (scanChildren s.toChildSetup root entries).filterMap SizedChild.listed?)
      (hlarge : large ~ (scanChildren s.toChildSetup root entries).flatMap SizedChild.large) :
      Ends s root
        (.ok (resultOf s root
          (Counters.zero.after (childrenTrace (scanChildren s.toChildSetup root entries))) listed large))
        (Counters.zero.after (childrenTrace (scanChildren s.toChildSetup root entries)))

/-- **A scan at rest** ends in one of the ways that its setup tells. -/
theorem Rested.ends (h : Rested config e) (hproper : w.fs.root.isProper = true)
    (hs : e.Scans w root e' answer) : Ends (e.scanner.scanSetup w root) root answer e'.scanner.counters := by
  cases hs with
  | refused hlist => exact .refused hlist
  | unstarted hlist hstart => exact .unstarted hlist hstart
  | @done entries turns happened listed large hlist hstart hidle hhappened hlisted hlarge =>
    have hexact := h.exact hproper hlist hidle
    have hcounters : ((e.restart w.now).record happened).scanner.counters
        = Counters.zero.after
            (childrenTrace (scanChildren (e.scanner.scanSetup w root).toChildSetup root entries)) :=
      Counters.after_perm (hhappened.trans hexact.trace) .zero
    show Ends _ _ _ ((e.restart w.now).record happened).scanner.counters
    rw [hcounters]
    exact .done hlist hstart (hlisted.trans (.of_eq hexact.listed)) (hlarge.trans hexact.large)

/-- **A scan at rest** may end in every way that its setup tells. -/
theorem Rested.mayEnd_iff (h : Rested config e) (hproper : w.fs.root.isProper = true)
    {counters : Counters} :
    e.MayEnd w root answer counters ↔ Ends (e.scanner.scanSetup w root) root answer counters := by
  constructor
  · rintro ⟨e', hs, rfl⟩
    exact h.ends hproper hs
  · intro hends
    cases hends with
    | refused hlist => exact ⟨_, .refused hlist, rfl⟩
    | unstarted hlist hstart => exact ⟨_, .unstarted hlist hstart, rfl⟩
    | @done entries listed large hlist hstart hlisted hlarge =>
      obtain ⟨turns, hidle⟩ := h.exists_turns w root entries
      have hexact := h.exact hproper hlist hidle
      exact ⟨_, .done hlist hstart hidle hexact.trace.symm (hlisted.trans (.of_eq hexact.listed.symm))
        (hlarge.trans hexact.large.symm), rfl⟩

end Engine

/-! ### The same answer -/

/-- Two results that differ at most in their durations, and in which of several things of one size they
keep. -/
structure ScanResult.Agrees (c : ScanConfig) (r r' : ScanResult) : Prop where
  root : r.root = r'.root
  entries : TopN.Alternatives DirEntry.size c.maxEntries.toNat r.entries r'.entries
  largeFiles : r.largeFiles = r'.largeFiles ∨
    TopN.Alternatives LargeFile.size c.maxLargeFiles.toNat r.largeFiles r'.largeFiles
  totalSize : r.totalSize = r'.totalSize
  filesScanned : r.filesScanned = r'.filesScanned
  dirsScanned : r.dirsScanned = r'.dirsScanned

/-- The same error, or results that agree. -/
inductive SameAnswer (c : ScanConfig) :
    Except ScanError ScanResult → Except ScanError ScanResult → Prop
  | error (e : ScanError) : SameAnswer c (.error e) (.error e)
  | ok {r r' : ScanResult} (h : r.Agrees c r') : SameAnswer c (.ok r) (.ok r')

namespace Engine

variable {config : ScanConfig} {e e' : Engine} {w : Surroundings} {root : Path}
  {answer answer' : Except ScanError ScanResult} {counters counters' : Counters}

/-- Results from one setup agree, in whatever order things arrived. -/
theorem agrees_resultOf (s : ScanSetup) (root : Path) (counters : Counters) (elapsed : Duration)
    {listed listed' : List DirEntry} {large large' : List LargeFile} (hlisted : listed ~ listed')
    (hlarge : large ~ large') :
    (resultOf s root counters listed large).Agrees s.config
      (resultOf { s with elapsed } root counters listed' large') where
  root := rfl
  entries := TopN.alternatives_of_perm _ _ hlisted
  largeFiles := by
    unfold resultOf
    dsimp only
    split
    · exact .inr (TopN.alternatives_of_perm _ _ hlarge)
    · exact .inl rfl
  totalSize := congrArg Number.wrap (hlisted.map DirEntry.size).sum_eq
  filesScanned := rfl
  dirsScanned := rfl

/-- **All ways** in which scans of one setup end agree, and their counters are the same. -/
theorem Ends.same {s : ScanSetup} (elapsed : Duration) (h : Ends s root answer counters)
    (h' : Ends { s with elapsed } root answer' counters') :
    SameAnswer s.config answer answer' ∧ counters = counters' := by
  cases h with
  | refused hlist =>
    cases h' with
    | refused hlist' =>
      cases hlist.symm.trans hlist'
      exact ⟨.error _, rfl⟩
    | unstarted hlist' => cases hlist.symm.trans hlist'
    | done hlist' => cases hlist.symm.trans hlist'
  | unstarted hlist hstart =>
    cases h' with
    | refused hlist' => cases hlist.symm.trans hlist'
    | unstarted hlist' hstart' =>
      cases hlist.symm.trans hlist'
      cases hstart.symm.trans hstart'
      exact ⟨.error _, rfl⟩
    | done hlist' hstart' =>
      cases hlist.symm.trans hlist'
      cases hstart.symm.trans hstart'
  | done hlist hstart hlisted hlarge =>
    cases h' with
    | refused hlist' => cases hlist.symm.trans hlist'
    | unstarted hlist' hstart' =>
      cases hlist.symm.trans hlist'
      cases hstart.symm.trans hstart'
    | done hlist' hstart' hlisted' hlarge' =>
      cases hlist.symm.trans hlist'
      exact ⟨.ok (agrees_resultOf s root _ elapsed (hlisted.trans hlisted'.symm)
        (hlarge.trans hlarge'.symm)), rfl⟩

/-- A scan without any tables ends in one of these ways. -/
theorem ends_scan (s : Scanner) (w : Surroundings) (root : Path) :
    Ends (s.scanSetup w root) root (s.scan w root).answer (s.scan w root).scanner.counters := by
  unfold Scanner.scan scan
  cases hlist : (s.scanSetup w root).list root with
  | error error => exact .refused hlist
  | ok entries =>
    dsimp only
    cases hstart : (s.scanSetup w root).startFailure? entries.length with
    | some error => exact .unstarted hlist hstart
    | none =>
      have hresult : scanResult (s.scanSetup w root) root
            (scanChildren (s.scanSetup w root).toChildSetup root entries)
          = resultOf (s.scanSetup w root) root
              (Counters.zero.after
                (childrenTrace (scanChildren (s.scanSetup w root).toChildSetup root entries)))
              ((scanChildren (s.scanSetup w root).toChildSetup root entries).filterMap SizedChild.listed?)
              ((scanChildren (s.scanSetup w root).toChildSetup root entries).flatMap SizedChild.large) := by
        rw [scanResult, totalSize_eq]
        rfl
      dsimp only
      rw [hresult]
      exact .done hlist hstart (.refl _) (.refl _)

/-! ### A scanner without tables -/

/-- What a scan without tables makes of the scanner is reached. -/
theorem Reached.exists_scan (h : Reached config e) (hproper : w.fs.root.isProper = true) (root : Path) :
    ∃ e', Reached config e' ∧ e'.scanner = (e.scanner.scan w root).scanner := by
  cases hlist : w.fs.list w.cwd root with
  | error error =>
    refine ⟨_, h.scanned (.refused hlist), ?_⟩
    rw [Scanner.scan, scan, show (e.scanner.scanSetup w root).list root = _ from hlist]
    rfl
  | ok entries =>
    have hsetup : (e.scanner.scanSetup w root).list root = .ok entries := hlist
    cases hstart : (e.scanner.scanSetup w root).startFailure? entries.length with
    | some error =>
      refine ⟨_, h.scanned (.unstarted hlist hstart), ?_⟩
      simp only [Scanner.scan, scan, hsetup, hstart]
      rfl
    | none =>
      obtain ⟨turns, hidle⟩ := h.rested.exists_turns w root entries
      have hexact := h.rested.exact hproper hlist hidle
      refine ⟨_, h.scanned (.done hlist hstart hidle hexact.trace.symm (.refl _) (.refl _)), ?_⟩
      rw [Scanner.scan, scan_eq_of_list hsetup hstart]
      rfl

/-- What a measurement without tables makes of the scanner is reached. -/
theorem Reached.exists_overview (h : Reached config e) (a : Ask) :
    ∃ e', Reached config e' ∧ e'.scanner = (e.scanner.overview a.surroundings a.path).scanner := by
  obtain ⟨turns, hidle, hscanner⟩ :=
    exists_view_eq_overview e a h.rested.overviews_idle h.rested.tables.2
  exact ⟨_, h.viewed [a] turns hidle, hscanner⟩

/-! ### Nothing is left over -/

/-- Another clock makes no difference to a scan whose fast walks meet their deadlines alike. -/
theorem scanSetup_with {s : Scanner} {listedAfter : Path → Nat}
    (hlate : ∀ p, Scanner.isLate s.config { w with listedAfter } p = Scanner.isLate s.config w p)
    (elapsed : Duration) :
    s.scanSetup { w with elapsed, listedAfter } root = { s.scanSetup w root with elapsed } := by
  have hlate' : Scanner.isLate s.config { w with elapsed, listedAfter } = Scanner.isLate s.config w :=
    funext hlate
  rw [Scanner.scanSetup, hlate']
  rfl

theorem started_of_scans (hs : e.Scans w root e' answer) : e'.started = w.now := by
  cases hs <;> rfl

/-- **Nothing is left over.**  After any scans and measurements, also failed ones, a scan can be brought to
its end; it leaves the cache as it was and no measurement in the tables.  On a tree in which the entries of
every directory have different names, a scan of a new scanner with this cache whose fast walks meet their
deadlines alike may end with exactly the same answers and counters, if it takes as long; and however long
it takes, any two of them agree, but for the duration and the choice among things of one size.  They agree
with a scan that has no tables, too. -/
theorem nothing_is_left_over (h : Reached config e) (w : Surroundings) (root : Path) (now : Timestamp) :
    let fresh := new config e.scanner.cache now
    (∃ e' answer, e.Scans w root e' answer) ∧
      (∀ e' answer, e.Scans w root e' answer →
        e'.scanner.cache = e.scanner.cache ∧ e'.folds.table = [] ∧ e'.overviews.table = []) ∧
      (w.fs.root.isProper = true →
        (∀ e' answer, e.Scans w root e' answer →
          SameAnswer config answer (e.scanner.scan w root).answer ∧
            e'.scanner.counters = (e.scanner.scan w root).scanner.counters) ∧
        ∀ listedAfter,
          (∀ p, Scanner.isLate config { w with listedAfter } p = Scanner.isLate config w p) →
          (∀ answer counters,
            e.MayEnd w root answer counters ↔ fresh.MayEnd { w with listedAfter } root answer counters) ∧
          ∀ e' answer, e.Scans w root e' answer →
            ∀ elapsed f' answer', fresh.Scans { w with elapsed, listedAfter } root f' answer' →
              SameAnswer config answer answer' ∧ e'.scanner.counters = f'.scanner.counters ∧
                e'.started = f'.started) := by
  intro fresh
  have hrested := h.rested
  obtain rfl := hrested.config_eq
  have hfresh : Rested e.scanner.config fresh := rested_new _ _ _
  refine ⟨?_, fun e' answer hs => ?_, fun hproper => ⟨fun e' answer hs => ?_, fun listedAfter hlate =>
    ⟨fun answer counters => ?_, fun e' answer hs elapsed f' answer' hs' => ?_⟩⟩⟩
  · cases hlist : w.fs.list w.cwd root with
    | error error => exact ⟨_, _, .refused hlist⟩
    | ok entries =>
      cases hstart : (e.scanner.scanSetup w root).startFailure? entries.length with
      | some error => exact ⟨_, _, .unstarted hlist hstart⟩
      | none =>
        obtain ⟨turns, hidle⟩ := hrested.exists_turns w root entries
        exact ⟨_, _, .done hlist hstart hidle (.refl _) (.refl _) (.refl _)⟩
  · refine ⟨?_, (hrested.scans hs).tables⟩
    cases hs <;> rfl
  · exact (hrested.ends hproper hs).same w.elapsed (ends_scan e.scanner w root)
  · -- both scanners have the same setup
    have hsetup : fresh.scanner.scanSetup { w with listedAfter } root = e.scanner.scanSetup w root :=
      scanSetup_with (s := e.scanner) hlate w.elapsed
    have hnew : fresh.MayEnd { w with listedAfter } root answer counters
        ↔ Ends (e.scanner.scanSetup w root) root answer counters :=
      hsetup ▸ hfresh.mayEnd_iff (w := { w with listedAfter }) hproper
    exact (hrested.mayEnd_iff hproper).trans hnew.symm
  · have hends' := hfresh.ends (w := { w with elapsed, listedAfter }) hproper hs'
    rw [show fresh.scanner.scanSetup { w with elapsed, listedAfter } root = _ from
      scanSetup_with (s := e.scanner) hlate elapsed] at hends'
    obtain ⟨hsame, hcounters⟩ := (hrested.ends hproper hs).same elapsed hends'
    exact ⟨hsame, hcounters, (started_of_scans hs).trans (started_of_scans hs').symm⟩

/-- A scanner after a scan that failed, a scan with a directory that is measured in bulk, and a measurement
of a path as a whole. -/
def usedEngine : Engine :=
  let w := projectSurroundings 1000
  let failed := (new projectScanner.config (.inMemory none) w.now).restart w.now
  let x := failed.scanning w ⟨"/w/project"⟩ projectEntries (List.replicate 5 0)
  ((failed.restart w.now).finish x.trace x.after).view [⟨w, ⟨"/w/project"⟩⟩] (List.replicate 5 (0, w))

theorem used_engine_scans_as_a_new_one :
    let w := projectSurroundings 1000
    let w' := projectSurroundings 2000
    Reached projectScanner.config usedEngine ∧ w.fs.root.isProper = true ∧
      (∀ p, Scanner.isLate projectScanner.config w' p = Scanner.isLate projectScanner.config w p) ∧
      usedEngine.scanner.cache = .memory none [(⟨"/w/project"⟩, ⟨99, 0⟩)] ∧
      (∃ e' answer, usedEngine.Scans w ⟨"/w/project"⟩ e' answer) ∧
      ∀ e' answer, usedEngine.Scans w ⟨"/w/project"⟩ e' answer →
        e'.scanner.cache = usedEngine.scanner.cache ∧ e'.scanner.counters = ⟨4, 2, 79, 0⟩ ∧
        ∀ elapsed f' answer',
          (new projectScanner.config usedEngine.scanner.cache ⟨7, 0, Duration.zero.nanos_lt⟩).Scans
            { w' with elapsed } ⟨"/w/project"⟩ f' answer' →
          SameAnswer projectScanner.config answer answer' ∧ f'.scanner.counters = ⟨4, 2, 79, 0⟩ := by
  intro w w'
  have hgone : w.fs.list [] ⟨"/gone"⟩ = .error .noEntry := by rfl
  have hlist : w.fs.list [] ⟨"/w/project"⟩ = .ok projectEntries := by rfl
  have hreached : Reached projectScanner.config usedEngine :=
    .viewed (.scanned (.scanned (.new _ _) (.refused hgone))
      (.done hlist (by decide +kernel) (by decide +kernel) (.refl _) (.refl _) (.refl _))) _ _
      (by decide +kernel)
  have hproper : w.fs.root.isProper = true := by decide +kernel
  have hlate (nanos : Nat) (h : nanos < projectScanner.config.fastWalkDeadline.toNanos) (p : Path) :
      Scanner.isLate projectScanner.config (projectSurroundings nanos) p = false :=
    decide_eq_false (Nat.not_le_of_lt h)
  have hclocks (p : Path) :
      Scanner.isLate projectScanner.config w' p = Scanner.isLate projectScanner.config w p :=
    (hlate 2000 (by decide +kernel) p).trans (hlate 1000 (by decide +kernel) p).symm
  obtain ⟨hends, hkept, hsame⟩ :=
    nothing_is_left_over hreached w ⟨"/w/project"⟩ ⟨7, 0, Duration.zero.nanos_lt⟩
  obtain ⟨hanswers, hnew⟩ := hsame hproper
  obtain ⟨-, hfresh⟩ := hnew w'.listedAfter hclocks
  have hcounters : (usedEngine.scanner.scan w ⟨"/w/project"⟩).scanner.counters = ⟨4, 2, 79, 0⟩ := by
    decide +kernel
  refine ⟨hreached, hproper, hclocks, by rfl, hends, fun e' answer hs => ?_⟩
  have hscan := (hanswers e' answer hs).2.trans hcounters
  refine ⟨(hkept e' answer hs).1, hscan, fun elapsed f' answer' hs' => ?_⟩
  obtain ⟨hagree, hequal, -⟩ := hfresh e' answer hs elapsed f' answer' hs'
  exact ⟨hagree, hequal.symm.trans hscan⟩

end Engine

end DiskUsage
