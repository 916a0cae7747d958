import DiskUsage.Proofs.Engine.Prepared
import DiskUsage.Proofs.Scan.Freshness
import DiskUsage.Proofs.Sharing.Joining

/-!
# A scanner with its tables

Besides its cache, its counters and its subscriber a scanner keeps two tables through all its scans and
measurements: one of the directories that are being measured in bulk, and one of the paths whose whole
size is being measured; and it keeps the time at which its last scan started.

A scan starts by setting the counters to zero.  The directories in it that are sized in bulk are measured
by callers that join the first table, in any turns; events are recorded in any order, and entries and
large files arrive in any order.

* `Engine.Scanning`: a scan on its way; `Engine.Scans`: how a scan may end.
* `Engine.ask`, `Engine.overviewTurn`: callers ask for the sizes of paths, and take turns.
* `Engine.Reached`: a scanner after any scans and measurements.
* `exists_view_eq_overview`: a caller that asks alone leaves the scanner as it does without any tables.
-/

open scoped List

namespace DiskUsage

/-- A scanner with all that it keeps. -/
structure Engine where
  scanner : Scanner
  /-- The directories that are being measured in bulk. -/
  folds : InFlight Unit
  /-- The paths whose whole size is being measured. -/
  overviews : InFlight ScanError
  /-- When the last scan started. -/
  started : Timestamp

namespace Engine

/-- A scanner that has done nothing. -/
def new (config : ScanConfig) (cache : Cache) (now : Timestamp) : Engine :=
  ⟨.new config cache, .init [], .init [], now⟩

/-- The scanner at the start of a scan. -/
def restart (e : Engine) (now : Timestamp) : Engine :=
  { e with scanner := { e.scanner with counters := .zero }, started := now }

/-- The scanner after events, which are counted and published. -/
def record (e : Engine) (happened : Trace) : Engine :=
  let every := e.scanner.config.progressEvery.toNat
  { e with
    scanner :=
      { e.scanner with
        counters := e.scanner.counters.after happened
        feed := e.scanner.feed.observe every e.scanner.counters happened } }

/-! ### Scans -/

/-- The result of a scan, from the counters at its end and from the entries and large files in the order of
their arrival. -/
def resultOf (s : ScanSetup) (root : Path) (counters : Counters) (listed : List DirEntry)
    (large : List LargeFile) : ScanResult :=
  let indexed := findLargeFiles s.config s.lstat s.index
  { root
    entries := TopN.largest DirEntry.size s.config.maxEntries.toNat listed
    largeFiles :=
      if indexed.isEmpty then TopN.largest LargeFile.size s.config.maxLargeFiles.toNat large else indexed
    totalSize := Number.wrap (listed.map DirEntry.size).sum
    filesScanned := counters.files.toNat
    dirsScanned := counters.dirs.toNat
    duration := s.elapsed }

/-- A scan of a directory on its way, with the turns in which its directories are measured in bulk. -/
structure Scanning where
  setup : ScanSetup
  root : Path
  entries : List (String × Node)
  /-- The table as the scan found it. -/
  found : InFlight Unit
  turns : List Nat

namespace Scanning

variable (x : Scanning)

/-- The children, but for what is sized in bulk. -/
def children : List PreparedChild :=
  prepareChildren x.setup.toChildSetup x.root x.entries

/-- The directories to measure in bulk. -/
def folded : List (Path × Node) :=
  foldedOf x.children

/-- The table with the callers that measure these directories. -/
def joined : InFlight Unit :=
  x.found.joinedBy (x.folded.map Prod.fst)

/-- The directory that a caller of this scan measures; its callers come after all earlier ones. -/
def directory? (i : Nat) : Option (Path × Node) :=
  x.folded[i - x.found.callers.length]?

/-- What a caller gives if it measures; a measurement in bulk never fails. -/
def outcome (i : Nat) : Except Unit Nat :=
  .ok (((x.directory? i).map (bulkSize x.setup.toWalkSetup)).getD 0)

/-- The turns, each with what its caller gives if it measures. -/
def schedule : List (Nat × Except Unit Nat) :=
  x.turns.map fun i => (i, x.outcome i)

/-- The table after all turns. -/
def after : InFlight Unit :=
  x.joined.run x.schedule

/-- Everything that happened: while the children were walked, and while their directories were measured,
once for each time that one was. -/
def trace : Trace :=
  x.children.flatMap PreparedChild.trace
    ++ (InFlight.measuredBy (x.joined.history x.schedule)).flatMap fun i =>
      ((x.directory? i).map (bulkTrace x.setup.toWalkSetup)).getD []

/-- The size that a caller returned with; none counts as zero. -/
def returnedSize : Caller Unit → Nat
  | .returned (.ok size) => size
  | _ => 0

/-- The sizes of the directories, in order. -/
def sizes : List Nat :=
  (x.after.callers.drop x.found.callers.length).map fun c => returnedSize c.2

/-- The entries of the children. -/
def listed : List DirEntry :=
  listings x.children x.sizes

/-- The large files in the children. -/
def large : List LargeFile :=
  x.children.flatMap PreparedChild.large

end Scanning

/-- A scan of a directory with these entries. -/
def scanning (e : Engine) (w : Surroundings) (root : Path) (entries : List (String × Node))
    (turns : List Nat) : Scanning :=
  ⟨e.scanner.scanSetup w root, root, entries, e.folds, turns⟩

/-- The scanner after events and with the table of a scan that ended. -/
def finish (e : Engine) (happened : Trace) (folds : InFlight Unit) : Engine :=
  { e.record happened with folds }

/-- A scan of a root may end so: with this scanner and this answer. -/
inductive Scans (e : Engine) (w : Surroundings) (root : Path) :
    Engine → Except ScanError ScanResult → Prop
  /-- The root cannot be listed. -/
  | refused {error : SystemError} (hlist : w.fs.list w.cwd root = .error error) :
      Scans e w root (e.restart w.now) (.error (.ofSystem root error))
  /-- One of the workers cannot be started; nothing was given to the others. -/
  | unstarted {entries : List (String × Node)} {error : SystemError}
      (hlist : w.fs.list w.cwd root = .ok entries)
      (hstart : (e.scanner.scanSetup w root).startFailure? entries.length = some error) :
      Scans e w root (e.restart w.now) (.error (.ofStart error))
  /-- All directories were measured, and everything was recorded and arrived. -/
  | done {entries : List (String × Node)} {turns : List Nat} {happened : Trace}
      {listed : List DirEntry} {large : List LargeFile}
      (hlist : w.fs.list w.cwd root = .ok entries)
      (hstart : (e.scanner.scanSetup w root).startFailure? entries.length = none)
      (hidle : (e.scanning w root entries turns).after.isIdle = true)
      (hhappened : happened ~ (e.scanning w root entries turns).trace)
      (hlisted : listed ~ (e.scanning w root entries turns).listed)
      (hlarge : large ~ (e.scanning w root entries turns).large) :
      Scans e w root
        ((e.restart w.now).finish happened (e.scanning w root entries turns).after)
        (.ok (resultOf (e.scanner.scanSetup w root) root
          ((e.restart w.now).record happened).scanner.counters listed large))

/-- A scan of a root may end with this answer and these counters. -/
def MayEnd (e : Engine) (w : Surroundings) (root : Path) (answer : Except ScanError ScanResult)
    (counters : Counters) : Prop :=
  ∃ e', e.Scans w root e' answer ∧ e'.scanner.counters = counters

/-! ### Measurements -/

/-- The path of a caller that is measuring. -/
def measuring? (e : Engine) (i : Nat) : Option Path :=
  match e.overviews.callers[i]? with
  | some (path, .measuring _) => some path
  | _ => none

/-- One turn of a caller that asked for the size of a path.  If it is measuring, it ends its measurement
and stores the size in the cache. -/
def overviewTurn (e : Engine) (turn : Nat × Surroundings) : Engine :=
  let (i, w) := turn
  match e.measuring? i with
  | some path =>
    let overview := measureClean (e.scanner.overviewSetup w) path
    { e with
      scanner := (e.scanner.remember w overview.store?).1
      overviews := e.overviews.run [(i, overview.answer)] }
  | none => { e with overviews := e.overviews.run [(i, .ok 0)] }

/-- Callers ask for the sizes of paths.  One whose path leads nowhere has its answer at once. -/
def ask (e : Engine) (asked : List Ask) : Engine :=
  let shared := asked.filter fun a => Scanner.isShared (e.scanner.overviewSetup a.surroundings) a.path
  { e with overviews := e.overviews.joinedBy (shared.map fun a => a.path.clean) }

/-- Callers ask, and take these turns. -/
def view (e : Engine) (asked : List Ask) (turns : List (Nat × Surroundings)) : Engine :=
  turns.foldl overviewTurn (e.ask asked)

/-- A scanner of this configuration after any scans and measurements, the ones that failed among them, and
with any subscriber. -/
inductive Reached (config : ScanConfig) : Engine → Prop
  | new (cache : Cache) (now : Timestamp) : Reached config (new config cache now)
  | scanned {e e' : Engine} {w : Surroundings} {root : Path} {answer : Except ScanError ScanResult}
      (h : Reached config e) (hs : e.Scans w root e' answer) : Reached config e'
  | viewed {e : Engine} (h : Reached config e) (asked : List Ask) (turns : List (Nat × Surroundings))
      (hidle : (e.view asked turns).overviews.isIdle = true) : Reached config (e.view asked turns)
  | heard {e : Engine} (h : Reached config e) (feed : Feed) :
      Reached config { e with scanner := { e.scanner with feed } }

/-! ### A caller that asks alone -/

/-- A measurement that is shared is one of the clean path. -/
theorem measureOverview_of_isShared {setup : OverviewSetup} {path : Path}
    (h : Scanner.isShared setup path = true) :
    measureOverview setup path = (measureClean setup path.clean).after (.reach path.clean) := by
  unfold Scanner.isShared at h
  unfold measureOverview
  cases hstat : setup.stat path.clean <;> simp_all

/-- One that is not shared stores nothing. -/
theorem store?_of_not_isShared {setup : OverviewSetup} {path : Path}
    (h : Scanner.isShared setup path = false) : (measureOverview setup path).store? = none := by
  unfold Scanner.isShared at h
  unfold measureOverview
  cases hempty : path.text.isEmpty with
  | true => simp [Overview.refuse]
  | false =>
    cases habsolute : path.clean.isAbsolute with
    | false => simp [Overview.refuse, habsolute]
    | true => cases hstat : setup.stat path.clean <;> simp_all [Overview.refuse, Overview.after]

section Alone

variable {e : Engine} {i : Nat} {p : Path} {w : Surroundings} {s t : InFlight ScanError}

/-- A turn of a caller that does not measure only changes the table. -/
theorem overviewTurn_of_caller {c : Caller ScanError} (hi : s.callers[i]? = some (p, c))
    (hc : ∀ slot, c ≠ .measuring slot) (hstep : s.step? i (.ok 0) = some t) :
    ({ e with overviews := s } : Engine).overviewTurn (i, w) = { e with overviews := t } := by
  have hnone : ({ e with overviews := s } : Engine).measuring? i = none := by
    rw [measuring?, hi]
    cases c with
    | measuring slot => exact absurd rfl (hc slot)
    | _ => rfl
  rw [overviewTurn]
  simp only [hnone, InFlight.run_cons, InFlight.run_nil, hstep, Option.getD_some]

/-- A turn that ends a measurement stores what it gives to store. -/
theorem overviewTurn_of_measuring {slot : Nat} (hi : s.callers[i]? = some (p, .measuring slot))
    (hstep : s.step? i (measureClean (e.scanner.overviewSetup w) p).answer = some t) :
    ({ e with overviews := s } : Engine).overviewTurn (i, w)
      = { e with
          scanner := (e.scanner.remember w (measureClean (e.scanner.overviewSetup w) p).store?).1
          overviews := t } := by
  have hsome : ({ e with overviews := s } : Engine).measuring? i = some p := by
    rw [measuring?, hi]
  rw [overviewTurn]
  simp only [hsome, InFlight.run_cons, InFlight.run_nil, hstep, Option.getD_some]

/-- Five turns of a caller that asked alone. -/
theorem view_alone (hi : s.callers[i]? = some (p, .asking)) (hslot : s.slotOf? p = none) :
    (List.replicate 5 (i, w)).foldl overviewTurn { e with overviews := s }
      = { e with
          scanner := (e.scanner.remember w (measureClean (e.scanner.overviewSetup w) p).store?).1
          overviews := s.servedAlone i p (measureClean (e.scanner.overviewSetup w) p).answer } := by
  have hlt : i < s.callers.length := (List.getElem?_eq_some_iff.1 hi).1
  have hheld (c : Caller ScanError) (v : Slot) := InFlight.getElem?_heldAlone (s := s) (p := p) hlt c v
  have htake : ({ e with overviews := s } : Engine).overviewTurn (i, w)
      = { e with overviews := s.heldAlone i p (.holding s.slots.length) .empty } :=
    overviewTurn_of_caller hi (by simp) (InFlight.takesAlone hi hslot)
  have hstart := overviewTurn_of_caller (e := e) (w := w) (hheld _ _) (by simp)
    (InFlight.startsAlone hlt)
  have hend := overviewTurn_of_measuring (e := e) (w := w) (hheld _ _) (InFlight.endsAlone hlt)
  have hrelease (scanner : Scanner) (own : Except ScanError Nat) :=
    overviewTurn_of_caller (e := { e with scanner }) (w := w) (hheld _ _) (by simp)
      (InFlight.releasesAlone hlt own)
  have hleave (scanner : Scanner) (own : Except ScanError Nat) :=
    overviewTurn_of_caller (e := { e with scanner }) (w := w) (s := s.leftAlone i p _ own) (p := p)
      (List.getElem?_set_self hlt) (by simp) (InFlight.leavesAlone hlt own)
  simp only [List.replicate, List.foldl_cons, List.foldl_nil]
  rw [htake, hstart, hend]
  exact (congrArg (overviewTurn · (i, w)) (hrelease _ _)).trans (hleave _ _)

/-- **A caller that asks alone** leaves the scanner as a measurement without any tables does. -/
theorem exists_view_eq_overview (e : Engine) (a : Ask) (hidle : e.overviews.isIdle = true)
    (htable : e.overviews.table = []) :
    ∃ turns, (e.view [a] turns).overviews.isIdle = true ∧
      (e.view [a] turns).scanner = (e.scanner.overview a.surroundings a.path).scanner := by
  obtain ⟨w, path⟩ := a
  cases hshared : Scanner.isShared (e.scanner.overviewSetup w) path with
  | false =>
    refine ⟨[], ?_, ?_⟩
    · simpa [view, ask, hshared, InFlight.joinedBy] using hidle
    · show e.scanner = (e.scanner.remember w _).1
      rw [store?_of_not_isShared hshared]
      rfl
  | true =>
    have hask : e.ask [⟨w, path⟩] = { e with overviews := e.overviews.joinedBy [path.clean] } := by
      simp [ask, hshared]
    have hi : (e.overviews.joinedBy [path.clean]).callers[e.overviews.callers.length]?
        = some (path.clean, .asking) := List.getElem?_concat_length
    have hslot : (e.overviews.joinedBy [path.clean]).slotOf? path.clean = none := by
      show (e.overviews.table.find? _).map _ = none
      rw [htable]
      rfl
    have hview := view_alone (e := e) (w := w) hi hslot
    rw [← hask] at hview
    refine ⟨List.replicate 5 (e.overviews.callers.length, w), ?_, ?_⟩
    · rw [view, hview]
      have hcallers (c : Caller ScanError) :
          (e.overviews.callers ++ [(path.clean, Caller.asking)]).set e.overviews.callers.length
            (path.clean, c) = e.overviews.callers ++ [(path.clean, c)] := by
        rw [List.set_append_right _ _ (Nat.le_refl _), Nat.sub_self]
        rfl
      simp only [InFlight.isIdle, InFlight.servedAlone, InFlight.leftAlone, InFlight.joinedBy,
        List.map_cons, List.map_nil, hcallers, List.all_append, Bool.and_eq_true]
      exact ⟨hidle, rfl⟩
    · rw [view, hview, Scanner.overview, measureOverview_of_isShared hshared]
      rfl

end Alone

end Engine

end DiskUsage
