import DiskUsage.Proofs.Path.Cleaning
import DiskUsage.Proofs.Sharing.Joining
import DiskUsage.Scan.Scanner

/-!
# No size is zero

A size of zero stands for a size that is not known: what the usage tool, the walk and a fresh entry of the
cache say counts only if it is not zero.  A size that the cache kept is taken as it is.  But if a cache holds
no zero in the beginning it never does, as each size that is stored was not zero where it came from.  Then no
measurement answers zero, and no cached subtree is listed with a zero from the cache.

* `KnownSizes.IsPositive`, `Cache.IsPositive`: no size is zero; `Cache.IsPositive.store`: storing keeps it so.
* `measureClean_cases`: what a measurement gives; `store?_pos`, `answer_ne_zero`.
* `InFlight.exists_of_mem_share`: what callers that ask together are told.
* `Call`, `Scanner.called`, `Scanner.callAll`: any calls of a scanner, one after the other.
* `isPositive_step`, `isPositive_run`: one call keeps the cache without a zero, and so do all of a run.
* `zero_is_never_kept`: what is stored and what is answered.
-/

namespace DiskUsage

/-- No size that is known is zero. -/
def KnownSizes.IsPositive (known : KnownSizes) : Prop :=
  ∀ path, known.fresh path ≠ some 0 ∧ known.persisted path ≠ some 0

/-- No size that the cache gives is zero, at any time. -/
def Cache.IsPositive (c : Cache) : Prop :=
  ∀ now, (c.known now).IsPositive

variable {c : Cache} {known : KnownSizes} {setup : OverviewSetup} {s : Scanner} {path key asked : Path}
  {size : Nat}

/-! ### What a cache holds -/

theorem SizeMap.fresh?_of_size? {sizes : SizeMap} {ttl : Option Nat} {now : Nat}
    (h : sizes.size? path ≠ some 0) : sizes.fresh? ttl now path ≠ some 0 := by
  intro hfresh
  obtain ⟨m, hm, hzero⟩ := Option.map_eq_some_iff.1 hfresh
  exact h (Option.map_eq_some_iff.2 ⟨m, (Option.filter_eq_some_iff.1 hm).1, hzero⟩)

theorem SizeMap.size?_insert {sizes : SizeMap} {m : Measured} (h : ∀ path, sizes.size? path ≠ some 0)
    (hm : 0 < m.size) (key path : Path) : (sizes.insert key m).size? path ≠ some 0 := by
  unfold size?
  cases hsame : key.sameAs path with
  | true =>
    rw [find?_insert_self hsame, Option.map_some]
    simpa using Nat.ne_of_gt hm
  | false =>
    rw [find?_insert_of_not_sameAs hsame]
    exact h path

theorem Cache.lastSize?_concat (sizes : List (Path × Nat)) (key path : Path) (size : Nat) :
    lastSize? (sizes ++ [(key, size)]) path
      = if key.sameAs path then some size else lastSize? sizes path := by
  unfold lastSize?
  rw [List.reverse_append, List.reverse_singleton, List.singleton_append, List.find?_cons]
  cases key.sameAs path <;> rfl

/-- A cache with a size map holds no zero iff the map has none. -/
theorem Cache.isPositive_memory_iff {ttl : Option Nat} {sizes : SizeMap} :
    (memory ttl sizes).IsPositive ↔ ∀ path, sizes.size? path ≠ some 0 :=
  ⟨fun h path => (h 0 path).2, fun h _ path => ⟨SizeMap.fresh?_of_size? (h path), h path⟩⟩

/-- **Storing** a size that is not zero leaves the cache without a zero. -/
theorem Cache.IsPositive.store (h : c.IsPositive) (fs : FileSystem) (cwd : List String) (now : Timestamp)
    (key : Path) (hsize : 0 < size) : (c.store fs cwd now key size).1.IsPositive := by
  cases c with
  | forgetful => exact h
  | memory ttl sizes =>
    exact isPositive_memory_iff.2 (SizeMap.size?_insert (isPositive_memory_iff.1 h) hsize key)
  | file backing ttl sizes =>
    -- the map that the file is written from answers as one in memory
    have hmap : (memory ttl sizes).IsPositive := h
    exact isPositive_memory_iff.2 (SizeMap.size?_insert (isPositive_memory_iff.1 hmap) hsize key)
  | filled fresh kept refuses =>
    cases refuses with
    | true => exact h
    | false =>
      intro later path
      refine ⟨?_, (h later path).2⟩
      show lastSize? (fresh ++ [(key, size)]) path ≠ some 0
      rw [lastSize?_concat]
      split
      · simpa using Nat.ne_of_gt hsize
      · exact (h later path).1

/-- A subtree that takes its size from the cache is not empty. -/
theorem KnownSizes.IsPositive.subtreeSize?_pos (h : known.IsPositive)
    (hsize : known.subtreeSize? path = some size) : 0 < size := by
  rcases Option.or_eq_some_iff.1 hsize with hfresh | ⟨-, hkept⟩
  · exact of_decide_eq_true (Option.filter_eq_some_iff.1 hfresh).2
  · refine Nat.pos_of_ne_zero ?_
    rintro rfl
    exact (h path).2 hkept

/-! ### One measurement -/

theorem positiveSize?_pos {answer : Except ToolError Nat} (h : positiveSize? answer = some size) :
    0 < size := by
  unfold positiveSize? at h
  split at h
  · split at h
    · next hpos =>
      cases h
      exact hpos
    · cases h
  · cases h

theorem laterSize?_pos (h : setup.known.IsPositive) (hsize : (laterSize? setup path).2 = some size) :
    0 < size := by
  unfold laterSize? at hsize
  dsimp only at hsize
  split at hsize
  · next hwalked =>
    cases hsize
    exact hwalked
  · refine Nat.pos_of_ne_zero ?_
    rintro rfl
    exact (h path).2 hsize

/-- **What a measurement gives**: it fails, or it answers a size that is not zero; and what it stores is this
size, under the path that was measured. -/
theorem measureClean_cases (h : setup.known.IsPositive) (path : Path) :
    (∃ e, (measureClean setup path).answer = .error e ∧ (measureClean setup path).store? = none) ∨
      ∃ size, 0 < size ∧ (measureClean setup path).answer = .ok size ∧
        ((measureClean setup path).store? = none ∨
          (measureClean setup path).store? = some (path, size)) := by
  unfold measureClean
  cases hfresh : (setup.known.fresh path).filter fun size => decide (0 < size) with
  | some size =>
    exact .inr ⟨size, of_decide_eq_true (Option.filter_eq_some_iff.1 hfresh).2, rfl, .inl rfl⟩
  | none =>
    unfold measureAnew
    dsimp only
    cases htool : positiveSize? (setup.tool.measureWithout path (excludedPart setup.config path)).answer with
    | some size => exact .inr ⟨size, positiveSize?_pos htool, rfl, .inr rfl⟩
    | none =>
      cases hlater : (laterSize? setup path).2 with
      | some size => exact .inr ⟨size, laterSize?_pos h hlater, rfl, .inr rfl⟩
      | none => exact .inl ⟨_, rfl, rfl⟩

/-- **What is stored** is not zero, and its key is an absolute clean path. -/
theorem store?_pos (h : setup.known.IsPositive)
    (hstore : (measureOverview setup asked).store? = some (key, size)) :
    0 < size ∧ key.isAbsolute = true ∧ key.clean = key := by
  rcases measureOverview_cases setup asked with ⟨asked, e, he⟩ | ⟨habsolute, hclean⟩
  · rw [he] at hstore
    cases hstore
  · rw [hclean, Overview.after] at hstore
    dsimp only at hstore
    rcases measureClean_cases h asked.clean with ⟨e, -, hnone⟩ | ⟨found, hpos, -, hnone | hsome⟩
    · rw [hnone] at hstore
      cases hstore
    · rw [hnone] at hstore
      cases hstore
    · rw [hsome] at hstore
      cases hstore
      exact ⟨hpos, habsolute, Path.clean_clean asked⟩

/-- **No measurement** answers zero. -/
theorem answer_ne_zero (h : setup.known.IsPositive) (asked : Path) :
    (measureOverview setup asked).answer ≠ .ok 0 := by
  rcases measureOverview_cases setup asked with ⟨asked, e, he⟩ | ⟨-, hclean⟩
  · rw [he]
    nofun
  · rw [hclean, Overview.after]
    dsimp only
    rcases measureClean_cases h asked.clean with ⟨e, he, -⟩ | ⟨size, hpos, hsize, -⟩
    · rw [he]
      nofun
    · rw [hsize]
      rintro hzero
      cases hzero
      exact Nat.lt_irrefl 0 hpos

/-! ### Callers that ask together -/

namespace InFlight

variable {ε : Type} {n : Nat} {outcome : Except ε Nat} {answer : Except (Option ε) Nat}

/-- **Callers that ask together** are told what was measured, but for the reason of a failure. -/
theorem exists_of_mem_share (h : answer ∈ share n path outcome) : ∃ f, answer = outcome.mapError f := by
  obtain ⟨⟨p, caller⟩, hcaller, hanswer⟩ := List.mem_filterMap.1 h
  cases caller with
  | returned a =>
    cases hanswer
    obtain ⟨i, hi⟩ := List.mem_iff_getElem?.1 hcaller
    have hlaw := lawful_run (List.replicate n path) ((together n).map fun i => (i, outcome))
    obtain ⟨k, m, -, -, hm, -, -, rfl⟩ := hlaw.returned hi
    have hends := ends_of_mem_measurementsOf (hm ▸ List.mem_singleton_self m)
    have hsame : m.outcome = outcome := outcome_of_ends (f := fun _ => outcome) hends
    exact ⟨_, by rw [Measurement.answerTo, hsame]⟩
  | _ => cases hanswer

end InFlight

/-! ### Runs -/

/-- A call of a scanner, with the surroundings that it meets.  Scanners with different configurations may have
one cache. -/
inductive Call where
  | scan (config : ScanConfig) (w : Surroundings) (root : Path)
  | overview (config : ScanConfig) (w : Surroundings) (path : Path)
  /-- Some callers ask for the size of the same path together. -/
  | overviews (config : ScanConfig) (w : Surroundings) (n : Nat) (path : Path)

namespace Scanner

/-- The scanner after a call. -/
def called (s : Scanner) : Call → Scanner
  | .scan config w root => ({ s with config }.scan w root).scanner
  | .overview config w path => ({ s with config }.overview w path).scanner
  | .overviews config w n path => ({ s with config }.overviewTogether w n path).scanner

/-- The scanner after calls, one after the other. -/
def callAll (s : Scanner) (calls : List Call) : Scanner :=
  calls.foldl called s

/-- What a call gives the cache to store, with its key. -/
def stores? (s : Scanner) : Call → Option (Path × Nat)
  | .scan _ _ _ => none
  | .overview config w path => ({ s with config }.overview w path).overview.store?
  | .overviews config w n path => ({ s with config }.overviewTogether w n path).overview.store?

/-- The sizes that a call answers. -/
def answers (s : Scanner) : Call → List (Except ScanError Nat)
  | .scan _ _ _ => []
  | .overview config w path => ({ s with config }.overview w path).answers
  | .overviews config w n path => ({ s with config }.overviewTogether w n path).answers

end Scanner

/-- The sizes that a scanner knows are those of its cache. -/
theorem known_overviewSetup (h : s.cache.IsPositive) (w : Surroundings) :
    (s.overviewSetup w).known.IsPositive :=
  h w.now.unixSeconds

/-- Remembering what was measured leaves the cache without a zero. -/
theorem isPositive_remember (h : s.cache.IsPositive) (w : Surroundings) (asked : Path) :
    (s.remember w (measureOverview (s.overviewSetup w) asked).store?).1.cache.IsPositive := by
  cases hstore : (measureOverview (s.overviewSetup w) asked).store? with
  | none => exact h
  | some stored =>
    obtain ⟨key, size⟩ := stored
    exact h.store _ _ _ key (store?_pos (known_overviewSetup h w) hstore).1

/-- **One call** leaves the cache without a zero. -/
theorem isPositive_step (h : s.cache.IsPositive) (call : Call) : (s.called call).cache.IsPositive := by
  have hconfig (config : ScanConfig) : ({ s with config } : Scanner).cache.IsPositive := h
  cases call with
  | scan config w root =>
    rw [Scanner.called, Scanner.cache_scan]
    exact h
  | overview config w path => exact isPositive_remember (hconfig config) w path
  | overviews config w n path => exact isPositive_remember (hconfig config) w path

/-- **All calls** of a run do. -/
theorem isPositive_run (h : s.cache.IsPositive) (calls : List Call) :
    (s.callAll calls).cache.IsPositive := by
  induction calls generalizing s with
  | nil => exact h
  | cons call calls ih => exact ih (isPositive_step h call)

/-- What a call stores is not zero, and its key is an absolute clean path. -/
theorem stores?_pos (h : s.cache.IsPositive) {call : Call} (hstore : s.stores? call = some (key, size)) :
    0 < size ∧ key.isAbsolute = true ∧ key.clean = key := by
  have hknown (config : ScanConfig) (w : Surroundings) :
      (({ s with config } : Scanner).overviewSetup w).known.IsPositive := known_overviewSetup h w
  cases call with
  | scan config w root => cases hstore
  | overview config w path => exact store?_pos (hknown config w) hstore
  | overviews config w n path => exact store?_pos (hknown config w) hstore

/-- No call answers zero, to any of its callers. -/
theorem answers_ne_zero (h : s.cache.IsPositive) {call : Call} {answer : Except ScanError Nat}
    (hanswer : answer ∈ s.answers call) : answer ≠ .ok 0 := by
  have hzero (config : ScanConfig) (w : Surroundings) :=
    answer_ne_zero (known_overviewSetup (s := { s with config }) h w)
  cases call with
  | scan config w root => cases hanswer
  | overview config w path =>
    cases List.mem_singleton.1 hanswer
    exact hzero config w path
  | overviews config w n path =>
    have hzero := hzero config w path
    rw [Scanner.answers, Scanner.overviewTogether] at hanswer
    dsimp only at hanswer
    split at hanswer
    · obtain ⟨told, htold, rfl⟩ := List.mem_map.1 hanswer
      obtain ⟨f, rfl⟩ := InFlight.exists_of_mem_share htold
      cases ha : (measureOverview (({ s with config } : Scanner).overviewSetup w) path).answer with
      | error e => nofun
      | ok size =>
        rw [ha] at hzero
        exact hzero
    · rw [List.eq_of_mem_replicate hanswer]
      exact hzero

/-- **No size is zero.**  After any scans and measurements, with any configurations and in any surroundings, on
a cache that held no zero in the beginning, it holds none.  Whatever is called next: if it stores a size, this
is not zero, and its key is an absolute clean path; no caller is answered zero; and a child of a root that is
the cached subtree, if the cache has a size for it, is listed with a size that is not zero. -/
theorem zero_is_never_kept (h : s.cache.IsPositive) (calls : List Call) :
    let t := s.callAll calls
    t.cache.IsPositive ∧
      (∀ call key size, t.stores? call = some (key, size) →
        0 < size ∧ key.isAbsolute = true ∧ key.clean = key) ∧
      (∀ call, ∀ answer ∈ t.answers call, answer ≠ .ok 0) ∧
      ∀ (config : ScanConfig) (w : Surroundings) (root : Path) (name : String) (node : Node),
        (t.known w.now).subtreeSize? (root.child name) ≠ none →
          ∃ e, (sizeChild (({ t with config } : Scanner).scanSetup w root).toChildSetup (root.child name) name
              node
              .cachedSubtree).listed? = some e ∧ 0 < e.size := by
  intro t
  have ht : t.cache.IsPositive := isPositive_run h calls
  refine ⟨ht, fun call key size => stores?_pos ht, fun call answer => answers_ne_zero ht, ?_⟩
  intro config w root name node hknown
  obtain ⟨size, hsize⟩ := Option.ne_none_iff_exists'.1 hknown
  have hpos := (ht w.now.unixSeconds).subtreeSize?_pos hsize
  have hchild : (({ t with config } : Scanner).scanSetup w root).known.subtreeSize? (root.child name)
      = some size := hsize
  refine ⟨(DirEntry.directory name (root.child name) size).withLastAccess
    ((({ t with config } : Scanner).scanSetup w root).lastAccess (root.child name) node), ?_, hpos⟩
  simp only [sizeChild, hchild, SizedChild.ofSize]

/-- A home directory whose cached subtree is empty, and a usage tool that gives zero. -/
def bareHome : Surroundings where
  fs := ⟨.dir .free none [("p", .dir .free none [("Library", .dir .free none [])])], 1⟩
  cwd := []
  tool _ := .ok 0
  index := .absent
  now := ⟨100, 0, Duration.zero.nanos_lt⟩
  elapsed := .zero
  listedAfter _ := 0
  processors := 1
  startError? _ := none

/-- A scanner that knows an old size of the subtree. -/
def bareScanner : Scanner :=
  .new (.default ⟨some (.text ⟨"/p"⟩), 1⟩) (.memory (some 60) [(⟨"/p/Library"⟩, ⟨300, 0⟩)])

/-- Everything gives zero but what the cache kept, which is stored once more and then listed. -/
theorem kept_size_is_not_zero :
    let call : Call := .overview bareScanner.config bareHome ⟨"/p//Library/x/.."⟩
    let t := bareScanner.callAll [call]
    bareScanner.cache.IsPositive ∧ bareScanner.stores? call = some (⟨"/p/Library"⟩, 300) ∧
      t.cache.IsPositive ∧ (t.known bareHome.now).subtreeSize? ((Path.mk "/p").child "Library") ≠ none ∧
      (0 < 300 ∧ (Path.mk "/p/Library").isAbsolute = true ∧ (Path.mk "/p/Library").clean = ⟨"/p/Library"⟩) ∧
      (∀ answer ∈ t.answers call, answer ≠ .ok 0) ∧
      ∃ e, (sizeChild (t.scanSetup bareHome ⟨"/p"⟩).toChildSetup ((Path.mk "/p").child "Library") "Library"
        (.dir .free none []) .cachedSubtree).listed? = some e ∧ 0 < e.size := by
  intro call t
  have hpositive : bareScanner.cache.IsPositive := by
    refine Cache.isPositive_memory_iff.2 fun path => ?_
    unfold SizeMap.size? SizeMap.find? SizeMap.find?
    split <;> simp
  have hstores : bareScanner.stores? call = some (⟨"/p/Library"⟩, 300) := by decide +kernel
  have hknown : (t.known bareHome.now).subtreeSize? ((Path.mk "/p").child "Library") ≠ none := by
    decide +kernel
  obtain ⟨-, hstored, -, -⟩ := zero_is_never_kept hpositive []
  obtain ⟨hkept, -, hanswers, hlisted⟩ := zero_is_never_kept hpositive [call]
  exact ⟨hpositive, hstores, hkept, hknown, hstored call _ _ hstores, hanswers call,
    hlisted t.config bareHome ⟨"/p"⟩ "Library" (.dir .free none []) hknown⟩

end DiskUsage
