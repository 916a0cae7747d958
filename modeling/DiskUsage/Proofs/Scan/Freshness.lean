import DiskUsage.Scan.Scanner

/-!
# Where a fresh size comes from

A cache tells the age of a size from the second in which it was stored.  A measurement stores the size
that the usage tool or the walk gave, and where both gave none it stores the size that the cache kept once
more.  So a fresh size is always the one that was measured last, but what is not older than the
time-to-live is only the last time that it was stored.

* `Ask`, `Scanner.askAll`, `Scanner.log`: measurements one after the other, and what they store.
* `Ask.measured?`: what the usage tool or the walk gives; `store?_cases`: what one measurement stores.
* `LastMeasured`, `Explains`: the sizes in a cache are those that were measured last.
* `explains_step`, `explains_run`: one measurement keeps that, and so do all of a run.
* `fresh_size_was_measured_last`: what a fresh size is, and how old.
* `kept_size_counts_as_fresh`: it may have been measured longer ago than the time-to-live.
-/

namespace DiskUsage

/-- A measurement that is asked for. -/
structure Ask where
  surroundings : Surroundings
  path : Path

/-- A size that a measurement stored. -/
structure Stored where
  ask : Ask
  size : Nat

/-- The size that the usage tool gives for a path, or else the walk; zero does not count. -/
def OverviewSetup.measured? (setup : OverviewSetup) (path : Path) : Option Nat :=
  let part := excludedPart setup.config path
  let walked := walkSizeExcluding setup.lstat setup.stat path part
  (positiveSize? (setup.tool.measureWithout path part).answer).or
    (if 0 < walked then some walked else none)

/-- The size that is measured where this is asked, whatever is known already. -/
def Ask.measured? (c : ScanConfig) (a : Ask) : Option Nat :=
  ((Scanner.new c .forgetful).overviewSetup a.surroundings).measured? a.path.clean

namespace Stored

/-- The size was stored for this path. -/
def isOf (d : Stored) (path : Path) : Bool :=
  d.ask.path.clean.sameAs path

/-- The second in which the size was stored. -/
def second (d : Stored) : Nat :=
  d.ask.surroundings.now.unixSeconds

end Stored

namespace Scanner

/-- What a measurement stores. -/
def stored? (s : Scanner) (a : Ask) : Option Stored :=
  (measureOverview (s.overviewSetup a.surroundings) a.path).store?.map fun e => ⟨a, e.2⟩

/-- The scanner after a measurement. -/
def asked (s : Scanner) (a : Ask) : Scanner :=
  (s.overview a.surroundings a.path).scanner

/-- The scanner after measurements, one after the other. -/
def askAll (s : Scanner) : List Ask → Scanner
  | [] => s
  | a :: rest => (s.asked a).askAll rest

/-- What measurements store, one after the other. -/
def log (s : Scanner) : List Ask → List Stored
  | [] => []
  | a :: rest => (s.stored? a).toList ++ (s.asked a).log rest

end Scanner

variable {s : Scanner} {a : Ask} {c : ScanConfig} {past : List Stored} {sizes : SizeMap} {ttl : Option Nat}
  {p path : Path} {size : Nat}

/-! ### What a cache holds -/

/-- The cache holds these sizes, as long as it lives or in a file. -/
inductive Cache.Holds (ttl : Option Nat) (sizes : SizeMap) : Cache → Prop
  | memory : Holds ttl sizes (.memory ttl sizes)
  | file (backing : Path) : Holds ttl sizes (.file backing ttl sizes)

theorem Cache.Holds.load_eq {cache : Cache} (h : cache.Holds ttl sizes) (now : Nat) (path : Path) :
    cache.load now path = sizes.fresh? ttl now path := by
  cases h <;> rfl

theorem Cache.Holds.loadPersisted_eq {cache : Cache} (h : cache.Holds ttl sizes) (path : Path) :
    cache.loadPersisted path = sizes.size? path := by
  cases h <;> rfl

/-- What is stored is held, whether or not a file could be written. -/
theorem Cache.Holds.store {cache : Cache} (h : cache.Holds ttl sizes) (fs : FileSystem)
    (cwd : List String) (now : Timestamp) (path : Path) (size : Nat) :
    (cache.store fs cwd now path size).1.Holds ttl (sizes.insert path ⟨size, now.unixSeconds⟩) := by
  cases h with
  | memory => exact .memory
  | file backing => exact .file backing

/-! ### One measurement -/

/-- What is stored is the size that was measured, or else the one that the cache kept. -/
theorem store?_measureAnew (setup : OverviewSetup) (path : Path) :
    (measureAnew setup path).store?
      = ((setup.measured? path).or (setup.known.persisted path)).map (Prod.mk path) := by
  unfold measureAnew OverviewSetup.measured? laterSize?
  dsimp only
  cases positiveSize? (setup.tool.measureWithout path (excludedPart setup.config path)).answer with
  | some size => rfl
  | none =>
    by_cases hwalked : 0 < walkSizeExcluding setup.lstat setup.stat path (excludedPart setup.config path)
    · rw [if_pos hwalked, if_pos hwalked]
      rfl
    · rw [if_neg hwalked, if_neg hwalked]
      cases setup.known.persisted path with
      | some size => rfl
      | none => rfl

/-- Only a measurement that is made anew stores something. -/
theorem store?_measureOverview {setup : OverviewSetup} {asked : Path}
    (h : (measureOverview setup asked).store? = some (path, size)) :
    (measureAnew setup asked.clean).store? = some (path, size) := by
  rcases measureOverview_cases setup asked with ⟨_, _, he⟩ | ⟨-, hclean⟩
  · rw [he] at h
    cases h
  · rw [hclean, measureClean] at h
    simp only [Overview.after] at h
    split at h
    · cases h
    · exact h

/-- **One measurement** stores the size that was measured, or else the one that the cache kept. -/
theorem store?_cases (h : (measureOverview (s.overviewSetup a.surroundings) a.path).store?
      = some (path, size)) :
    path = a.path.clean ∧
      (a.measured? s.config = some size ∨
        a.measured? s.config = none ∧ s.cache.loadPersisted path = some size) := by
  have hanew := store?_measureOverview h
  rw [store?_measureAnew, Option.map_eq_some_iff] at hanew
  obtain ⟨found, hfound, heq⟩ := hanew
  cases heq
  refine ⟨rfl, ?_⟩
  show (s.overviewSetup a.surroundings).measured? a.path.clean = some size ∨
    (s.overviewSetup a.surroundings).measured? a.path.clean = none ∧ _
  rcases Option.or_eq_some_iff.1 hfound with hmeasured | ⟨hnone, hkept⟩
  · exact .inl hmeasured
  · exact .inr ⟨hnone, hkept⟩

/-! ### Where a size comes from -/

/-- The size that was remembered for a path is the last one that was measured for it, and it was
remembered when it was measured or stored once more. -/
def LastMeasured (c : ScanConfig) (log : List Stored) (p : Path) (m : Measured) : Prop :=
  ∃ older d later, log = older ++ d :: later ∧ d.isOf p = true ∧ d.size = m.size ∧
    d.ask.measured? c = some m.size ∧
    (∀ e ∈ later, e.isOf p = true → e.ask.measured? c = none) ∧
    (m.measuredAt = d.second ∨ ∃ e ∈ later, e.isOf p = true ∧ m.measuredAt = e.second)

/-- A size that was measured just now. -/
theorem LastMeasured.of_measured (past : List Stored) {d : Stored} (hp : d.isOf p = true)
    (hmeasured : d.ask.measured? c = some d.size) :
    LastMeasured c (past ++ [d]) p ⟨d.size, d.second⟩ :=
  ⟨past, d, [], rfl, hp, rfl, hmeasured, nofun, .inl rfl⟩

/-- A size that was kept, and is stored once more. -/
theorem LastMeasured.of_kept {m : Measured} {d : Stored} (h : LastMeasured c past p m)
    (hp : d.isOf p = true) (hkept : d.ask.measured? c = none) :
    LastMeasured c (past ++ [d]) p ⟨m.size, d.second⟩ := by
  obtain ⟨older, first, later, rfl, hof, hsize, hmeasured, hlater, -⟩ := h
  refine ⟨older, first, later ++ [d], by simp, hof, hsize, hmeasured, ?_, .inr ⟨d, by simp, hp, rfl⟩⟩
  intro e he heof
  rcases List.mem_append.1 he with he | he
  · exact hlater e he heof
  · cases List.mem_singleton.1 he
    exact hkept

/-- What is stored for another path changes nothing. -/
theorem LastMeasured.of_other {m : Measured} {d : Stored} (h : LastMeasured c past p m)
    (hp : d.isOf p = false) : LastMeasured c (past ++ [d]) p m := by
  obtain ⟨older, first, later, rfl, hof, hsize, hmeasured, hlater, hsecond⟩ := h
  refine ⟨older, first, later ++ [d], by simp, hof, hsize, hmeasured, ?_, ?_⟩
  · intro e he heof
    rcases List.mem_append.1 he with he | he
    · exact hlater e he heof
    · cases List.mem_singleton.1 he
      exact absurd (hp.symm.trans heof) nofun
  · refine hsecond.imp_right ?_
    rintro ⟨e, he, heof, hat⟩
    exact ⟨e, List.mem_append_left _ he, heof, hat⟩

/-- Paths that say the same share what was measured. -/
theorem LastMeasured.of_sameAs {m : Measured} (h : LastMeasured c past path m)
    (hsame : path.sameAs p = true) : LastMeasured c past p m := by
  have hof (e : Stored) : e.isOf path = e.isOf p := by
    unfold Stored.isOf
    rw [Bool.eq_iff_iff, Path.sameAs_iff, Path.sameAs_iff, (Path.sameAs_iff path p).1 hsame]
  unfold LastMeasured at h ⊢
  simp only [hof] at h
  exact h

/-- Every size that is held is the last one that was measured for its path. -/
def Explains (c : ScanConfig) (log : List Stored) (sizes : SizeMap) : Prop :=
  ∀ p m, sizes.find? p = some m → LastMeasured c log p m

theorem explains_nil (c : ScanConfig) : Explains c [] [] :=
  fun _ _ h => by cases h

/-- What is stored is explained, if what was held before is. -/
theorem Explains.insert (h : Explains c past sizes) {d : Stored}
    (hd : d.ask.measured? c = some d.size ∨
      d.ask.measured? c = none ∧ sizes.size? d.ask.path.clean = some d.size) :
    Explains c (past ++ [d]) (sizes.insert d.ask.path.clean ⟨d.size, d.second⟩) := by
  intro p m hm
  by_cases hp : d.isOf p = true
  · rw [SizeMap.find?_insert_self hp] at hm
    cases hm
    rcases hd with hmeasured | ⟨hnone, hkept⟩
    · exact .of_measured past hp hmeasured
    · obtain ⟨m, hm, hsize⟩ := Option.map_eq_some_iff.1 hkept
      rw [← hsize]
      exact .of_kept ((h _ m hm).of_sameAs hp) hp hnone
  · rw [Bool.not_eq_true] at hp
    rw [SizeMap.find?_insert_of_not_sameAs hp] at hm
    exact (h p m hm).of_other hp

/-- **One measurement** leaves every size in the cache explained. -/
theorem explains_step (hholds : s.cache.Holds ttl sizes) (h : Explains s.config past sizes) (a : Ask) :
    ∃ sizes', (s.asked a).cache.Holds ttl sizes' ∧
      Explains s.config (past ++ (s.stored? a).toList) sizes' := by
  unfold Scanner.asked Scanner.stored? Scanner.overview
  dsimp only
  cases hstore : (measureOverview (s.overviewSetup a.surroundings) a.path).store? with
  | none =>
    refine ⟨sizes, hholds, ?_⟩
    rw [Option.map_none, Option.toList_none, List.append_nil]
    exact h
  | some stored =>
    obtain ⟨path, size⟩ := stored
    obtain ⟨rfl, hcases⟩ := store?_cases hstore
    refine ⟨_, hholds.store a.surroundings.fs a.surroundings.cwd a.surroundings.now _ size, ?_⟩
    rw [hholds.loadPersisted_eq] at hcases
    exact h.insert (d := ⟨a, size⟩) hcases

@[simp] theorem Scanner.config_asked (s : Scanner) (a : Ask) : (s.asked a).config = s.config := by
  unfold Scanner.asked Scanner.overview Scanner.remember
  dsimp only
  cases (measureOverview (s.overviewSetup a.surroundings) a.path).store? <;> rfl

/-- **All measurements** of a run do. -/
theorem explains_run (hholds : s.cache.Holds ttl sizes) (h : Explains s.config past sizes)
    (asks : List Ask) : ∃ sizes', (s.askAll asks).cache.Holds ttl sizes' ∧
      Explains s.config (past ++ s.log asks) sizes' := by
  induction asks generalizing s sizes past with
  | nil =>
    refine ⟨sizes, hholds, ?_⟩
    rw [Scanner.log, List.append_nil]
    exact h
  | cons a rest ih =>
    obtain ⟨sizes', hholds', hstep⟩ := explains_step hholds h a
    rw [← s.config_asked a] at hstep
    obtain ⟨last, hlast, hrun⟩ := ih hholds' hstep
    rw [s.config_asked, List.append_assoc] at hrun
    exact ⟨last, hlast, hrun⟩

/-- **What a fresh size is.**  After any measurements of any paths, in any surroundings, from a cache that
held nothing: a size that counts as fresh is the last one that the usage tool or the walk gave for the
path.  It was stored at most a time-to-live ago, either when it was measured, or when a later measurement
gave nothing and the size was stored once more. -/
theorem fresh_size_was_measured_last {ttl : Nat} (hempty : s.cache.Holds (some ttl) []) (asks : List Ask)
    {now : Nat} (hload : (s.askAll asks).cache.load now p = some size) :
    ∃ older d later, s.log asks = older ++ d :: later ∧ d.isOf p = true ∧ d.size = size ∧
      d.ask.measured? s.config = some size ∧
      (∀ e ∈ later, e.isOf p = true → e.ask.measured? s.config = none) ∧
      (now - d.second ≤ ttl ∨ ∃ e ∈ later, e.isOf p = true ∧ now - e.second ≤ ttl) := by
  obtain ⟨sizes, hholds, hexplains⟩ := explains_run hempty (explains_nil s.config) asks
  rw [hholds.load_eq] at hload
  obtain ⟨m, hm, rfl⟩ := Option.map_eq_some_iff.1 hload
  obtain ⟨hfind, hfresh⟩ := Option.filter_eq_some_iff.1 hm
  have hage : now - m.measuredAt ≤ ttl := of_decide_eq_true hfresh
  obtain ⟨older, d, later, hlog, hof, hsize, hmeasured, hlater, hsecond⟩ := hexplains p m hfind
  refine ⟨older, d, later, hlog, hof, hsize, hmeasured, hlater, ?_⟩
  rcases hsecond with hsecond | ⟨e, he, heof, hsecond⟩
  · rw [hsecond] at hage
    exact .inl hage
  · rw [hsecond] at hage
    exact .inr ⟨e, he, heof, hage⟩

/-- An empty directory, with what the usage tool says about it in some second. -/
def emptySurroundings (second : Nat) (answer : Except ToolError Nat) : Surroundings where
  fs := ⟨.dir .free none [("p", .dir .free none [])], 1⟩
  cwd := []
  tool _ := answer
  index := .absent
  now := ⟨second, 0, Duration.zero.nanos_lt⟩
  elapsed := .zero
  listedAfter _ := 0
  processors := 1
  startError? _ := none

/-- A scanner whose sizes are fresh for a minute. -/
def minuteScanner : Scanner :=
  .new (.default ⟨none, 1⟩) (.inMemory (some 60))

/-- The usage tool gives a size for the directory, and a hundred seconds later it fails. -/
def keptAsks : List Ask :=
  [⟨emptySurroundings 0 (.ok 300), ⟨"/p"⟩⟩,
    ⟨emptySurroundings 100 (.error (.unavailable "du")), ⟨"/p"⟩⟩]

theorem kept_size_was_measured_last :
    minuteScanner.cache.Holds (some 60) [] ∧
      (minuteScanner.askAll keptAsks).cache.load 160 ⟨"/p"⟩ = some 300 ∧
      ∃ older d later, minuteScanner.log keptAsks = older ++ d :: later ∧
        d.isOf ⟨"/p"⟩ = true ∧ d.size = 300 ∧ d.ask.measured? minuteScanner.config = some 300 ∧
        (∀ e ∈ later, e.isOf ⟨"/p"⟩ = true → e.ask.measured? minuteScanner.config = none) ∧
        (160 - d.second ≤ 60 ∨ ∃ e ∈ later, e.isOf ⟨"/p"⟩ = true ∧ 160 - e.second ≤ 60) := by
  have hempty : minuteScanner.cache.Holds (some 60) [] := .memory
  have hload : (minuteScanner.askAll keptAsks).cache.load 160 ⟨"/p"⟩ = some 300 := by decide +kernel
  exact ⟨hempty, hload, fresh_size_was_measured_last hempty keptAsks hload⟩

/-- **A size that is kept counts as fresh again**, although nothing was measured within the time-to-live:
a measurement that gives nothing stores it with the second of its own. -/
theorem kept_size_counts_as_fresh :
    (minuteScanner.askAll keptAsks).cache.load 100 ⟨"/p"⟩ = some 300 ∧
      ∀ a ∈ keptAsks, a.measured? minuteScanner.config ≠ none →
        60 < 100 - a.surroundings.now.unixSeconds := by
  decide +kernel

end DiskUsage
