import DiskUsage.Proofs.Sharing.Table
import Mathlib.Data.List.Permutation

/-!
# Measurements and who gets them

A **measurement** is made by one caller for one slot.  The callers that took the slot share it: the
one that made it gets its outcome, and the others get the size, or that there is none.

* `measurementsOf`, `sharersOf`: the measurements for a slot, and the callers that took the slot.
* `concurrent_calls_share_one_measurement`: at most one measurement is under way for a path, and
  every call that returns got one, for its path, with all others that took the same slot.
* `sequential_calls_measure_again`: calls that share a measurement overlap, so a call that begins
  after another returned never gets the same measurement.
-/

open scoped List

namespace DiskUsage.InFlight

variable {ε : Type}

/-- A measurement, with the caller that made it. -/
structure Measurement (ε : Type) where
  owner : Nat
  outcome : Except ε Nat

/-- What a caller gets of a measurement: who did not make it is not told why it failed. -/
def Measurement.answerTo (m : Measurement ε) (i : Nat) : Except (Option ε) Nat :=
  m.outcome.mapError fun e => if i = m.owner then some e else none

/-- The measurements that were made for a slot. -/
def measurementsOf (h : List (Nat × Deed ε)) (k : Nat) : List (Measurement ε) :=
  h.filterMap fun
    | (i, .ends slot outcome) => if slot = k then some ⟨i, outcome⟩ else none
    | _ => none

/-- The callers that took a slot. -/
def sharersOf (h : List (Nat × Deed ε)) (k : Nat) : List Nat :=
  h.filterMap fun
    | (i, .takes slot) => if slot = k then some i else none
    | _ => none

variable {paths : List Path} {h : List (Nat × Deed ε)} {s : InFlight ε} {i j k l : Nat}
  {m : Measurement ε}

@[simp] theorem mem_sharersOf : i ∈ sharersOf h k ↔ (i, .takes k) ∈ h := by
  constructor
  · intro hi
    obtain ⟨⟨j, d⟩, he, hd⟩ := List.mem_filterMap.1 hi
    cases d <;> simp at hd
    obtain ⟨rfl, rfl⟩ := hd
    exact he
  · intro hi
    exact List.mem_filterMap.2 ⟨_, hi, by simp⟩

theorem ends_of_mem_measurementsOf (hm : m ∈ measurementsOf h k) :
    (m.owner, .ends k m.outcome) ∈ h := by
  obtain ⟨⟨j, d⟩, he, hd⟩ := List.mem_filterMap.1 hm
  cases d <;> simp at hd
  obtain ⟨rfl, rfl⟩ := hd
  exact he

/-- The measurements for a slot are among what started and ended one for it. -/
theorem measurementsOf_runsOf (h : List (Nat × Deed ε)) (k : Nat) :
    measurementsOf (runsOf h k) k = measurementsOf h k := by
  rw [measurementsOf, runsOf, List.filterMap_filter]
  refine List.filterMap_congr fun e _ => ?_
  obtain ⟨i, d⟩ := e
  cases d <;> simp [Deed.runs]

/-- Where a measurement for a slot ended, there is no other one, and the slot holds what it gave. -/
theorem Lawful.measurementsOf_eq (hlaw : Lawful paths h s) {size? : Option Nat}
    (hk : s.slots[k]? = some (.filled size?)) :
    ∃ m, measurementsOf h k = [m] ∧ sizeOf? m.outcome = size? ∧
      runsOf h k = [(m.owner, .starts k), (m.owner, .ends k m.outcome)] := by
  have hsaw := hlaw.kept.saw hk
  rw [← measurementsOf_runsOf]
  generalize runsOf h k = runs at hsaw
  cases hsaw with
  | filled owner outcome => exact ⟨⟨owner, outcome⟩, by simp [measurementsOf], rfl, rfl⟩

theorem Lawful.did_of_mem (hlaw : Lawful paths h s) {d : Deed ε} (hd : (i, d) ∈ h) :
    ∃ p c, s.callers[i]? = some (p, c) ∧ paths[i]? = some p ∧ Did c (deedsOf h i) := by
  have hi := List.getElem?_eq_getElem (hlaw.followed.present hd)
  exact ⟨_, _, hi, hlaw.followed.path_eq hi, hlaw.followed.did hi⟩

/-- All that a caller did, it did to one slot. -/
theorem Lawful.slot_eq (hlaw : Lawful paths h s) {d d' : Deed ε} (hd : (i, d) ∈ h)
    (hd' : (i, d') ∈ h) : d.slot = d'.slot := by
  obtain ⟨p, c, -, -, hdid⟩ := hlaw.did_of_mem hd
  exact hdid.slot_eq (hdid.takes_mem (mem_deedsOf.2 hd')) (mem_deedsOf.2 hd)

/-- Whoever did anything to a slot took it. -/
theorem Lawful.takes_of_mem (hlaw : Lawful paths h s) {d : Deed ε} (hd : (i, d) ∈ h) :
    (i, .takes d.slot) ∈ h := by
  obtain ⟨p, c, -, -, hdid⟩ := hlaw.did_of_mem hd
  exact mem_deedsOf.1 (hdid.takes_mem (mem_deedsOf.2 hd))

/-- **An answer** is that of the one measurement for the slot. -/
theorem Lawful.answered (hlaw : Lawful paths h s) {a : Except (Option ε) Nat}
    (hr : (i, .returns k a) ∈ h) : ∃ m, measurementsOf h k = [m] ∧ a = m.answerTo i := by
  obtain ⟨p, c, -, -, hdid⟩ := hlaw.did_of_mem hr
  obtain ⟨own?, size?, rfl, hreleased, hown, hnone⟩ := hdid.answered (mem_deedsOf.2 hr)
  have hfilled := hlaw.kept.released (mem_deedsOf.1 hreleased)
  obtain ⟨m, hm, hsize, hruns⟩ := hlaw.measurementsOf_eq hfilled
  refine ⟨m, hm, ?_⟩
  cases own? with
  | some outcome =>
    have hends : (i, .ends k outcome) ∈ runsOf h k :=
      mem_runsOf.2 ⟨mem_deedsOf.1 (hown outcome rfl), by simp [Deed.runs]⟩
    rw [hruns] at hends
    obtain ⟨rfl, rfl⟩ : i = m.owner ∧ outcome = m.outcome := by simpa using hends
    simp [answer, Measurement.answerTo]
  | none =>
    have hne : i ≠ m.owner := by
      rintro rfl
      have hstarts : (m.owner, .starts k) ∈ runsOf h k := by simp [hruns]
      exact hnone rfl (mem_deedsOf.2 (mem_runsOf.1 hstarts).1)
    simp only [answer, Measurement.answerTo, if_neg hne, ← hsize]
    cases m.outcome <;> rfl

/-- Two callers that measure for the same path are one. -/
theorem Lawful.measuring_eq (hlaw : Lawful paths h s) {p q : Path}
    (hi : s.callers[i]? = some (p, .measuring k)) (hj : s.callers[j]? = some (q, .measuring l))
    (hpq : p.components = q.components) : i = j := by
  obtain ⟨hbusy, hruns⟩ := hlaw.followed.busy hlaw.kept hi
  obtain ⟨hbusy', hruns'⟩ := hlaw.followed.busy hlaw.kept hj
  obtain ⟨e, he, rfl⟩ := hlaw.linked.linked hbusy nofun
  obtain ⟨f, hf, rfl⟩ := hlaw.linked.linked hbusy' nofun
  have hstarts : (i, .starts e.2) ∈ runsOf h e.2 := by simp [hruns]
  have hstarts' : (j, .starts f.2) ∈ runsOf h f.2 := by simp [hruns']
  have htook : (i, .takes e.2) ∈ h := hlaw.takes_of_mem (mem_runsOf.1 hstarts).1
  have htook' : (j, .takes f.2) ∈ h := hlaw.takes_of_mem (mem_runsOf.1 hstarts').1
  have hep := hlaw.linked.agrees he htook (hlaw.followed.path_eq hi)
  have hfq := hlaw.linked.agrees hf htook' (hlaw.followed.path_eq hj)
  have hef : e = f := hlaw.linked.eq_of_path he hf (by rw [hep, hfq, hpq])
  subst hef
  simpa [hruns] using hruns'

/-- A call gets the answer of a measurement that was made for its path. -/
theorem Lawful.returned (hlaw : Lawful paths h s) {p : Path} {a : Except (Option ε) Nat}
    (hi : s.callers[i]? = some (p, .returned a)) :
    ∃ k m q, (i, .returns k a) ∈ h ∧ measurementsOf h k = [m] ∧ paths[m.owner]? = some q ∧
      q.components = p.components ∧ a = m.answerTo i := by
  obtain ⟨k, hreturns⟩ := (hlaw.followed.did hi).returns_mem
  rw [mem_deedsOf] at hreturns
  obtain ⟨m, hm, ha⟩ := hlaw.answered hreturns
  have hends : (m.owner, .ends k m.outcome) ∈ h := ends_of_mem_measurementsOf (by simp [hm])
  have htook : (i, .takes k) ∈ h := hlaw.takes_of_mem hreturns
  have htook' : (m.owner, .takes k) ∈ h := hlaw.takes_of_mem hends
  obtain ⟨q, c, -, hq, -⟩ := hlaw.did_of_mem hends
  exact ⟨k, m, q, hreturns, hm, hq,
    hlaw.linked.together htook' htook hq (hlaw.followed.path_eq hi), ha⟩

/-- A measurement that ended is the only one for its slot, and nobody else started one. -/
theorem Lawful.measured (hlaw : Lawful paths h s) (hm : m ∈ measurementsOf h k) :
    measurementsOf h k = [m] ∧ ∀ j, (j, .starts k) ∈ h ↔ j = m.owner := by
  have hends := ends_of_mem_measurementsOf hm
  have hlt : k < s.slots.length := hlaw.kept.known hends
  have hsaw := hlaw.kept.saw (List.getElem?_eq_getElem hlt)
  have hmem : (m.owner, .ends k m.outcome) ∈ runsOf h k :=
    mem_runsOf.2 ⟨hends, by simp [Deed.runs]⟩
  have hstarts : ∀ j, (j, .starts k) ∈ h ↔ (j, .starts k) ∈ runsOf h k := by
    simp [Deed.runs]
  rw [← measurementsOf_runsOf]
  simp only [hstarts]
  generalize s.slots[k] = v at hsaw
  generalize runsOf h k = runs at hsaw hmem
  cases hsaw with
  | empty => cases hmem
  | busy owner => simp at hmem
  | filled owner outcome =>
    obtain ⟨rfl, rfl⟩ : m.owner = owner ∧ m.outcome = outcome := by simpa using hmem
    simp [measurementsOf]

/-- **Concurrent calls** share one measurement.  At most one is under way for a path.  Every call
that returned took one slot, for which one measurement was made, for the path of the call.  Among
the calls that took the slot only one started the measurement, and it alone is told why it failed. -/
theorem concurrent_calls_share_one_measurement (paths : List Path)
    (schedule : List (Nat × Except ε Nat)) :
    let s : InFlight ε := (init paths).run schedule
    let h : List (Nat × Deed ε) := (init paths).history schedule
    (∀ (i j k l : Nat) (p q : Path), s.callers[i]? = some (p, .measuring k) →
      s.callers[j]? = some (q, .measuring l) → p.sameAs q = true → i = j) ∧
    (∀ (i : Nat) (p : Path) (a : Except (Option ε) Nat), s.callers[i]? = some (p, .returned a) →
      ∃ k m q, (∀ l, i ∈ sharersOf h l ↔ l = k) ∧ measurementsOf h k = [m] ∧
        paths[m.owner]? = some q ∧ q.sameAs p = true ∧ a = m.answerTo i) ∧
    ∀ k m, m ∈ measurementsOf h k →
      measurementsOf h k = [m] ∧ m.owner ∈ sharersOf h k ∧
      (∀ j, (j, .starts k) ∈ h ↔ j = m.owner) ∧
      ∀ i ∈ sharersOf h k, ∀ p a, s.callers[i]? = some (p, .returned a) →
        (i = m.owner → a = m.outcome.mapError some) ∧
        (i ≠ m.owner → a = m.outcome.mapError fun _ => none) := by
  intro s h
  have hlaw : Lawful paths h s := lawful_run paths schedule
  refine ⟨?_, ?_, ?_⟩
  · intro i j k l p q hi hj hpq
    exact hlaw.measuring_eq hi hj ((Path.sameAs_iff p q).1 hpq)
  · intro i p a hi
    obtain ⟨k, m, q, hreturns, hm, hq, hqp, ha⟩ := hlaw.returned hi
    refine ⟨k, m, q, fun l => ?_, hm, hq, (Path.sameAs_iff q p).2 hqp, ha⟩
    rw [mem_sharersOf]
    constructor
    · intro htook
      exact hlaw.slot_eq htook hreturns
    · rintro rfl
      exact hlaw.takes_of_mem hreturns
  · intro k m hm
    obtain ⟨hone, hstarts⟩ := hlaw.measured hm
    refine ⟨hone, mem_sharersOf.2 (hlaw.takes_of_mem (ends_of_mem_measurementsOf hm)), hstarts, ?_⟩
    intro i htook p a hi
    obtain ⟨l, n, q, hreturns, hn, -, -, ha⟩ := hlaw.returned hi
    have hlk : l = k := hlaw.slot_eq hreturns (mem_sharersOf.1 htook)
    subst hlk
    have hnm : n = m := by simpa [hone] using hn.symm
    subst hnm
    constructor
    · intro howner
      simp [ha, Measurement.answerTo, howner]
    · intro hother
      simp [ha, Measurement.answerTo, hother]

/-- A call measures and fails, while another one waits for it. -/
def failing : List (Nat × Except String Nat) :=
  [0, 1, 0, 0, 1, 1, 1, 0, 0].map fun i => (i, .error "gone")

theorem waiting_call_is_not_told_why :
    let paths : List Path := [⟨"/a"⟩, ⟨"/a/"⟩]
    let h : List (Nat × Deed String) := (init paths).history failing
    ((init paths).run failing).callers[1]? = some (⟨"/a/"⟩, .returned (.error none)) ∧
      ∃ k m q, (∀ l, 1 ∈ sharersOf h l ↔ l = k) ∧ measurementsOf h k = [m] ∧
        paths[m.owner]? = some q ∧ q.sameAs ⟨"/a/"⟩ = true ∧ .error none = m.answerTo 1 := by
  intro paths h
  have hr : ((init paths).run failing).callers[1]? =
      some (⟨"/a/"⟩, .returned (.error none)) := by cbv
  exact ⟨hr, (concurrent_calls_share_one_measurement paths failing).2.1 1 _ _ hr⟩

/-! ## One call after another -/

/-- A call returned before another one took its slot. -/
def Precedes (h : List (Nat × Deed ε)) (i j : Nat) : Prop :=
  ∃ k a l, [(i, .returns k a), (j, .takes l)] <+ h

/-- Neither of two calls returned before the other one began. -/
def Overlap (h : List (Nat × Deed ε)) (i j : Nat) : Prop :=
  ¬ Precedes h i j ∧ ¬ Precedes h j i

/-- A call took the slot of a measurement. -/
def Shares (h : List (Nat × Deed ε)) (i : Nat) (m : Measurement ε) : Prop :=
  ∃ k, i ∈ sharersOf h k ∧ m ∈ measurementsOf h k

/-- A call returned what a measurement gave. -/
def Gets (h : List (Nat × Deed ε)) (i : Nat) (m : Measurement ε) : Prop :=
  ∃ k a, (i, .returns k a) ∈ h ∧ m ∈ measurementsOf h k

theorem Lawful.shares_of_gets (hlaw : Lawful paths h s) (hi : Gets h i m) : Shares h i m := by
  obtain ⟨k, a, hreturns, hm⟩ := hi
  exact ⟨k, mem_sharersOf.2 (hlaw.takes_of_mem hreturns), hm⟩

/-- A call that begins after another one returned takes another slot. -/
theorem Lawful.owner_ne (hlaw : Lawful paths h s) {n : Measurement ε} (hij : Precedes h i j)
    (hi : Shares h i m) (hj : Shares h j n) : m.owner ≠ n.owner := by
  obtain ⟨k, a, l, hsub⟩ := hij
  obtain ⟨k', htook, hm⟩ := hi
  obtain ⟨l', htook', hn⟩ := hj
  have hlater := hlaw.linked.later.forall_sublist hsub k a rfl
  have hreturns : (i, .returns k a) ∈ h := hsub.subset (by simp)
  have htakes : (j, .takes l) ∈ h := hsub.subset (by simp)
  have hk : k = k' := hlaw.slot_eq hreturns (mem_sharersOf.1 htook)
  have hl : l = l' := hlaw.slot_eq htakes (mem_sharersOf.1 htook')
  intro howner
  have hends := ends_of_mem_measurementsOf hm
  have hends' := ends_of_mem_measurementsOf hn
  rw [← howner] at hends'
  have hkl : k' = l' := hlaw.slot_eq hends hends'
  exact hlater (by rw [hk, hl, hkl])

/-- **Sequential calls** measure again.  A call that begins after another one returned has no part in
the measurement that the other one got.  Calls that share a measurement overlap in time, and a call
that overlaps with no other call for its path made the measurement that it got. -/
theorem sequential_calls_measure_again (paths : List Path)
    (schedule : List (Nat × Except ε Nat)) :
    let h : List (Nat × Deed ε) := (init paths).history schedule
    (∀ (i j : Nat) (m n : Measurement ε), Precedes h i j → Gets h i m → Shares h j n →
      m.owner ≠ n.owner) ∧
    (∀ (i j : Nat) (m : Measurement ε), Shares h i m → Shares h j m → Overlap h i j) ∧
    ∀ (j : Nat) (m : Measurement ε), Gets h j m →
      (∀ i p q, i ≠ j → paths[i]? = some p → paths[j]? = some q → p.sameAs q = true →
        ¬ Overlap h i j) →
      m.owner = j := by
  intro h
  have hlaw : Lawful paths h ((init paths).run schedule) := lawful_run paths schedule
  have hoverlap : ∀ i j m, Shares h i m → Shares h j m → Overlap h i j := by
    intro i j m hi hj
    exact ⟨fun hij => hlaw.owner_ne hij hi hj rfl, fun hji => hlaw.owner_ne hji hj hi rfl⟩
  refine ⟨?_, hoverlap, ?_⟩
  · intro i j m n hij hi hj
    exact hlaw.owner_ne hij (hlaw.shares_of_gets hi) hj
  · intro j m hj halone
    by_contra hne
    obtain ⟨k, htook, hm⟩ := hlaw.shares_of_gets hj
    have hends := ends_of_mem_measurementsOf hm
    have howner : (m.owner, .takes k) ∈ h := hlaw.takes_of_mem hends
    obtain ⟨p, c, -, hp, -⟩ := hlaw.did_of_mem howner
    obtain ⟨q, c', -, hq, -⟩ := hlaw.did_of_mem (mem_sharersOf.1 htook)
    have hpq := hlaw.linked.together howner (mem_sharersOf.1 htook) hp hq
    refine halone m.owner p q hne hp hq ((Path.sameAs_iff p q).2 hpq) ?_
    exact hoverlap _ _ m ⟨k, mem_sharersOf.2 howner, hm⟩ ⟨k, htook, hm⟩

/-- A call that waited returns before the one that measured, and then a third one begins. -/
def overtaking : List (Nat × Except String Nat) :=
  [0, 1, 0, 0, 1, 1, 1].map (fun i => (i, .ok 5)) ++ [2, 2, 2, 2, 2].map (fun i => (i, .ok 7))

theorem overtaking_call_measures_again :
    let h : List (Nat × Deed String) := (init [⟨"/a"⟩, ⟨"/a"⟩, ⟨"/a"⟩]).history overtaking
    Precedes h 1 2 ∧ Gets h 1 ⟨0, .ok 5⟩ ∧ Shares h 2 ⟨2, .ok 7⟩ ∧
      (⟨0, .ok 5⟩ : Measurement String).owner ≠ (⟨2, .ok 7⟩ : Measurement String).owner := by
  intro h
  have hh : h = [(0, .takes 0), (1, .takes 0), (0, .starts 0), (0, .ends 0 (.ok 5)), (1, .joins 0),
      (1, .releases 0 (some 5)), (1, .returns 0 (.ok 5)), (2, .takes 1), (2, .starts 1),
      (2, .ends 1 (.ok 7)), (2, .releases 1 (some 7)), (2, .returns 1 (.ok 7))] := rfl
  have hcut : (h.drop 6).take 2 = [(1, .returns 0 (.ok 5)), (2, .takes 1)] := by
    rw [hh]
    rfl
  have hbefore : Precedes h 1 2 :=
    ⟨0, .ok 5, 1, hcut ▸ (List.take_sublist 2 _).trans (List.drop_sublist 6 h)⟩
  have hgets : Gets h 1 ⟨0, .ok 5⟩ := ⟨0, .ok 5, by simp [hh], by simp [hh, measurementsOf]⟩
  have hshares : Shares h 2 ⟨2, .ok 7⟩ := ⟨1, by simp [hh], by simp [hh, measurementsOf]⟩
  exact ⟨hbefore, hgets, hshares,
    (sequential_calls_measure_again _ overtaking).1 1 2 _ _ hbefore hgets hshares⟩

end DiskUsage.InFlight
