import DiskUsage.Progress.Sampling
import DiskUsage.Proofs.Turns
import DiskUsage.Proofs.Progress.Boundaries
import Mathlib.Algebra.BigOperators.Group.List.Basic
import Mathlib.Algebra.GroupWithZero.Nat

/-!
# The counts that workers hand out

A worker that counts a batch gets the counts before and after it.  What these intervals have in common
does not depend on when a worker looks: together they cover every number up to the total once, so every
multiple of the sampling step belongs to one batch, and it is that batch whose worker publishes.

* `Sampling.Step`: what a worker can do; `Sampling.Kept`: what every step keeps.
* `counted_look`, `counted_count`, `left_look`, `left_count`: where a batch goes.
* `counted_after_perm`: files that are counted one by one get every number up to the total.
* `every_boundary_is_published_once`: what is published, after every schedule.
-/

open scoped List

namespace DiskUsage

namespace Counted

/-- The number lies above the count before, and not above the count after. -/
def covers (n : Nat) (c : Counted) : Bool :=
  decide (c.before < n ∧ n ≤ c.after)

/-- How many files were counted. -/
def size (c : Counted) : Nat :=
  c.after - c.before

end Counted

namespace Sampling

variable {s t : Sampling} {batches : List Batch}

/-- The files of batches. -/
def filesOf (batches : List Batch) : Nat :=
  (batches.map Batch.files).sum

/-- The batches that were counted, and not yet looked at. -/
def due (s : Sampling) : List Counted :=
  s.tellers.flatMap fun t => t.pending.toList

/-- All batches that were counted. -/
def counted (s : Sampling) : List Counted :=
  s.observed.map Observed.counted ++ s.due

/-- The batches that are not yet counted. -/
def left (s : Sampling) : List Batch :=
  s.tellers.flatMap Teller.left

/-- Counts are published for a batch. -/
def crosses (s : Sampling) (c : Counted) : Bool :=
  passesBoundary s.every c.before c.after

/-- The batches that counts were published for. -/
def published (s : Sampling) : List Counted :=
  (s.observed.filter fun o => o.published.isSome).map Observed.counted

/-! ## Steps -/

/-- One step of one of the workers. -/
inductive Step (s : Sampling) : Sampling → Prop where
  | look {i : Nat} {counted : Counted} {left : List Batch}
      (hi : s.tellers[i]? = some ⟨some counted, left⟩) :
      Step s ((s.observe counted).move i ⟨none, left⟩)
  | count {i : Nat} {batch : Batch} {left : List Batch}
      (hi : s.tellers[i]? = some ⟨none, batch :: left⟩) :
      Step s ((s.count batch).move i ⟨some (s.countedNow batch), left⟩)

theorem step_of_step? {i : Nat} (h : s.step? i = some t) : Step s t := by
  unfold step? at h
  split at h
  · cases h
  · next hi =>
    cases h
    exact .look hi
  · next hi =>
    cases h
    exact .count hi
  · cases h

variable {i : Nat} {c : Counted} {batch : Batch} {rest : List Batch}

/-- Looking at a batch takes it from those that are due. -/
theorem due_look (hi : s.tellers[i]? = some ⟨some c, rest⟩) :
    s.due ~ c :: ((s.observe c).move i ⟨none, rest⟩).due :=
  flatMap_perm_of_give (fun t : Teller => t.pending.toList) hi [c] rfl

/-- Counting a batch makes it due. -/
theorem due_count (hi : s.tellers[i]? = some ⟨none, batch :: rest⟩) :
    ((s.count batch).move i ⟨some (s.countedNow batch), rest⟩).due ~ s.countedNow batch :: s.due :=
  flatMap_set_perm_of_get (fun t : Teller => t.pending.toList) hi [s.countedNow batch] rfl

theorem counted_look (hi : s.tellers[i]? = some ⟨some c, rest⟩) :
    ((s.observe c).move i ⟨none, rest⟩).counted ~ s.counted := by
  have hobserved : ((s.observe c).move i ⟨none, rest⟩).counted
      = s.observed.map Observed.counted ++ c :: ((s.observe c).move i ⟨none, rest⟩).due := by
    simp [Sampling.counted, move, observe, observedNow]
  exact hobserved ▸ ((due_look hi).symm.append_left _)

theorem counted_count (hi : s.tellers[i]? = some ⟨none, batch :: rest⟩) :
    ((s.count batch).move i ⟨some (s.countedNow batch), rest⟩).counted
      ~ s.countedNow batch :: s.counted :=
  ((due_count hi).append_left _).trans List.perm_middle

theorem left_look (hi : s.tellers[i]? = some ⟨some c, rest⟩) :
    ((s.observe c).move i ⟨none, rest⟩).left ~ s.left :=
  flatMap_set_perm_of_get Teller.left hi [] rfl

/-- Counting a batch takes it from those that are left. -/
theorem left_count (hi : s.tellers[i]? = some ⟨none, batch :: rest⟩) :
    s.left ~ batch :: ((s.count batch).move i ⟨some (s.countedNow batch), rest⟩).left :=
  flatMap_perm_of_give Teller.left hi [batch] rfl

theorem toNat_files_count (hroom : s.counters.files.toNat + batch.files < 2 ^ 64) :
    (s.count batch).counters.files.toNat = s.counters.files.toNat + batch.files := by
  simp only [count, Counters.recordFiles, UInt64.toNat_add, UInt64.toNat_ofNat']
  omega

/-! ## What every step keeps -/

/-- The intervals of the batches that were counted cover every number up to the total once, they are as
long as the batches, and counts were published for those that were looked at and pass a boundary. -/
structure Kept (batches : List Batch) (s : Sampling) : Prop where
  files : s.counters.files.toNat + filesOf s.left = filesOf batches
  forwards : ∀ c ∈ s.counted, c.before ≤ c.after
  covered : ∀ n, s.counted.countP (Counted.covers n)
    = if 0 < n ∧ n ≤ s.counters.files.toNat then 1 else 0
  sizes : s.counted.map Counted.size ++ s.left.map Batch.files ~ batches.map Batch.files
  looked : ∀ o ∈ s.observed, o.published.isSome = s.crosses o.counted

theorem kept_start (every : Nat) (batches : List (List Batch)) :
    Kept batches.flatten (start every batches) := by
  have hdue : (start every batches).due = [] := by simp [due, start, List.flatMap_map]
  have hleft : (start every batches).left = batches.flatten := by
    simp [left, start, List.flatMap_map, List.flatMap_id']
  have hcounted : (start every batches).counted = [] := by rw [counted, hdue]; rfl
  have hfiles : (start every batches).counters.files.toNat = 0 := rfl
  refine
    { files := by simp [hfiles, hleft]
      forwards := by simp [hcounted]
      covered := fun n => ?_
      sizes := by simp [hcounted, hleft]
      looked := by simp [start] }
  rw [hcounted, hfiles, if_neg (by omega)]
  rfl

theorem filesOf_cons (batch : Batch) (batches : List Batch) :
    filesOf (batch :: batches) = batch.files + filesOf batches :=
  List.sum_cons

theorem filesOf_perm {xs ys : List Batch} (h : xs ~ ys) : filesOf xs = filesOf ys :=
  (h.map Batch.files).sum_nat

/-- Counts are published for a batch that passes a boundary, and for no other. -/
theorem isSome_published_observedNow (s : Sampling) (c : Counted) :
    (s.observedNow c).published.isSome = s.crosses c := by
  simp only [observedNow, crosses]
  split <;> simp_all

/-- One more batch covers the numbers that follow. -/
theorem countP_covers_cons {counted : List Counted} {total more : Nat}
    (h : ∀ n, counted.countP (Counted.covers n) = if 0 < n ∧ n ≤ total then 1 else 0) (n : Nat) :
    (⟨total, total + more⟩ :: counted).countP (Counted.covers n)
      = if 0 < n ∧ n ≤ total + more then 1 else 0 := by
  rw [List.countP_cons, h n]
  simp only [Counted.covers, decide_eq_true_iff]
  split <;> split <;> split <;> omega

/-- **Every step** keeps what is said of the intervals. -/
theorem Step.kept (hroom : filesOf batches < 2 ^ 64) (hstep : Step s t) (h : Kept batches s) :
    Kept batches t := by
  cases hstep with
  | @look i c rest hi =>
    have hcounted := counted_look hi
    have hleft := left_look hi
    refine
      { files := (congrArg _ (filesOf_perm hleft)).trans h.files
        forwards := fun d hd => h.forwards d (hcounted.mem_iff.1 hd)
        covered := fun n => (hcounted.countP_eq _).trans (h.covered n)
        sizes := ((hcounted.map _).append (hleft.map _)).trans h.sizes
        looked := fun o ho => ?_ }
    rcases List.mem_append.1 ho with ho | ho
    · exact h.looked o ho
    · obtain rfl := List.mem_singleton.1 ho
      exact isSome_published_observedNow s c
  | @count i batch rest hi =>
    have hcounted := counted_count hi
    have hleft := left_count hi
    have hsum := filesOf_perm hleft
    have hfiles := h.files
    rw [filesOf_cons] at hsum
    -- the new interval begins where the total was, and the total moves to where it ends
    have htotal : (s.count batch).counters.files.toNat = s.counters.files.toNat + batch.files :=
      toNat_files_count (by omega)
    refine
      { files := ?files
        forwards := fun d hd => ?forwards
        covered := fun n => ?covered
        sizes := ?sizes
        looked := h.looked }
    case files =>
      change (s.count batch).counters.files.toNat + _ = _
      omega
    case forwards =>
      rcases List.mem_cons.1 (hcounted.mem_iff.1 hd) with rfl | hd
      · exact Nat.le_add_right _ _
      · exact h.forwards d hd
    case covered =>
      change _ = if 0 < n ∧ n ≤ (s.count batch).counters.files.toNat then 1 else 0
      rw [hcounted.countP_eq, htotal]
      exact countP_covers_cons h.covered n
    case sizes =>
      have hsize : (s.countedNow batch).size = batch.files := Nat.add_sub_cancel_left _ _
      calc _ ~ ((s.countedNow batch :: s.counted).map Counted.size) ++ _ :=
            (hcounted.map Counted.size).append_right _
        _ = batch.files :: (s.counted.map Counted.size ++ _) := by rw [List.map_cons, hsize]; rfl
        _ ~ s.counted.map Counted.size ++ s.left.map Batch.files :=
            List.perm_middle.symm.trans ((hleft.map Batch.files).symm.append_left _)
        _ ~ batches.map Batch.files := h.sizes

theorem kept_run (hroom : filesOf batches < 2 ^ 64) (h : Kept batches s) (schedule : List Nat) :
    Kept batches (s.run schedule) :=
  takeTurns_induction (Kept batches) (fun hstep => (step_of_step? hstep).kept hroom) h schedule

theorem every_run (s : Sampling) (schedule : List Nat) : (s.run schedule).every = s.every :=
  takeTurns_induction (fun t : Sampling => t.every = s.every)
    (fun hstep ht => (every_step? hstep).trans ht) rfl schedule

/-! ## All gets counted and looked at -/

/-- The steps that are left. -/
def work (s : Sampling) : Nat :=
  2 * s.left.length + s.due.length

theorem Step.work_lt (hstep : Step s t) : t.work < s.work := by
  unfold work
  cases hstep with
  | look hi =>
    have hleft := (left_look hi).length_eq
    have hdue := (due_look hi).length_eq
    rw [List.length_cons] at hdue
    omega
  | count hi =>
    have hleft := (left_count hi).length_eq
    have hdue := (due_count hi).length_eq
    rw [List.length_cons] at hleft hdue
    omega

/-- Until all is done, somebody can go on. -/
theorem exists_step? (h : s.isDone = false) : ∃ i t, s.step? i = some t := by
  obtain ⟨teller, hmem, hbusy⟩ := List.all_eq_false.1 h
  obtain ⟨i, hi⟩ := List.getElem?_of_mem hmem
  match teller, hi, hbusy with
  | ⟨some c, rest⟩, hi, _ => exact ⟨i, _, by rw [step?, hi]⟩
  | ⟨none, batch :: rest⟩, hi, _ => exact ⟨i, _, by rw [step?, hi]⟩
  | ⟨none, []⟩, _, hbusy => exact absurd rfl hbusy

theorem exists_isDone_run (s : Sampling) : ∃ more, (s.run more).isDone = true :=
  exists_takeTurns_done (fun _ => True) work (fun _ _ => trivial) (fun _ => exists_step?)
    (fun hstep => (step_of_step? hstep).work_lt) trivial

theorem due_of_isDone (h : s.isDone = true) : s.due = [] := by
  refine List.flatMap_eq_nil_iff.2 fun teller hmem => ?_
  have hnone := List.all_eq_true.1 h teller hmem
  simp only [Bool.and_eq_true, Option.isNone_iff_eq_none] at hnone
  rw [hnone.1]
  rfl

theorem left_of_isDone (h : s.isDone = true) : s.left = [] := by
  refine List.flatMap_eq_nil_iff.2 fun teller hmem => ?_
  have hnone := List.all_eq_true.1 h teller hmem
  simp only [Bool.and_eq_true, List.isEmpty_iff] at hnone
  exact hnone.2

/-! ## What is published -/

theorem published_eq (h : Kept batches s) :
    s.published = (s.observed.map Observed.counted).filter s.crosses := by
  rw [published, List.filter_map]
  exact congrArg _ (List.filter_congr h.looked)

/-- What is published, and what is due to be: the batches that pass a boundary. -/
theorem published_append_due (h : Kept batches s) :
    s.published ++ s.due.filter s.crosses = s.counted.filter s.crosses := by
  rw [published_eq h, counted, List.filter_append]

/-- A file that is counted alone gets the next number. -/
theorem after_of_single (h : Kept batches s) (hsingle : ∀ b ∈ batches, b.files = 1) {c : Counted}
    (hc : c ∈ s.counted) : c.after = c.before + 1 := by
  have hsize : c.size ∈ batches.map Batch.files :=
    h.sizes.mem_iff.1 (List.mem_append_left _ (List.mem_map_of_mem hc))
  obtain ⟨b, hb, hbc⟩ := List.mem_map.1 hsize
  have hone := hsingle b hb
  have hle := h.forwards c hc
  rw [Counted.size] at hbc
  omega

/-- **Files that are counted one by one** get every number up to the total, each once. -/
theorem counted_after_perm (h : Kept batches s) (hsingle : ∀ b ∈ batches, b.files = 1) :
    s.counted.map Counted.after ~ List.range' 1 s.counters.files.toNat := by
  -- a number is there as often as it is covered
  refine List.perm_iff_count.2 fun n => ?_
  have hnodup : (List.range' 1 s.counters.files.toNat).Nodup := List.nodup_range'
  have hcovers : ∀ c ∈ s.counted, ((· == n) ∘ Counted.after) c = true ↔ c.covers n = true := by
    intro c hc
    have hafter := after_of_single h hsingle hc
    simp only [Function.comp, beq_iff_eq, Counted.covers, decide_eq_true_iff]
    omega
  rw [hnodup.count, List.count, List.countP_map, List.countP_congr hcovers, h.covered n]
  simp only [List.mem_range'_1]
  split <;> split <;> omega

/-- The files that make a multiple of the sampling step are those that pass a boundary. -/
theorem filter_crosses_perm (hevery : 0 < s.every) (h : Kept batches s)
    (hsingle : ∀ b ∈ batches, b.files = 1) :
    (s.counted.filter s.crosses).map Counted.after ~ boundaries s.every s.counters.files.toNat := by
  have hcrosses : ∀ c ∈ s.counted, s.crosses c = ((fun n => decide (s.every ∣ n)) ∘ Counted.after) c := by
    intro c hc
    rw [crosses, after_of_single h hsingle hc, passesBoundary_succ hevery, Function.comp,
      after_of_single h hsingle hc]
  rw [List.filter_congr hcrosses, ← List.filter_map]
  exact ((counted_after_perm h hsingle).filter _).trans (filter_dvd_perm hevery _)

/-- **Counts are published** for a batch iff a multiple of the sampling step lies above the count before
it and not above the count after it, after every schedule of the steps of any number of workers.  The
intervals of the batches that were counted cover every number up to the total once, and are as long as
the batches.  All batches get counted and looked at; and where files are counted one by one, those that
counts are published for, or are due to be, make every multiple up to the total, each once. -/
theorem every_boundary_is_published_once {every : Nat} (hevery : 0 < every)
    (batches : List (List Batch)) (hroom : filesOf batches.flatten < 2 ^ 64) (schedule : List Nat) :
    let s := (start every batches).run schedule
    let total := s.counters.files.toNat
    (∀ o ∈ s.observed, o.published.isSome = true
        ↔ ∃ k, o.counted.before < k * every ∧ k * every ≤ o.counted.after)
      ∧ (∀ n, s.counted.countP (Counted.covers n) = if 0 < n ∧ n ≤ total then 1 else 0)
      ∧ s.counted.map Counted.size ++ s.left.map Batch.files ~ batches.flatten.map Batch.files
      ∧ (∃ more, (s.run more).isDone = true)
      ∧ (s.isDone = true → s.due = [] ∧ s.left = [] ∧ total = filesOf batches.flatten)
      ∧ ((∀ b ∈ batches.flatten, b.files = 1) →
          s.published.map Counted.after ++ (s.due.filter s.crosses).map Counted.after
            ~ boundaries every total) := by
  intro s total
  have hkept : Kept batches.flatten s := kept_run hroom (kept_start every batches) schedule
  have hsame : s.every = every := every_run (start every batches) schedule
  refine ⟨fun o ho => ?_, hkept.covered, hkept.sizes, exists_isDone_run s, fun hdone => ?_,
    fun hsingle => ?_⟩
  · have hforwards : o.counted.before ≤ o.counted.after :=
      hkept.forwards _ (List.mem_append_left _ (List.mem_map_of_mem ho))
    rw [hkept.looked o ho, crosses, hsame]
    exact Feed.passesBoundary_iff hevery hforwards
  · have hfiles := hkept.files
    rw [left_of_isDone hdone] at hfiles
    exact ⟨due_of_isDone hdone, left_of_isDone hdone, hfiles⟩
  · rw [← List.map_append, published_append_due hkept, ← hsame]
    exact filter_crosses_perm (hsame.symm ▸ hevery) hkept hsingle

/-- Two workers count one and two files; both have counted before the first of them looks. -/
theorem two_workers_publish_one_boundary :
    let s := (start 2 [[⟨1, 5⟩, ⟨1, 7⟩], [⟨1, 3⟩]]).run [0, 1, 0, 0, 1]
    s.published.map Counted.after ++ (s.due.filter s.crosses).map Counted.after ~ boundaries 2 3 :=
  (every_boundary_is_published_once (by decide) [[⟨1, 5⟩, ⟨1, 7⟩], [⟨1, 3⟩]] (by decide)
    [0, 1, 0, 0, 1]).2.2.2.2.2 (by decide)

end Sampling

end DiskUsage
