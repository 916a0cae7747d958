import DiskUsage.Progress.Feed
import Mathlib.Data.List.Nodup
import Mathlib.Data.List.Perm.Basic

/-!
# The counts at which progress is published

Progress is published at the multiples of a sampling step.

* `boundaries`: the multiples that a count reaches; `mem_boundaries`, `nodup_boundaries`: what they are.
* `passesBoundary_succ`: one more file passes a multiple iff it makes one.
* `filter_dvd_perm`: the multiples among all numbers up to a count.
-/

open scoped List

namespace DiskUsage

variable {every total n : Nat}

/-- The multiples of a sampling step that a count reaches. -/
def boundaries (every total : Nat) : List Nat :=
  (List.range (total / every)).map fun k => (k + 1) * every

@[simp] theorem length_boundaries (every total : Nat) :
    (boundaries every total).length = total / every := by
  simp [boundaries]

theorem mem_boundaries (hevery : 0 < every) :
    n ∈ boundaries every total ↔ every ∣ n ∧ 0 < n ∧ n ≤ total := by
  simp only [boundaries, List.mem_map, List.mem_range]
  constructor
  · rintro ⟨k, hk, rfl⟩
    have hle : (k + 1) * every ≤ total := (Nat.le_div_iff_mul_le hevery).1 hk
    exact ⟨Nat.dvd_mul_left _ _, Nat.mul_pos k.succ_pos hevery, hle⟩
  · rintro ⟨⟨k, rfl⟩, hpos, hle⟩
    obtain ⟨k, rfl⟩ : ∃ j, k = j + 1 :=
      Nat.exists_eq_succ_of_ne_zero fun hk => by simp [hk] at hpos
    refine ⟨k, ?_, Nat.mul_comm _ _⟩
    exact (Nat.le_div_iff_mul_le hevery).2 (by rwa [Nat.mul_comm])

theorem nodup_boundaries (hevery : 0 < every) : (boundaries every total).Nodup := by
  refine List.nodup_range.map fun a b hab => ?_
  exact Nat.succ.inj (Nat.eq_of_mul_eq_mul_right hevery hab)

/-- One more file passes a multiple of the step iff it makes one. -/
theorem passesBoundary_succ (hevery : 0 < every) (n : Nat) :
    passesBoundary every n (n + 1) = decide (every ∣ n + 1) := by
  rw [Bool.eq_iff_iff, Feed.passesBoundary_iff hevery n.le_succ, decide_eq_true_iff]
  constructor
  · rintro ⟨k, hlt, hle⟩
    exact ⟨k, by rw [Nat.mul_comm]; omega⟩
  · rintro ⟨k, hk⟩
    exact ⟨k, by rw [Nat.mul_comm, ← hk]; omega⟩

/-- The numbers up to a count that are multiples of the step. -/
theorem filter_dvd_perm (hevery : 0 < every) (total : Nat) :
    (List.range' 1 total).filter (fun n => decide (every ∣ n)) ~ boundaries every total := by
  have hrange : (List.range' 1 total).Nodup := List.nodup_range'
  refine (List.perm_ext_iff_of_nodup (hrange.filter _) (nodup_boundaries hevery)).2 fun n => ?_
  rw [mem_boundaries hevery, List.mem_filter, List.mem_range'_1, decide_eq_true_iff]
  omega

example : boundaries 3 10 = [3, 6, 9] := by decide

end DiskUsage
