import DiskUsage.Config.Json

/-!
# How many workers there are

The number of workers comes from words: a fixed number, or the number of processors times a factor between
two bounds, and at most one worker for each child.  The product stops at the largest word.  As the upper
bound is a word too, this makes no difference; and where the two bounds contradict each other the upper one
holds.  There is a worker even where a configuration asks for none, or where there are no children.

* `min_max_saturatingMul`: a product under a bound need not stop at the largest word.
* `wantedWorkers_eq`, `wantedWorkers_mono`: what a configuration asks for.
* `workers_follow_the_settings`: the number of workers, its bounds, and how it grows.
-/

namespace DiskUsage.ScanConfig

variable {p q n m : UInt64}

/-- A product that is cut off at a word anyway need not stop at the largest one. -/
theorem min_max_saturatingMul (a b low high : UInt64) :
    min (max (saturatingMul a b) low.toNat) high.toNat
      = min (max (a.toNat * b.toNat) low.toNat) high.toNat := by
  have hhigh : high.toNat ≤ Number.maxWord := Nat.le_of_lt_succ high.toNat_lt
  unfold saturatingMul
  omega

/-- **What a configuration asks for**, without a limit on the product. -/
theorem wantedWorkers_eq (c : ScanConfig) (p : UInt64) :
    c.wantedWorkers p
      = match c.workers with
        | some fixed => fixed.toNat
        | none => min (max (p.toNat * c.cpuMultiplier.toNat) c.minWorkers.toNat) c.maxWorkers.toNat := by
  unfold wantedWorkers
  cases c.workers with
  | some fixed => rfl
  | none => exact min_max_saturatingMul _ _ _ _

/-- More processors ask for as many workers at least. -/
theorem wantedWorkers_mono (c : ScanConfig) (h : p ≤ q) : c.wantedWorkers p ≤ c.wantedWorkers q := by
  rw [wantedWorkers_eq, wantedWorkers_eq]
  split
  · exact Nat.le_refl _
  · have hproduct : p.toNat * c.cpuMultiplier.toNat ≤ q.toNat * c.cpuMultiplier.toNat :=
      Nat.mul_le_mul_right _ (UInt64.le_iff_toNat_le.1 h)
    omega

theorem workerCount_mono (c : ScanConfig) (hp : p ≤ q) (hn : n ≤ m) :
    c.workerCount p n ≤ c.workerCount q m := by
  have hwanted := c.wantedWorkers_mono hp
  have hchildren : n.toNat ≤ m.toNat := UInt64.le_iff_toNat_le.1 hn
  unfold workerCount
  omega

/-- **How many workers there are.**  A configuration asks for a fixed number, or else for so many per
processor, at least the lower bound, and then at most the upper bound; there are no more workers than
children, and there is always one.  It is so for any values of the fields, whether or not a builder would
accept them.  More processors or more children never give fewer workers. -/
theorem workers_follow_the_settings (c : ScanConfig) (p q n m : UInt64) :
    (c.workerCount p n
      = max 1 (min n.toNat
          (match c.workers with
          | some fixed => fixed.toNat
          | none =>
            min (max (p.toNat * c.cpuMultiplier.toNat) c.minWorkers.toNat) c.maxWorkers.toNat))) ∧
      1 ≤ c.workerCount p n ∧ c.workerCount p n ≤ max 1 n.toNat ∧
      (p ≤ q → n ≤ m → c.workerCount p n ≤ c.workerCount q m) := by
  refine ⟨?_, c.workerCount_pos p n, ?_, c.workerCount_mono⟩
  · rw [← wantedWorkers_eq, workerCount, Nat.max_comm, Nat.min_comm]
  · rw [Nat.max_comm]
    exact c.workerCount_le p n

/-- A configuration that no builder has seen: the factor is the largest word, and the bounds are the wrong way
round. -/
def crookedRecord : Json := .record [
  ("cpu_multiplier", .nat 18446744073709551615), ("min_workers", .nat 9), ("max_workers", .nat 3)]

theorem crooked_record_gives_workers :
    ∃ c, ofJson? ⟨none, 1⟩ crookedRecord = some c ∧ c.maxWorkers < c.minWorkers ∧
      (2 : UInt64) ≤ 3 ∧ (0 : UInt64) ≤ 7 ∧ c.workerCount 2 0 = 1 ∧ c.workerCount 3 7 = 3 ∧
      c.workerCount 2 0 ≤ c.workerCount 3 7 := by
  obtain ⟨c, hc⟩ : ∃ c, ofJson? ⟨none, 1⟩ crookedRecord = some c := ⟨_, rfl⟩
  have hgrows := (workers_follow_the_settings c 2 3 0 7).2.2.2 (by decide) (by decide)
  refine ⟨c, hc, ?_, by decide, by decide, ?_, ?_, hgrows⟩
  all_goals
    cases hc
    decide

end DiskUsage.ScanConfig
