import DiskUsage.Time.Timestamp

/-!
# How long something was not used

A label names a bound that the time since the last access has reached: a number of months of 30
days, or from a year on a number of years of 365 days.  Below 90 days there is no label.

* `unusedLabel?`: the bound, from the number of whole days.
* `formatUnusedTime`: the label, from two points in time.
* `unusedLabel?_cases`, `unusedLabel?_eq_none_iff`: which bounds are named, and when there is none.
-/

namespace DiskUsage.Report

/-- A bound on the time since the last access. -/
inductive Unused where
  | months (n : Nat)
  | years (n : Nat)
  deriving DecidableEq, Repr

namespace Unused

/-- The bound in days. -/
def days : Unused → Nat
  | months n => n * 30
  | years n => n * 365

/-- The text of the bound. -/
def label : Unused → String
  | months n => ">" ++ toString n ++ "mo"
  | years n => ">" ++ toString n ++ "yr"

end Unused

/-- Days before which something counts as used. -/
def unusedAfterDays : Nat := 90

/-- Seconds of a day. -/
def secondsPerDay : Nat := 86400

/-- The bound that so many whole days have reached. -/
def unusedLabel? (days : Nat) : Option Unused :=
  let years := days / 365
  let months := days / 30
  if days < unusedAfterDays then none
  else if 2 ≤ years then some (.years years)
  else if 1 ≤ years then some (.years 1)
  else if 3 ≤ months then some (.months months)
  else none

/-- Whole days from the last access to now. -/
def unusedDays? (now : Timestamp) (lastAccess : Option Timestamp) : Option Nat := do
  let secs ← now.secondsSince? (← lastAccess)
  return secs / secondsPerDay

/-- The label for an access, empty if there is none. -/
def formatUnusedTime (now : Timestamp) (lastAccess : Option Timestamp) : String :=
  match (unusedDays? now lastAccess).bind unusedLabel? with
  | some bound => bound.label
  | none => ""

/-- **The bounds that are named**: months from 90 days on, and years from 365 days on. -/
theorem unusedLabel?_cases {days : Nat} {bound : Unused} (h : unusedLabel? days = some bound) :
    (90 ≤ days ∧ days < 365 ∧ bound = .months (days / 30)) ∨
      (365 ≤ days ∧ bound = .years (days / 365)) := by
  have hafter : unusedAfterDays = 90 := rfl
  unfold unusedLabel? at h
  dsimp only at h
  split at h
  · cases h
  split at h
  · cases h
    exact .inr ⟨by omega, rfl⟩
  split at h
  · have hyear : days / 365 = 1 := by omega
    cases h
    exact .inr ⟨by omega, by rw [hyear]⟩
  split at h <;> cases h
  exact .inl ⟨by omega, by omega, rfl⟩

/-- The bound does not exceed the days. -/
theorem days_unusedLabel?_le {days : Nat} {bound : Unused} (h : unusedLabel? days = some bound) :
    bound.days ≤ days := by
  obtain ⟨-, -, rfl⟩ | ⟨-, rfl⟩ := unusedLabel?_cases h
  · exact Nat.div_mul_le_self days 30
  · exact Nat.div_mul_le_self days 365

/-- **There is no gap**: from 90 days on there is a bound. -/
theorem unusedLabel?_eq_none_iff (days : Nat) : unusedLabel? days = none ↔ days < 90 := by
  have hafter : unusedAfterDays = 90 := rfl
  unfold unusedLabel?
  dsimp only
  split
  · exact iff_of_true rfl (by omega)
  -- three months are 90 days, so that the last case does not arise
  have hmonths : 3 ≤ days / 30 := by omega
  rw [if_pos hmonths]
  split
  · exact iff_of_false nofun (by omega)
  split <;> exact iff_of_false nofun (by omega)

end DiskUsage.Report
