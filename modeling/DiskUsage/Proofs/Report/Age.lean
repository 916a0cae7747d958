import DiskUsage.Number.Numeral
import DiskUsage.Report.Age
import Mathlib.Logic.ExistsUnique
import Mathlib.Order.Bounds.Defs

/-!
# Which age a label names

The age of an access is a number of nanoseconds.  A label is chosen by its whole days alone, in one of two
units: months of 30 days, and from 365 days on years of 365 days.  No nanosecond is lost to this, since every
bound is a number of whole days.  And as twelve months end before a year does, the bound does not step back
where one unit takes over from the other.

* `Unused.label_injective`: a label names one bound.
* `isGreatest_unusedLabel?`, `unusedLabel?_mono`: the bound, by the number of whole days.
* `le_unusedDays_iff`: the whole days of an age.
* `labels_name_the_largest_bound`: which accesses have a label, and what it names.
-/

namespace DiskUsage.Report

variable {now past : Timestamp} {lastAccess : Option Timestamp} {bound other : Unused} {days more : Nat}

/-! ### Labels -/

namespace Unused

/-- The days of the unit in which a bound is told. -/
def unit : Unused → Nat
  | months _ => 30
  | years _ => 365

theorem unit_dvd_days (bound : Unused) : bound.unit ∣ bound.days := by
  cases bound with
  | months n => exact Nat.dvd_mul_left 30 n
  | years n => exact Nat.dvd_mul_left 365 n

theorem label_ne_empty (bound : Unused) : bound.label ≠ "" := by
  cases bound <;> simp [label]

/-- The numbers of two labels in the same unit. -/
theorem eq_of_label_eq {n m : Nat} {unit : String} (h : ">" ++ toString n ++ unit = ">" ++ toString m ++ unit) :
    n = m := by
  have hdigits : n.repr.toList = m.repr.toList :=
    congrArg String.toList ((String.append_right_inj ">").1 ((String.append_left_inj unit).1 h))
  rw [Nat.toList_repr, Nat.toList_repr] at hdigits
  have hread := congrArg Number.natural? hdigits
  rwa [Number.natural?_toDigits, Number.natural?_toDigits, Option.some.injEq] at hread

/-- The labels of months and of years end with different letters. -/
theorem label_months_ne_label_years (n m : Nat) : (months n).label ≠ (years m).label := by
  intro h
  have hlast : (months n).label.toList.getLast? = (years m).label.toList.getLast? := by rw [h]
  simp [label, List.getLast?_cons, List.getLast?_append] at hlast

/-- **A label** names one bound. -/
theorem label_injective : Function.Injective label := by
  intro bound other h
  cases bound with
  | months n =>
    cases other with
    | months m => rw [eq_of_label_eq h]
    | years m => exact absurd h (label_months_ne_label_years n m)
  | years n =>
    cases other with
    | months m => exact absurd h.symm (label_months_ne_label_years m n)
    | years m => rw [eq_of_label_eq h]

end Unused

/-! ### Bounds -/

/-- **The largest bound**: no larger multiple of the same unit was reached. -/
theorem isGreatest_unusedLabel? (h : unusedLabel? days = some bound) :
    IsGreatest {reached | bound.unit ∣ reached ∧ reached ≤ days} bound.days := by
  refine ⟨⟨bound.unit_dvd_days, days_unusedLabel?_le h⟩, ?_⟩
  rintro reached ⟨⟨k, rfl⟩, hreached⟩
  obtain ⟨-, -, rfl⟩ | ⟨-, rfl⟩ := unusedLabel?_cases h
  all_goals
    simp only [Unused.unit, Unused.days] at *
    omega

/-- Years are named from a year on. -/
theorem exists_eq_years_iff (h : unusedLabel? days = some bound) : (∃ n, bound = .years n) ↔ 365 ≤ days := by
  obtain ⟨-, hbelow, rfl⟩ | ⟨hyear, rfl⟩ := unusedLabel?_cases h
  · exact iff_of_false nofun (by omega)
  · exact iff_of_true ⟨_, rfl⟩ hyear

/-- More days never give a smaller bound. -/
theorem unusedLabel?_mono (h : unusedLabel? days = some bound) (hmore : unusedLabel? more = some other)
    (hle : days ≤ more) : bound.days ≤ other.days := by
  obtain ⟨-, hbelow, rfl⟩ | ⟨hyear, rfl⟩ := unusedLabel?_cases h <;>
    obtain ⟨-, hbelow', rfl⟩ | ⟨hyear', rfl⟩ := unusedLabel?_cases hmore
  · exact Nat.mul_le_mul_right 30 (Nat.div_le_div_right hle)
  · -- twelve months are the most there are below a year
    simp only [Unused.days]
    omega
  · omega
  · exact Nat.mul_le_mul_right 365 (Nat.div_le_div_right hle)

/-! ### Ages -/

/-- Nanoseconds of a day. -/
def nanosPerDay : Nat := nanosPerSecond * secondsPerDay

theorem nanosPerDay_pos : 0 < nanosPerDay := by decide

theorem unusedDays?_eq_some_iff : unusedDays? now (some past) = some days ↔
    past.toNanos ≤ now.toNanos ∧ (now.toNanos - past.toNanos).toNat / nanosPerDay = days := by
  simp only [unusedDays?, Timestamp.secondsSince?, nanosPerDay, ← Nat.div_div_eq_div_mul]
  by_cases hle : past.toNanos ≤ now.toNanos <;> simp [hle]

/-- **The whole days of an age**: what holds of them holds of the nanoseconds, as a bound of whole days is
reached by the one iff it is by the other. -/
theorem le_unusedDays_iff (h : unusedDays? now (some past) = some days) (k : Nat) :
    k ≤ days ↔ (k * nanosPerDay : Int) ≤ now.toNanos - past.toNanos := by
  obtain ⟨hle, rfl⟩ := unusedDays?_eq_some_iff.1 h
  rw [Nat.le_div_iff_mul_le nanosPerDay_pos]
  omega

theorem exists_unusedDays?_eq_some (h : past.toNanos ≤ now.toNanos) :
    ∃ days, unusedDays? now (some past) = some days :=
  ⟨_, unusedDays?_eq_some_iff.2 ⟨h, rfl⟩⟩

/-! ### Labels of accesses -/

theorem formatUnusedTime_empty_or_label (now : Timestamp) (lastAccess : Option Timestamp) :
    formatUnusedTime now lastAccess = "" ∨ ∃ bound : Unused, formatUnusedTime now lastAccess = bound.label := by
  unfold formatUnusedTime
  split
  · exact .inr ⟨_, rfl⟩
  · exact .inl rfl

theorem formatUnusedTime_eq_label_iff : formatUnusedTime now lastAccess = bound.label ↔
    ∃ days, unusedDays? now lastAccess = some days ∧ unusedLabel? days = some bound := by
  rw [← Option.bind_eq_some_iff, formatUnusedTime]
  cases (unusedDays? now lastAccess).bind unusedLabel? with
  | none => exact iff_of_false bound.label_ne_empty.symm nofun
  | some named => exact Unused.label_injective.eq_iff.trans (Option.some.injEq named bound).symm.to_iff

theorem formatUnusedTime_eq_empty_iff : formatUnusedTime now lastAccess = "" ↔
    ∀ days, unusedDays? now lastAccess = some days → days < 90 := by
  simp only [← unusedLabel?_eq_none_iff]
  rw [← Option.bind_eq_none_iff, formatUnusedTime]
  cases (unusedDays? now lastAccess).bind unusedLabel? with
  | none => exact iff_of_true rfl rfl
  | some named => exact iff_of_false named.label_ne_empty nofun

/-- **No label**: the access lies ahead, or less than 90 days back. -/
theorem formatUnusedTime_some_eq_empty_iff : formatUnusedTime now (some past) = "" ↔
    now.toNanos < past.toNanos ∨ now.toNanos - past.toNanos < 90 * nanosPerDay := by
  rw [formatUnusedTime_eq_empty_iff]
  by_cases hle : past.toNanos ≤ now.toNanos
  · obtain ⟨days, hdays⟩ := exists_unusedDays?_eq_some hle
    have hninety := le_unusedDays_iff hdays 90
    simp only [hdays, Option.some.injEq, forall_eq']
    omega
  · refine iff_of_true (fun days hdays => ?_) (.inl (Int.not_le.1 hle))
    exact absurd (unusedDays?_eq_some_iff.1 hdays).1 hle

/-- **A label** names the largest multiple of its unit that does not exceed the age. -/
theorem isGreatest_of_formatUnusedTime (h : formatUnusedTime now (some past) = bound.label) :
    IsGreatest {days : Nat | bound.unit ∣ days ∧ (days * nanosPerDay : Int) ≤ now.toNanos - past.toNanos}
      bound.days := by
  obtain ⟨days, hdays, hbound⟩ := formatUnusedTime_eq_label_iff.1 h
  simpa only [le_unusedDays_iff hdays] using isGreatest_unusedLabel? hbound

/-- An older access has as many whole days at least, and so no smaller bound. -/
theorem days_le_of_formatUnusedTime {older newer : Timestamp} (hle : older.toNanos ≤ newer.toNanos)
    (hold : formatUnusedTime now (some older) = bound.label)
    (hnew : formatUnusedTime now (some newer) = other.label) : other.days ≤ bound.days := by
  obtain ⟨more, hmore, hbound⟩ := formatUnusedTime_eq_label_iff.1 hold
  obtain ⟨days, hdays, hother⟩ := formatUnusedTime_eq_label_iff.1 hnew
  have hreached : (days * nanosPerDay : Int) ≤ now.toNanos - newer.toNanos :=
    (le_unusedDays_iff hdays days).1 (Nat.le_refl days)
  have holder : days ≤ more := (le_unusedDays_iff hmore days).2 (by omega)
  exact unusedLabel?_mono hother hbound holder

/-- **Which accesses have a label, and what it names.**  There is none iff there was no access, or it lies
ahead, or it is less than 90 days back.  A label names one bound: months of 30 days below 365 days, and years
of 365 days from then on.  The bound does not exceed the age, to the nanosecond, and no larger multiple of its
unit does so either.  And no older access is told by a smaller bound.  All points in time are meant, before the
epoch and after it. -/
theorem labels_name_the_largest_bound (now : Timestamp) :
    (∀ lastAccess, formatUnusedTime now lastAccess = "" ↔
      lastAccess = none ∨ ∃ past, lastAccess = some past ∧
        (now.toNanos < past.toNanos ∨ now.toNanos - past.toNanos < 90 * nanosPerDay)) ∧
    (∀ past, formatUnusedTime now (some past) ≠ "" →
      ∃! bound : Unused, formatUnusedTime now (some past) = bound.label) ∧
    (∀ past (bound : Unused), formatUnusedTime now (some past) = bound.label →
      IsGreatest {days : Nat | bound.unit ∣ days ∧ (days * nanosPerDay : Int) ≤ now.toNanos - past.toNanos}
        bound.days ∧
      ((∃ n, bound = .years n) ↔ (365 * nanosPerDay : Int) ≤ now.toNanos - past.toNanos)) ∧
    ∀ older newer (bound other : Unused), older.toNanos ≤ newer.toNanos →
      formatUnusedTime now (some older) = bound.label → formatUnusedTime now (some newer) = other.label →
      other.days ≤ bound.days := by
  refine ⟨fun lastAccess => ?_, fun past hlabel => ?_, fun past bound hbound => ⟨?_, ?_⟩,
    fun older newer bound other => days_le_of_formatUnusedTime⟩
  · cases lastAccess with
    | none => exact iff_of_true rfl (.inl rfl)
    | some past => simpa using formatUnusedTime_some_eq_empty_iff
  · obtain ⟨bound, hbound⟩ := (formatUnusedTime_empty_or_label now (some past)).resolve_left hlabel
    exact ⟨bound, hbound, fun other hother => Unused.label_injective (hother.symm.trans hbound)⟩
  · exact isGreatest_of_formatUnusedTime hbound
  · obtain ⟨days, hdays, hnamed⟩ := formatUnusedTime_eq_label_iff.1 hbound
    exact (exists_eq_years_iff hnamed).trans (le_unusedDays_iff hdays 365)

/-- Two accesses before the epoch, a nanosecond apart, of which one is a year back and the other is not. -/
theorem one_nanosecond_makes_a_year :
    let now : Timestamp := ⟨86400, 5, by decide⟩
    let older : Timestamp := ⟨-31449600, 5, by decide⟩
    let newer : Timestamp := ⟨-31449600, 6, by decide⟩
    older.toNanos ≤ newer.toNanos ∧ formatUnusedTime now (some older) ≠ "" ∧
      formatUnusedTime now (some older) = (Unused.years 1).label ∧
      formatUnusedTime now (some newer) = (Unused.months 12).label ∧
      (∃! bound : Unused, formatUnusedTime now (some older) = bound.label) ∧
      IsGreatest {days : Nat | 365 ∣ days ∧ (days * nanosPerDay : Int) ≤ now.toNanos - older.toNanos} 365 ∧
      IsGreatest {days : Nat | 30 ∣ days ∧ (days * nanosPerDay : Int) ≤ now.toNanos - newer.toNanos} 360 ∧
      (Unused.months 12).days ≤ (Unused.years 1).days := by
  intro now older newer
  have hle : older.toNanos ≤ newer.toNanos := by decide
  have hold : formatUnusedTime now (some older) = (Unused.years 1).label := by decide +kernel
  have hnew : formatUnusedTime now (some newer) = (Unused.months 12).label := by decide +kernel
  have hlabel : formatUnusedTime now (some older) ≠ "" := by decide +kernel
  obtain ⟨-, hunique, hlargest, hgrows⟩ := labels_name_the_largest_bound now
  exact ⟨hle, hlabel, hold, hnew, hunique older hlabel, (hlargest older _ hold).1, (hlargest newer _ hnew).1,
    hgrows older newer _ _ hle hold hnew⟩

end DiskUsage.Report
