import DiskUsage.Config.Setting
import Mathlib.Order.Defs.LinearOrder

/-!
# Which settings make a configuration

A builder looks at the values that were set, and the configuration has those and the defaults of all
other fields.  What is wrong with a value shows either way, as no default is wrong; but the two bounds on
the number of workers are compared only if both were set, so that one of them may contradict the default
of the other.

* `error?_eq_none_iff`: what a builder asks of the values that were set.
* `accepted_settings`: what that says of the configuration.
* `lone_bound_is_accepted`: a bound on the wrong side of the other one's default.
-/

namespace DiskUsage

namespace Setting

/-- The bounds contradict each other only if both are set. -/
theorem invertedBounds?_eq_none_iff (settings : List Setting) :
    invertedBounds? settings = none ↔
      ∀ low high, last? minWorkers? settings = some low → last? maxWorkers? settings = some high →
        low ≤ high := by
  unfold invertedBounds?
  cases last? minWorkers? settings with
  | none => simp
  | some low =>
    cases last? maxWorkers? settings with
    | none => simp
    | some high => simp [UInt64.not_lt]

/-- **Nothing is wrong** with settings iff nothing is wrong with the values that were set. -/
theorem error?_eq_none_iff (settings : List Setting) :
    error? settings = none ↔
      last? maxWorkers? settings ≠ some 0 ∧ invertedBounds? settings = none ∧
        last? workers? settings ≠ some (some 0) ∧ last? fastWalkThreads? settings ≠ some 0 := by
  unfold error?
  by_cases hmax : last? maxWorkers? settings = some 0
  · simp [hmax]
  · rw [if_neg hmax]
    cases hbounds : invertedBounds? settings with
    | some bounds => simp
    | none =>
      by_cases hworkers : last? workers? settings = some (some 0)
      · simp [hworkers]
      · simp [hmax, hworkers]

end Setting

namespace ScanConfig

open Setting

/-- A value that was set, or else a default which is not zero, is zero only if zero was set. -/
theorem one_le_getD_iff {value? : Option UInt64} {default : UInt64} (h : 0 < default) :
    1 ≤ value?.getD default ↔ value? ≠ some 0 := by
  have hzero (n : UInt64) : 1 ≤ n ↔ n ≠ 0 := by
    rw [UInt64.le_iff_toNat_le, Ne, ← UInt64.toNat_inj]
    exact Nat.one_le_iff_ne_zero
  cases value? with
  | none =>
    rw [Option.getD_none, hzero]
    exact iff_of_true (UInt64.ne_of_lt h).symm nofun
  | some n =>
    rw [Option.getD_some, hzero, Ne, Ne, Option.some.injEq]

/-- Where there is a processor, there are threads for the fast walk. -/
theorem defaultFastWalkThreads_pos {processors : UInt64} (h : 0 < processors) :
    0 < defaultFastWalkThreads processors := by
  have hn : 0 < processors.toNat := UInt64.lt_iff_toNat_lt.1 h
  rw [defaultFastWalkThreads, UInt64.lt_iff_toNat_lt, UInt64.toNat_ofNat_of_lt']
  · show 0 < min (processors.toNat * 4) 64
    omega
  · exact Nat.lt_of_le_of_lt (Nat.min_le_right _ _) (by decide)

/-- **Which settings are accepted.**  The configuration has for each field the last value that was set, or
the default.  It is built iff it allows for a worker, has no fixed number of workers that is zero and has
a thread for the fast walk, and its bounds on the number of workers are in order or were not both set.  So
where it is built with its bounds the wrong way round, one of them was set against the default of the
other. -/
theorem accepted_settings (env : Environment) (hprocessors : 0 < env.processors)
    (settings : List Setting) :
    let c := (default env).set settings
    let low? := last? minWorkers? settings
    let high? := last? maxWorkers? settings
    (c.minWorkers = low?.getD 16 ∧ c.maxWorkers = high?.getD 64 ∧
        c.workers = (last? workers? settings).getD none ∧
        c.fastWalkThreads
          = (last? fastWalkThreads? settings).getD (defaultFastWalkThreads env.processors)) ∧
      ((∃ d, build env settings = .ok d) ↔
        1 ≤ c.maxWorkers ∧ c.workers ≠ some 0 ∧ 1 ≤ c.fastWalkThreads ∧
          (c.minWorkers ≤ c.maxWorkers ∨ low? = none ∨ high? = none)) ∧
      (∀ d, build env settings = .ok d → d = c) ∧
      ∀ d, build env settings = .ok d → d.maxWorkers < d.minWorkers →
        (high? = none ∧ ∃ low, low? = some low ∧ 64 < low) ∨
          (low? = none ∧ ∃ high, high? = some high ∧ high < 16) := by
  intro c low? high?
  have hlow : c.minWorkers = low?.getD 16 := minWorkers_set _ settings
  have hhigh : c.maxWorkers = high?.getD 64 := maxWorkers_set _ settings
  have hworkers : c.workers = (last? workers? settings).getD none := workers_set _ settings
  have hthreads : c.fastWalkThreads
      = (last? fastWalkThreads? settings).getD (defaultFastWalkThreads env.processors) :=
    fastWalkThreads_set _ settings
  have hfixed : c.workers ≠ some 0 ↔ last? workers? settings ≠ some (some 0) := by
    rw [hworkers]
    cases last? workers? settings <;> simp
  have hbuilt : (∃ d, build env settings = .ok d) ↔
      1 ≤ c.maxWorkers ∧ c.workers ≠ some 0 ∧ 1 ≤ c.fastWalkThreads ∧
        (c.minWorkers ≤ c.maxWorkers ∨ low? = none ∨ high? = none) := by
    rw [build_isOk_iff, error?_eq_none_iff, invertedBounds?_eq_none_iff, hhigh,
      one_le_getD_iff (by decide), hfixed, hthreads,
      one_le_getD_iff (defaultFastWalkThreads_pos hprocessors), hlow]
    show high? ≠ some 0 ∧ (∀ low high, low? = some low → high? = some high → low ≤ high) ∧ _ ↔ _
    cases low? <;> cases high? <;> grind
  have hsame : ∀ d, build env settings = .ok d → d = c := by
    intro d hd
    unfold build at hd
    split at hd
    · cases hd
    · exact (Except.ok.inj hd).symm
  refine ⟨⟨hlow, hhigh, hworkers, hthreads⟩, hbuilt, hsame, ?_⟩
  intro d hd hinverted
  have horder : c.minWorkers ≤ c.maxWorkers ∨ low? = none ∨ high? = none :=
    (hbuilt.1 ⟨d, hd⟩).2.2.2
  rw [hsame d hd, hlow, hhigh] at hinverted
  rw [hlow, hhigh] at horder
  cases hl : low? with
  | none =>
    cases hh : high? with
    | none => simp [hl, hh] at hinverted
    | some high => exact .inr ⟨rfl, high, rfl, by simpa [hl, hh] using hinverted⟩
  | some low =>
    cases hh : high? with
    | none => exact .inl ⟨rfl, low, rfl, by simpa [hl, hh] using hinverted⟩
    | some high =>
      simp only [hl, hh, Option.getD_some, reduceCtorEq, or_false] at horder hinverted
      exact absurd horder (UInt64.not_le.2 hinverted)

/-- Settings of which the later ones make good what the earlier ones got wrong. -/
def repairedSettings : List Setting :=
  [.maxWorkers 0, .workers (some 0), .minWorkers 8, .maxWorkers 8, .workers none]

theorem repaired_settings_are_accepted :
    0 < (1 : UInt64) ∧ ∃ d, build ⟨none, 1⟩ repairedSettings = .ok d ∧ d.maxWorkers = 8 := by
  obtain ⟨-, hbuilt, -, -⟩ := accepted_settings ⟨none, 1⟩ (by decide) repairedSettings
  obtain ⟨d, hd⟩ := hbuilt.2 (by decide)
  refine ⟨by decide, d, hd, ?_⟩
  cases hd
  rfl

/-- **A lone bound** is accepted on the wrong side of the other one's default. -/
theorem lone_bound_is_accepted :
    ∃ c, build ⟨none, 1⟩ [.maxWorkers 4] = .ok c ∧ c.maxWorkers < c.minWorkers :=
  ⟨_, rfl, by decide⟩

end ScanConfig

end DiskUsage
