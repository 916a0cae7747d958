import DiskUsage.Config.Basic

/-!
# Settings

A setting gives one field of a configuration a value.  A configuration is what a list of settings,
applied in order, makes of the defaults; a builder refuses settings that contradict each other.

* `Setting.apply`: a configuration with one more setting.
* `ScanConfig.build`: the configuration of a list of settings, or why there is none.
* `field_set`: of several settings of one field the last one counts.
-/

namespace DiskUsage

/-- A value for one field of a configuration. -/
inductive Setting where
  | maxEntries (n : UInt64)
  | maxLargeFiles (n : UInt64)
  | minLargeFileSize (n : UInt64)
  | foldDirs (names : List String)
  | skipExtensions (names : List String)
  | skipDirs (names : List String)
  | systemDirs (names : List String)
  | homeDir (home : Option RawPath)
  | cachedSubtreeName (name : String)
  | workers (n : Option UInt64)
  | cpuMultiplier (n : UInt64)
  | minWorkers (n : UInt64)
  | maxWorkers (n : UInt64)
  | fastWalkThreads (n : UInt64)
  | duTimeout (d : Duration)
  | indexTimeout (d : Duration)
  | fastWalkDeadline (d : Duration)
  | progressEvery (n : UInt64)
  deriving Repr

/-- Why settings make no configuration. -/
inductive SettingError where
  | noMaxWorkers
  | invertedBounds (low high : UInt64)
  | noWorkers
  | noFastWalkThreads
  deriving DecidableEq, Repr

/-- The text of the error. -/
def SettingError.message : SettingError → String
  | noMaxWorkers => "max_workers must be at least 1"
  | invertedBounds low high =>
    "min_workers (" ++ toString low.toNat ++ ") exceeds max_workers (" ++ toString high.toNat ++ ")"
  | noWorkers => "workers must be at least 1"
  | noFastWalkThreads => "fast_walk_threads must be at least 1"

namespace Setting

/-- A configuration with one more setting. -/
def apply (c : ScanConfig) : Setting → ScanConfig
  | maxEntries n => { c with maxEntries := n }
  | maxLargeFiles n => { c with maxLargeFiles := n }
  | minLargeFileSize n => { c with minLargeFileSize := n }
  | foldDirs names => { c with foldDirs := names }
  | skipExtensions names => { c with skipExtensions := names }
  | skipDirs names => { c with skipDirs := names }
  | systemDirs names => { c with systemDirs := names }
  | homeDir home => { c with homeDir := home }
  | cachedSubtreeName name => { c with cachedSubtreeName := name }
  | workers n => { c with workers := n }
  | cpuMultiplier n => { c with cpuMultiplier := n }
  | minWorkers n => { c with minWorkers := n }
  | maxWorkers n => { c with maxWorkers := n }
  | fastWalkThreads n => { c with fastWalkThreads := n }
  | duTimeout d => { c with duTimeout := d }
  | indexTimeout d => { c with indexTimeout := d }
  | fastWalkDeadline d => { c with fastWalkDeadline := d }
  | progressEvery n => { c with progressEvery := n }

def maxWorkers? : Setting → Option UInt64
  | maxWorkers n => some n
  | _ => none

def minWorkers? : Setting → Option UInt64
  | minWorkers n => some n
  | _ => none

def workers? : Setting → Option (Option UInt64)
  | workers n => some n
  | _ => none

def fastWalkThreads? : Setting → Option UInt64
  | fastWalkThreads n => some n
  | _ => none

/-- The value that the last setting of a field gives it. -/
def last? {α : Type} (value? : Setting → Option α) (settings : List Setting) : Option α :=
  (settings.filterMap value?).getLast?

/-- The bounds on the number of workers, if both are set and contradict each other. -/
def invertedBounds? (settings : List Setting) : Option (UInt64 × UInt64) := do
  let low ← last? minWorkers? settings
  let high ← last? maxWorkers? settings
  if high < low then some (low, high) else none

/-- What is wrong with settings.  Only values that were set are looked at, never the defaults. -/
def error? (settings : List Setting) : Option SettingError :=
  if last? maxWorkers? settings = some 0 then some .noMaxWorkers
  else
    match invertedBounds? settings with
    | some (low, high) => some (.invertedBounds low high)
    | none =>
      if last? workers? settings = some (some 0) then some .noWorkers
      else if last? fastWalkThreads? settings = some 0 then some .noFastWalkThreads
      else none

end Setting

namespace ScanConfig

/-- A configuration with more settings. -/
def set (c : ScanConfig) (settings : List Setting) : ScanConfig :=
  settings.foldl Setting.apply c

/-- The configuration of a list of settings. -/
def build (env : Environment) (settings : List Setting) : Except SettingError ScanConfig :=
  match Setting.error? settings with
  | some e => .error e
  | none => .ok ((default env).set settings)

@[simp] theorem set_nil (c : ScanConfig) : c.set [] = c := rfl

@[simp] theorem set_append (c : ScanConfig) (a b : List Setting) :
    c.set (a ++ b) = (c.set a).set b := by
  simp [set]

/-- **The last setting counts**: a field that each setting leaves alone or gives a value has the value
of the last one that gives it one. -/
theorem field_set {α : Type} (field : ScanConfig → α) (value? : Setting → Option α)
    (h : ∀ c s, field (Setting.apply c s) = (value? s).getD (field c)) (c : ScanConfig)
    (settings : List Setting) :
    field (c.set settings) = (Setting.last? value? settings).getD (field c) := by
  induction settings generalizing c with
  | nil => rfl
  | cons s settings ih =>
    have hs : c.set (s :: settings) = (Setting.apply c s).set settings := rfl
    rw [hs, ih, h]
    simp only [Setting.last?, List.filterMap_cons]
    cases hv : value? s with
    | none => rfl
    | some v => cases hl : (settings.filterMap value?).getLast? <;> simp [List.getLast?_cons, hl]

theorem maxWorkers_set (c : ScanConfig) (settings : List Setting) :
    (c.set settings).maxWorkers = (Setting.last? Setting.maxWorkers? settings).getD c.maxWorkers :=
  field_set maxWorkers Setting.maxWorkers? (fun _ s => by cases s <;> rfl) c settings

theorem minWorkers_set (c : ScanConfig) (settings : List Setting) :
    (c.set settings).minWorkers = (Setting.last? Setting.minWorkers? settings).getD c.minWorkers :=
  field_set minWorkers Setting.minWorkers? (fun _ s => by cases s <;> rfl) c settings

theorem workers_set (c : ScanConfig) (settings : List Setting) :
    (c.set settings).workers = (Setting.last? Setting.workers? settings).getD c.workers :=
  field_set workers Setting.workers? (fun _ s => by cases s <;> rfl) c settings

theorem fastWalkThreads_set (c : ScanConfig) (settings : List Setting) :
    (c.set settings).fastWalkThreads
      = (Setting.last? Setting.fastWalkThreads? settings).getD c.fastWalkThreads :=
  field_set fastWalkThreads Setting.fastWalkThreads? (fun _ s => by cases s <;> rfl) c settings

/-- Settings make a configuration iff nothing is wrong with them. -/
theorem build_isOk_iff (env : Environment) (settings : List Setting) :
    (∃ c, build env settings = .ok c) ↔ Setting.error? settings = none := by
  unfold build
  split <;> simp_all

end ScanConfig

end DiskUsage
