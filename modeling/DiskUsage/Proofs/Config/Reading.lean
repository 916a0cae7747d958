import DiskUsage.Config.Json
import DiskUsage.Proofs.Json.Records
import Mathlib.Data.Set.Defs

/-!
# A configuration is read back, field by field

An object that tells what a configuration has in some fields is read as a configuration that has the same
in these fields and the defaults in all others, whatever the order of the fields and whatever other
fields stand among them.  A field that is there with no value is not a field that is missing: a home
directory of `null` is none, whatever the default.  Only a home directory whose path is no text cannot be
told.

* `HasForeignHome`, `fieldsToJson?_eq_none_iff`: what cannot be told.
* `Field.Tells`: a value tells what a configuration has in a field.
* `Field.Same`: two configurations have the same in a field, sets of names being sets.
* `Holds`: an object tells what a configuration has in just some fields.
* `configuration_read_back`: what is read from it, and from a configuration that was written;
  `foreign_home_is_not_written`: one that cannot be written.
-/

namespace DiskUsage

/-- The field that a setting gives a value. -/
def Setting.field : Setting → ScanConfig.Field
  | maxEntries _ => .maxEntries
  | maxLargeFiles _ => .maxLargeFiles
  | minLargeFileSize _ => .minLargeFileSize
  | foldDirs _ => .foldDirs
  | skipExtensions _ => .skipExtensions
  | skipDirs _ => .skipDirs
  | systemDirs _ => .systemDirs
  | homeDir _ => .homeDir
  | cachedSubtreeName _ => .cachedSubtreeName
  | workers _ => .workers
  | cpuMultiplier _ => .cpuMultiplier
  | minWorkers _ => .minWorkers
  | maxWorkers _ => .maxWorkers
  | fastWalkThreads _ => .fastWalkThreads
  | duTimeout _ => .duTimeout
  | indexTimeout _ => .indexTimeout
  | fastWalkDeadline _ => .fastWalkDeadline
  | progressEvery _ => .progressEvery

namespace ScanConfig

open Json

variable {a b c : ScanConfig}

namespace Field

/-- The configurations have the same in the field; sets of names are the same if their members are. -/
def Same (a b : ScanConfig) : Field → Prop
  | maxEntries => a.maxEntries = b.maxEntries
  | maxLargeFiles => a.maxLargeFiles = b.maxLargeFiles
  | minLargeFileSize => a.minLargeFileSize = b.minLargeFileSize
  | foldDirs => ∀ name, name ∈ a.foldDirs ↔ name ∈ b.foldDirs
  | skipExtensions => ∀ name, name ∈ a.skipExtensions ↔ name ∈ b.skipExtensions
  | skipDirs => ∀ name, name ∈ a.skipDirs ↔ name ∈ b.skipDirs
  | systemDirs => ∀ name, name ∈ a.systemDirs ↔ name ∈ b.systemDirs
  | homeDir => a.homeDir = b.homeDir
  | cachedSubtreeName => a.cachedSubtreeName = b.cachedSubtreeName
  | workers => a.workers = b.workers
  | cpuMultiplier => a.cpuMultiplier = b.cpuMultiplier
  | minWorkers => a.minWorkers = b.minWorkers
  | maxWorkers => a.maxWorkers = b.maxWorkers
  | fastWalkThreads => a.fastWalkThreads = b.fastWalkThreads
  | duTimeout => a.duTimeout = b.duTimeout
  | indexTimeout => a.indexTimeout = b.indexTimeout
  | fastWalkDeadline => a.fastWalkDeadline = b.fastWalkDeadline
  | progressEvery => a.progressEvery = b.progressEvery

theorem Same.refl (a : ScanConfig) (f : Field) : f.Same a a := by
  cases f with
  | foldDirs | skipExtensions | skipDirs | systemDirs => exact fun _ => Iff.rfl
  | _ => rfl

theorem Same.trans {f : Field} (h : f.Same a b) (k : f.Same b c) : f.Same a c := by
  cases f with
  | foldDirs | skipExtensions | skipDirs | systemDirs => exact fun name => (h name).trans (k name)
  | _ => exact Eq.trans h k

/-- The names in a field that is a set of names. -/
def names? (c : ScanConfig) : Field → Option (List String)
  | foldDirs => some c.foldDirs
  | skipExtensions => some c.skipExtensions
  | skipDirs => some c.skipDirs
  | systemDirs => some c.systemDirs
  | _ => none

/-- The value tells what the configuration has in the field: the names of a set in any order, each as
often as may be, and anything else as it is written. -/
def Tells (c : ScanConfig) (f : Field) (j : Json) : Prop :=
  match f.names? c with
  | some set => ∃ names : List String, j = .array (names.map .text) ∧ ∀ name, name ∈ names ↔ name ∈ set
  | none => f.toJson? c = some j

/-- What is written tells what the configuration has. -/
theorem tells_of_toJson? {f : Field} {j : Json} (h : f.toJson? c = some j) : f.Tells c j := by
  cases f with
  | foldDirs | skipExtensions | skipDirs | systemDirs =>
    cases h
    exact ⟨_, rfl, fun _ => Text.mem_sortedSet⟩
  | _ => exact h

theorem pathJson?_eq_none_iff {path? : Option RawPath} :
    pathJson? path? = none ↔ ∃ bytes h, path? = some (.foreign bytes h) := by
  rcases path? with - | path | ⟨bytes, h⟩
  · exact iff_of_false nofun nofun
  · exact iff_of_false nofun nofun
  · exact iff_of_true rfl ⟨bytes, h, rfl⟩

end Field

/-- The path of the home directory is no text. -/
def HasForeignHome (c : ScanConfig) : Prop :=
  ∃ bytes h, c.homeDir = some (.foreign bytes h)

namespace Field

/-- **What cannot be told** is a home directory whose path is no text. -/
theorem toJson?_eq_none_iff {f : Field} : f.toJson? c = none ↔ f = .homeDir ∧ c.HasForeignHome := by
  cases f with
  | homeDir => exact pathJson?_eq_none_iff.trans (and_iff_right rfl).symm
  | _ => exact iff_of_false nofun nofun

/-- A value that tells what is in a field there is only if it can be told. -/
theorem toJson?_ne_none_of_tells {f : Field} {j : Json} (h : f.Tells c j) : f.toJson? c ≠ none := by
  cases f with
  | homeDir =>
    have hj : toJson? c homeDir = some j := h
    rw [hj]
    nofun
  | _ => nofun

/-! ### One field -/

theorem word64?_wordJson (n : UInt64) : word64? (wordJson n) = some n := by
  rw [word64?, wordJson, word?_nat n.toNat_lt, Option.map_some, UInt64.ofNat_toNat]

theorem texts?_map_text (names : List String) : (Json.array (names.map .text)).texts? = some names := by
  show (names.map Json.text).mapM text? = some names
  induction names with
  | nil => rfl
  | cons name names ih => rw [List.map_cons, List.mapM_cons, ih]; rfl

/-- **A value that tells what a configuration has** is read as a setting that makes it so. -/
theorem setting?_of_tells {f : Field} {j : Json} (h : f.Tells c j) :
    ∃ s, f.setting? j = some s ∧ s.field = f ∧ ∀ b, f.Same (s.apply b) c := by
  cases f with
  | foldDirs | skipExtensions | skipDirs | systemDirs =>
    obtain ⟨names, rfl, hnames⟩ := h
    rw [setting?, texts?_map_text]
    exact ⟨_, rfl, rfl, fun _ => hnames⟩
  | homeDir =>
    have hj : pathJson? c.homeDir = some j := h
    refine ⟨.homeDir c.homeDir, ?_, rfl, fun _ => rfl⟩
    rcases hhome : c.homeDir with - | path | bytes <;> rw [hhome] at hj <;> cases hj <;> rfl
  | workers =>
    cases h
    refine ⟨.workers c.workers, ?_, rfl, fun _ => rfl⟩
    cases hworkers : c.workers with
    | none => rfl
    | some n =>
      have hread := word64?_wordJson n
      rw [wordJson, Json.nat] at hread
      simp [setting?, wordJson, Json.nat, optional?, hread]
  | cachedSubtreeName =>
    cases h
    exact ⟨.cachedSubtreeName c.cachedSubtreeName, rfl, rfl, fun _ => rfl⟩
  | duTimeout | indexTimeout | fastWalkDeadline =>
    cases h
    rw [setting?, Duration.ofJson?_toJson]
    exact ⟨_, rfl, rfl, fun _ => rfl⟩
  | _ =>
    cases h
    rw [setting?, word64?_wordJson]
    exact ⟨_, rfl, rfl, fun _ => rfl⟩

/-- A setting leaves all other fields as they are. -/
theorem same_apply {f : Field} {s : Setting} (h : s.field ≠ f) (b : ScanConfig) :
    f.Same (s.apply b) b := by
  cases f with
  | foldDirs | skipExtensions | skipDirs | systemDirs =>
    cases s <;> first | exact absurd rfl h | exact fun _ => Iff.rfl
  | _ => cases s <;> first | exact absurd rfl h | exact Eq.refl _

end Field

/-! ### All fields -/

/-- **The settings that are read** make fields that have a value so and leave the others as they are. -/
theorem readSettings_of_tells {value? : Field → Option Json}
    (h : ∀ f j, value? f = some j → f.Tells c j) {fs : List Field} (hfs : fs.Nodup) :
    ∃ settings, readSettings fs (fs.map value?) = some settings ∧
      ∀ (b : ScanConfig) (f : Field),
        (f ∈ fs → value? f ≠ none → f.Same (b.set settings) c) ∧
          (f ∉ fs ∨ value? f = none → f.Same (b.set settings) b) := by
  induction fs with
  | nil => exact ⟨[], rfl, fun b f => ⟨nofun, fun _ => Field.Same.refl b f⟩⟩
  | cons first fs ih =>
    obtain ⟨hfirst, hfs⟩ := List.nodup_cons.1 hfs
    obtain ⟨settings, hread, hsame⟩ := ih hfs
    cases hvalue : value? first with
    | none =>
      refine ⟨settings, by rw [List.map_cons, hvalue, readSettings, hread], fun b f => ⟨?_, ?_⟩⟩
      · intro hf hj
        refine (hsame b f).1 ((List.mem_cons.1 hf).resolve_left ?_) hj
        rintro rfl
        exact hj hvalue
      · exact fun hf => (hsame b f).2 (hf.imp_left fun hf => fun hmem => hf (List.mem_cons_of_mem _ hmem))
    | some j =>
      obtain ⟨s, hs, hfield, hmakes⟩ := Field.setting?_of_tells (h first j hvalue)
      refine ⟨s :: settings, by rw [List.map_cons, hvalue, readSettings, hs, hread]; rfl,
        fun b f => ⟨?_, ?_⟩⟩
      · intro hf hj
        rcases List.mem_cons.1 hf with rfl | hf
        · -- the further settings leave the first field as its setting made it
          exact ((hsame (s.apply b) f).2 (.inl hfirst)).trans (hmakes b)
        · exact (hsame (s.apply b) f).1 hf hj
      · intro hf
        have hne : s.field ≠ f := by
          rintro rfl
          rcases hf with hf | hf
          · exact hf (hfield ▸ List.mem_cons_self)
          · rw [hfield, hvalue] at hf
            cases hf
        exact ((hsame (s.apply b) f).2 (hf.imp_left fun hf hmem => hf (List.mem_cons_of_mem _ hmem))).trans
          (Field.same_apply hne b)

/-- The fields of an object tell what a configuration has in just these fields, each once, in any order
and with fields of other names among them. -/
structure Holds (c : ScanConfig) (S : Set Field) (fields : List (Option String × Json)) : Prop where
  texts : ∀ field ∈ fields, field.1.isSome = true
  once : ∀ f : Field, occurrences fields f.name ≤ 1
  mem_iff : ∀ f : Field, f ∈ S ↔ ∃ j, (some f.name, j) ∈ fields
  value : ∀ (f : Field) (j : Json), (some f.name, j) ∈ fields → f.Tells c j

namespace Holds

variable {S : Set Field} {fields : List (Option String × Json)}

/-- A field is found iff it is one of these, and then it tells what the configuration has. -/
theorem lookup? (h : Holds c S fields) (f : Field) :
    (f ∈ S ↔ Json.lookup? fields f.name ≠ none) ∧
      ∀ j, Json.lookup? fields f.name = some j → f.Tells c j := by
  refine ⟨?_, fun j hj => h.value f j (mem_of_lookup? hj)⟩
  rw [h.mem_iff]
  constructor
  · rintro ⟨j, hj⟩ hnone
    rw [lookup?_eq_some_of_mem hj (h.once f)] at hnone
    cases hnone
  · intro hsome
    obtain ⟨j, hj⟩ := Option.ne_none_iff_exists'.1 hsome
    exact ⟨j, mem_of_lookup? hj⟩

/-- **What is read** from such an object: these fields, and the defaults of the others. -/
theorem ofJson? (h : Holds c S fields) (env : Environment) :
    ∃ d, ScanConfig.ofJson? env (.object fields) = some d ∧
      (∀ f ∈ S, f.Same d c) ∧ ∀ f, f ∉ S → f.Same d (default env) := by
  obtain ⟨settings, hread, hsame⟩ := readSettings_of_tells
    (fun f j hj => (h.lookup? f).2 j hj) (show Field.all.Nodup by decide)
  have hkeyed : keyed? (Field.all.map Field.name) fields
      = some (Field.all.map fun f => Json.lookup? fields f.name) := by
    rw [keyed?_eq_some h.texts, List.map_map]
    · rfl
    · intro name hname
      obtain ⟨f, -, rfl⟩ := List.mem_map.1 hname
      exact h.once f
  have hsettings : settings? (.object fields) = some settings := by
    rw [settings?, Record.read?, hkeyed]
    exact hread
  refine ⟨(default env).set settings, by rw [ScanConfig.ofJson?, hsettings]; rfl, fun f hf => ?_,
    fun f hf => ?_⟩
  · exact (hsame _ f).1 f.mem_all ((h.lookup? f).1.1 hf)
  · exact (hsame _ f).2 (.inr (not_not.1 fun hne => hf ((h.lookup? f).1.2 hne)))

end Holds

/-! ### What is written -/

/-- Some fields cannot be told together iff one of them cannot. -/
theorem fieldsToJson?_eq_none_iff {fs : List Field} :
    c.fieldsToJson? fs = none ↔ .homeDir ∈ fs ∧ c.HasForeignHome := by
  rw [fieldsToJson?, Option.map_eq_none_iff, mapM_eq_none_iff]
  simp only [Option.map_eq_none_iff, Field.toJson?_eq_none_iff]
  constructor
  · rintro ⟨f, hf, rfl, hhome⟩
    exact ⟨hf, hhome⟩
  · exact fun ⟨hf, hhome⟩ => ⟨_, hf, rfl, hhome⟩

/-- The value of a field, if it can be told. -/
def fieldJson (c : ScanConfig) (f : Field) : Json :=
  (f.toJson? c).getD .null

theorem toJson?_eq_fieldJson {f : Field} (h : f.toJson? c ≠ none) : f.toJson? c = some (c.fieldJson f) := by
  obtain ⟨j, hj⟩ := Option.ne_none_iff_exists'.1 h
  rw [fieldJson, hj]
  rfl

/-- Fields that can be told are written one by one. -/
theorem fieldsToJson?_eq_some {fs : List Field} (h : ¬(.homeDir ∈ fs ∧ c.HasForeignHome)) :
    (∀ f ∈ fs, f.toJson? c = some (c.fieldJson f)) ∧
      c.fieldsToJson? fs = some (.object (fs.map fun f => (some f.name, c.fieldJson f))) := by
  have htold : ∀ f ∈ fs, f.toJson? c = some (c.fieldJson f) := by
    refine fun f hf => toJson?_eq_fieldJson fun hnone => h ?_
    obtain ⟨rfl, hhome⟩ := Field.toJson?_eq_none_iff.1 hnone
    exact ⟨hf, hhome⟩
  have hwritten : fs.mapM (fun f : Field => (f.toJson? c).map fun j => (f.name, j))
      = some (fs.map fun f => (f.name, c.fieldJson f)) := by
    clear h
    induction fs with
    | nil => rfl
    | cons f fs ih =>
      rw [List.mapM_cons, htold f List.mem_cons_self, ih fun g hg => htold g (List.mem_cons_of_mem _ hg)]
      rfl
  refine ⟨htold, ?_⟩
  rw [fieldsToJson?, hwritten, Option.map_some, record, List.map_map]
  rfl

/-- Some fields that are written tell what the configuration has in them. -/
theorem holds_fieldsToJson? {fs : List Field} (hfs : fs.Nodup)
    (h : ∀ f ∈ fs, f.toJson? c = some (c.fieldJson f)) :
    Holds c {f | f ∈ fs} (fs.map fun f => (some f.name, c.fieldJson f)) where
  texts field hfield := by
    obtain ⟨f, -, rfl⟩ := List.mem_map.1 hfield
    rfl
  once f := by
    have hnames : (fs.map Field.name).Nodup := hfs.map fun _ _ => Field.name_injective
    have hcount := occurrences_map_some (fs.map fun f => (f.name, c.fieldJson f)) f.name
    simp only [List.map_map] at hcount
    exact hcount ▸ List.nodup_iff_count_le_one.1 hnames f.name
  mem_iff f := by
    constructor
    · exact fun hf => ⟨_, List.mem_map.2 ⟨f, hf, rfl⟩⟩
    · rintro ⟨j, hj⟩
      obtain ⟨g, hg, heq⟩ := List.mem_map.1 hj
      rw [← Field.name_injective (Option.some.inj (Prod.mk.inj heq).1)]
      exact hg
  value f j hj := by
    obtain ⟨g, hg, heq⟩ := List.mem_map.1 hj
    obtain ⟨hname, rfl⟩ := Prod.mk.inj heq
    rw [Field.name_injective (Option.some.inj hname)] at hg ⊢
    exact Field.tells_of_toJson? (h f hg)

/-- **An object that tells just these fields** there is iff the home directory is not one of them, or can be
told. -/
theorem exists_holds_iff (c : ScanConfig) (S : Set Field) :
    (∃ fields, Holds c S fields) ↔ ¬(.homeDir ∈ S ∧ c.HasForeignHome) := by
  constructor
  · rintro ⟨fields, h⟩ ⟨hmem, hhome⟩
    obtain ⟨j, hj⟩ := (h.mem_iff .homeDir).1 hmem
    exact Field.toJson?_ne_none_of_tells (h.value .homeDir j hj)
      (Field.toJson?_eq_none_iff.2 ⟨rfl, hhome⟩)
  · intro h
    classical
    let fs := Field.all.filter fun f => decide (f ∈ S)
    have hmem (f : Field) : f ∈ fs ↔ f ∈ S := by simp [fs, f.mem_all]
    have hS : {f | f ∈ fs} = S := Set.ext hmem
    have hnodup : fs.Nodup := (show Field.all.Nodup by decide).filter _
    have hhome : ¬(.homeDir ∈ fs ∧ c.HasForeignHome) := fun hfs => h ⟨(hmem _).1 hfs.1, hfs.2⟩
    exact ⟨_, hS ▸ holds_fieldsToJson? hnodup (fieldsToJson?_eq_some hhome).1⟩

theorem plain_fieldJson (c : ScanConfig) (f : Field) : Plain (c.fieldJson f) := by
  have hnames (names : List String) : Plain (Field.namesJson names) := by
    refine plainItems_iff.2 fun j hj => ?_
    obtain ⟨name, -, rfl⟩ := List.mem_map.1 hj
    trivial
  have hword (n : UInt64) : Plain (Field.wordJson n) := plain_nat _
  cases f with
  | foldDirs | skipExtensions | skipDirs | systemDirs => exact hnames _
  | homeDir =>
    rcases hhome : c.homeDir with - | path | bytes <;>
      simp [fieldJson, Field.toJson?, Field.pathJson?, RawPath.text?, hhome, Plain]
  | workers =>
    cases hworkers : c.workers <;> simp [fieldJson, Field.toJson?, hworkers, hword, Plain]
  | cachedSubtreeName => trivial
  | duTimeout | indexTimeout | fastWalkDeadline => exact plain_record (by simp [plain_nat])
  | _ => exact hword _

/-- **A configuration is read back.**  A text for an object that tells what it has in some fields is
read as a configuration that has the same in these fields, and the defaults in the others.  For every choice
of fields there is such an object, unless a home directory has to be told whose path is no text; and such a
home directory is all that keeps a configuration from being written.  What is written, compact or pretty, is
read as a configuration that has the same in all fields. -/
theorem configuration_read_back (env : Environment) (c : ScanConfig) :
    (∀ (S : Set Field) (fields : List (Option String × Json)) (text : String), Holds c S fields →
      parse? text = some (.object fields) →
        ∃ d, ofText? env text = some d ∧
          (∀ f ∈ S, f.Same d c) ∧ ∀ f, f ∉ S → f.Same d (default env)) ∧
      (∀ S : Set Field, (∃ fields, Holds c S fields) ↔ ¬(.homeDir ∈ S ∧ c.HasForeignHome)) ∧
      (c.toJson? = none ↔ c.HasForeignHome) ∧
      ∀ j, c.toJson? = some j → ∀ text, text = j.compact ∨ text = j.pretty →
        ∃ d, ofText? env text = some d ∧ ∀ f : Field, f.Same d c := by
  have hread : ∀ (S : Set Field) (fields : List (Option String × Json)) (text : String),
      Holds c S fields → parse? text = some (.object fields) →
        ∃ d, ofText? env text = some d ∧
          (∀ f ∈ S, f.Same d c) ∧ ∀ f, f ∉ S → f.Same d (default env) := by
    intro S fields text h htext
    obtain ⟨d, hd, hsame⟩ := h.ofJson? env
    exact ⟨d, by rw [ofText?, htext]; exact hd, hsame⟩
  have hnone : c.toJson? = none ↔ c.HasForeignHome :=
    fieldsToJson?_eq_none_iff.trans (and_iff_right (Field.mem_all _))
  refine ⟨hread, exists_holds_iff c, hnone, fun j hj text htext => ?_⟩
  have hhome : ¬c.HasForeignHome := fun hhome => by
    rw [hnone.2 hhome] at hj
    cases hj
  have hnone' : ¬(.homeDir ∈ Field.all ∧ c.HasForeignHome) := fun h => hhome h.2
  obtain ⟨htold, hwritten⟩ := fieldsToJson?_eq_some hnone'
  obtain rfl : j = _ := Option.some.inj (hj.symm.trans hwritten)
  have hplain : Plain (.object (Field.all.map fun f => (some f.name, c.fieldJson f))) := by
    have hrecord : Plain (record (Field.all.map fun f => (f.name, c.fieldJson f))) := by
      refine plain_record fun field hfield => ?_
      obtain ⟨f, -, rfl⟩ := List.mem_map.1 hfield
      exact plain_fieldJson c f
    rwa [record, List.map_map] at hrecord
  have hparse : parse? text = some (.object (Field.all.map fun f => (some f.name, c.fieldJson f))) := by
    rcases htext with rfl | rfl
    · exact parse?_compact hplain
    · exact parse?_pretty hplain
  obtain ⟨d, hd, hsame, -⟩ := hread _ _ text (holds_fieldsToJson? (by decide) htold) hparse
  exact ⟨d, hd, fun f => hsame f f.mem_all⟩

/-- Four fields in an order of their own, one of them with no value and one with a name that stands
twice, and two fields that no configuration has. -/
def fourFields : List (Option String × Json) := [
  (some "workers", .nat 3), (some "colour", .array [.record [("workers", .nat 1)]]),
  (some "home_dir", .null), (some "fold_dirs", .array [.text "b", .text "a", .text "b"]),
  (some "", .null), (some "du_timeout", .record [("secs", .nat 1), ("nanos", .nat 5)])]

theorem fourFields_read :
    ∃ d, ofText? ⟨some (.text ⟨"/home/me"⟩), 4⟩ (pretty (.object fourFields)) = some d ∧
      d.homeDir = none ∧ d.workers = some 3 ∧ d.duTimeout = ⟨1, 5, by decide⟩ ∧
      (∀ name, name ∈ d.foldDirs ↔ name ∈ ["a", "b"]) ∧ d.maxEntries = 30 ∧ d.fastWalkThreads = 16 := by
  let c : ScanConfig := { default ⟨none, 1⟩ with
    homeDir := none, workers := some 3, duTimeout := ⟨1, 5, by decide⟩, foldDirs := ["a", "b"] }
  let S : Set Field := {f | f ∈ [Field.workers, .homeDir, .foldDirs, .duTimeout]}
  have hparse : parse? (pretty (.object fourFields)) = some (.object fourFields) :=
    parse?_pretty (by simp [fourFields, Plain, PlainItems, PlainFields, record, plain_nat])
  have hholds : Holds c S fourFields := by
    refine ⟨by decide, ?_, ?_, ?_⟩
    · intro f
      cases f <;> decide
    · intro f
      cases f <;> simp [S, fourFields, Field.name]
    · intro f j hj
      cases f <;> simp [fourFields, Field.name] at hj <;> subst hj
      · exact ⟨["b", "a", "b"], rfl, by simp [c]⟩
      all_goals rfl
  obtain ⟨d, hd, hsame, hdefault⟩ :=
    (configuration_read_back ⟨some (.text ⟨"/home/me"⟩), 4⟩ c).1 S fourFields _ hholds hparse
  exact ⟨d, hd, hsame .homeDir (by simp [S]), hsame .workers (by simp [S]),
    hsame .duTimeout (by simp [S]), hsame .foldDirs (by simp [S]), hdefault .maxEntries (by simp [S]),
    hdefault .fastWalkThreads (by simp [S])⟩

/-- A configuration whose home directory is no text is not written, and no object tells its home directory. -/
theorem foreign_home_is_not_written :
    let home : RawPath := .ofBytes (Text.Utf8.encode "/h/" ++ [0xff])
    let c : ScanConfig := { default ⟨none, 1⟩ with homeDir := some home }
    c.homeDir.map RawPath.bytes = some [0x2f, 0x68, 0x2f, 0xff] ∧ c.toJson? = none ∧
      ¬∃ fields, Holds c {.homeDir} fields := by
  intro home c
  have hforeign : ¬Text.Utf8.IsText (Text.Utf8.encode "/h/" ++ [0xff]) := by decide +kernel
  have hhome : c.HasForeignHome := ⟨_, hforeign, congrArg some (dif_neg hforeign)⟩
  refine ⟨by decide +kernel, fieldsToJson?_eq_none_iff.2 ⟨Field.mem_all _, hhome⟩, ?_⟩
  rw [exists_holds_iff, not_not]
  exact ⟨rfl, hhome⟩

end ScanConfig

end DiskUsage
