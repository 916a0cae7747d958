import DiskUsage.Cache.File
import DiskUsage.Proofs.Json.Spelling
import DiskUsage.Proofs.Json.Words

/-!
# The file says what was remembered

What is written into the file of remembered sizes is read back from it, in the order of the paths, if
sizes and times are 64-bit words.  The order makes no difference to what is found for a path, as long
as every path is remembered once.

* `entries?_encode`: the records of the file are what was remembered.
* `load_of_read`, `load_sound`: what is loaded from a file that was written, and from any other.
-/

namespace DiskUsage.SizeMap

open Json Number

/-- Size and time are 64-bit words. -/
def Words (e : Path × Measured) : Prop :=
  e.2.size < wordCount ∧ e.2.measuredAt < wordCount

/-! ### One record -/

theorem plain_entryJson (e : Path × Measured) : Plain (entryJson e) :=
  ⟨rfl, trivial, rfl, ⟨_, rfl⟩, rfl, ⟨_, rfl⟩, trivial⟩

theorem isSound_entryJson {e : Path × Measured} (h : Words e) : (entryJson e).isSound = true := by
  have hsize : (nat e.2.size).isSound = true := by
    rw [nat, isSound, isHuge_ofNat h.1]
    rfl
  have htime : (nat e.2.measuredAt).isSound = true := by
    rw [nat, isSound, isHuge_ofNat h.2]
    rfl
  simp [entryJson, record, isSound, soundFields, hsize, htime]

theorem nesting_entryJson (e : Path × Measured) : (entryJson e).nesting = 1 := rfl

/-- A record says the path, the size and the time. -/
theorem measured?_entryJson {e : Path × Measured} (h : Words e) : measured? (entryJson e) = some e := by
  have hfields : (entryJson e).readRecord? fieldNames []
      = some [.text e.1.text, .nat e.2.size, .nat e.2.measuredAt] := by
    simp [entryJson, record, fieldNames, readRecord?, Record.read?, keyed?, occurrences, lookup?,
      Record.complete?]
  have hsize := word?_nat h.1
  have htime := word?_nat h.2
  rw [entryJson, record] at hfields ⊢
  rw [measured?, hfields]
  simp [text?, hsize, htime]

/-! ### The whole file -/

theorem plainItems_map (map : SizeMap) : PlainItems (map.map entryJson) := by
  induction map with
  | nil => trivial
  | cons e rest ih => exact ⟨plain_entryJson e, ih⟩

theorem soundItems_map {map : SizeMap} (h : ∀ e ∈ map, Words e) :
    soundItems (map.map entryJson) = true := by
  induction map with
  | nil => rfl
  | cons e rest ih =>
    have hrest := ih fun d hd => h d (List.mem_cons_of_mem _ hd)
    rw [List.map_cons, soundItems, isSound_entryJson (h e List.mem_cons_self), hrest]
    rfl

theorem nestingItems_map_le (map : SizeMap) : nestingItems (map.map entryJson) ≤ 1 := by
  induction map with
  | nil => exact Nat.zero_le 1
  | cons e rest ih =>
    rw [List.map_cons, nestingItems, nesting_entryJson]
    exact Nat.max_le.2 ⟨Nat.le_refl 1, ih⟩

theorem mapM_measured?_map {map : SizeMap} (h : ∀ e ∈ map, Words e) :
    (map.map entryJson).mapM measured? = some map := by
  induction map with
  | nil => rfl
  | cons e rest ih =>
    have hrest := ih fun d hd => h d (List.mem_cons_of_mem _ hd)
    rw [List.map_cons, List.mapM_cons, measured?_entryJson (h e List.mem_cons_self), hrest]
    rfl

/-- **The file** holds the records that were written, in the order of their paths. -/
theorem entries?_encode {map : SizeMap} (h : ∀ e ∈ map, Words e) :
    entries? map.encode = some map.sorted := by
  have hsorted : ∀ e ∈ map.sorted, Words e := fun e he => h e ((sorted_perm map).mem_iff.1 he)
  have hparse : parse? map.encode = some (.array (map.sorted.map entryJson)) :=
    parse?_pretty (plainItems_map map.sorted)
  have hsound : (Json.array (map.sorted.map entryJson)).isSound = true := soundItems_map hsorted
  have hnesting : (Json.array (map.sorted.map entryJson)).nesting ≤ maxNesting := by
    have hitems := nestingItems_map_le map.sorted
    rw [nesting, maxNesting]
    omega
  rw [entries?, hparse, Option.bind_eq_bind, Option.bind_some, hsound, decide_eq_true hnesting]
  exact mapM_measured?_map hsorted

/-! ### What is found -/

/-- Every path is remembered once. -/
def Distinct (map : SizeMap) : Prop :=
  map.Pairwise fun a b => a.1.sameAs b.1 = false

theorem Distinct.perm {a b : SizeMap} (h : Distinct a) (hperm : a.Perm b) : Distinct b :=
  (hperm.pairwise_iff fun h => by rwa [Path.sameAs_comm] at h).1 h

theorem insert_of_not_mem {path : Path} {map : SizeMap} (h : ∀ e ∈ map, e.1.sameAs path = false)
    (m : Measured) : map.insert path m = map ++ [(path, m)] := by
  induction map with
  | nil => rfl
  | cons e rest ih =>
    obtain ⟨p, old⟩ := e
    have hp : p.sameAs path = false := h (p, old) List.mem_cons_self
    rw [insert, hp, if_neg Bool.false_ne_true, ih fun d hd => h d (List.mem_cons_of_mem _ hd)]
    rfl

/-- What is in the map after a measurement was remembered: its measurement is that one or was there
before, and so is its path. -/
theorem mem_insert {path : Path} {m : Measured} {map : SizeMap} {e : Path × Measured}
    (h : e ∈ map.insert path m) :
    (e.2 = m ∨ e ∈ map) ∧ (e.1 = path ∨ ∃ d ∈ map, d.1 = e.1) := by
  induction map with
  | nil =>
    cases List.mem_singleton.1 h
    exact ⟨.inl rfl, .inl rfl⟩
  | cons d rest ih =>
    obtain ⟨p, old⟩ := d
    rw [insert] at h
    split at h
    · rcases List.mem_cons.1 h with rfl | h
      · exact ⟨.inl rfl, .inr ⟨(p, old), List.mem_cons_self, rfl⟩⟩
      · exact ⟨.inr (List.mem_cons_of_mem _ h), .inr ⟨e, List.mem_cons_of_mem _ h, rfl⟩⟩
    · rcases List.mem_cons.1 h with rfl | h
      · exact ⟨.inr List.mem_cons_self, .inr ⟨(p, old), List.mem_cons_self, rfl⟩⟩
      · obtain ⟨hmeasured, hpath⟩ := ih h
        refine ⟨hmeasured.imp id (List.mem_cons_of_mem _), hpath.imp id ?_⟩
        rintro ⟨d, hd, hsame⟩
        exact ⟨d, List.mem_cons_of_mem _ hd, hsame⟩

theorem words_insert {path : Path} {m : Measured} {map : SizeMap} (h : ∀ e ∈ map, Words e)
    (hm : Words (path, m)) : ∀ e ∈ map.insert path m, Words e := by
  intro e he
  rcases (mem_insert he).1 with hnew | hold
  · unfold Words at hm ⊢
    rw [hnew]
    exact hm
  · exact h e hold

theorem Distinct.insert {map : SizeMap} (h : Distinct map) (path : Path) (m : Measured) :
    Distinct (map.insert path m) := by
  induction map with
  | nil => exact List.pairwise_singleton _ _
  | cons d rest ih =>
    obtain ⟨p, old⟩ := d
    obtain ⟨hfirst, hrest⟩ := List.pairwise_cons.1 h
    rw [SizeMap.insert]
    cases hp : p.sameAs path with
    | true =>
      rw [if_pos rfl]
      exact List.pairwise_cons.2 ⟨hfirst, hrest⟩
    | false =>
      rw [if_neg Bool.false_ne_true]
      refine List.pairwise_cons.2 ⟨fun e he => ?_, ih hrest⟩
      rcases (mem_insert he).2 with hsame | ⟨d, hd, hsame⟩
      · rw [hsame]
        exact hp
      · rw [← hsame]
        exact hfirst d hd

theorem Distinct.insertAll {map : SizeMap} (h : Distinct map) (entries : List (Path × Measured)) :
    Distinct (map.insertAll entries) := by
  induction entries generalizing map with
  | nil => exact h
  | cons e rest ih => exact ih (h.insert e.1 e.2)

/-- Distinct entries that are remembered one after the other are all kept as they are. -/
theorem insertAll_of_distinct {map entries : SizeMap} (h : Distinct (map ++ entries)) :
    map.insertAll entries = map ++ entries := by
  induction entries generalizing map with
  | nil => rw [insertAll_nil, List.append_nil]
  | cons e rest ih =>
    have hfresh : ∀ d ∈ map, d.1.sameAs e.1 = false :=
      fun d hd => (List.pairwise_append.1 h).2.2 d hd e List.mem_cons_self
    have hsplit : map ++ e :: rest = (map ++ [e]) ++ rest := by simp
    rw [hsplit] at h ⊢
    rw [← ih h]
    show (map.insert e.1 e.2).insertAll rest = _
    rw [insert_of_not_mem hfresh]

/-- What is found for a path is what an entry of the same path says. -/
theorem Distinct.find?_eq_some_iff {map : SizeMap} (h : Distinct map) {path : Path} {m : Measured} :
    map.find? path = some m ↔ ∃ e ∈ map, e.1.sameAs path = true ∧ e.2 = m := by
  induction map with
  | nil => simp [find?]
  | cons d rest ih =>
    obtain ⟨p, old⟩ := d
    obtain ⟨hfirst, hrest⟩ := List.pairwise_cons.1 h
    rw [find?]
    cases hp : p.sameAs path with
    | true =>
      rw [if_pos rfl]
      constructor
      · intro heq
        exact ⟨(p, old), List.mem_cons_self, hp, Option.some.inj heq⟩
      · rintro ⟨e, he, hsame, rfl⟩
        rcases List.mem_cons.1 he with rfl | he
        · rfl
        · have hpe := Path.sameAs_trans hp (Path.sameAs_comm .. ▸ hsame)
          exact absurd ((hfirst e he).symm.trans hpe) Bool.false_ne_true
    | false =>
      rw [if_neg Bool.false_ne_true, ih hrest]
      constructor
      · rintro ⟨e, he, hsame, rfl⟩
        exact ⟨e, List.mem_cons_of_mem _ he, hsame, rfl⟩
      · rintro ⟨e, he, hsame, rfl⟩
        rcases List.mem_cons.1 he with rfl | he
        · exact absurd (hp.symm.trans hsame) Bool.false_ne_true
        · exact ⟨e, he, hsame, rfl⟩

/-- The order of a map makes no difference to what is found. -/
theorem Distinct.find?_perm {a b : SizeMap} (h : Distinct a) (hperm : a.Perm b) (path : Path) :
    a.find? path = b.find? path := by
  ext m
  show a.find? path = some m ↔ b.find? path = some m
  rw [h.find?_eq_some_iff, (h.perm hperm).find?_eq_some_iff]
  simp only [hperm.mem_iff]

/-- **What was written is loaded**, in the order of the paths. -/
theorem load_of_read {fs : FileSystem} {cwd : List String} {file : Path} {map : SizeMap}
    (hread : fs.read cwd file = .ok map.encode) (hdistinct : Distinct map)
    (hwords : ∀ e ∈ map, Words e) : load fs cwd file = map.sorted := by
  have hsorted : Distinct ([] ++ map.sorted) := hdistinct.perm (sorted_perm map).symm
  rw [load, hread]
  dsimp only
  rw [decode?, entries?_encode hwords, Option.map_some, Option.getD_some,
    insertAll_of_distinct hsorted]
  rfl

/-! ### What is loaded -/

theorem words_measured? {j : Json} {e : Path × Measured} (h : measured? j = some e) : Words e := by
  have hword : ∀ (v : Json) (n : Nat), v.word? = some n → n < Number.wordCount := by
    intro v n hn
    obtain ⟨m, -, hm⟩ := Option.bind_eq_some_iff.1 hn
    split at hm <;> cases hm
    assumption
  unfold measured? at h
  split at h
  · obtain ⟨fields, -, hfields⟩ := Option.bind_eq_some_iff.1 h
    split at hfields
    · obtain ⟨text, -, hsize⟩ := Option.bind_eq_some_iff.1 hfields
      obtain ⟨size, hsizeWord, htime⟩ := Option.bind_eq_some_iff.1 hsize
      obtain ⟨time, htimeWord, he⟩ := Option.bind_eq_some_iff.1 htime
      cases he
      exact ⟨hword _ _ hsizeWord, hword _ _ htimeWord⟩
    · cases hfields
  · cases h

theorem words_mapM_measured? {items : List Json} {entries : List (Path × Measured)}
    (h : items.mapM measured? = some entries) : ∀ e ∈ entries, Words e := by
  induction items generalizing entries with
  | nil =>
    cases h
    nofun
  | cons j items ih =>
    rw [List.mapM_cons] at h
    obtain ⟨first, hfirst, hmore⟩ := Option.bind_eq_some_iff.1 h
    obtain ⟨rest, hrest, hentries⟩ := Option.bind_eq_some_iff.1 hmore
    cases hentries
    intro e he
    rcases List.mem_cons.1 he with rfl | he
    · exact words_measured? hfirst
    · exact ih hrest e he

theorem words_entries? {text : String} {entries : List (Path × Measured)}
    (h : entries? text = some entries) : ∀ e ∈ entries, Words e := by
  unfold entries? at h
  obtain ⟨j, -, hj⟩ := Option.bind_eq_some_iff.1 h
  split at hj
  · obtain ⟨items, -, hitems⟩ := Option.bind_eq_some_iff.1 hj
    exact words_mapM_measured? hitems
  · cases hj

theorem words_insertAll {map : SizeMap} (h : ∀ e ∈ map, Words e) {entries : List (Path × Measured)}
    (hentries : ∀ e ∈ entries, Words e) : ∀ e ∈ map.insertAll entries, Words e := by
  induction entries generalizing map with
  | nil => exact h
  | cons first rest ih =>
    exact ih (words_insert h (hentries first List.mem_cons_self))
      fun e he => hentries e (List.mem_cons_of_mem _ he)

/-- **What is loaded** is in words, and every path is remembered once, whatever the file holds. -/
theorem load_sound (fs : FileSystem) (cwd : List String) (file : Path) :
    (load fs cwd file).Distinct ∧ ∀ e ∈ load fs cwd file, Words e := by
  have hnil : Distinct [] ∧ ∀ e ∈ ([] : SizeMap), Words e := ⟨List.Pairwise.nil, nofun⟩
  unfold load
  split
  · next text _ =>
    unfold decode?
    cases hentries : entries? text with
    | none => exact hnil
    | some entries => exact ⟨hnil.1.insertAll entries, words_insertAll hnil.2 (words_entries? hentries)⟩
  · exact hnil

end DiskUsage.SizeMap
