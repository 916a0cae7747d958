import DiskUsage.Json.Record
import DiskUsage.Proofs.Json.Spelling
import Mathlib.Data.List.Nodup

/-!
# What a record holds is read from it

A field that occurs once in an object is found wherever it stands, and the other fields make no
difference to it.  So a record that was written with all its fields is read back.

* `lookup?_eq_some_of_mem`: the value of a field that occurs once.
* `keyed?_eq_some`: when the fields of an object are read.
* `mapM_eq_none_iff`, `mapM_mapM`: lists that are written and read item by item.
* `readRecord?_record`: a record is read back; `plain_record`: and it is plain if its values are.
-/

namespace DiskUsage.Json

variable {fields : List (Option String × Json)} {name : String}

theorem occurrences_cons (f : Option String × Json) (rest : List (Option String × Json)) :
    occurrences (f :: rest) name = occurrences rest name + if f.1 = some name then 1 else 0 := by
  simp [occurrences, List.countP_cons]

/-- A field occurs at all iff it is counted. -/
theorem occurrences_pos_iff : 0 < occurrences fields name ↔ ∃ j, (some name, j) ∈ fields := by
  rw [occurrences, List.countP_pos_iff]
  constructor
  · rintro ⟨⟨found, j⟩, hmem, hname⟩
    exact ⟨j, eq_of_beq hname ▸ hmem⟩
  · rintro ⟨j, hmem⟩
    exact ⟨_, hmem, BEq.rfl⟩

theorem lookup?_cons (f : Option String × Json) (rest : List (Option String × Json)) :
    lookup? (f :: rest) name = if f.1 = some name then some f.2 else lookup? rest name := by
  by_cases h : f.1 = some name <;> simp [lookup?, h]

/-- What is found stands under its name. -/
theorem mem_of_lookup? {j : Json} (h : lookup? fields name = some j) : (some name, j) ∈ fields := by
  induction fields with
  | nil => cases h
  | cons f rest ih =>
    rw [lookup?_cons] at h
    split at h
    · next hname =>
      cases h
      exact hname ▸ List.mem_cons_self
    · exact List.mem_cons_of_mem _ (ih h)

/-- The value of a field that occurs once, wherever it stands. -/
theorem lookup?_eq_some_of_mem {j : Json} (hmem : (some name, j) ∈ fields)
    (hocc : occurrences fields name ≤ 1) : lookup? fields name = some j := by
  induction fields with
  | nil => cases hmem
  | cons f rest ih =>
    rw [occurrences_cons] at hocc
    rw [lookup?_cons]
    by_cases hname : f.1 = some name
    · -- the field is here, so it does not occur in the rest
      rw [if_pos hname] at hocc ⊢
      rcases List.mem_cons.1 hmem with rfl | hmem
      · rfl
      · have hpos : 0 < occurrences rest name := occurrences_pos_iff.2 ⟨j, hmem⟩
        omega
    · rw [if_neg hname] at hocc ⊢
      rcases List.mem_cons.1 hmem with rfl | hmem
      · exact absurd rfl hname
      · exact ih hmem hocc

/-- **An object is read** if its names are texts and no field that is looked for occurs twice. -/
theorem keyed?_eq_some {names : List String} (htexts : ∀ f ∈ fields, f.1.isSome = true)
    (hocc : ∀ n ∈ names, occurrences fields n ≤ 1) :
    keyed? names fields = some (names.map (lookup? fields)) := by
  have hall : fields.all (fun f => f.1.isSome) = true := List.all_eq_true.2 htexts
  have honce : names.all (fun n => decide (occurrences fields n ≤ 1)) = true :=
    List.all_eq_true.2 fun n hn => decide_eq_true (hocc n hn)
  rw [keyed?, hall, honce]
  rfl

/-! ### Records with all their fields -/

theorem occurrences_map_some (fields : List (String × Json)) (name : String) :
    occurrences (fields.map fun f => (some f.1, f.2)) name = (fields.map Prod.fst).count name := by
  rw [occurrences, List.countP_map, List.count, List.countP_map]
  rfl

/-- All fields of a record are complete. -/
theorem complete?_keyed (fields : List (String × Json)) (optional : List String) :
    Record.complete? (fields.map Prod.fst) optional (.keyed (fields.map fun f => some f.2))
      = some (fields.map Prod.snd) := by
  rw [Record.complete?]
  induction fields with
  | nil => rfl
  | cons f rest ih =>
    rw [List.map_cons, List.map_cons, List.zip_cons_cons, List.mapM_cons, ih]
    rfl

/-- **A record** is read back. -/
theorem readRecord?_record (fields : List (String × Json)) (hnames : (fields.map Prod.fst).Nodup)
    (optional : List String) :
    (record fields).readRecord? (fields.map Prod.fst) optional = some (fields.map Prod.snd) := by
  have hocc (n : String) : occurrences (fields.map fun f => (some f.1, f.2)) n ≤ 1 := by
    rw [occurrences_map_some]
    exact List.nodup_iff_count_le_one.1 hnames n
  have htexts : ∀ f ∈ fields.map fun f => (some f.1, f.2), f.1.isSome = true := by
    intro f hf
    obtain ⟨g, -, rfl⟩ := List.mem_map.1 hf
    rfl
  have hvalues : (fields.map Prod.fst).map (lookup? (fields.map fun f => (some f.1, f.2)))
      = fields.map fun f => some f.2 := by
    rw [List.map_map]
    refine List.map_congr_left fun f hf => ?_
    exact lookup?_eq_some_of_mem (List.mem_map.2 ⟨f, hf, rfl⟩) (hocc f.1)
  rw [record, readRecord?, Record.read?, keyed?_eq_some htexts fun n _ => hocc n, hvalues]
  exact complete?_keyed fields optional

/-! ### Lists of values -/

/-- A list is written iff each of its items is. -/
theorem mapM_eq_none_iff {α β : Type} (f : α → Option β) (items : List α) :
    items.mapM f = none ↔ ∃ a ∈ items, f a = none := by
  induction items with
  | nil => simp
  | cons a items ih =>
    cases ha : f a with
    | none => simp [ha]
    | some b =>
      cases hrest : items.mapM f with
      | none => simpa [ha, hrest] using ih.1 hrest
      | some bs =>
        have hnot : ¬∃ a ∈ items, f a = none := by rw [← ih, hrest]; nofun
        simpa [ha, hrest] using hnot

/-- What is written item by item is read back item by item, in the same order. -/
theorem mapM_mapM {α β : Type} {write : α → Option β} {read : β → Option α} {items : List α}
    (h : ∀ a ∈ items, ∀ b, write a = some b → read b = some a) {written : List β}
    (hwritten : items.mapM write = some written) : written.mapM read = some items := by
  induction items generalizing written with
  | nil =>
    cases hwritten
    rfl
  | cons a items ih =>
    rw [List.mapM_cons] at hwritten
    obtain ⟨b, hb, hmore⟩ := Option.bind_eq_some_iff.1 hwritten
    obtain ⟨bs, hbs, heq⟩ := Option.bind_eq_some_iff.1 hmore
    cases heq
    have hfirst : read b = some a := h a List.mem_cons_self b hb
    have hrest : bs.mapM read = some items :=
      ih (fun a ha => h a (List.mem_cons_of_mem _ ha)) hbs
    rw [List.mapM_cons, hfirst, hrest]
    rfl

/-- What is written item by item comes from an item. -/
theorem exists_of_mem_mapM {α β : Type} {write : α → Option β} {items : List α} {written : List β}
    (h : items.mapM write = some written) : ∀ b ∈ written, ∃ a ∈ items, write a = some b := by
  induction items generalizing written with
  | nil =>
    cases h
    nofun
  | cons a items ih =>
    rw [List.mapM_cons] at h
    obtain ⟨b, hb, hmore⟩ := Option.bind_eq_some_iff.1 h
    obtain ⟨bs, hbs, heq⟩ := Option.bind_eq_some_iff.1 hmore
    cases heq
    intro c hc
    rcases List.mem_cons.1 hc with rfl | hc
    · exact ⟨a, List.mem_cons_self, hb⟩
    · obtain ⟨d, hd, hwrite⟩ := ih hbs c hc
      exact ⟨d, List.mem_cons_of_mem _ hd, hwrite⟩

/-! ### Plain values -/

theorem plain_nat (n : Nat) : Plain (nat n) :=
  ⟨n, rfl⟩

theorem plainItems_iff {items : List Json} : PlainItems items ↔ ∀ j ∈ items, Plain j := by
  induction items with
  | nil => exact iff_of_true trivial nofun
  | cons j rest ih => rw [PlainItems, ih, List.forall_mem_cons]

/-- A record is plain if its values are. -/
theorem plain_record {fields : List (String × Json)} (h : ∀ f ∈ fields, Plain f.2) :
    Plain (record fields) := by
  show PlainFields _
  induction fields with
  | nil => trivial
  | cons f rest ih =>
    exact ⟨rfl, h f List.mem_cons_self, ih fun g hg => h g (List.mem_cons_of_mem _ hg)⟩

end DiskUsage.Json
