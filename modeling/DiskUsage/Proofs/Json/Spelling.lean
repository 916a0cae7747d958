import DiskUsage.Json.Printer
import DiskUsage.Json.Reader
import Mathlib.Data.List.TakeDrop
import Mathlib.Tactic.IntervalCases

/-!
# What is spelled is read

A value is spelled by its tokens with blanks between them.  Whatever spells a value is read as that
value, and both ways of writing a value spell it, if its strings are texts and its numbers naturals.

* `Spells`: the characters spell the value.
* `readText_quoteText`, `readNumeral_toDigits`: strings and numbers are read back.
* `readValue_spells`: what spells a value is read as it.
* `spells_compact`, `spells_pretty`: what is written spells the value; `parse?_compact`,
  `parse?_pretty`: so it is read back.
-/

namespace DiskUsage.Json

/-! ### Strings -/

theorem settle_of_half_eq_none {t : TextSoFar} (h : t.half = none) : t.settle = t := by
  cases t
  simp_all [TextSoFar.settle]

theorem half_push (t : TextSoFar) (c : Char) : (t.push c).half = none := rfl

/-- An escape by code for a control stands for that control. -/
theorem readTextFrom_hex4 {n : Nat} (h : n < 0x20) (t : TextSoFar) (cs : List Char) :
    readTextFrom (.code 4 0) t (hex4 n ++ cs) = readTextFrom .plain (t.push (Char.ofNat n)) cs := by
  interval_cases n <;> rfl

/-- An escaped character is read as itself. -/
theorem readTextFrom_escape (t : TextSoFar) (c : Char) (cs : List Char) :
    readTextFrom .plain t (escape c ++ cs) = readTextFrom .plain (t.push c) cs := by
  by_cases hq : c = '"'
  · subst hq; rfl
  by_cases hb : c = '\\'
  · subst hb; rfl
  by_cases hcontrol : c.toNat < 0x20
  · by_cases hs : c = '\x08' ∨ c = '\x0c' ∨ c = '\n' ∨ c = '\r' ∨ c = '\t'
    · rcases hs with rfl | rfl | rfl | rfl | rfl <;> rfl
    · obtain ⟨h1, h2, h3, h4, h5⟩ : c ≠ '\x08' ∧ c ≠ '\x0c' ∧ c ≠ '\n' ∧ c ≠ '\r' ∧ c ≠ '\t' := by
        simpa only [not_or] using hs
      have hescape : escape c = '\\' :: 'u' :: hex4 c.toNat := by
        simp [escape, hq, hb, h1, h2, h3, h4, h5, hcontrol]
      have hcode := readTextFrom_hex4 hcontrol t cs
      rw [Char.ofNat_toNat] at hcode
      rw [hescape, List.cons_append, List.cons_append, ← hcode]
      rfl
  · rw [escape_of_visible (by omega) hq hb, List.singleton_append, readTextFrom]
    simp [hq, hb, hcontrol]

theorem readTextFrom_flatMap_escape (s : List Char) (t : TextSoFar) (h : t.half = none)
    (rest : List Char) :
    readTextFrom .plain t (s.flatMap escape ++ '"' :: rest)
      = some (TextSoFar.finish { t with text := s.reverse ++ t.text }, rest) := by
  induction s generalizing t with
  | nil => rfl
  | cons c s ih =>
    rw [List.flatMap_cons, List.append_assoc, readTextFrom_escape, ih _ (half_push t c),
      TextSoFar.push, settle_of_half_eq_none h]
    simp

/-- **Strings** are read back. -/
theorem readText_quoteText (s : String) (rest : List Char) :
    readText (s.toList.flatMap escape ++ '"' :: rest) = some (some s, rest) := by
  rw [readText, readTextFrom_flatMap_escape _ _ rfl]
  simp [TextSoFar.empty, TextSoFar.finish, TextSoFar.settle]

/-! ### Numbers -/

/-- What follows cannot go on a number. -/
def endsNumber : List Char → Bool
  | [] => true
  | c :: _ => !(c.isDigit || c == '.' || c == 'e' || c == 'E')

theorem span_isDigit {digits rest : List Char} (hdigits : ∀ c ∈ digits, c.isDigit = true)
    (hrest : endsNumber rest = true) : (digits ++ rest).span Char.isDigit = (digits, rest) := by
  rw [List.span_eq_takeWhile_dropWhile, List.takeWhile_append_of_pos hdigits,
    List.dropWhile_append_of_pos hdigits]
  cases rest with
  | nil => simp
  | cons c rest =>
    have hc : c.isDigit = false := by simp_all [endsNumber]
    simp [hc]

theorem head?_toDigits_ne_zero {n : Nat} (h : 0 < n) : (Nat.toDigits 10 n).head? ≠ some '0' := by
  induction n using Nat.strongRecOn with
  | ind n ih =>
    by_cases hlt : n < 10
    · rw [Nat.toDigits_of_lt_base hlt, List.head?_cons, Ne, Option.some.injEq, Nat.digitChar_eq_zero]
      omega
    · have hdigits := Nat.toDigits_ne_nil (n := n / 10) (b := 10)
      obtain ⟨c, cs, hcs⟩ := List.exists_cons_of_ne_nil hdigits
      have hhead := ih (n / 10) (by omega) (by omega)
      rw [hcs] at hhead
      rw [Nat.toDigits_of_base_le (by decide) (by omega), hcs]
      exact hhead

theorem readWhole_toDigits (n : Nat) {rest : List Char} (hrest : endsNumber rest = true) :
    readWhole (Nat.toDigits 10 n ++ rest) = some (Nat.toDigits 10 n, rest) := by
  have hdigits : ∀ c ∈ Nat.toDigits 10 n, c.isDigit = true :=
    fun c hc => Nat.isDigit_of_mem_toDigits (by decide) (by decide) hc
  rcases Nat.eq_zero_or_pos n with rfl | hpos
  · rfl
  · obtain ⟨c, cs, hcs⟩ := List.exists_cons_of_ne_nil (Nat.toDigits_ne_nil (n := n) (b := 10))
    have hzero : c ≠ '0' := by
      have hhead := head?_toDigits_ne_zero hpos
      rw [hcs] at hhead
      simpa using hhead
    have hspan := span_isDigit hdigits hrest
    rw [hcs, List.cons_append] at hspan ⊢
    unfold readWhole
    split
    · next heq => exact absurd (List.cons.inj heq).1 hzero
    · rw [readDigits, hspan]

/-- **Numbers** are read back. -/
theorem readNumeral_toDigits (n : Nat) {rest : List Char} (hrest : endsNumber rest = true) :
    readNumeral (Nat.toDigits 10 n ++ rest) = some (.ofNat n, rest) := by
  have hwhole := readWhole_toDigits n hrest
  obtain ⟨c, cs, hcs⟩ := List.exists_cons_of_ne_nil (Nat.toDigits_ne_nil (n := n) (b := 10))
  have hdigit : c.isDigit = true :=
    Nat.isDigit_of_mem_toDigits (b := 10) (n := n) (by decide) (by decide) (by rw [hcs]; simp)
  have hsign : c ≠ '-' := by
    rintro rfl
    cases hdigit
  have hfraction : readFraction rest = some (none, rest) := by
    unfold readFraction
    split
    · cases hrest
    · rfl
  have hexponent : readExponent rest = some (none, rest) := by
    cases rest with
    | nil => rfl
    | cons d ds =>
      have hd : d ≠ 'e' ∧ d ≠ 'E' := by
        constructor <;> (rintro rfl; cases hrest)
      simp [readExponent, hd]
  rw [hcs, List.cons_append] at hwhole ⊢
  unfold readNumeral
  split
  next negative left hmatch =>
    split at hmatch
    · next heq => exact absurd (List.cons.inj heq).1 hsign
    · cases hmatch
      simp only [hwhole, hfraction, hexponent, Option.bind_eq_bind, Option.bind_some]
      rw [Numeral.ofNat, hcs]
      rfl

/-! ### Values -/

/-- Nothing but blanks. -/
def IsGap (cs : List Char) : Prop :=
  ∀ c ∈ cs, isGap c = true

theorem skipGap_append {gap : List Char} (h : IsGap gap) (cs : List Char) :
    skipGap (gap ++ cs) = skipGap cs :=
  List.dropWhile_append_of_pos h

theorem skipGap_cons {c : Char} (h : isGap c = false) (cs : List Char) :
    skipGap (c :: cs) = c :: cs := by
  simp [skipGap, h]

mutual
/-- The characters spell the value. -/
inductive Spells : Json → List Char → Prop where
  | null : Spells .null "null".toList
  | yes : Spells (.bool true) "true".toList
  | no : Spells (.bool false) "false".toList
  | nat (n : Nat) : Spells (.nat n) (Nat.toDigits 10 n)
  | text (s : String) : Spells (.text s) (quoteText s)
  | emptyArray : Spells (.array []) ['[', ']']
  | array {j : Json} {rest : List Json} {gap cs ds : List Char} :
      IsGap gap → Spells j cs → SpellsItems rest ds → Spells (.array (j :: rest)) ('[' :: gap ++ cs ++ ds)
  | emptyObject : Spells (.object []) ['\x7b', '\x7d']
  | object (name : String) {j : Json} {rest : List (Option String × Json)}
      {gap space cs ds : List Char} :
      IsGap gap → IsGap space → Spells j cs → SpellsFields rest ds →
        Spells (.object ((some name, j) :: rest))
          ('\x7b' :: gap ++ quoteText name ++ ':' :: space ++ cs ++ ds)

/-- The characters spell the further items of an array, and its end. -/
inductive SpellsItems : List Json → List Char → Prop where
  | nil {gap : List Char} : IsGap gap → SpellsItems [] (gap ++ [']'])
  | cons {j : Json} {rest : List Json} {gap cs ds : List Char} :
      IsGap gap → Spells j cs → SpellsItems rest ds → SpellsItems (j :: rest) (',' :: gap ++ cs ++ ds)

/-- The characters spell the further fields of an object, and its end. -/
inductive SpellsFields : List (Option String × Json) → List Char → Prop where
  | nil {gap : List Char} : IsGap gap → SpellsFields [] (gap ++ ['\x7d'])
  | cons (name : String) {j : Json} {rest : List (Option String × Json)}
      {gap space cs ds : List Char} :
      IsGap gap → IsGap space → Spells j cs → SpellsFields rest ds →
        SpellsFields ((some name, j) :: rest)
          (',' :: gap ++ quoteText name ++ ':' :: space ++ cs ++ ds)
end

/-- The character can begin a value. -/
def beginsValue (c : Char) : Bool :=
  c.isDigit || ['n', 't', 'f', '"', '[', '\x7b'].contains c

theorem Spells.exists_cons {j : Json} {cs : List Char} (h : Spells j cs) :
    ∃ c rest, cs = c :: rest ∧ beginsValue c = true := by
  cases h with
  | nat n =>
    obtain ⟨c, rest, hcs⟩ := List.exists_cons_of_ne_nil (Nat.toDigits_ne_nil (n := n) (b := 10))
    have hdigit : c.isDigit = true :=
      Nat.isDigit_of_mem_toDigits (b := 10) (n := n) (by decide) (by decide) (by rw [hcs]; simp)
    exact ⟨c, rest, hcs, by rw [beginsValue, hdigit, Bool.true_or]⟩
  | _ => exact ⟨_, _, rfl, by decide⟩

theorem isGap_eq_false_of_beginsValue {c : Char} (h : beginsValue c = true) : isGap c = false := by
  cases hgap : isGap c with
  | false => rfl
  | true =>
    simp only [isGap, Bool.or_eq_true, beq_iff_eq] at hgap
    rcases hgap with ((rfl | rfl) | rfl) | rfl <;> cases h

/-! ### Reading values -/

/-- The characters are read as the value, with blanks before them and anything after them that cannot
go on a number. -/
def IsRead (j : Json) (cs : List Char) : Prop :=
  ∀ (gap rest : List Char) (fuel : Nat), IsGap gap → endsNumber rest = true → cs.length ≤ fuel →
    readValue fuel (gap ++ (cs ++ rest)) = some (j, rest)

theorem endsNumber_gap_append {gap : List Char} (h : IsGap gap) {c : Char}
    (hc : endsNumber [c] = true) (cs : List Char) : endsNumber (gap ++ c :: cs) = true := by
  cases gap with
  | nil => exact hc
  | cons d gap =>
    have hd := h d List.mem_cons_self
    simp only [isGap, Bool.or_eq_true, beq_iff_eq] at hd
    rcases hd with ((rfl | rfl) | rfl) | rfl <;> rfl

theorem SpellsItems.endsNumber {items : List Json} {ds : List Char} (h : SpellsItems items ds)
    (rest : List Char) : endsNumber (ds ++ rest) = true := by
  cases h with
  | nil hgap =>
    rw [List.append_assoc]
    exact endsNumber_gap_append hgap rfl rest
  | cons => rfl

theorem SpellsFields.endsNumber {fields : List (Option String × Json)} {ds : List Char}
    (h : SpellsFields fields ds) (rest : List Char) : endsNumber (ds ++ rest) = true := by
  cases h with
  | nil hgap =>
    rw [List.append_assoc]
    exact endsNumber_gap_append hgap rfl rest
  | cons => rfl

section Steps

variable {fuel : Nat} {gap cs rest : List Char}

/-- A value that begins with a digit is read as a number. -/
theorem readValue_of_isDigit (hgap : IsGap gap) {c : Char} (hc : c.isDigit = true) :
    readValue (fuel + 1) (gap ++ c :: cs)
      = (readNumeral (c :: cs)).map fun (n, rest) => (.number n, rest) := by
  have hbegins : beginsValue c = true := by rw [beginsValue, hc, Bool.true_or]
  rw [readValue, skipGap_append hgap, skipGap_cons (isGap_eq_false_of_beginsValue hbegins)]
  split <;> first | rfl | (next heq => cases heq; cases hc)

theorem readValue_quote (hgap : IsGap gap) {s : String} (h : readText cs = some (some s, rest)) :
    readValue (fuel + 1) (gap ++ '"' :: cs) = some (.text s, rest) := by
  rw [readValue, skipGap_append hgap, skipGap_cons rfl]
  simp only [h]

theorem readValue_bracket (fuel : Nat) (cs : List Char) (hgap : IsGap gap) {inner : List Char}
    (hinner : IsGap inner) {c : Char} (hc : beginsValue c = true) :
    readValue (fuel + 1) (gap ++ '[' :: (inner ++ c :: cs)) = readItems fuel [] (c :: cs) := by
  rw [readValue, skipGap_append hgap, skipGap_cons rfl]
  simp only [skipGap_append hinner, skipGap_cons (isGap_eq_false_of_beginsValue hc)]
  split
  · next heq => cases heq; cases hc
  · rfl

theorem readValue_brace (hgap : IsGap gap) {inner : List Char} (hinner : IsGap inner) :
    readValue (fuel + 1) (gap ++ '\x7b' :: (inner ++ '"' :: cs)) = readFields fuel [] ('"' :: cs) := by
  rw [readValue, skipGap_append hgap, skipGap_cons rfl]
  simp only [skipGap_append hinner, skipGap_cons (c := '"') rfl]
  rfl

theorem readItems_close {done : List Json} {j : Json} (hgap : IsGap gap)
    (h : readValue fuel cs = some (j, gap ++ ']' :: rest)) :
    readItems (fuel + 1) done cs = some (.array (j :: done).reverse, rest) := by
  rw [readItems, h]
  simp only [skipGap_append hgap, skipGap_cons (c := ']') rfl]

theorem readItems_comma {done : List Json} {j : Json}
    (h : readValue fuel cs = some (j, ',' :: rest)) :
    readItems (fuel + 1) done cs = readItems fuel (j :: done) rest := by
  rw [readItems, h]
  simp only [skipGap_cons (c := ',') rfl]

/-- A field is read up to the end of its value. -/
theorem readFields_value (done : List (Option String × Json)) {name : String} {j : Json}
    (hgap : IsGap gap) {after : List Char} (hname : readText cs = some (some name, ':' :: after))
    (h : readValue fuel after = some (j, rest)) :
    readFields (fuel + 1) done (gap ++ '"' :: cs)
      = match skipGap rest with
        | ',' :: rest => readFields fuel ((some name, j) :: done) rest
        | '\x7d' :: rest => some (.object ((some name, j) :: done).reverse, rest)
        | _ => none := by
  rw [readFields, skipGap_append hgap, skipGap_cons rfl]
  simp only [hname, skipGap_cons (c := ':') rfl]
  generalize readValue fuel after = read at h ⊢
  subst h
  rfl

end Steps

mutual
/-- **What spells a value** is read as it. -/
theorem Spells.isRead {j : Json} {cs : List Char} (h : Spells j cs) : IsRead j cs := by
  intro gap rest fuel hgap hrest hfuel
  obtain ⟨c, tail, hcs, hbegins⟩ := h.exists_cons
  obtain ⟨fuel, rfl⟩ : ∃ f, fuel = f + 1 := by
    rw [hcs, List.length_cons] at hfuel
    exact ⟨fuel - 1, by omega⟩
  cases h with
  | nat n =>
    have hdigit : c.isDigit = true :=
      Nat.isDigit_of_mem_toDigits (b := 10) (n := n) (by decide) (by decide) (by rw [hcs]; simp)
    have hnumber := readNumeral_toDigits n hrest
    rw [hcs, List.cons_append] at hnumber ⊢
    rw [readValue_of_isDigit hgap hdigit, hnumber]
    rfl
  | null | yes | no =>
    rw [readValue, skipGap_append hgap]
    rfl
  | text s =>
    rw [quoteText, List.cons_append, List.cons_append]
    refine readValue_quote hgap ?_
    rw [List.append_assoc, List.singleton_append]
    exact readText_quoteText s rest
  | emptyArray | emptyObject =>
    rw [readValue, skipGap_append hgap]
    rfl
  | @array j items inner cs ds hinner h hs =>
    obtain ⟨d, first, hfirst, hd⟩ := h.exists_cons
    have hitems := SpellsItems.isRead hs (Spells.isRead h) [] rest [] fuel nofun (by
      simp only [List.length_append, List.length_cons] at hfuel
      omega)
    have hbracket := readValue_bracket fuel (first ++ (ds ++ rest)) hgap hinner hd
    rw [hfirst] at hitems ⊢
    simp only [List.nil_append, List.cons_append, List.append_assoc] at hitems hbracket ⊢
    rw [hbracket, hitems]
    rfl
  | @object name j fields inner space cs ds hinner hspace h hs =>
    have hfields := SpellsFields.isRead hs (Spells.isRead h) name [] space rest [] fuel nofun hspace (by
      simp only [List.length_append, List.length_cons] at hfuel
      omega)
    simp only [quoteText, List.nil_append, List.cons_append, List.append_assoc] at hfields ⊢
    rw [readValue_brace hgap hinner, hfields]
    rfl

theorem SpellsItems.isRead {items : List Json} {ds : List Char} (hs : SpellsItems items ds)
    {j : Json} {cs : List Char} (hread : IsRead j cs) (gap rest : List Char) (done : List Json)
    (fuel : Nat) (hgap : IsGap gap) (hfuel : cs.length + ds.length ≤ fuel) :
    readItems fuel done (gap ++ (cs ++ (ds ++ rest)))
      = some (.array (done.reverse ++ j :: items), rest) := by
  have hends := hs.endsNumber rest
  cases hs with
  | @nil inner hinner =>
    rw [List.length_append, List.length_singleton] at hfuel
    obtain ⟨fuel, rfl⟩ : ∃ f, fuel = f + 1 := ⟨fuel - 1, by omega⟩
    have hvalue := hread gap _ fuel hgap hends (by omega)
    rw [List.append_assoc inner, List.singleton_append] at hvalue ⊢
    rw [readItems_close hinner hvalue, List.reverse_cons]
  | @cons next items inner ds es hinner h hs =>
    simp only [List.length_append, List.length_cons] at hfuel
    obtain ⟨fuel, rfl⟩ : ∃ f, fuel = f + 1 := ⟨fuel - 1, by omega⟩
    have hvalue := hread gap _ fuel hgap hends (by omega)
    have hrest := SpellsItems.isRead hs (Spells.isRead h) inner rest (j :: done) fuel hinner (by omega)
    simp only [List.cons_append, List.append_assoc] at hvalue ⊢
    rw [readItems_comma hvalue, hrest]
    simp

theorem SpellsFields.isRead {fields : List (Option String × Json)} {ds : List Char}
    (hs : SpellsFields fields ds) {j : Json} {cs : List Char} (hread : IsRead j cs) (name : String)
    (gap space rest : List Char) (done : List (Option String × Json)) (fuel : Nat) (hgap : IsGap gap)
    (hspace : IsGap space) (hfuel : cs.length + ds.length ≤ fuel) :
    readFields fuel done (gap ++ (quoteText name ++ ':' :: (space ++ (cs ++ (ds ++ rest)))))
      = some (.object (done.reverse ++ (some name, j) :: fields), rest) := by
  have hends := hs.endsNumber rest
  cases hs with
  | @nil inner hinner =>
    rw [List.length_append, List.length_singleton] at hfuel
    obtain ⟨fuel, rfl⟩ : ∃ f, fuel = f + 1 := ⟨fuel - 1, by omega⟩
    have hvalue := hread space _ fuel hspace hends (by omega)
    have hname := readText_quoteText name (':' :: (space ++ (cs ++ (inner ++ ['\x7d'] ++ rest))))
    have hfield := readFields_value done hgap hname hvalue
    rw [List.append_assoc inner, List.singleton_append, skipGap_append hinner,
      skipGap_cons (c := '\x7d') rfl, List.reverse_cons] at hfield
    simp only [quoteText, List.cons_append, List.append_assoc, List.nil_append] at hfield ⊢
    exact hfield
  | @cons next value fields inner more ds es hinner hmore h hs =>
    simp only [List.length_append, List.length_cons] at hfuel
    obtain ⟨fuel, rfl⟩ : ∃ f, fuel = f + 1 := ⟨fuel - 1, by omega⟩
    have hvalue := hread space _ fuel hspace hends (by omega)
    have hname := readText_quoteText name
      (':' :: (space ++ (cs ++ ((',' :: inner ++ quoteText next ++ ':' :: more ++ ds ++ es) ++ rest))))
    have hfield := readFields_value done hgap hname hvalue
    have hrest := SpellsFields.isRead hs (Spells.isRead h) next inner more rest ((some name, j) :: done)
      fuel hinner hmore (by omega)
    simp only [quoteText, List.cons_append, List.append_assoc, List.nil_append,
      skipGap_cons (c := ',') rfl] at hfield hrest ⊢
    rw [hfield, hrest]
    simp
end

theorem parseChars?_of_spells {j : Json} {cs : List Char} (h : Spells j cs) :
    parseChars? cs = some j := by
  have hread := h.isRead [] [] (fuelFor cs) nofun rfl (by unfold fuelFor; omega)
  rw [List.nil_append, List.append_nil] at hread
  rw [parseChars?, hread]
  rfl

/-! ### Writing values -/

mutual
/-- Every string in the value is a text, and every number a natural in digits. -/
def Plain : Json → Prop
  | .number n => ∃ k, n = .ofNat k
  | .broken => False
  | .array items => PlainItems items
  | .object fields => PlainFields fields
  | _ => True

def PlainItems : List Json → Prop
  | [] => True
  | j :: rest => Plain j ∧ PlainItems rest

def PlainFields : List (Option String × Json) → Prop
  | [] => True
  | (name, j) :: rest => name.isSome = true ∧ Plain j ∧ PlainFields rest
end

theorem isGap_newLine (level : Nat) : IsGap (newLine level) := by
  intro c hc
  rcases List.mem_cons.1 hc with rfl | hc
  · rfl
  · rw [List.eq_of_mem_replicate hc]
    rfl

theorem isGap_nil : IsGap [] :=
  nofun

theorem isGap_space : IsGap [' '] := by
  intro c hc
  rw [List.mem_singleton.1 hc]
  rfl

theorem spells_scalarChars_number {n : Numeral} (h : Plain (.number n)) :
    Spells (.number n) (scalarChars (.number n)) := by
  obtain ⟨k, rfl⟩ := h
  have hchars : scalarChars (.number (.ofNat k)) = Nat.toDigits 10 k := by
    simp [scalarChars, Numeral.chars, Numeral.ofNat]
  rw [hchars]
  exact .nat k

mutual
/-- **One item or field a line** spells the value. -/
theorem spells_prettyChars {j : Json} (h : Plain j) (level : Nat) :
    Spells j (prettyChars level j) := by
  cases j with
  | null => exact .null
  | bool b => cases b <;> constructor
  | number n => exact spells_scalarChars_number h
  | text s => exact .text s
  | broken => cases h
  | array items =>
    cases items with
    | nil => exact .emptyArray
    | cons j rest =>
      rw [prettyChars]
      exact .array (isGap_newLine _) (spells_prettyChars h.1 _) (spells_prettyItems h.2 _)
  | object fields =>
    cases fields with
    | nil => exact .emptyObject
    | cons f rest =>
      obtain ⟨name, j⟩ := f
      obtain ⟨s, rfl⟩ := Option.isSome_iff_exists.1 h.1
      have hspells := Spells.object s (isGap_newLine (level + 1)) isGap_space
        (spells_prettyChars h.2.1 (level + 1)) (spells_prettyFields h.2.2 level)
      rw [List.append_assoc _ _ (prettyChars (level + 1) j)] at hspells
      exact hspells

theorem spells_prettyItems {items : List Json} (h : PlainItems items) (level : Nat) :
    SpellsItems items (prettyItems level items) := by
  cases items with
  | nil => exact .nil (isGap_newLine level)
  | cons j rest =>
    rw [prettyItems]
    exact .cons (isGap_newLine _) (spells_prettyChars h.1 _) (spells_prettyItems h.2 _)

theorem spells_prettyFields {fields : List (Option String × Json)} (h : PlainFields fields)
    (level : Nat) : SpellsFields fields (prettyFields level fields) := by
  cases fields with
  | nil => exact .nil (isGap_newLine level)
  | cons f rest =>
    obtain ⟨name, j⟩ := f
    obtain ⟨s, rfl⟩ := Option.isSome_iff_exists.1 h.1
    have hspells := SpellsFields.cons s (isGap_newLine (level + 1)) isGap_space
      (spells_prettyChars h.2.1 (level + 1)) (spells_prettyFields h.2.2 level)
    rw [List.append_assoc _ _ (prettyChars (level + 1) j)] at hspells
    exact hspells
end

mutual
/-- **No blank** spells the value too. -/
theorem spells_compactChars {j : Json} (h : Plain j) : Spells j (compactChars j) := by
  cases j with
  | null => exact .null
  | bool b => cases b <;> constructor
  | number n => exact spells_scalarChars_number h
  | text s => exact .text s
  | broken => cases h
  | array items =>
    cases items with
    | nil => exact .emptyArray
    | cons j rest =>
      rw [compactChars]
      exact .array isGap_nil (spells_compactChars h.1) (spells_compactItems h.2)
  | object fields =>
    cases fields with
    | nil => exact .emptyObject
    | cons f rest =>
      obtain ⟨name, j⟩ := f
      obtain ⟨s, rfl⟩ := Option.isSome_iff_exists.1 h.1
      have hspells := Spells.object s isGap_nil isGap_nil (spells_compactChars h.2.1)
        (spells_compactFields h.2.2)
      rw [List.append_assoc _ _ (compactChars j)] at hspells
      exact hspells

theorem spells_compactItems {items : List Json} (h : PlainItems items) :
    SpellsItems items (compactItems items) := by
  cases items with
  | nil => exact .nil isGap_nil
  | cons j rest =>
    rw [compactItems]
    exact .cons isGap_nil (spells_compactChars h.1) (spells_compactItems h.2)

theorem spells_compactFields {fields : List (Option String × Json)} (h : PlainFields fields) :
    SpellsFields fields (compactFields fields) := by
  cases fields with
  | nil => exact .nil isGap_nil
  | cons f rest =>
    obtain ⟨name, j⟩ := f
    obtain ⟨s, rfl⟩ := Option.isSome_iff_exists.1 h.1
    have hspells := SpellsFields.cons s isGap_nil isGap_nil (spells_compactChars h.2.1)
      (spells_compactFields h.2.2)
    rw [List.append_assoc _ _ (compactChars j)] at hspells
    exact hspells
end

/-- **What is written is read back.** -/
theorem parse?_pretty {j : Json} (h : Plain j) : parse? j.pretty = some j := by
  rw [parse?, pretty, String.toList_ofList]
  exact parseChars?_of_spells (spells_prettyChars h 0)

theorem parse?_compact {j : Json} (h : Plain j) : parse? j.compact = some j := by
  rw [parse?, compact, String.toList_ofList]
  exact parseChars?_of_spells (spells_compactChars h)

end DiskUsage.Json
