/-!
# Blank characters

The blank characters are those with the Unicode property `White_Space`.  A text is trimmed of them
at both ends, and its first field is the first run of characters that are not blank.

* `takeWhile_append_stop`, `dropWhile_append_stop`: a text is cut where a class of characters ends.
* `trim_append`: trimming removes blank characters only, at the ends only.
* `firstField?_eq_none_iff`: a text has no field iff all of it is blank.
* `firstField?_eq_some`: a field stands between blanks and holds none.
-/

namespace DiskUsage.Text

/-- The Unicode property `White_Space`. -/
def isBlank (c : Char) : Bool :=
  let n := c.toNat
  (9 ≤ n && n ≤ 13) || n == 0x20 || n == 0x85 || n == 0xa0 || n == 0x1680
    || (0x2000 ≤ n && n ≤ 0x200a) || n == 0x2028 || n == 0x2029 || n == 0x202f
    || n == 0x205f || n == 0x3000

/-- Every blank of the smaller class that `Char.isWhitespace` knows is blank. -/
theorem isBlank_of_isWhitespace {c : Char} (h : c.isWhitespace = true) : isBlank c = true := by
  simp only [Char.isWhitespace, Bool.or_eq_true, decide_eq_true_eq] at h
  rcases h with ((rfl | rfl) | rfl) | rfl <;> decide

/-- Drop blank characters at the end. -/
def trimEnd (cs : List Char) : List Char :=
  (cs.reverse.dropWhile isBlank).reverse

/-- Drop blank characters at both ends. -/
def trimChars (cs : List Char) : List Char :=
  trimEnd (cs.dropWhile isBlank)

/-- A text without the blank characters at its ends. -/
def trim (s : String) : String :=
  String.ofList (trimChars s.toList)

/-- The first run of characters that are not blank. -/
def firstField? (cs : List Char) : Option (List Char) :=
  match (cs.dropWhile isBlank).takeWhile (fun c => !isBlank c) with
  | [] => none
  | field => some field

/-! ### Cutting a text where a class of characters ends -/

section Cutting

variable {P : Char → Bool} {cs front rest : List Char} {c : Char}

theorem dropWhile_eq_self (h : ∀ c, cs.head? = some c → P c = false) : cs.dropWhile P = cs := by
  cases cs with
  | nil => rfl
  | cons c cs => rw [List.dropWhile_cons_of_neg (by simp [h c rfl])]

theorem neg_of_head?_dropWhile (h : (cs.dropWhile P).head? = some c) : P c = false := by
  have hhead := List.head?_dropWhile_not P cs
  rwa [h] at hhead

theorem takeWhile_append_stop (hfront : ∀ c ∈ front, P c = true)
    (hrest : ∀ c, rest.head? = some c → P c = false) : (front ++ rest).takeWhile P = front := by
  rw [List.takeWhile_append_of_pos hfront]
  cases rest with
  | nil => simp
  | cons c rest => rw [List.takeWhile_cons_of_neg (by simp [hrest c rfl]), List.append_nil]

theorem dropWhile_append_stop (hfront : ∀ c ∈ front, P c = true)
    (hrest : ∀ c, rest.head? = some c → P c = false) : (front ++ rest).dropWhile P = rest := by
  rw [List.dropWhile_append_of_pos hfront, dropWhile_eq_self hrest]

end Cutting

/-! ### Trimming and fields -/

theorem trimEnd_append (cs : List Char) :
    ∃ tail, cs = trimEnd cs ++ tail ∧ ∀ c ∈ tail, isBlank c = true := by
  refine ⟨(cs.reverse.takeWhile isBlank).reverse, ?_, ?_⟩
  · rw [trimEnd, ← List.reverse_append, List.takeWhile_append_dropWhile, List.reverse_reverse]
  · intro c hc
    have hc' : c ∈ cs.reverse.takeWhile isBlank := by simpa using hc
    exact List.all_eq_true.1 List.all_takeWhile c hc'

/-- **Trimming** removes blank characters only, and only at the ends. -/
theorem trim_append (cs : List Char) :
    ∃ front tail, cs = front ++ trimChars cs ++ tail
      ∧ (∀ c ∈ front, isBlank c = true) ∧ ∀ c ∈ tail, isBlank c = true := by
  obtain ⟨tail, h, ht⟩ := trimEnd_append (cs.dropWhile isBlank)
  refine ⟨cs.takeWhile isBlank, tail, ?_, ?_, ht⟩
  · rw [trimChars, List.append_assoc, ← h, List.takeWhile_append_dropWhile]
  · exact fun c hc => List.all_eq_true.1 List.all_takeWhile c hc

theorem firstField?_eq_none_iff (cs : List Char) :
    firstField? cs = none ↔ ∀ c ∈ cs, isBlank c = true := by
  induction cs with
  | nil => simp [firstField?]
  | cons c cs ih =>
    by_cases h : isBlank c = true
    · simpa [firstField?, h] using ih
    · simp [firstField?, h]

/-- **Fields**: the field is a run of characters that are not blank, with only blanks before it,
and the text ends or a blank follows it. -/
theorem firstField?_eq_some {cs field : List Char} (h : firstField? cs = some field) :
    ∃ front rest, cs = front ++ field ++ rest ∧ (∀ c ∈ front, isBlank c = true)
      ∧ field ≠ [] ∧ (∀ c ∈ field, isBlank c = false)
      ∧ ∀ c, rest.head? = some c → isBlank c = true := by
  have hf : (cs.dropWhile isBlank).takeWhile (fun c => !isBlank c) = field ∧ field ≠ [] := by
    rw [firstField?] at h
    split at h
    · simp at h
    · next hne => exact ⟨Option.some.inj h, by rintro rfl; exact hne (Option.some.inj h)⟩
  obtain ⟨rfl, hne⟩ := hf
  refine ⟨cs.takeWhile isBlank, (cs.dropWhile isBlank).dropWhile fun c => !isBlank c, ?_, ?_, hne,
    ?_, ?_⟩
  · rw [List.append_assoc, List.takeWhile_append_dropWhile, List.takeWhile_append_dropWhile]
  · exact fun c hc => List.all_eq_true.1 List.all_takeWhile c hc
  · intro c hc
    have hall := List.all_eq_true.1 List.all_takeWhile c hc
    simpa using hall
  · intro c hc
    simpa using neg_of_head?_dropWhile hc

end DiskUsage.Text
