import DiskUsage.Usage.Kilobytes
import Mathlib.Algebra.Ring.Int.Defs
import Mathlib.Data.List.Induction

/-!
# Which outputs tell a size

What an output in kilobytes says depends on its first field only: the first run of characters that are not
blank.  If it is a decimal numeral with or without a sign, and its number is a signed 64-bit word, then it
is a size or, if it is not positive, a size that cannot be right.  Every other output says nothing.

* `Text.IsFirstField`, `firstField?_eq_some_iff`: what the first field of a text is.
* `Number.Decimal`, `Number.Signed`, `integer?_eq_some_iff`: numerals with their numbers.
* `Usage.Tells`, `leadingNumber?_eq_some_iff`: the number that an output begins with.
* `Usage.output_tells_its_first_field`: what is made of every output.
-/

namespace DiskUsage

/-! ### The first field of a text -/

namespace Text

/-- The field is a run of characters that are not blank; before it there are blanks only, and behind it the
text ends or a blank follows. -/
def IsFirstField (cs field : List Char) : Prop :=
  ∃ front rest, cs = front ++ field ++ rest ∧ (∀ c ∈ front, isBlank c = true) ∧ field ≠ [] ∧
    (∀ c ∈ field, isBlank c = false) ∧ ∀ c, rest.head? = some c → isBlank c = true

/-- **The first field** is the one that is taken, and no other. -/
theorem firstField?_eq_some_iff {cs field : List Char} :
    firstField? cs = some field ↔ IsFirstField cs field := by
  refine ⟨firstField?_eq_some, ?_⟩
  rintro ⟨front, rest, rfl, hfront, hne, hfield, hrest⟩
  have hdrop : (front ++ field ++ rest).dropWhile isBlank = field ++ rest := by
    rw [List.append_assoc, dropWhile_append_stop hfront]
    intro c hc
    cases field with
    | nil => exact absurd rfl hne
    | cons d field =>
      cases hc
      exact hfield c List.mem_cons_self
  have htake : (field ++ rest).takeWhile (fun c => !isBlank c) = field :=
    takeWhile_append_stop (by simpa using hfield) (by simpa using hrest)
  unfold firstField?
  rw [hdrop, htake]
  cases field with
  | nil => exact absurd rfl hne
  | cons c field => rfl

end Text

/-! ### Numerals -/

namespace Number

/-- A decimal numeral, of one ASCII digit or more, and its number. -/
inductive Decimal : List Char → Nat → Prop
  | digit {c : Char} (hc : c.isDigit = true) : Decimal [c] (c.toNat - '0'.toNat)
  | more {cs : List Char} {n : Nat} {c : Char} (h : Decimal cs n) (hc : c.isDigit = true) :
      Decimal (cs ++ [c]) (10 * n + (c.toNat - '0'.toNat))

/-- A decimal numeral after a sign, or without one, and its number. -/
inductive Signed : List Char → Int → Prop
  | bare {cs : List Char} {n : Nat} (h : Decimal cs n) : Signed cs n
  | plus {cs : List Char} {n : Nat} (h : Decimal cs n) : Signed ('+' :: cs) n
  | minus {cs : List Char} {n : Nat} (h : Decimal cs n) : Signed ('-' :: cs) (-n)

variable {cs : List Char} {n : Nat} {v : Int}

theorem Decimal.natural?_eq (h : Decimal cs n) : natural? cs = some n := by
  induction h with
  | digit hc => simp [natural?, hc, Nat.ofDigitChars_cons]
  | more h hc ih =>
    obtain ⟨-, hdigits, rfl⟩ := natural?_eq_some_iff.1 ih
    refine natural?_eq_some_iff.2 ⟨by simp, by simp [hdigits, hc], ?_⟩
    rw [Nat.ofDigitChars_append, Nat.ofDigitChars_cons, Nat.ofDigitChars_nil]

theorem decimal_of_natural? (h : natural? cs = some n) : Decimal cs n := by
  obtain ⟨hne, hdigits, rfl⟩ := natural?_eq_some_iff.1 h
  clear h
  -- the last digit is the one with the least weight
  induction cs using List.reverseRecOn with
  | nil => exact absurd rfl hne
  | append_singleton cs c ih =>
    simp only [List.all_append, List.all_cons, List.all_nil, Bool.and_true, Bool.and_eq_true] at hdigits
    rw [Nat.ofDigitChars_append, Nat.ofDigitChars_cons, Nat.ofDigitChars_nil]
    by_cases hnil : cs = []
    · subst hnil
      simpa using Decimal.digit hdigits.2
    · exact (ih hnil hdigits.1).more hdigits.2

/-- A numeral begins with a digit. -/
theorem Decimal.exists_cons (h : Decimal cs n) : ∃ c rest, cs = c :: rest ∧ c.isDigit = true := by
  induction h with
  | digit hc => exact ⟨_, [], rfl, hc⟩
  | more h hc ih =>
    obtain ⟨c, rest, rfl, hdigit⟩ := ih
    exact ⟨c, rest ++ [_], rfl, hdigit⟩

/-- What begins with a digit has no sign. -/
theorem integer?_of_isDigit {c : Char} (hc : c.isDigit = true) (rest : List Char) :
    integer? (c :: rest) = (natural? (c :: rest)).map Int.ofNat := by
  unfold integer?
  split
  · next heq =>
    cases heq
    exact absurd hc (by decide)
  · next heq =>
    cases heq
    exact absurd hc (by decide)
  · rfl

theorem integer?_minus (cs : List Char) :
    integer? ('-' :: cs) = (natural? cs).map fun n => -Int.ofNat n := by
  rw [integer?]
  cases natural? cs <;> rfl

/-- **Exactly the numerals** with or without a sign are read as integers, each as its number. -/
theorem integer?_eq_some_iff : integer? cs = some v ↔ Signed cs v := by
  constructor
  · intro h
    unfold integer? at h
    split at h
    · next cs =>
      obtain ⟨n, hn, rfl⟩ := Option.map_eq_some_iff.1 ((integer?_minus cs).symm.trans h)
      exact .minus (decimal_of_natural? hn)
    · obtain ⟨n, hn, rfl⟩ := Option.map_eq_some_iff.1 h
      exact .plus (decimal_of_natural? hn)
    · obtain ⟨n, hn, rfl⟩ := Option.map_eq_some_iff.1 h
      exact .bare (decimal_of_natural? hn)
  · intro h
    cases h with
    | bare h =>
      obtain ⟨c, rest, rfl, hc⟩ := h.exists_cons
      rw [integer?_of_isDigit hc, h.natural?_eq]
      rfl
    | plus h =>
      rw [integer?, h.natural?_eq]
      rfl
    | minus h =>
      rw [integer?_minus, h.natural?_eq]
      rfl

end Number

/-! ### Outputs -/

namespace Usage

open Text Number

variable {output : String} {v w : Int}

/-- The first field of the output is a numeral of this number. -/
def Tells (output : String) (v : Int) : Prop :=
  ∃ field, IsFirstField output.toList field ∧ Signed field v

/-- An output tells one number at most. -/
theorem Tells.eq (h : Tells output v) (k : Tells output w) : v = w := by
  obtain ⟨field, hfield, hv⟩ := h
  obtain ⟨field', hfield', hw⟩ := k
  rw [← firstField?_eq_some_iff] at hfield hfield'
  obtain rfl : field = field' := Option.some.inj (hfield.symm.trans hfield')
  rw [← integer?_eq_some_iff] at hv hw
  exact Option.some.inj (hv.symm.trans hw)

theorem isSignedWord_iff : isSignedWord v = true ↔ -2 ^ 63 ≤ v ∧ v ≤ 2 ^ 63 - 1 := by
  simp [isSignedWord]

/-- **The number** that an output begins with is the one that it tells, if that is a signed word. -/
theorem leadingNumber?_eq_some_iff :
    leadingNumber? output = some v ↔ Tells output v ∧ -2 ^ 63 ≤ v ∧ v ≤ 2 ^ 63 - 1 := by
  constructor
  · intro h
    obtain ⟨field, hfield, hmore⟩ := Option.bind_eq_some_iff.1 h
    obtain ⟨n, hn, hword⟩ := Option.bind_eq_some_iff.1 hmore
    split at hword
    · next hsigned =>
      cases hword
      exact ⟨⟨field, firstField?_eq_some_iff.1 hfield, integer?_eq_some_iff.1 hn⟩,
        isSignedWord_iff.1 hsigned⟩
    · cases hword
  · rintro ⟨⟨field, hfield, hv⟩, hword⟩
    rw [leadingNumber?, firstField?_eq_some_iff.2 hfield]
    simp [integer?_eq_some_iff.2 hv, isSignedWord_iff.2 hword]

theorem leadingNumber?_eq_none_iff :
    leadingNumber? output = none ↔ ¬∃ v, Tells output v ∧ -2 ^ 63 ≤ v ∧ v ≤ 2 ^ 63 - 1 := by
  simp only [← leadingNumber?_eq_some_iff, ← Option.isSome_iff_exists, Option.not_isSome_iff_eq_none]

/-- A positive number of kilobytes in bytes, which is at most the largest word. -/
theorem bytes_of_kilobytes (h : 0 < v) (b : Nat) :
    min (v.toNat * 1024) maxWord = b ↔ (b : Int) = min (1024 * v) (2 ^ 64 - 1) := by
  unfold maxWord wordCount
  omega

/-- **What an output says.**  It is a size iff its first field is a numeral, with or without a sign, of a
positive signed word, and then that many kilobytes in bytes, or the largest word if that is less.  It is a
size that cannot be right iff its first field is a numeral of any other signed word.  And every other output
says nothing, for which the whole of it is given as the reason. -/
theorem output_tells_its_first_field (output : String) :
    (∀ b, parseKilobytes output = .ok b ↔
      ∃ v, Tells output v ∧ 1 ≤ v ∧ v ≤ 2 ^ 63 - 1 ∧ (b : Int) = min (1024 * v) (2 ^ 64 - 1)) ∧
    (∀ v, parseKilobytes output = .error (.invalidResult duName v) ↔
      Tells output v ∧ -2 ^ 63 ≤ v ∧ v ≤ 0) ∧
    (parseKilobytes output = .error (.parse duName output) ↔
      ¬∃ v, Tells output v ∧ -2 ^ 63 ≤ v ∧ v ≤ 2 ^ 63 - 1) ∧
    ∀ e, parseKilobytes output = .error e →
      (∃ v, e = .invalidResult duName v) ∨ e = .parse duName output := by
  cases hnumber : leadingNumber? output with
  | none =>
    have hparse : parseKilobytes output = .error (.parse duName output) :=
      (parseKilobytes_parse_iff output).2 hnumber
    have hno := leadingNumber?_eq_none_iff.1 hnumber
    rw [hparse]
    refine ⟨fun b => ⟨nofun, ?_⟩, fun v => ⟨nofun, ?_⟩, ⟨fun _ => hno, fun _ => rfl⟩, ?_⟩
    · rintro ⟨v, hv, hpos, hle, -⟩
      exact absurd ⟨v, hv, by omega, hle⟩ hno
    · rintro ⟨hv, hge, hneg⟩
      exact absurd ⟨v, hv, hge, by omega⟩ hno
    · rintro e he
      cases he
      exact .inr rfl
  | some v =>
    obtain ⟨hv, hge, hle⟩ := leadingNumber?_eq_some_iff.1 hnumber
    have hsome : ∃ v, Tells output v ∧ -2 ^ 63 ≤ v ∧ v ≤ 2 ^ 63 - 1 := ⟨v, hv, hge, hle⟩
    by_cases hpos : v ≤ 0
    · have hbad : parseKilobytes output = .error (.invalidResult duName v) := by
        rw [parseKilobytes, hnumber]
        exact if_pos hpos
      rw [hbad]
      refine ⟨fun b => ⟨nofun, ?_⟩, fun w => ⟨?_, ?_⟩, ⟨nofun, fun hno => absurd hsome hno⟩, ?_⟩
      · rintro ⟨w, hw, hone, -⟩
        obtain rfl := hv.eq hw
        omega
      · rintro heq
        cases heq
        exact ⟨hv, hge, hpos⟩
      · rintro ⟨hw, -⟩
        rw [hv.eq hw]
      · rintro e he
        cases he
        exact .inl ⟨v, rfl⟩
    · have hgood : parseKilobytes output = .ok (min (v.toNat * 1024) maxWord) := by
        rw [parseKilobytes, hnumber]
        exact if_neg hpos
      rw [hgood]
      refine ⟨fun b => ?_, fun w => ⟨nofun, ?_⟩, ⟨nofun, fun hno => absurd hsome hno⟩, nofun⟩
      · rw [Except.ok.injEq, bytes_of_kilobytes (by omega)]
        constructor
        · intro hb
          exact ⟨v, hv, by omega, hle, hb⟩
        · rintro ⟨w, hw, -, -, hb⟩
          rwa [hv.eq hw]
      · rintro ⟨hw, -, hneg⟩
        obtain rfl := hv.eq hw
        omega

/-- The largest number, with blanks of two kinds around it and a sign, and one more than it. -/
example :
    parseKilobytes "\u00a0\t+009223372036854775807\u3000/p" = .ok 18446744073709551615 ∧
      parseKilobytes "9223372036854775808" = .error (.parse "du" "9223372036854775808") := by
  decide +kernel

end Usage

end DiskUsage
