import DiskUsage.Text.Blank
import DiskUsage.Text.Upper
import Mathlib.Data.List.TakeWhile
import Mathlib.Data.String.Basic

/-!
# Blanks and numerals in upper case

Blanks, digits and points have no other case, and they are in the upper case of no other character.  So a text
is cut at the same places before and after it is put in upper case.  Beyond ASCII a few characters have a text
of capital letters for their upper case, as the sharp s has; each such text holds one of four letters.

* `IsTrimmed`, `trimChars_eq_iff`: what trimming gives.
* `upper_cases`: a character is its own upper case, or it is plain and so is its upper case.
* `exists_mem_upper_beyond_ascii`: what is in the upper case of a character beyond ASCII.
* `CaseBlind`, `CaseBlind.takeWhile_upperChars`, `CaseBlind.dropWhile_upperChars`, `trimChars_upperChars`:
  cutting a text in upper case.
-/

namespace DiskUsage.Text

variable {cs text : List Char} {c d : Char} {n : Nat} {P : Char → Bool}

/-! ### Trimmed texts -/

/-- Neither the first character nor the last one is blank. -/
def IsTrimmed (cs : List Char) : Prop :=
  (∀ c, cs.head? = some c → isBlank c = false) ∧ ∀ c, cs.getLast? = some c → isBlank c = false

theorem isTrimmed_trimChars (cs : List Char) : IsTrimmed (trimChars cs) := by
  refine ⟨fun c hc => ?_, fun c hc => ?_⟩
  · -- the blanks at the end are behind the first character
    obtain ⟨tail, htail, -⟩ := trimEnd_append (cs.dropWhile isBlank)
    have hhead : (cs.dropWhile isBlank).head? = some c := by
      rw [htail, List.head?_append, ← trimChars, hc, Option.some_or]
    exact neg_of_head?_dropWhile hhead
  · rw [trimChars, trimEnd, List.getLast?_reverse] at hc
    exact neg_of_head?_dropWhile hc

/-- **What trimming gives**: the part without blanks at its ends that has only blanks around it. -/
theorem trimChars_eq_iff : trimChars cs = text ↔ IsTrimmed text ∧
    ∃ front back, cs = front ++ text ++ back ∧ (∀ c ∈ front, isBlank c = true) ∧
      ∀ c ∈ back, isBlank c = true := by
  refine ⟨?_, ?_⟩
  · rintro rfl
    exact ⟨isTrimmed_trimChars cs, trim_append cs⟩
  · rintro ⟨⟨hhead, hlast⟩, front, back, rfl, hfront, hback⟩
    have hend : trimEnd (text ++ back) = text := by
      rw [trimEnd, List.reverse_append, dropWhile_append_stop (by simpa using hback), List.reverse_reverse]
      intro c hc
      exact hlast c (by rwa [List.head?_reverse] at hc)
    rw [trimChars, List.append_assoc]
    cases text with
    | nil =>
      -- all of the text is blank, so the front takes the back too
      rw [List.nil_append, List.dropWhile_append_of_pos hfront, List.dropWhile_eq_nil_iff.2 hback]
      rfl
    | cons c text =>
      rw [dropWhile_append_stop hfront, hend]
      intro d hd
      exact hhead d hd

/-- A trimmed text does not end in blanks. -/
theorem IsTrimmed.eq_nil_of_append {back : List Char} (h : IsTrimmed (cs ++ back))
    (hback : ∀ c ∈ back, isBlank c = true) : back = [] := by
  rcases List.eq_nil_or_concat back with rfl | ⟨init, c, rfl⟩
  · rfl
  · rw [List.concat_eq_append] at h hback
    have hlast := h.2 c (by rw [← List.append_assoc, List.getLast?_concat])
    rw [hback c (List.mem_append_right _ (List.mem_singleton.2 rfl))] at hlast
    exact absurd hlast (by decide)

/-! ### The upper case of a character -/

/-- Spans of characters without a blank, a digit or a point. -/
def plainSpans : List (Nat × Nat) :=
  [(0x41, 0x5a), (0x61, 0x7a), (0xa1, 0x167f), (0x1681, 0x1fff), (0x2060, 0x2fff), (0x3001, 0xd7ff),
    (0xe000, 0x10ffff)]

/-- All that lies between two numbers is in one plain span. -/
def ArePlain (first last : Int) : Prop :=
  ∃ span ∈ plainSpans, (span.1 : Int) ≤ first ∧ last ≤ span.2

instance (first last : Int) : Decidable (ArePlain first last) :=
  inferInstanceAs (Decidable (∃ span ∈ plainSpans, (span.1 : Int) ≤ first ∧ last ≤ span.2))

/-- The character is in a plain span. -/
def IsPlain (c : Char) : Prop :=
  ArePlain c.toNat c.toNat

theorem ArePlain.mono {first last first' last' : Int} (h : ArePlain first last) (hfirst : first ≤ first')
    (hlast : last' ≤ last) : ArePlain first' last' := by
  obtain ⟨span, hspan, hlow, hhigh⟩ := h
  exact ⟨span, hspan, Int.le_trans hlow hfirst, Int.le_trans hlast hhigh⟩

theorem ArePlain.nonneg {first last : Int} (h : ArePlain first last) : 0 ≤ first := by
  obtain ⟨span, -, hlow, -⟩ := h
  omega

theorem arePlain_iff : ArePlain n n ↔ 0x41 ≤ n ∧ n ≤ 0x5a ∨ 0x61 ≤ n ∧ n ≤ 0x7a ∨ 0xa1 ≤ n ∧ n ≤ 0x167f ∨
    0x1681 ≤ n ∧ n ≤ 0x1fff ∨ 0x2060 ≤ n ∧ n ≤ 0x2fff ∨ 0x3001 ≤ n ∧ n ≤ 0xd7ff ∨
    0xe000 ≤ n ∧ n ≤ 0x10ffff := by
  simp only [ArePlain, plainSpans, List.mem_cons, List.not_mem_nil, or_false, exists_eq_or_imp, exists_eq_left]
  omega

/-- The numbers in plain spans are those of characters. -/
theorem toNat_ofNat_of_arePlain (h : ArePlain n n) : (Char.ofNat n).toNat = n := by
  rw [arePlain_iff] at h
  have hvalid : n.isValidChar := by
    unfold Nat.isValidChar
    omega
  rw [Char.ofNat, dif_pos hvalid]
  rfl

theorem isPlain_ofNat (h : ArePlain n n) : IsPlain (Char.ofNat n) := by
  rwa [IsPlain, toNat_ofNat_of_arePlain h]

theorem IsPlain.isBlank_eq (h : IsPlain c) : isBlank c = false := by
  rw [IsPlain, arePlain_iff] at h
  simp only [isBlank, Bool.or_eq_false_iff, Bool.and_eq_false_iff, beq_eq_false_iff_ne, decide_eq_false_iff_not]
  omega

theorem IsPlain.isDigit_eq (h : IsPlain c) : c.isDigit = false := by
  rw [IsPlain, arePlain_iff] at h
  rw [Bool.eq_false_iff, Ne, Char.isDigit_iff_toNat]
  rintro ⟨hlow, hhigh⟩
  change 0x30 ≤ c.toNat at hlow
  change c.toNat ≤ 0x39 at hhigh
  omega

theorem IsPlain.ne_point (h : IsPlain c) : c ≠ '.' := by
  have hpoint : ¬ArePlain '.'.toNat '.'.toNat := by decide
  rintro rfl
  exact hpoint h

/-- Only small letters have another upper case in ASCII. -/
theorem toUpper_cases (c : Char) :
    c.toUpper = c ∨ (0x61 ≤ c.toNat ∧ c.toNat ≤ 0x7a) ∧ c.toUpper.toNat = c.toNat - 0x20 := by
  unfold Char.toUpper
  split
  · next h =>
    obtain ⟨hlow, hhigh⟩ := h
    rw [UInt32.le_iff_toNat_le] at hlow hhigh
    refine .inr ⟨⟨hlow, hhigh⟩, ?_⟩
    change (c.val + ('A'.val - 'a'.val)).toNat = c.val.toNat - 0x20
    change 0x61 ≤ c.val.toNat at hlow
    change c.val.toNat ≤ 0x7a at hhigh
    rw [UInt32.toNat_add]
    change (c.val.toNat + 4294967264) % 2 ^ 32 = _
    omega
  · exact .inl rfl

/-- The upper case of a character beyond ASCII is the character, or it is in one of the two tables. -/
theorem upperBeyondAscii_cases (c : Char) : upperBeyondAscii c = [c] ∨
    (∃ entry ∈ upperTexts, entry.1 = c.toNat ∧ upperBeyondAscii c = entry.2.map Char.ofNat) ∨
    ∃ run ∈ upperRuns, run.first ≤ c.toNat ∧ c.toNat ≤ run.last ∧
      upperBeyondAscii c = [Char.ofNat (c.toNat + run.shift).toNat] := by
  unfold upperBeyondAscii
  split
  · next entry h =>
    exact .inr (.inl ⟨entry, List.mem_of_find?_eq_some h, by simpa using List.find?_some h, rfl⟩)
  · split
    · next run h =>
      have hcovers := List.find?_some h
      simp only [CaseRun.covers, Bool.and_eq_true, decide_eq_true_eq] at hcovers
      exact .inr (.inr ⟨run, List.mem_of_find?_eq_some h, hcovers.1.1, hcovers.1.2, rfl⟩)
    · exact .inl rfl

/-- The tables of upper case, out of plain spans into plain spans. -/
theorem upperTexts_arePlain : ∀ entry ∈ upperTexts, ArePlain entry.1 entry.1 ∧ ∀ n ∈ entry.2, ArePlain n n := by
  decide +kernel

theorem upperRuns_arePlain : ∀ run ∈ upperRuns, ArePlain run.first run.last ∧
    ArePlain (run.first + run.shift) (run.last + run.shift) := by
  decide +kernel

/-- **A character** is its own upper case, or it is plain and so is all of its upper case. -/
theorem upper_cases (c : Char) : upper c = [c] ∨ IsPlain c ∧ ∀ d ∈ upper c, IsPlain d := by
  unfold upper
  split
  · rcases toUpper_cases c with heq | ⟨hsmall, hcapital⟩
    · exact .inl (by rw [heq])
    · refine .inr ⟨arePlain_iff.2 (by omega), fun d hd => ?_⟩
      rw [List.mem_singleton.1 hd, IsPlain, hcapital, arePlain_iff]
      omega
  · rcases upperBeyondAscii_cases c with heq | ⟨entry, hentry, hc, heq⟩ | ⟨run, hrun, hfirst, hlast, heq⟩
    · exact .inl heq
    · obtain ⟨hsource, htext⟩ := upperTexts_arePlain entry hentry
      rw [hc] at hsource
      refine .inr ⟨hsource, fun d hd => ?_⟩
      rw [heq] at hd
      obtain ⟨n, hn, rfl⟩ := List.mem_map.1 hd
      exact isPlain_ofNat (htext n hn)
    · obtain ⟨hsource, himage⟩ := upperRuns_arePlain run hrun
      have hnonneg := himage.nonneg
      refine .inr ⟨hsource.mono (by omega) (by omega), fun d hd => ?_⟩
      rw [heq] at hd
      rw [List.mem_singleton.1 hd]
      exact isPlain_ofNat (himage.mono (by omega) (by omega))

/-- Each text of upper case holds a character beyond ASCII, or one of these capital letters. -/
theorem upperTexts_notable : ∀ entry ∈ upperTexts, ∃ n ∈ entry.2,
    0x80 ≤ (Char.ofNat n).toNat ∨ Char.ofNat n ∈ ['F', 'I', 'L', 'S'] := by
  decide +kernel

theorem upperRuns_notable : ∀ run ∈ upperRuns, 0x80 ≤ run.first + run.shift ∨
    run.first = run.last ∧ Char.ofNat (run.first + run.shift).toNat ∈ ['F', 'I', 'L', 'S'] := by
  decide +kernel

/-- **Beyond ASCII** there are no letters for the other letters of ASCII. -/
theorem exists_mem_upper_beyond_ascii (h : 0x80 ≤ c.toNat) :
    ∃ d ∈ upper c, 0x80 ≤ d.toNat ∨ d ∈ ['F', 'I', 'L', 'S'] := by
  rw [upper, if_neg (by omega)]
  rcases upperBeyondAscii_cases c with heq | ⟨entry, hentry, -, heq⟩ | ⟨run, hrun, hfirst, hlast, heq⟩
  · exact ⟨c, by rw [heq]; exact List.mem_singleton.2 rfl, .inl h⟩
  · obtain ⟨n, hn, hnotable⟩ := upperTexts_notable entry hentry
    exact ⟨Char.ofNat n, by rw [heq]; exact List.mem_map.2 ⟨n, hn, rfl⟩, hnotable⟩
  · refine ⟨Char.ofNat (c.toNat + run.shift).toNat, by rw [heq]; exact List.mem_singleton.2 rfl, ?_⟩
    rcases upperRuns_notable run hrun with hfar | ⟨hone, hletter⟩
    · left
      rw [toNat_ofNat_of_arePlain ((upperRuns_arePlain run hrun).2.mono (by omega) (by omega))]
      omega
    · right
      rwa [show c.toNat = run.first by omega]

theorem upper_ne_nil (c : Char) : upper c ≠ [] := by
  intro h
  by_cases hc : c.toNat < 0x80
  · rw [upper_of_ascii hc] at h
    exact List.cons_ne_nil _ _ h
  · obtain ⟨d, hd, -⟩ := exists_mem_upper_beyond_ascii (Nat.le_of_not_lt hc)
    rw [h] at hd
    exact List.not_mem_nil hd

/-! ### Cutting a text in upper case -/

/-- Characters of the class are their own upper case, and none is in the upper case of another one. -/
structure CaseBlind (P : Char → Bool) : Prop where
  upper_of_pos : ∀ c, P c = true → upper c = [c]
  neg_of_mem : ∀ c, P c = false → ∀ d ∈ upper c, P d = false

theorem caseBlind_of_plain (h : ∀ c, IsPlain c → P c = false) : CaseBlind P where
  upper_of_pos c hc := (upper_cases c).resolve_right fun hplain => by simp [h c hplain.1] at hc
  neg_of_mem c hc d hd := by
    rcases upper_cases c with heq | ⟨-, hplain⟩
    · rw [heq] at hd
      rwa [List.mem_singleton.1 hd]
    · exact h d (hplain d hd)

theorem caseBlind_isBlank : CaseBlind isBlank :=
  caseBlind_of_plain fun _ hc => hc.isBlank_eq

theorem upperChars_cons (c : Char) (cs : List Char) : upperChars (c :: cs) = upper c ++ upperChars cs := rfl

theorem upperChars_of_ascii (h : ∀ c ∈ cs, c.toNat < 0x80) : upperChars cs = cs.map Char.toUpper := by
  induction cs with
  | nil => rfl
  | cons c cs ih =>
    rw [upperChars_cons, upper_of_ascii (h c List.mem_cons_self),
      ih fun d hd => h d (List.mem_cons_of_mem _ hd), List.map_cons, List.singleton_append]

namespace CaseBlind

theorem upperChars_eq_self (hP : CaseBlind P) (h : ∀ c ∈ cs, P c = true) : upperChars cs = cs := by
  induction cs with
  | nil => rfl
  | cons c cs ih =>
    rw [upperChars_cons, hP.upper_of_pos c (h c List.mem_cons_self),
      ih fun d hd => h d (List.mem_cons_of_mem _ hd), List.singleton_append]

/-- A first character outside of the class gives one outside of it. -/
theorem neg_head?_upperChars (hP : CaseBlind P) (h : ∀ c, cs.head? = some c → P c = false) :
    ∀ d, (upperChars cs).head? = some d → P d = false := by
  cases cs with
  | nil => exact nofun
  | cons c cs =>
    intro d hd
    rw [upperChars_cons, List.head?_append_of_ne_nil _ (upper_ne_nil c)] at hd
    exact hP.neg_of_mem c (h c rfl) d (List.mem_of_head? hd)

/-- The same of a last character. -/
theorem neg_getLast?_upperChars (hP : CaseBlind P) (h : ∀ c, cs.getLast? = some c → P c = false) :
    ∀ d, (upperChars cs).getLast? = some d → P d = false := by
  rcases List.eq_nil_or_concat cs with rfl | ⟨init, c, rfl⟩
  · exact nofun
  · rw [List.concat_eq_append] at h ⊢
    intro d hd
    have hlast : upperChars [c] = upper c := by rw [upperChars_cons, upperChars_nil, List.append_nil]
    rw [upperChars_append, hlast, List.getLast?_append_of_ne_nil _ (upper_ne_nil c)] at hd
    exact hP.neg_of_mem c (h c List.getLast?_concat) d (List.mem_of_getLast? hd)

/-- Upper case changes nothing before the place where the class ends. -/
theorem upperChars_eq_append (hP : CaseBlind P) (cs : List Char) :
    upperChars cs = cs.takeWhile P ++ upperChars (cs.dropWhile P) := by
  conv_lhs => rw [← List.takeWhile_append_dropWhile (p := P) (l := cs)]
  rw [upperChars_append, hP.upperChars_eq_self fun c hc => List.mem_takeWhile_imp hc]

theorem takeWhile_upperChars (hP : CaseBlind P) (cs : List Char) :
    (upperChars cs).takeWhile P = cs.takeWhile P := by
  rw [hP.upperChars_eq_append, takeWhile_append_stop fun c hc => List.mem_takeWhile_imp hc]
  exact hP.neg_head?_upperChars fun c hc => neg_of_head?_dropWhile hc

theorem dropWhile_upperChars (hP : CaseBlind P) (cs : List Char) :
    (upperChars cs).dropWhile P = upperChars (cs.dropWhile P) := by
  rw [hP.upperChars_eq_append, dropWhile_append_stop fun c hc => List.mem_takeWhile_imp hc]
  exact hP.neg_head?_upperChars fun c hc => neg_of_head?_dropWhile hc

end CaseBlind

/-- Trimming and upper case may change places. -/
theorem trimChars_upperChars (cs : List Char) : trimChars (upperChars cs) = upperChars (trimChars cs) := by
  obtain ⟨hhead, hlast⟩ := isTrimmed_trimChars cs
  obtain ⟨front, back, hcs, hfront, hback⟩ := trim_append cs
  refine trimChars_eq_iff.2 ⟨⟨caseBlind_isBlank.neg_head?_upperChars hhead,
    caseBlind_isBlank.neg_getLast?_upperChars hlast⟩, front, back, ?_, hfront, hback⟩
  conv_lhs => rw [hcs]
  rw [upperChars_append, upperChars_append, caseBlind_isBlank.upperChars_eq_self hfront,
    caseBlind_isBlank.upperChars_eq_self hback]

end DiskUsage.Text
