import DiskUsage.Report.SizeInput
import DiskUsage.Proofs.Number.Binary64
import DiskUsage.Proofs.Text.Upper
import DiskUsage.Proofs.Usage.Kilobytes

/-!
# Which texts are sizes

A size is a decimal numeral with a unit behind it, in any case and with blanks around both.  It is read through
a chain of steps: the text is trimmed and put in upper case, cut where the numeral characters end, and the unit
is trimmed again.  The number is rounded, multiplied by the bytes of the unit and cut down to a word.

* `Numeral`, `Numeral.exists_decimal?`, `numeral_of_decimal?`: numerals with at most one point.
* `IsUnit`, `unitBytes?_upperChars_iff`: units in any case.
* `IsSize`, `parseSize_of_isSize`, `exists_isSize_of_parseSize`: the sizes, and how each is read.
* `sizes_are_read_in_order`: exactly the sizes are read, the small whole ones exactly and all of them in order.
-/

namespace DiskUsage.Report

open Number

variable {cs unit : List Char} {c : Char} {n num den bytes : ℕ} {q r : ℚ} {text other : String}

/-! ### Numerals with a point -/

/-- A numeral of ASCII digits, one at least, with at most one point, and its number. -/
inductive Numeral : List Char → ℚ → Prop
  | whole {cs : List Char} {n : ℕ} (h : Decimal cs n) : Numeral cs n
  | pointed {whole fraction : List Char} {n : ℕ} (h : Decimal (whole ++ fraction) n) :
      Numeral (whole ++ '.' :: fraction) (n / 10 ^ fraction.length)

theorem isDigit_of_decimal (h : Decimal cs n) (hc : c ∈ cs) : c.isDigit = true :=
  List.all_eq_true.1 (natural?_eq_some_iff.1 h.natural?_eq).2.1 c hc

theorem bne_point_of_isDigit (h : c.isDigit = true) : (c != '.') = true := by
  rw [bne_iff_ne]
  rintro rfl
  exact absurd h (by decide)

theorem Numeral.nonneg (h : Numeral cs q) : 0 ≤ q := by
  cases h with
  | whole h => exact Nat.cast_nonneg _
  | pointed h => positivity

theorem Numeral.isNumeralChar_of_mem (h : Numeral cs q) : ∀ c ∈ cs, isNumeralChar c = true := by
  intro c hc
  cases h with
  | whole h => simp [isNumeralChar, isDigit_of_decimal h hc]
  | pointed h =>
    rcases List.mem_append.1 hc with hwhole | hrest
    · simp [isNumeralChar, isDigit_of_decimal h (List.mem_append_left _ hwhole)]
    · rcases List.mem_cons.1 hrest with rfl | hfraction
      · rfl
      · simp [isNumeralChar, isDigit_of_decimal h (List.mem_append_right _ hfraction)]

/-- The digits on both sides of the point are read as one numeral. -/
theorem decimal?_eq (cs : List Char) : decimal? cs =
    (natural? (cs.takeWhile (· != '.') ++ (cs.dropWhile (· != '.')).drop 1)).map
      fun n => (n, tenPow ((cs.dropWhile (· != '.')).drop 1).length) := by
  rw [decimal?, List.span_eq_takeWhile_dropWhile]

/-- **Every numeral** is read as a quotient that is its number. -/
theorem Numeral.exists_decimal? (h : Numeral cs q) :
    ∃ num den, decimal? cs = some (num, den) ∧ 0 < den ∧ q = num / den := by
  rw [decimal?_eq]
  cases h with
  | @whole cs n h =>
    have hwhole : ∀ c ∈ cs, (c != '.') = true := fun c hc => bne_point_of_isDigit (isDigit_of_decimal h hc)
    refine ⟨n, 1, ?_, one_pos, by simp⟩
    rw [List.takeWhile_eq_self_iff.2 hwhole, List.dropWhile_eq_nil_iff.2 hwhole]
    simp [h.natural?_eq]
  | @pointed whole fraction n h =>
    have hwhole : ∀ c ∈ whole, (c != '.') = true := fun c hc =>
      bne_point_of_isDigit (isDigit_of_decimal h (List.mem_append_left _ hc))
    have hpoint : ∀ c, ('.' :: fraction).head? = some c → (c != '.') = false := by simp
    refine ⟨n, tenPow fraction.length, ?_, tenPow_pos _, by rw [tenPow]; norm_cast⟩
    rw [Text.takeWhile_append_stop hwhole hpoint, Text.dropWhile_append_stop hwhole hpoint]
    simp [h.natural?_eq]

/-- **What is read as a quotient** is a numeral with this number. -/
theorem numeral_of_decimal? (h : decimal? cs = some (num, den)) : Numeral cs (num / den) := by
  rw [decimal?_eq] at h
  obtain ⟨n, hn, hpair⟩ := Option.map_eq_some_iff.1 h
  obtain ⟨rfl, rfl⟩ := Prod.mk.inj hpair
  have hcs := List.takeWhile_append_dropWhile (p := (· != '.')) (l := cs)
  cases hrest : cs.dropWhile (· != '.') with
  | nil =>
    rw [hrest, List.append_nil] at hcs
    rw [hrest, List.drop_nil, List.append_nil, hcs] at hn
    simpa using Numeral.whole (decimal_of_natural? hn)
  | cons c fraction =>
    have hpoint : c = '.' := by
      have hhead : (cs.dropWhile (· != '.')).head? = some c := by rw [hrest, List.head?_cons]
      simpa using Text.neg_of_head?_dropWhile hhead
    rw [hrest, hpoint] at hcs
    rw [hrest, List.drop_one, List.tail_cons] at hn
    have hnumeral := Numeral.pointed (decimal_of_natural? hn)
    rw [hcs] at hnumeral
    simpa [tenPow] using hnumeral

/-! ### Units -/

/-- The units with their bytes. -/
def units : List (String × ℕ) :=
  [("", 1), ("B", 1), ("K", 2 ^ 10), ("KB", 2 ^ 10), ("M", 2 ^ 20), ("MB", 2 ^ 20), ("G", 2 ^ 30),
    ("GB", 2 ^ 30), ("T", 2 ^ 40), ("TB", 2 ^ 40)]

/-- A unit in any letter case, and its bytes. -/
def IsUnit (unit : List Char) (bytes : ℕ) : Prop :=
  ∃ name, (name, bytes) ∈ units ∧ unit.map Char.toUpper = name.toList

/-- Exactly the units of the table are known. -/
theorem unitBytes?_eq_some_iff :
    unitBytes? cs = some bytes ↔ ∃ name, (name, bytes) ∈ units ∧ cs = name.toList := by
  refine ⟨fun h => ?_, ?_⟩
  · have hname : ∀ (short long : String) {n : ℕ}, (short, n) ∈ units → (long, n) ∈ units →
        (cs = short.toList ∨ cs = long.toList) → some n = some bytes →
        ∃ name, (name, bytes) ∈ units ∧ cs = name.toList := by
      rintro short long n hshort hlong (hcs | hcs) hn <;> obtain rfl := Option.some.inj hn
      · exact ⟨short, hshort, hcs⟩
      · exact ⟨long, hlong, hcs⟩
    simp only [unitBytes?, Bool.or_eq_true, decide_eq_true_eq] at h
    split_ifs at h with hone hkilo hmega hgiga htera
    · exact hname "" "B" (by decide) (by decide) hone h
    · exact hname "K" "KB" (by decide) (by decide) hkilo h
    · exact hname "M" "MB" (by decide) (by decide) hmega h
    · exact hname "G" "GB" (by decide) (by decide) hgiga h
    · exact hname "T" "TB" (by decide) (by decide) htera h
  · rintro ⟨name, hmem, rfl⟩
    have hall : ∀ entry ∈ units, unitBytes? entry.1.toList = some entry.2 := by decide
    exact hall (name, bytes) hmem

/-- The letters that units have. -/
def unitLetters : List Char :=
  ['B', 'K', 'M', 'G', 'T']

theorem name_subset_unitLetters : ∀ entry ∈ units, entry.1.toList ⊆ unitLetters := by
  decide

/-- They are capital letters of ASCII, and none of those that characters beyond ASCII have. -/
theorem capital_of_mem_unitLetters (h : c ∈ unitLetters) :
    (0x41 ≤ c.toNat ∧ c.toNat ≤ 0x5a) ∧ c ∉ ['F', 'I', 'L', 'S'] := by
  simp only [unitLetters, List.mem_cons, List.not_mem_nil, or_false] at h
  rcases h with rfl | rfl | rfl | rfl | rfl <;> decide

/-- Each unit is a power of two. -/
theorem exists_two_pow_of_unit : ∀ entry ∈ units, ∃ k ∈ [0, 10, 20, 30, 40], entry.2 = 2 ^ k := by
  decide

theorem IsUnit.toUpper_mem (h : IsUnit unit bytes) (hc : c ∈ unit) : c.toUpper ∈ unitLetters := by
  obtain ⟨name, hname, hupper⟩ := h
  exact name_subset_unitLetters _ hname (hupper ▸ List.mem_map_of_mem hc)

/-- The letters of a unit are letters of ASCII, small or capital. -/
theorem IsUnit.isPlain (h : IsUnit unit bytes) (hc : c ∈ unit) : Text.IsPlain c ∧ c.toNat < 0x80 := by
  obtain ⟨hcapital, -⟩ := capital_of_mem_unitLetters (h.toUpper_mem hc)
  rcases Text.toUpper_cases c with heq | ⟨hsmall, -⟩
  · rw [heq] at hcapital
    exact ⟨Text.arePlain_iff.2 (by omega), by omega⟩
  · exact ⟨Text.arePlain_iff.2 (by omega), by omega⟩

/-- **A unit in upper case** is in the table iff the text is the unit in any letter case: no character beyond
ASCII has such a letter for its upper case. -/
theorem unitBytes?_upperChars_iff : unitBytes? (Text.upperChars unit) = some bytes ↔ IsUnit unit bytes := by
  rw [unitBytes?_eq_some_iff, IsUnit]
  refine exists_congr fun name => and_congr_right fun hname => ⟨fun hupper => ?_, fun hupper => ?_⟩
  · have hascii : ∀ c ∈ unit, c.toNat < 0x80 := by
      intro c hc
      by_contra hbeyond
      obtain ⟨d, hd, hnotable⟩ := Text.exists_mem_upper_beyond_ascii (Nat.le_of_not_lt hbeyond)
      have hmem : d ∈ Text.upperChars unit := List.mem_flatMap.2 ⟨c, hc, hd⟩
      rw [hupper] at hmem
      obtain ⟨hcapital, hnone⟩ := capital_of_mem_unitLetters (name_subset_unitLetters _ hname hmem)
      rcases hnotable with hfar | hother
      · omega
      · exact hnone hother
    rw [← Text.upperChars_of_ascii hascii, hupper]
  · have hascii : ∀ c ∈ unit, c.toNat < 0x80 := fun c hc => (IsUnit.isPlain ⟨name, hname, hupper⟩ hc).2
    rw [Text.upperChars_of_ascii hascii, hupper]

theorem isNumeralChar_of_isPlain (h : Text.IsPlain c) : isNumeralChar c = false := by
  simp [isNumeralChar, h.isDigit_eq, h.ne_point]

theorem caseBlind_isNumeralChar : Text.CaseBlind isNumeralChar :=
  Text.caseBlind_of_plain fun _ hc => isNumeralChar_of_isPlain hc

/-! ### Sizes -/

/-- The text without the blanks around it is a numeral and a unit with only blanks between them. -/
def IsSize (text : String) (q : ℚ) (bytes : ℕ) : Prop :=
  ∃ numeral gap unit, Text.trimChars text.toList = numeral ++ gap ++ unit ∧ Numeral numeral q ∧
    (∀ c ∈ gap, Text.isBlank c = true) ∧ IsUnit unit bytes

/-- What is read of a text, with the cuts made before it is put in upper case. -/
theorem parseSize_eq_ok_iff : parseSize text = .ok n ↔ ∃ bytes num den,
    unitBytes? (Text.upperChars (Text.trimChars ((Text.trimChars text.toList).dropWhile isNumeralChar)))
      = some bytes ∧
    decimal? ((Text.trimChars text.toList).takeWhile isNumeralChar) = some (num, den) ∧
    n = ((Binary64.nearest num den).mul (.ofNat bytes)).floorWord := by
  unfold parseSize normalizeSize
  dsimp only
  rw [caseBlind_isNumeralChar.takeWhile_upperChars, caseBlind_isNumeralChar.dropWhile_upperChars,
    Text.trimChars_upperChars]
  generalize (Text.trimChars text.toList).takeWhile isNumeralChar = numeral
  generalize Text.upperChars (Text.trimChars ((Text.trimChars text.toList).dropWhile isNumeralChar)) = unit
  cases hunit : unitBytes? unit with
  | none => simp
  | some bytes =>
    cases hnumber : decimal? numeral with
    | none =>
      dsimp only
      split <;> simp
    | some pair =>
      obtain ⟨num, den⟩ := pair
      simp [eq_comm]

theorem isNumeralChar_of_isBlank (h : Text.isBlank c = true) : isNumeralChar c = false := by
  rw [Bool.eq_false_iff]
  intro hc
  simp only [isNumeralChar, Bool.or_eq_true, beq_iff_eq, Char.isDigit_iff_toNat] at hc
  rcases hc with ⟨hlow, hhigh⟩ | rfl
  · change 0x30 ≤ c.toNat at hlow
    change c.toNat ≤ 0x39 at hhigh
    simp only [Text.isBlank, Bool.or_eq_true, Bool.and_eq_true, beq_iff_eq, decide_eq_true_eq] at h
    omega
  · exact absurd h (by decide)

/-- The numeral ends where the unit, or a blank before it, begins. -/
theorem cut_numeral {numeral gap : List Char} (hnumeral : Numeral numeral q)
    (hgap : ∀ c ∈ gap, Text.isBlank c = true) (hunit : IsUnit unit bytes) :
    (numeral ++ gap ++ unit).takeWhile isNumeralChar = numeral ∧
      Text.trimChars ((numeral ++ gap ++ unit).dropWhile isNumeralChar) = unit := by
  have hplain : ∀ c ∈ unit, Text.IsPlain c := fun c hc => (hunit.isPlain hc).1
  have hstop : ∀ c, (gap ++ unit).head? = some c → isNumeralChar c = false := by
    intro c hc
    rcases List.mem_append.1 (List.mem_of_head? hc) with hc | hc
    · exact isNumeralChar_of_isBlank (hgap c hc)
    · exact isNumeralChar_of_isPlain (hplain c hc)
  rw [List.append_assoc, Text.takeWhile_append_stop hnumeral.isNumeralChar_of_mem hstop,
    Text.dropWhile_append_stop hnumeral.isNumeralChar_of_mem hstop]
  refine ⟨rfl, Text.trimChars_eq_iff.2
    ⟨⟨fun c hc => ?_, fun c hc => ?_⟩, gap, [], ?_, hgap, List.forall_mem_nil _⟩⟩
  · exact (hplain c (List.mem_of_head? hc)).isBlank_eq
  · exact (hplain c (List.mem_of_getLast? hc)).isBlank_eq
  · rw [List.append_nil]

/-- **A size** is read as its number, rounded, times the bytes of its unit. -/
theorem parseSize_of_isSize (h : IsSize text q bytes) :
    ∃ v, IsRounded q v ∧ parseSize text = .ok (min ⌊v * bytes⌋₊ maxWord) := by
  obtain ⟨numeral, gap, unit, htext, hnumeral, hgap, hunit⟩ := h
  obtain ⟨hcut, hrest⟩ := cut_numeral hnumeral hgap hunit
  obtain ⟨num, den, hnumber, hden, rfl⟩ := hnumeral.exists_decimal?
  obtain ⟨v, hv, hholds⟩ := Binary64.exists_holds_nearest num hden
  have hbytes := unitBytes?_upperChars_iff.2 hunit
  obtain ⟨name, hname, -⟩ := hunit
  obtain ⟨k, hk, rfl : bytes = 2 ^ k⟩ := exists_two_pow_of_unit _ hname
  have hsmall : ∀ k ∈ [0, 10, 20, 30, 40], k ≤ 53 := by decide
  refine ⟨v, hv, parseSize_eq_ok_iff.2 ⟨2 ^ k, num, den, ?_, ?_, ?_⟩⟩
  · rw [htext, hrest, hbytes]
  · rw [htext, hcut, hnumber]
  · rw [Binary64.floorWord_eq (Binary64.holds_mul_two_pow hholds (hsmall k hk))]

/-- **What is read** is a size. -/
theorem exists_isSize_of_parseSize (h : parseSize text = .ok n) : ∃ q bytes, IsSize text q bytes := by
  obtain ⟨bytes, num, den, hunit, hnumber, -⟩ := parseSize_eq_ok_iff.1 h
  obtain ⟨gap, back, hrest, hgap, hback⟩ :=
    Text.trim_append ((Text.trimChars text.toList).dropWhile isNumeralChar)
  have htext := List.takeWhile_append_dropWhile (p := isNumeralChar) (l := Text.trimChars text.toList)
  -- the text ends with the unit, as there are no more blanks at its end
  have hend : back = [] := by
    have htrimmed := Text.isTrimmed_trimChars text.toList
    rw [← htext, hrest, ← List.append_assoc] at htrimmed
    exact htrimmed.eq_nil_of_append hback
  rw [hend, List.append_nil] at hrest
  refine ⟨num / den, bytes, _, gap, _, ?_, numeral_of_decimal? hnumber, hgap, unitBytes?_upperChars_iff.1 hunit⟩
  rw [List.append_assoc, ← hrest, htext]

/-- A whole number that has 53 bits is read exactly, up to the largest word. -/
theorem parseSize_natCast (h : IsSize text n bytes) (hn : n ≤ 2 ^ 53) :
    parseSize text = .ok (min (n * bytes) maxWord) := by
  obtain ⟨v, hv, hparse⟩ := parseSize_of_isSize h
  rw [hparse, hv.unique (isRounded_natCast hn) n.cast_nonneg, ← Nat.cast_mul, Nat.floor_natCast]

/-- For one unit the sizes are read in order: rounding, the product and the cuts keep it. -/
theorem parseSize_mono (h : IsSize text q bytes) (hother : IsSize other r bytes) (hle : q ≤ r) :
    ∃ n m, parseSize text = .ok n ∧ parseSize other = .ok m ∧ n ≤ m := by
  obtain ⟨v, hv, hparse⟩ := parseSize_of_isSize h
  obtain ⟨w, hw, hparseOther⟩ := parseSize_of_isSize hother
  obtain ⟨numeral, -, -, -, hnumeral, -⟩ := h
  have hvw : v * bytes ≤ w * bytes :=
    mul_le_mul_of_nonneg_right (hv.mono hw hnumeral.nonneg hle) bytes.cast_nonneg
  exact ⟨_, _, hparse, hparseOther, min_le_min_right _ (Nat.floor_le_floor hvw)⟩

/-- **Which texts are sizes, and how they are read.**  A text is read iff without the blanks around it it is a
decimal numeral, with at most one point, and a unit in any letter case, with only blanks between them.  A whole
number up to `2 ^ 53` gives exactly so many units, or the largest word if they are more.  And of two numerals
with the same unit, of any lengths, the larger one never gives the smaller size. -/
theorem sizes_are_read_in_order (text : String) :
    ((∃ n, parseSize text = .ok n) ↔ ∃ q bytes, IsSize text q bytes) ∧
    (∀ n bytes : ℕ, IsSize text n bytes → n ≤ 2 ^ 53 →
      parseSize text = .ok (min (n * bytes) (2 ^ 64 - 1))) ∧
    ∀ other q r bytes, IsSize text q bytes → IsSize other r bytes → q ≤ r →
      ∃ n m, parseSize text = .ok n ∧ parseSize other = .ok m ∧ n ≤ m := by
  refine ⟨⟨?_, ?_⟩, fun n bytes => parseSize_natCast, fun other q r bytes => parseSize_mono⟩
  · rintro ⟨n, hn⟩
    exact exists_isSize_of_parseSize hn
  · rintro ⟨q, bytes, h⟩
    obtain ⟨v, -, hparse⟩ := parseSize_of_isSize h
    exact ⟨_, hparse⟩

/-- The largest number that is surely exact, and two numerals that begin or end with a point. -/
theorem large_sizes_are_read :
    IsSize " 9007199254740992kB\u3000" (9007199254740992 : ℕ) 1024 ∧
    parseSize " 9007199254740992kB\u3000" = .ok 9223372036854775808 ∧
    ∃ n m, parseSize ".5 t" = .ok n ∧ parseSize "1.T" = .ok m ∧ n ≤ m := by
  have hlarge : IsSize " 9007199254740992kB\u3000" (9007199254740992 : ℕ) 1024 :=
    ⟨"9007199254740992".toList, [], "kB".toList, by decide, .whole (decimal_of_natural? (by decide)),
      List.forall_mem_nil _, "KB", by decide, by decide⟩
  have hfive : Decimal ([] ++ ['5']) 5 := decimal_of_natural? (by decide)
  have hhalf : IsSize ".5 t" ((5 : ℕ) / 10 ^ 1) 1099511627776 :=
    ⟨['.', '5'], [' '], ['t'], by decide, .pointed hfive, List.forall_mem_singleton.2 (by decide), "T",
      by decide, by decide⟩
  have hone : Decimal (['1'] ++ []) 1 := decimal_of_natural? (by decide)
  have hwhole : IsSize "1.T" ((1 : ℕ) / 10 ^ 0) 1099511627776 :=
    ⟨['1', '.'], [], ['T'], by decide, .pointed hone, List.forall_mem_nil _, "T", by decide, by decide⟩
  exact ⟨hlarge, (sizes_are_read_in_order _).2.1 _ _ hlarge (by decide),
    (sizes_are_read_in_order _).2.2 _ _ _ _ hhalf hwhole (by norm_num)⟩

end DiskUsage.Report
