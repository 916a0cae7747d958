import DiskUsage.Text.Utf8

/-!
# Texts are read back from their bytes

The bytes of a text are read as this text: each character takes one to four bytes, and its first byte
tells how many and, with the range of the second, that it has no shorter form and is none of the
surrogates.

* `start_of_two`, `start_of_three`, `start_of_four`: what the first byte of a longer character tells.
* `decodeFrom_utf8EncodeChar`: one character is read back.
* `decode_encode`: so is a text.
* `decode_cons_of_lt`: a byte below 128 at the start of a text is read as its first character.
-/

namespace DiskUsage.Text.Utf8

variable {b n : Nat} {text : List Char} {bytes : List Nat}

/-! ### One byte -/

theorem start_of_two (hlo : 0xc2 ≤ b) (hhi : b ≤ 0xdf) : start b = .begun ⟨1, 0x80, 0xbf, b - 0xc0⟩ := by
  rw [start, if_neg (by omega), if_pos (by simp [hlo, hhi])]

theorem start_of_three (hlo : 0xe0 ≤ b) (hhi : b ≤ 0xef) :
    start b
      = .begun ⟨2, if b = 0xe0 then 0xa0 else 0x80, if b = 0xed then 0x9f else 0xbf, b - 0xe0⟩ := by
  rw [start, if_neg (by omega), if_neg (by simp; omega)]
  by_cases hfirst : b = 0xe0
  · simp [hfirst]
  · by_cases hsurrogate : b = 0xed
    · simp [hsurrogate]
    · have hrange : 0xe1 ≤ b := by omega
      simp [hfirst, hsurrogate, hrange, hhi]

theorem start_of_four (hlo : 0xf0 ≤ b) (hhi : b ≤ 0xf4) :
    start b
      = .begun ⟨3, if b = 0xf0 then 0x90 else 0x80, if b = 0xf4 then 0x8f else 0xbf, b - 0xf0⟩ := by
  rw [start, if_neg (by omega), if_neg (by simp; omega), if_neg (by simp; omega), if_neg (by simp; omega),
    if_neg (by simp; omega)]
  by_cases hfirst : b = 0xf0
  · simp [hfirst]
  · by_cases hlast : b = 0xf4
    · simp [hlast]
    · have hrange : 0xf1 ≤ b := by omega
      have hrange' : b ≤ 0xf3 := by omega
      simp [hfirst, hlast, hrange, hrange']

theorem decodeFrom_begun {p : Begun} (h : start b = .begun p) :
    decodeFrom none text (b :: bytes) = decodeFrom (some p) text bytes := by
  rw [decodeFrom, h]

/-- A byte in range goes on with a character that has more to come. -/
theorem decodeFrom_more {missing lo hi code : Nat} (hmore : 1 < missing) (hlo : lo ≤ b) (hhi : b ≤ hi) :
    decodeFrom (some ⟨missing, lo, hi, code⟩) text (b :: bytes)
      = decodeFrom (some ⟨missing - 1, 0x80, 0xbf, code * 64 + (b - 0x80)⟩) text bytes := by
  have hrange : (decide (lo ≤ b) && decide (b ≤ hi)) = true := by simp [hlo, hhi]
  rw [decodeFrom]
  dsimp only
  rw [if_pos hrange, if_neg (by omega)]

/-- A byte in range ends a character that has one byte to come. -/
theorem decodeFrom_last {lo hi code : Nat} (hlo : lo ≤ b) (hhi : b ≤ hi) :
    decodeFrom (some ⟨1, lo, hi, code⟩) text (b :: bytes)
      = decodeFrom none (Char.ofNat (code * 64 + (b - 0x80)) :: text) bytes := by
  have hrange : (decide (lo ≤ b) && decide (b ≤ hi)) = true := by simp [hlo, hhi]
  rw [decodeFrom]
  dsimp only
  rw [if_pos hrange, if_pos (Nat.le_refl 1)]

/-- What was read before stands in front. -/
theorem decodeFrom_eq_append (pending : Option Begun) (text : List Char) (bytes : List Nat) :
    decodeFrom pending text bytes = text.reverse ++ decodeFrom pending [] bytes := by
  induction bytes generalizing pending text with
  | nil => cases pending <;> simp [decodeFrom]
  | cons b bytes ih =>
    -- whatever this byte adds to the text stands behind `text` as well
    have hmore (pending : Option Begun) (read : List Char) :
        decodeFrom pending (read ++ text) bytes = text.reverse ++ decodeFrom pending read bytes := by
      rw [ih pending (read ++ text), ih pending read, List.reverse_append, List.append_assoc]
    cases pending with
    | none =>
      rw [decodeFrom, decodeFrom]
      cases start b with
      | whole c => exact hmore none [c]
      | begun p => exact hmore (some p) []
      | stray => exact hmore none [replacement]
    | some p =>
      rw [decodeFrom, decodeFrom]
      dsimp only
      split
      · split
        · exact hmore none [_]
        · exact hmore (some _) []
      · cases start b with
        | whole c => exact hmore none [c, replacement]
        | begun p => exact hmore (some p) [replacement]
        | stray => exact hmore none [replacement, replacement]

/-- A byte below 128 at the start is read as the first character. -/
theorem decode_cons_of_lt (h : b < 0x80) :
    decode (b :: bytes) = String.ofList [Char.ofNat b] ++ decode bytes := by
  rw [decode, decode, decodeFrom, start, if_pos h, ← String.ofList_append]
  exact congrArg String.ofList (decodeFrom_eq_append none [_] bytes)

/-! ### One character -/

/-- **One character** is read back from its bytes, whatever comes after them. -/
theorem decodeFrom_utf8EncodeChar (c : Char) (text : List Char) (bytes : List Nat) :
    decodeFrom none text ((String.utf8EncodeChar c).map UInt8.toNat ++ bytes)
      = decodeFrom none (c :: text) bytes := by
  have hc : Char.ofNat c.toNat = c := Char.ofNat_toNat c
  have hvalid : c.toNat < 0xd800 ∨ 0xdfff < c.toNat ∧ c.toNat < 0x110000 := c.valid
  have hn : c.val.toNat = c.toNat := rfl
  unfold String.utf8EncodeChar
  rw [hn]
  dsimp only
  generalize c.toNat = n at hc hvalid
  have hbyte {m : Nat} (h : m < 256) : (UInt8.ofNat m).toNat = m := by simp [Nat.mod_eq_of_lt h]
  split
  · next hone =>
    rw [List.map_singleton, hbyte (by omega), List.singleton_append, decodeFrom, start,
      if_pos (by omega), hc]
  · split
    · next htwo =>
      simp only [List.map_cons, List.map_nil, List.cons_append, List.nil_append]
      rw [hbyte (by omega), hbyte (by omega), decodeFrom_begun (start_of_two (by omega) (by omega)),
        decodeFrom_last (by omega) (by omega)]
      rw [show (n / 64 % 32 + 192 - 0xc0) * 64 + (n % 64 + 128 - 0x80) = n by omega, hc]
    · split
      · next hthree =>
        simp only [List.map_cons, List.map_nil, List.cons_append, List.nil_append]
        rw [hbyte (by omega), hbyte (by omega), hbyte (by omega),
          decodeFrom_begun (start_of_three (by omega) (by omega)),
          decodeFrom_more (by omega) (by split <;> omega) (by split <;> omega),
          decodeFrom_last (by omega) (by omega)]
        rw [show ((n / 4096 % 16 + 224 - 0xe0) * 64 + (n / 64 % 64 + 128 - 0x80)) * 64
          + (n % 64 + 128 - 0x80) = n by omega, hc]
      · simp only [List.map_cons, List.map_nil, List.cons_append, List.nil_append]
        rw [hbyte (by omega), hbyte (by omega), hbyte (by omega), hbyte (by omega),
          decodeFrom_begun (start_of_four (by omega) (by omega)),
          decodeFrom_more (by omega) (by split <;> omega) (by split <;> omega),
          decodeFrom_more (by omega) (by omega) (by omega), decodeFrom_last (by omega) (by omega)]
        rw [show (((n / 262144 % 8 + 240 - 0xf0) * 64 + (n / 4096 % 64 + 128 - 0x80)) * 64
          + (n / 64 % 64 + 128 - 0x80)) * 64 + (n % 64 + 128 - 0x80) = n by omega, hc]

/-! ### Texts -/

theorem decodeFrom_flatMap (cs : List Char) (text : List Char) (bytes : List Nat) :
    decodeFrom none text ((cs.flatMap String.utf8EncodeChar).map UInt8.toNat ++ bytes)
      = decodeFrom none (cs.reverse ++ text) bytes := by
  induction cs generalizing text with
  | nil => rfl
  | cons c cs ih =>
    rw [List.flatMap_cons, List.map_append, List.append_assoc, decodeFrom_utf8EncodeChar, ih,
      List.reverse_cons, List.append_assoc]
    rfl

/-- **A text** is read back from its bytes. -/
theorem decode_encode (text : String) : decode ((encode text).map UInt8.toNat) = text := by
  have h := decodeFrom_flatMap text.toList [] []
  rw [List.append_nil, List.append_nil, decodeFrom] at h
  rw [decode, encode, h]
  simp

theorem encode_append (text more : String) : encode (text ++ more) = encode text ++ encode more := by
  rw [encode, String.toList_append, List.flatMap_append]
  rfl

end DiskUsage.Text.Utf8
