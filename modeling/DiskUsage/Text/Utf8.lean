/-!
# Bytes read as text

Bytes are read as UTF-8.  Each longest run of bytes that begins a character and is cut short, and
each byte that begins none, is read as one replacement character.

* `encode`, `decode`: the bytes of a text, and the text that bytes stand for.
* `decode_ascii`: bytes below 128 are read one by one.
-/

namespace DiskUsage.Text.Utf8

/-- The bytes of a text. -/
def encode (text : String) : List UInt8 :=
  text.toList.flatMap String.utf8EncodeChar

/-- The bytes are those of a text. -/
def IsText (bytes : List UInt8) : Prop :=
  bytes.toByteArray.IsValidUTF8

instance (bytes : List UInt8) : Decidable (IsText bytes) :=
  inferInstanceAs (Decidable bytes.toByteArray.IsValidUTF8)

/-- The character that stands for bytes that are not text. -/
def replacement : Char := '\ufffd'

/-- A character that was begun: the bytes still to come, the range of the next one, and the code
point so far. -/
structure Begun where
  missing : Nat
  lo : Nat
  hi : Nat
  code : Nat

/-- What a byte does at the start of a character: it is a character, begins one, or is neither. -/
inductive Start where
  | whole (c : Char)
  | begun (b : Begun)
  | stray

/-- A first byte.  The ranges of the second byte shut out overlong forms, surrogates and code
points above the last one. -/
def start (b : Nat) : Start :=
  if b < 0x80 then .whole (Char.ofNat b)
  else if 0xc2 ≤ b && b ≤ 0xdf then .begun ⟨1, 0x80, 0xbf, b - 0xc0⟩
  else if b == 0xe0 then .begun ⟨2, 0xa0, 0xbf, 0⟩
  else if b == 0xed then .begun ⟨2, 0x80, 0x9f, 0xd⟩
  else if 0xe1 ≤ b && b ≤ 0xef then .begun ⟨2, 0x80, 0xbf, b - 0xe0⟩
  else if b == 0xf0 then .begun ⟨3, 0x90, 0xbf, 0⟩
  else if 0xf1 ≤ b && b ≤ 0xf3 then .begun ⟨3, 0x80, 0xbf, b - 0xf0⟩
  else if b == 0xf4 then .begun ⟨3, 0x80, 0x8f, 4⟩
  else .stray

/-- Read bytes, `pending` being the character begun before them; the text so far is reversed. -/
def decodeFrom (pending : Option Begun) (text : List Char) : List Nat → List Char
  | [] => (match pending with | some _ => replacement :: text | none => text).reverse
  | b :: bytes =>
    match pending with
    | some p =>
      if p.lo ≤ b && b ≤ p.hi then
        let code := p.code * 64 + (b - 0x80)
        if p.missing ≤ 1 then decodeFrom none (Char.ofNat code :: text) bytes
        else decodeFrom (some ⟨p.missing - 1, 0x80, 0xbf, code⟩) text bytes
      else
        match start b with
        | .whole c => decodeFrom none (c :: replacement :: text) bytes
        | .begun p => decodeFrom (some p) (replacement :: text) bytes
        | .stray => decodeFrom none (replacement :: replacement :: text) bytes
    | none =>
      match start b with
      | .whole c => decodeFrom none (c :: text) bytes
      | .begun p => decodeFrom (some p) text bytes
      | .stray => decodeFrom none (replacement :: text) bytes

/-- The text that bytes stand for. -/
def decode (bytes : List Nat) : String :=
  String.ofList (decodeFrom none [] bytes)

theorem decodeFrom_ascii (bytes : List Nat) (text : List Char) (h : ∀ b ∈ bytes, b < 0x80) :
    decodeFrom none text bytes = text.reverse ++ bytes.map Char.ofNat := by
  induction bytes generalizing text with
  | nil => simp [decodeFrom]
  | cons b bytes ih =>
    have hb : b < 0x80 := h b (by simp)
    simp [decodeFrom, start, hb, ih _ fun b hb => h b (by simp [hb])]

/-- Bytes below 128 are read one by one. -/
theorem decode_ascii (bytes : List Nat) (h : ∀ b ∈ bytes, b < 0x80) :
    decode bytes = String.ofList (bytes.map Char.ofNat) := by
  simp [decode, decodeFrom_ascii bytes [] h]

end DiskUsage.Text.Utf8
