import DiskUsage.Text.Unprintable

/-!
# Quoted text

A text inside double quotes, on one line: the quote and the backslash are written after a
backslash, four controls have a letter, and every other unprintable character is written as the
hexadecimal digits of its code point between braces.

* `quoteChars_append`: quoting works character by character.
* `escape_of_ascii`: visible ASCII other than the quote and the backslash stands for itself.
-/

namespace DiskUsage.Text

/-- Lower-case hexadecimal digits without leading zeros. -/
def hexDigits (n : Nat) : List Char :=
  Nat.toDigits 16 n

/-- A character as it stands inside quotes. -/
def escape (c : Char) : List Char :=
  if c = '\x00' then ['\\', '0']
  else if c = '\t' then ['\\', 't']
  else if c = '\r' then ['\\', 'r']
  else if c = '\n' then ['\\', 'n']
  else if c = '"' || c = '\\' then ['\\', c]
  else if isUnprintable c then ['\\', 'u', '\x7b'] ++ hexDigits c.toNat ++ ['\x7d']
  else [c]

/-- The characters of a text, each escaped. -/
def quoteChars (cs : List Char) : List Char :=
  cs.flatMap escape

/-- A text in double quotes. -/
def quote (s : String) : String :=
  String.ofList ('"' :: quoteChars s.toList ++ ['"'])

@[simp] theorem quoteChars_nil : quoteChars [] = [] := rfl

@[simp] theorem quoteChars_append (a b : List Char) :
    quoteChars (a ++ b) = quoteChars a ++ quoteChars b := by
  simp [quoteChars]

/-- Visible ASCII other than the quote and the backslash stands for itself. -/
theorem escape_of_ascii {c : Char} (lo : 0x20 ≤ c.toNat) (hi : c.toNat ≤ 0x7e)
    (hq : c ≠ '"') (hb : c ≠ '\\') : escape c = [c] := by
  have h0 : c ≠ '\x00' := by rintro rfl; simp at lo
  have ht : c ≠ '\t' := by rintro rfl; simp at lo
  have hr : c ≠ '\r' := by rintro rfl; simp at lo
  have hn : c ≠ '\n' := by rintro rfl; simp at lo
  simp [escape, h0, ht, hr, hn, hq, hb, isUnprintable_eq_false_of_ascii lo hi]

end DiskUsage.Text
