/-!
# JSON strings

Inside a JSON string the quote, the backslash and the controls below the space are written as
escapes; every other character stands for itself.  Reading also takes the other escapes of the
format.  An escape for one half of a surrogate pair needs its partner in the next escape; without it
the string is well formed but is no text.

* `quote`: the string literal for a text.
* `readQuoted`: what a string literal says, and the characters after it.
* `escape_of_visible`: a character from the space on stands for itself, two excepted.
-/

namespace DiskUsage.Json

/-- Four hexadecimal digits. -/
def hex4 (n : Nat) : List Char :=
  let digits := Nat.toDigits 16 n
  List.replicate (4 - digits.length) '0' ++ digits

/-- A character as it stands inside a string literal. -/
def escape (c : Char) : List Char :=
  if c = '"' then ['\\', '"']
  else if c = '\\' then ['\\', '\\']
  else if c = '\x08' then ['\\', 'b']
  else if c = '\x0c' then ['\\', 'f']
  else if c = '\n' then ['\\', 'n']
  else if c = '\r' then ['\\', 'r']
  else if c = '\t' then ['\\', 't']
  else if c.toNat < 0x20 then '\\' :: 'u' :: hex4 c.toNat
  else [c]

/-- The string literal for a text. -/
def quoteText (s : String) : List Char :=
  '"' :: s.toList.flatMap escape ++ ['"']

/-- The value of a hexadecimal digit. -/
def hexValue? (c : Char) : Option Nat :=
  if '0' ≤ c && c ≤ '9' then some (c.toNat - '0'.toNat)
  else if 'a' ≤ c && c ≤ 'f' then some (c.toNat - 'a'.toNat + 10)
  else if 'A' ≤ c && c ≤ 'F' then some (c.toNat - 'A'.toNat + 10)
  else none

/-- The character that a one-letter escape stands for. -/
def simpleEscape? (c : Char) : Option Char :=
  if c = '"' || c = '\\' || c = '/' then some c
  else if c = 'b' then some '\x08'
  else if c = 'f' then some '\x0c'
  else if c = 'n' then some '\n'
  else if c = 'r' then some '\r'
  else if c = 't' then some '\t'
  else none

/-- Where the reader stands in a string literal. -/
inductive TextMode where
  | plain
  /-- After a backslash. -/
  | escaped
  /-- In an escape by code: the digits still to come, and the value so far. -/
  | code (left value : Nat)
  deriving DecidableEq, Repr

/-- What has been read of a string literal: the text, last character first, the first half of a
surrogate pair that waits for the second, and whether a half was left alone. -/
structure TextSoFar where
  text : List Char
  half : Option Nat
  broken : Bool

namespace TextSoFar

def empty : TextSoFar := ⟨[], none, false⟩

/-- A half that waits is left alone by whatever else follows. -/
def settle (t : TextSoFar) : TextSoFar :=
  { t with half := none, broken := t.broken || t.half.isSome }

/-- One more character. -/
def push (t : TextSoFar) (c : Char) : TextSoFar :=
  let t := t.settle
  { t with text := c :: t.text }

/-- One more 16-bit unit. -/
def pushUnit (t : TextSoFar) (unit : Nat) : TextSoFar :=
  if 0xdc00 ≤ unit && unit ≤ 0xdfff then
    match t.half with
    | some high =>
      let code := 0x10000 + (high - 0xd800) * 0x400 + (unit - 0xdc00)
      { t with text := Char.ofNat code :: t.text, half := none }
    | none => { t with broken := true }
  else if 0xd800 ≤ unit && unit ≤ 0xdbff then { t.settle with half := some unit }
  else t.push (Char.ofNat unit)

/-- The text, unless a half was left alone. -/
def finish (t : TextSoFar) : Option String :=
  let t := t.settle
  if t.broken then none else some (String.ofList t.text.reverse)

end TextSoFar

/-- Read to the end of a string literal: its text, if it is one, and the characters after it. -/
def readTextFrom (mode : TextMode) (t : TextSoFar) :
    List Char → Option (Option String × List Char)
  | [] => none
  | c :: cs =>
    match mode with
    | .plain =>
      if c = '"' then some (t.finish, cs)
      else if c = '\\' then readTextFrom .escaped t cs
      else if c.toNat < 0x20 then none
      else readTextFrom .plain (t.push c) cs
    | .escaped =>
      if c = 'u' then readTextFrom (.code 4 0) t cs
      else
        match simpleEscape? c with
        | some c => readTextFrom .plain (t.push c) cs
        | none => none
    | .code left value =>
      match hexValue? c with
      | some d =>
        if left ≤ 1 then readTextFrom .plain (t.pushUnit (value * 16 + d)) cs
        else readTextFrom (.code (left - 1) (value * 16 + d)) t cs
      | none => none

/-- Read a string literal after its first quote. -/
def readText (cs : List Char) : Option (Option String × List Char) :=
  readTextFrom .plain .empty cs

/-- A character from the space on stands for itself, the quote and the backslash excepted. -/
theorem escape_of_visible {c : Char} (h : 0x20 ≤ c.toNat) (hq : c ≠ '"') (hb : c ≠ '\\') :
    escape c = [c] := by
  have h1 : c ≠ '\x08' := by rintro rfl; simp at h
  have h2 : c ≠ '\x0c' := by rintro rfl; simp at h
  have h3 : c ≠ '\n' := by rintro rfl; simp at h
  have h4 : c ≠ '\r' := by rintro rfl; simp at h
  have h5 : c ≠ '\t' := by rintro rfl; simp at h
  have h6 : ¬ c.toNat < 0x20 := by omega
  simp [escape, hq, hb, h1, h2, h3, h4, h5, h6]

end DiskUsage.Json
