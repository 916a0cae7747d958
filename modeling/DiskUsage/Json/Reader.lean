import DiskUsage.Json.Value
import DiskUsage.Json.Text

/-!
# Reading JSON

One JSON value is read from a whole text; blanks may stand around it and around every token, and
nothing else is forgiven: no comment, no comma before a closing bracket, no leading zero, no mark at
the start, no raw control in a string.

* `Json.parse?`: the value of a text.
* `readNumeral`: one number and the characters after it.
-/

namespace DiskUsage.Json

/-- The four blanks of the format. -/
def isGap (c : Char) : Bool :=
  c == ' ' || c == '\t' || c == '\n' || c == '\r'

/-- Drop blanks. -/
def skipGap (cs : List Char) : List Char :=
  cs.dropWhile isGap

/-- A non-empty run of digits and the characters after it. -/
def readDigits (cs : List Char) : Option (List Char × List Char) :=
  match cs.span Char.isDigit with
  | ([], _) => none
  | (digits, rest) => some (digits, rest)

/-- The whole part of a number: a zero alone, or digits that start with another one. -/
def readWhole : List Char → Option (List Char × List Char)
  | '0' :: rest => some (['0'], rest)
  | cs => readDigits cs

/-- The part after a point, if there is one. -/
def readFraction : List Char → Option (Option (List Char) × List Char)
  | '.' :: cs => (readDigits cs).map fun (digits, rest) => (some digits, rest)
  | cs => some (none, cs)

/-- The exponent, if there is one. -/
def readExponent (cs : List Char) : Option (Option (Bool × List Char) × List Char) :=
  match cs with
  | c :: rest =>
    if c = 'e' || c = 'E' then
      let (negative, rest) := match rest with
        | '-' :: rest => (true, rest)
        | '+' :: rest => (false, rest)
        | rest => (false, rest)
      (readDigits rest).map fun (digits, rest) => (some (negative, digits), rest)
    else some (none, cs)
  | [] => some (none, [])

/-- One number and the characters after it. -/
def readNumeral (cs : List Char) : Option (Numeral × List Char) := do
  let (negative, cs) := match cs with
    | '-' :: cs => (true, cs)
    | cs => (false, cs)
  let (whole, cs) ← readWhole cs
  let (fraction, cs) ← readFraction cs
  let (exponent, cs) ← readExponent cs
  return (⟨negative, whole, fraction, exponent⟩, cs)

mutual
/-- One value and the characters after it; the fuel bounds the steps. -/
def readValue : Nat → List Char → Option (Json × List Char)
  | 0, _ => none
  | fuel + 1, cs =>
    match skipGap cs with
    | 'n' :: 'u' :: 'l' :: 'l' :: rest => some (.null, rest)
    | 't' :: 'r' :: 'u' :: 'e' :: rest => some (.bool true, rest)
    | 'f' :: 'a' :: 'l' :: 's' :: 'e' :: rest => some (.bool false, rest)
    | '"' :: rest =>
      match readText rest with
      | some (some s, rest) => some (.text s, rest)
      | some (none, rest) => some (.broken, rest)
      | none => none
    | '[' :: rest =>
      match skipGap rest with
      | ']' :: rest => some (.array [], rest)
      | rest => readItems fuel [] rest
    | '\x7b' :: rest =>
      match skipGap rest with
      | '\x7d' :: rest => some (.object [], rest)
      | rest => readFields fuel [] rest
    | rest => (readNumeral rest).map fun (n, rest) => (.number n, rest)

/-- The items of an array up to its closing bracket; those before are given last first. -/
def readItems : Nat → List Json → List Char → Option (Json × List Char)
  | 0, _, _ => none
  | fuel + 1, done, cs =>
    match readValue fuel cs with
    | none => none
    | some (item, rest) =>
      match skipGap rest with
      | ',' :: rest => readItems fuel (item :: done) rest
      | ']' :: rest => some (.array (item :: done).reverse, rest)
      | _ => none

/-- The fields of an object up to its closing brace; those before are given last first. -/
def readFields : Nat → List (Option String × Json) → List Char → Option (Json × List Char)
  | 0, _, _ => none
  | fuel + 1, done, cs =>
    match skipGap cs with
    | '"' :: rest =>
      match readText rest with
      | none => none
      | some (name, rest) =>
        match skipGap rest with
        | ':' :: rest =>
          match readValue fuel rest with
          | none => none
          | some (value, rest) =>
            match skipGap rest with
            | ',' :: rest => readFields fuel ((name, value) :: done) rest
            | '\x7d' :: rest => some (.object ((name, value) :: done).reverse, rest)
            | _ => none
        | _ => none
    | _ => none
end

/-- Steps enough for a text: each character opens at most one bracket and one value. -/
def fuelFor (cs : List Char) : Nat :=
  2 * cs.length + 2

/-- The value of a whole text. -/
def parseChars? (cs : List Char) : Option Json :=
  match readValue (fuelFor cs) cs with
  | some (j, rest) => if (skipGap rest).isEmpty then some j else none
  | none => none

/-- The value of a whole text. -/
def parse? (s : String) : Option Json :=
  parseChars? s.toList

end DiskUsage.Json
