import DiskUsage.Number.Numeral
import DiskUsage.Number.Binary64
import DiskUsage.Text.Blank
import DiskUsage.Text.Upper

/-!
# Sizes that are typed in

A size is a decimal numeral and a unit, in any case and with blanks around both.  It is computed in
binary floating point and rounded down to a 64-bit word.

* `parseSize`: the number of bytes, or what is wrong with the text.
* `parseSize_unknownUnit_iff`: a text is refused for its unit iff it has none of the known ones.
-/

namespace DiskUsage.Report

open Number

/-- Why a text is no size. -/
inductive SizeError where
  | unknownUnit (unit : String)
  /-- There is no numeral before the unit. -/
  | noNumber (input : String)
  /-- What stands before the unit is no numeral. -/
  | badNumber (input : String)
  deriving DecidableEq, Repr

/-- The texts of the error and of its cause. -/
def SizeError.chain : SizeError → List String
  | unknownUnit unit => ["Unknown size unit: " ++ unit]
  | noNumber input => ["Invalid size: " ++ input, "cannot parse float from empty string"]
  | badNumber input => ["Invalid size: " ++ input, "invalid float literal"]

/-- How many bytes a unit has. -/
def unitBytes? (unit : List Char) : Option Nat :=
  if unit = [] || unit = ['B'] then some 1
  else if unit = ['K'] || unit = ['K', 'B'] then some 1024
  else if unit = ['M'] || unit = ['M', 'B'] then some 1048576
  else if unit = ['G'] || unit = ['G', 'B'] then some 1073741824
  else if unit = ['T'] || unit = ['T', 'B'] then some 1099511627776
  else none

/-- A digit or a point. -/
def isNumeralChar (c : Char) : Bool :=
  c.isDigit || c == '.'

/-- A numeral with at most one point and at least one digit, as a quotient of naturals. -/
def decimal? (cs : List Char) : Option (Nat × Nat) :=
  let (whole, rest) := cs.span (· != '.')
  let fraction := rest.drop 1
  let digits := whole ++ fraction
  (natural? digits).map fun n => (n, tenPow fraction.length)

/-- A text without the blanks at its ends and in upper case. -/
def normalizeSize (s : String) : List Char :=
  Text.upperChars (Text.trimChars s.toList)

/-- The number of bytes that a text stands for. -/
def parseSize (s : String) : Except SizeError Nat :=
  let cs := normalizeSize s
  let number := cs.takeWhile isNumeralChar
  let unit := Text.trimChars (cs.dropWhile isNumeralChar)
  match unitBytes? unit with
  | none => .error (.unknownUnit (String.ofList unit))
  | some bytes =>
    match decimal? number with
    | some (num, den) => .ok ((Binary64.nearest num den).mul (.ofNat bytes)).floorWord
    | none =>
      if number.isEmpty then .error (.noNumber (String.ofList cs))
      else .error (.badNumber (String.ofList cs))

/-- A text is refused for its unit iff it has none of the known ones. -/
theorem parseSize_unknownUnit_iff (s : String) :
    (∃ unit, parseSize s = .error (.unknownUnit unit))
      ↔ unitBytes? (Text.trimChars ((normalizeSize s).dropWhile isNumeralChar)) = none := by
  cases h : unitBytes? (Text.trimChars ((normalizeSize s).dropWhile isNumeralChar)) with
  | none => simp [parseSize, h]
  | some bytes =>
    simp only [parseSize, h]
    split
    · simp
    · split <;> simp

end DiskUsage.Report
