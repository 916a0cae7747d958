import DiskUsage.Json.Value
import DiskUsage.Json.Text

/-!
# Writing JSON

JSON is written in two ways: compact, without any blank, and pretty, with one item or field a line,
two spaces for each level, and empty arrays and objects closed at once.

* `Json.compact`, `Json.pretty`: the two forms.
* `compact_nat`: a natural is written in digits.
-/

namespace DiskUsage.Json

/-- A number as it is written. -/
def Numeral.chars (n : Numeral) : List Char :=
  (if n.negative then ['-'] else []) ++ n.whole
    ++ (match n.fraction with | some ds => '.' :: ds | none => [])
    ++ (match n.exponent with
        | some (negative, ds) => 'e' :: (if negative then ['-'] else []) ++ ds
        | none => [])

/-- A value that is neither an array nor an object with something in it. -/
def scalarChars : Json → List Char
  | null => "null".toList
  | bool true => "true".toList
  | bool false => "false".toList
  | number n => n.chars
  | text s => quoteText s
  | broken => ['"', '"']
  | array _ => ['[', ']']
  | object _ => ['\x7b', '\x7d']

/-- The name of a field. -/
def nameChars (name : Option String) : List Char :=
  quoteText (name.getD "")

mutual
/-- A value without blanks. -/
def compactChars : Json → List Char
  | array (j :: rest) => '[' :: compactChars j ++ compactItems rest
  | object ((name, j) :: rest) =>
    '\x7b' :: nameChars name ++ ':' :: compactChars j ++ compactFields rest
  | j => scalarChars j

def compactItems : List Json → List Char
  | [] => [']']
  | j :: rest => ',' :: compactChars j ++ compactItems rest

def compactFields : List (Option String × Json) → List Char
  | [] => ['\x7d']
  | (name, j) :: rest => ',' :: nameChars name ++ ':' :: compactChars j ++ compactFields rest
end

/-- A new line at a level. -/
def newLine (level : Nat) : List Char :=
  '\n' :: List.replicate (2 * level) ' '

mutual
/-- A value with one item or field a line. -/
def prettyChars (level : Nat) : Json → List Char
  | array (j :: rest) =>
    '[' :: newLine (level + 1) ++ prettyChars (level + 1) j ++ prettyItems level rest
  | object ((name, j) :: rest) =>
    '\x7b' :: newLine (level + 1) ++ nameChars name ++ ':' :: ' ' :: prettyChars (level + 1) j
      ++ prettyFields level rest
  | j => scalarChars j

def prettyItems (level : Nat) : List Json → List Char
  | [] => newLine level ++ [']']
  | j :: rest =>
    ',' :: newLine (level + 1) ++ prettyChars (level + 1) j ++ prettyItems level rest

def prettyFields (level : Nat) : List (Option String × Json) → List Char
  | [] => newLine level ++ ['\x7d']
  | (name, j) :: rest =>
    ',' :: newLine (level + 1) ++ nameChars name ++ ':' :: ' ' :: prettyChars (level + 1) j
      ++ prettyFields level rest
end

/-- The text of a value without blanks. -/
def compact (j : Json) : String :=
  String.ofList (compactChars j)

/-- The text of a value with one item or field a line. -/
def pretty (j : Json) : String :=
  String.ofList (prettyChars 0 j)

theorem compact_nat (n : Nat) : compact (nat n) = String.ofList (Nat.toDigits 10 n) := by
  simp [compact, nat, compactChars, scalarChars, Numeral.chars, Numeral.ofNat]

end DiskUsage.Json
