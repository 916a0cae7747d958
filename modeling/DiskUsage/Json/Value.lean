import DiskUsage.Number.Numeral

/-!
# JSON values

JSON as it is written: numbers keep their digits, so that `1`, `1.0` and `1e0` stay different, and
objects keep all their fields in order.  A string whose escapes leave half a surrogate pair alone is
well formed but is no text; it can be passed over, not read.

Texts are read and written by a library, of which this is assumed: it reads the texts that follow the
grammar of the format and nothing else, within 127 levels of nesting; it keeps every digit of a whole
number that fits a word; it writes the two forms of `Json.compact` and `Json.pretty`; and a text that
it wrote is read as the value that it wrote.  The reader and the writers here do the same, so that
what is proved of them is proved of the texts themselves.

* `Json.natural?`: the number written as a natural.
* `Json.nesting`: how deep arrays and objects lie in each other.
-/

namespace DiskUsage

/-- A number as it is written. -/
structure Json.Numeral where
  negative : Bool
  whole : List Char
  fraction : Option (List Char)
  /-- Whether the exponent is negative, and its digits. -/
  exponent : Option (Bool × List Char)
  deriving DecidableEq, Repr

/-- A JSON value. -/
inductive Json where
  | null
  | bool (b : Bool)
  | number (n : Json.Numeral)
  | text (s : String)
  /-- A string that is no text. -/
  | broken
  | array (items : List Json)
  /-- The fields in order; a name is `none` if it is no text. -/
  | object (fields : List (Option String × Json))
  deriving Repr

namespace Json

/-- A natural, as it is written. -/
def Numeral.ofNat (n : Nat) : Numeral :=
  ⟨false, Nat.toDigits 10 n, none, none⟩

/-- The natural that a numeral without sign, fraction and exponent stands for. -/
def Numeral.natural? (n : Numeral) : Option Nat :=
  if n.negative || n.fraction.isSome || n.exponent.isSome then none
  else Number.natural? n.whole

/-- A natural. -/
def nat (n : Nat) : Json :=
  number (.ofNat n)

/-- An object whose names are texts. -/
def record (fields : List (String × Json)) : Json :=
  object (fields.map fun f => (some f.1, f.2))

/-- The number written as a natural. -/
def natural? : Json → Option Nat
  | number n => n.natural?
  | _ => none

/-- The number written as a natural that fits a 64-bit word. -/
def word? (j : Json) : Option Nat := do
  let n ← j.natural?
  if n < Number.wordCount then some n else none

def text? : Json → Option String
  | text s => some s
  | _ => none

def bool? : Json → Option Bool
  | bool b => some b
  | _ => none

def array? : Json → Option (List Json)
  | array items => some items
  | _ => none

/-- A list of texts. -/
def texts? (j : Json) : Option (List String) := do
  (← j.array?).mapM text?

/-- An optional value: `null` or what `read` reads. -/
def optional? {α : Type} (read : Json → Option α) : Json → Option (Option α)
  | null => some none
  | j => (read j).map some

mutual
/-- The depth to which arrays and objects lie in each other. -/
def nesting : Json → Nat
  | array items => 1 + nestingItems items
  | object fields => 1 + nestingFields fields
  | _ => 0

def nestingItems : List Json → Nat
  | [] => 0
  | j :: rest => max j.nesting (nestingItems rest)

def nestingFields : List (Option String × Json) → Nat
  | [] => 0
  | (_, j) :: rest => max j.nesting (nestingFields rest)
end

@[simp] theorem natural?_nat (n : Nat) : (nat n).natural? = some n := by
  simp [nat, natural?, Numeral.ofNat, Numeral.natural?, Number.natural?_toDigits]

theorem word?_nat {n : Nat} (h : n < Number.wordCount) : (nat n).word? = some n := by
  simp [word?, h]

end Json

end DiskUsage
