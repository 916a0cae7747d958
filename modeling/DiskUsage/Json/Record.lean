import DiskUsage.Json.Value

/-!
# Records in JSON

A record with fixed fields is written as an object and read from an object or, where the record
allows it, from an array of its values in the order of its fields.  In an object, fields of other
names are passed over, a field that occurs twice is refused, and so is a name that is no text.

The code for this is generated from the declaration of a record.  That it takes both forms, and these
fields and no others, is assumed of the generator.

* `Record.read?`: the values of the fields, in their order.
* `readRecord?`, `readExactRecord?`: all fields of a record; other fields are passed over or refused.
* `lookup?_eq_none_iff`: a field is missing iff its name does not occur.
-/

namespace DiskUsage.Json

/-- The values of a record's fields, in their order. -/
inductive Record where
  /-- Read from an object; a field may be missing. -/
  | keyed (values : List (Option Json))
  /-- Read from an array, which may end early. -/
  | listed (values : List Json)

/-- The value of a field, if it occurs. -/
def lookup? (fields : List (Option String × Json)) (name : String) : Option Json :=
  (fields.find? fun f => f.1 == some name).map Prod.snd

/-- The value of a field of an object. -/
def field? (j : Json) (name : String) : Option Json :=
  match j with
  | object fields => lookup? fields name
  | _ => none

/-- How often a field occurs. -/
def occurrences (fields : List (Option String × Json)) (name : String) : Nat :=
  fields.countP fun f => f.1 == some name

/-- The fields of an object, each at most once. -/
def keyed? (names : List String) (fields : List (Option String × Json)) :
    Option (List (Option Json)) :=
  if fields.all (fun f => f.1.isSome) && names.all (fun n => occurrences fields n ≤ 1) then
    some (names.map (lookup? fields))
  else none

/-- The values of a record's fields. -/
def Record.read? (names : List String) : Json → Option Record
  | object fields => (keyed? names fields).map .keyed
  | array items => if items.length ≤ names.length then some (.listed items) else none
  | _ => none

/-- The values of all fields: an array has to be complete, and in an object only the fields in
`optional` may be missing, which then count as `null`. -/
def Record.complete? (names optional : List String) (r : Record) : Option (List Json) :=
  match r with
  | .listed values => if values.length = names.length then some values else none
  | .keyed values =>
    (names.zip values).mapM fun (name, value) =>
      match value with
      | some j => some j
      | none => if optional.contains name then some .null else none

/-- All fields of a record that is read from an object or a complete array. -/
def readRecord? (names optional : List String) (j : Json) : Option (List Json) :=
  (Record.read? names j).bind (Record.complete? names optional)

/-- All fields of a record that is read from an object with these fields and no others, or from a
complete array. -/
def readExactRecord? (names : List String) (j : Json) : Option (List Json) :=
  match j with
  | object fields => if fields.length = names.length then readRecord? names [] j else none
  | _ => readRecord? names [] j

theorem lookup?_eq_none_iff (fields : List (Option String × Json)) (name : String) :
    lookup? fields name = none ↔ ∀ f ∈ fields, f.1 ≠ some name := by
  simp [lookup?]

end DiskUsage.Json
