/-!
# Paths

A path is a text.  What it says is the list of its components: a leading slash is the root, and the
pieces between slashes are names.  Empty pieces and the piece `.` say nothing, except that a
relative path that begins with `.` keeps it; the piece `..` is a component of its own.  Two texts
with the same components are the same path to every rule of this library, while each path keeps its
own text for printing.

* `Path.marks`: the components with the places where they stand in the text.
* `Path.sameAs`, `sameAs_iff`: sameness of paths.
* `Path.join`, `Path.parent?`, `Path.fileName?`, `Path.extension?`, `Path.stripBase?`,
  `Path.withExtension`: operations on the text that follow the components.
-/

namespace DiskUsage

/-- A path, as it is written. -/
structure Path where
  text : String
  deriving DecidableEq, Repr, Inhabited

namespace Path

/-- One step that a path takes. -/
inductive Component where
  /-- Start at the root. -/
  | root
  /-- Stay: the leading `.` of a relative path. -/
  | current
  /-- Go up. -/
  | parent
  /-- Go down to a name. -/
  | normal (name : String)
  deriving DecidableEq, Repr

/-- The text of one component. -/
def Component.text : Component → String
  | root => "/"
  | current => "."
  | parent => ".."
  | normal name => name

/-- A component with the places in the text where it starts and where it ends. -/
structure Mark where
  component : Component
  start : Nat
  stop : Nat
  deriving DecidableEq, Repr

/-- The pieces of a text between slashes. -/
def pieces : List Char → List (List Char)
  | [] => [[]]
  | c :: cs =>
    if c = '/' then [] :: pieces cs
    else
      match pieces cs with
      | [] => [[c]]
      | w :: ws => (c :: w) :: ws

/-- What a piece says; `leading` tells whether it stands at the very start of the text. -/
def component? (leading : Bool) (piece : List Char) : Option Component :=
  if piece = [] then none
  else if piece = ['.'] then (if leading then some .current else none)
  else if piece = ['.', '.'] then some .parent
  else some (.normal (String.ofList piece))

/-- The marks of pieces, the first of which stands at `offset`. -/
def marksFrom (offset : Nat) : List (List Char) → List Mark
  | [] => []
  | w :: ws =>
    match component? (offset == 0) w with
    | some c => ⟨c, offset, offset + w.length⟩ :: marksFrom (offset + w.length + 1) ws
    | none => marksFrom (offset + w.length + 1) ws

/-- The characters of a path. -/
def chars (p : Path) : List Char :=
  p.text.toList

/-- The path starts at the root. -/
def isAbsolute (p : Path) : Bool :=
  p.chars.head? == some '/'

/-- The components with their places. -/
def marks (p : Path) : List Mark :=
  (if p.isAbsolute then [⟨.root, 0, 1⟩] else []) ++ marksFrom 0 (pieces p.chars)

/-- What a path says. -/
def components (p : Path) : List Component :=
  p.marks.map Mark.component

/-- Both paths say the same. -/
def sameAs (p q : Path) : Bool :=
  p.components == q.components

/-- The part of the text between two places. -/
def slice (p : Path) (start stop : Nat) : String :=
  String.ofList ((p.chars.take stop).drop start)

/-- The last component, if it is a name. -/
def fileName? (p : Path) : Option String :=
  match p.components.getLast? with
  | some (.normal name) => some name
  | _ => none

/-- The path without its last component; the root and the empty path have none. -/
def parent? (p : Path) : Option Path :=
  match p.marks.reverse with
  | [] => none
  | ⟨.root, _, _⟩ :: _ => none
  | [_] => some ⟨""⟩
  | _ :: before :: _ => some ⟨p.slice 0 before.stop⟩

/-- A path seen from another one: an absolute path stays itself. -/
def join (p q : Path) : Path :=
  if q.isAbsolute then q
  else if p.chars.isEmpty || p.chars.getLast? == some '/' then ⟨p.text ++ q.text⟩
  else ⟨p.text ++ "/" ++ q.text⟩

/-- The entry of a directory under a name. -/
def child (p : Path) (name : String) : Path :=
  p.join ⟨name⟩

/-- The rest of a path below a base whose components it starts with. -/
def stripBase? (p base : Path) : Option Path :=
  if base.components.isPrefixOf p.components then
    match p.marks.drop base.components.length with
    | [] => some ⟨""⟩
    | first :: rest => some ⟨p.slice first.start ((first :: rest).getLast (by simp)).stop⟩
  else none

/-- A file name cut at its last dot, unless the dot comes first: what is before it, and what is
after it. -/
def splitName (name : List Char) : List Char × Option (List Char) :=
  match name.reverse.span (· != '.') with
  | (_, []) => (name, none)
  | (after, _ :: before) =>
    if before = [] then (name, none) else (before.reverse, some after.reverse)

/-- What follows the last dot of the file name. -/
def extension? (p : Path) : Option String := do
  let name ← p.fileName?
  let ext ← (splitName name.toList).2
  return String.ofList ext

/-- The path with another extension, or with one more if the file name has none.  At the end of a
path the name `..c` loses its extension `c` and becomes the step `..`, which takes no other. -/
def withExtension (p : Path) (ext : String) : Path :=
  match p.marks.getLast? with
  | some ⟨.normal name, start, stop⟩ =>
    let stem := (splitName name.toList).1
    if stem = ['.'] && stop == p.chars.length then ⟨p.slice 0 (start + 2)⟩
    else ⟨p.slice 0 (start + stem.length) ++ "." ++ ext⟩
  | _ => p

/-- The text of components set one after the other. -/
def ofComponents : List Component → Path
  | .root :: rest => ⟨"/" ++ "/".intercalate (rest.map Component.text)⟩
  | cs => ⟨"/".intercalate (cs.map Component.text)⟩

/-- Bytes of the text. -/
def byteLength (p : Path) : Nat :=
  p.text.utf8ByteSize

@[simp] theorem sameAs_iff (p q : Path) : p.sameAs q = true ↔ p.components = q.components := by
  simp [sameAs]

@[simp] theorem sameAs_refl (p : Path) : p.sameAs p = true := by
  simp

theorem sameAs_comm (p q : Path) : p.sameAs q = q.sameAs p := by
  rw [Bool.eq_iff_iff, sameAs_iff, sameAs_iff, eq_comm]

theorem sameAs_trans {p q r : Path} (h : p.sameAs q = true) (k : q.sameAs r = true) :
    p.sameAs r = true := by
  simp_all

example : Path.sameAs ⟨"/a//b/./c/"⟩ ⟨"/a/b/c"⟩ = true := by decide +kernel
example : Path.sameAs ⟨"./a"⟩ ⟨"a"⟩ = false := by decide +kernel
example : Path.parent? ⟨"/a//b/"⟩ = some ⟨"/a"⟩ := by decide +kernel
example : Path.stripBase? ⟨"/home/u/Music//a/"⟩ ⟨"/home/u"⟩ = some ⟨"Music//a"⟩ := by decide +kernel
example : Path.withExtension ⟨"/x/y.z.json"⟩ "tmp" = ⟨"/x/y.z.tmp"⟩ := by decide +kernel
example : Path.withExtension ⟨"/x/..c/"⟩ "tmp" = ⟨"/x/..tmp"⟩ := by decide +kernel
example : Path.withExtension ⟨"/x/..c"⟩ "tmp" = ⟨"/x/.."⟩ := by decide +kernel

end Path

end DiskUsage
