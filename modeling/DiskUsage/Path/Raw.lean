import DiskUsage.Path.Basic
import DiskUsage.Text.Utf8

/-!
# Paths as the system has them

To the system a path is a run of bytes.  Nearly always it is a text in UTF-8, and such a path is kept
as its text; any other run of bytes is kept as it is.  What the rules of paths say of bytes they say of
letters, one for each byte, since the slash and the dot are single bytes.

* `RawPath.text?`: the text of a path, if it is one.
* `RawPath.bytes`, `RawPath.letters`: the bytes of a path, and a letter for each of them.
* `RawPath.ofBytes`: the path of some bytes.
* `RawPath.display`: a path to read, in which bytes that are no text are shown by a replacement.
-/

namespace DiskUsage

/-- A path as the system has it. -/
inductive RawPath where
  | text (path : Path)
  /-- Its bytes are no text. -/
  | foreign (bytes : List UInt8) (h : ¬Text.Utf8.IsText bytes)
  deriving DecidableEq, Repr

namespace RawPath

/-- The text of a path. -/
def text? : RawPath → Option Path
  | text path => some path
  | foreign _ _ => none

/-- There is nothing in the path. -/
def isEmpty : RawPath → Bool
  | text path => path.text.isEmpty
  | foreign _ _ => false

/-- The bytes of a path. -/
def bytes : RawPath → List UInt8
  | text path => Text.Utf8.encode path.text
  | foreign bytes _ => bytes

/-- The path of some bytes. -/
def ofBytes (bytes : List UInt8) : RawPath :=
  if h : Text.Utf8.IsText bytes then text ⟨String.fromUTF8 bytes.toByteArray h⟩ else foreign bytes h

/-- A letter for each byte. -/
def lettersOf (bytes : List UInt8) : String :=
  String.ofList (bytes.map fun b => Char.ofNat b.toNat)

/-- The path with a letter for each of its bytes. -/
def letters (p : RawPath) : Path :=
  ⟨lettersOf p.bytes⟩

/-- What a path says, in letters. -/
def components (p : RawPath) : List Path.Component :=
  p.letters.components

/-- Both paths say the same. -/
def sameAs (p q : RawPath) : Bool :=
  p.letters.sameAs q.letters

/-- The path starts at the root. -/
def isAbsolute (p : RawPath) : Bool :=
  p.letters.isAbsolute

/-- The text that is shown for letters which stand for bytes. -/
def displayLetters (letters : String) : String :=
  Text.Utf8.decode (letters.toList.map Char.toNat)

/-- The path to read. -/
def display (p : RawPath) : String :=
  displayLetters p.letters.text

end RawPath

end DiskUsage
