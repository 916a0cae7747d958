import DiskUsage.Error.System
import DiskUsage.FileSystem.Node

/-!
# Looking up paths

A path is followed from the root, or from a working directory, piece by piece: `.` stays, `..` goes
up, and a link is replaced by its target, up to forty times.  Each piece is looked up in a directory
that has to permit it; only a slash at the end looks up nothing.  The last piece is followed too if
it is a link and the caller wants what it leads to, or if a slash comes after it; a file that is
going to be written may have no slash after its name.

* `FileSystem.resolve`: where a path leads, or why it leads nowhere.
* `FileSystem.lstat`, `FileSystem.stat`, `FileSystem.list`: a node itself, what it leads to, and what
  a directory holds.
* `FileSystem.isReadable`, `FileSystem.isSearchable`: something is found at a path, and a directory
  tells of what is in it.
* `resolve_of_long`: a path of more than 4095 bytes leads nowhere.
-/

namespace DiskUsage

/-- A tree of nodes below the root directory. -/
structure FileSystem where
  root : Node
  /-- No file has this identity or a larger one. -/
  nextId : Nat

namespace FileSystem

/-- Bytes of the longest path that a system call takes. -/
def maxPathBytes : Nat := 4095

/-- Bytes of the longest name. -/
def maxNameBytes : Nat := 255

/-- Links that are followed on the way to one node. -/
def maxLinks : Nat := 40

/-- The path is not too long for a system call. -/
def fits (p : Path) : Bool :=
  decide (p.byteLength ≤ maxPathBytes)

/-- Where a path leads: to a node, given by the names from the root on, or to a name that a directory
does not have. -/
inductive Place where
  | node (names : List String) (node : Node)
  | missing (dir : List String) (name : String)

/-- How the last name of a path is taken. -/
inductive Ending where
  /-- It is meant itself, also if it is a link. -/
  | itself
  /-- What it leads to is meant. -/
  | followed
  /-- What it leads to is going to be written as a file. -/
  | written
  deriving DecidableEq, Repr

/-- What stops a walk along pieces that are no links. -/
inductive Stop where
  | failed (e : SystemError)
  | arrived (place : Place)
  /-- A link in the directory `here` has to be followed before the pieces that are left. -/
  | link (here : List String) (target : Path) (left : List String)

/-- The pieces that a path goes through; a slash at the end is an empty piece. -/
def steps (p : Path) : List String :=
  let names := ((Path.pieces p.chars).filter (fun w => !w.isEmpty)).map String.ofList
  if names.isEmpty then []
  else if p.chars.getLast? == some '/' then names ++ [""] else names

/-- The piece stays where it is. -/
def stays (piece : String) : Bool :=
  piece = "." || piece = ""

/-- The node at names from the root on. -/
def at? (fs : FileSystem) (names : List String) : Option Node :=
  fs.root.descend? names

/-- Go along pieces from a directory up to the first link that has to be followed.  Names are given
from the root on. -/
def advance (fs : FileSystem) (ending : Ending) (here : List String) : List String → Stop
  | [] =>
    match fs.at? here with
    | some node => .arrived (.node here node)
    | none => .failed .noEntry
  | piece :: left =>
    match fs.at? here with
    | some (.dir mode _ entries) =>
      if piece ≠ "" && !mode.searchable then .failed .accessDenied
      else if stays piece then advance fs ending here left
      else if piece = ".." then advance fs ending here.dropLast left
      else if ending = .written && left == [""] then .failed .isADirectory
      else if maxNameBytes < piece.utf8ByteSize then .failed .nameTooLong
      else
        match Node.childNamed? piece entries with
        | none =>
          if left.isEmpty then .arrived (.missing here piece) else .failed .noEntry
        | some (.link target data) =>
          if left.isEmpty && ending = .itself then .arrived (.node (here ++ [piece]) (.link target data))
          else .link here target left
        | some _ => advance fs ending (here ++ [piece]) left
    | some _ => .failed .notADirectory
    | none => .failed .noEntry

/-- Go along pieces and follow up to so many links. -/
def follow (fs : FileSystem) (ending : Ending) :
    Nat → List String → List String → Except SystemError Place
  | links, here, pieces =>
    match fs.advance ending here pieces with
    | .failed e => .error e
    | .arrived place => .ok place
    | .link here target left =>
      match links with
      | 0 => .error .tooManyLinks
      | links + 1 =>
        fs.follow ending links (if target.isAbsolute then [] else here) (steps target ++ left)

/-- Where a path leads, seen from a working directory. -/
def resolve (fs : FileSystem) (cwd : List String) (ending : Ending) (p : Path) :
    Except SystemError Place :=
  if p.chars.contains '\x00' then .error .zeroInPath
  else if p.chars.isEmpty then .error .noEntry
  else if !fits p then .error .nameTooLong
  else fs.follow ending maxLinks (if p.isAbsolute then [] else cwd) (steps p)

/-- The node that a path leads to. -/
def nodeAt (fs : FileSystem) (cwd : List String) (ending : Ending) (p : Path) :
    Except SystemError Node :=
  match fs.resolve cwd ending p with
  | .error e => .error e
  | .ok (.missing _ _) => .error .noEntry
  | .ok (.node _ node) => .ok node

/-- The node at a path, which may be a link. -/
def lstat (fs : FileSystem) (cwd : List String) (p : Path) : Except SystemError Node :=
  fs.nodeAt cwd .itself p

/-- The node that a path leads to in the end. -/
def stat (fs : FileSystem) (cwd : List String) (p : Path) : Except SystemError Node :=
  fs.nodeAt cwd .followed p

/-- A path leads to a directory. -/
def isDir (fs : FileSystem) (cwd : List String) (p : Path) : Bool :=
  match fs.stat cwd p with
  | .ok node => node.isDir
  | .error _ => false

/-- What the directory holds that a path leads to. -/
def list (fs : FileSystem) (cwd : List String) (p : Path) :
    Except SystemError (List (String × Node)) :=
  match fs.stat cwd p with
  | .error e => .error e
  | .ok (.dir mode _ entries) => if mode.listable then .ok entries else .error .accessDenied
  | .ok _ => .error .notADirectory

/-- Something is found at a path, be it a link. -/
def isReadable (fs : FileSystem) (cwd : List String) (p : Path) : Bool :=
  (fs.lstat cwd p).toBool

/-- A path leads to a directory whose names may be looked up. -/
def isSearchable (fs : FileSystem) (cwd : List String) (p : Path) : Bool :=
  match fs.stat cwd p with
  | .ok (.dir mode _ _) => mode.searchable
  | _ => false

/-- The text of the file that a path leads to. -/
def read (fs : FileSystem) (cwd : List String) (p : Path) : Except SystemError String :=
  match fs.stat cwd p with
  | .error e => .error e
  | .ok (.file data) => .ok data.content.toText
  | .ok (.dir ..) => .error .isADirectory
  | .ok _ => .ok ""

/-- A path of more than 4095 bytes leads nowhere. -/
theorem resolve_of_long (fs : FileSystem) (cwd : List String) (ending : Ending) {p : Path}
    (h : fits p = false) : ∃ e, fs.resolve cwd ending p = .error e := by
  unfold resolve
  split
  · exact ⟨_, rfl⟩
  · split
    · exact ⟨_, rfl⟩
    · simp [h]

end FileSystem

end DiskUsage
