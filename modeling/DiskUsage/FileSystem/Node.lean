import DiskUsage.Path.Basic
import DiskUsage.Time.Timestamp

/-!
# Nodes of a file system

A node is a file, a link, a special file (a pipe, a socket or a device) or a directory, which holds
nodes under names in the order in which they are listed.  A file under several names is one file: it
has one identity.

* `Node.actualSize`: the bytes that a node really holds on disk.
* `Content.actualSize_le`: they are never more than its length.
-/

namespace DiskUsage

/-- What a file holds. -/
inductive Content where
  | text (s : String)
  /-- So many bytes that are all the same letter. -/
  | fill (bytes : Nat)
  /-- So many bytes that were never written. -/
  | hole (bytes : Nat)
  deriving DecidableEq, Repr

namespace Content

/-- Bytes of one block on disk. -/
def blockBytes : Nat := 4096

/-- Bytes of the unit in which disk space is told. -/
def unitBytes : Nat := 512

/-- Bytes from the start of a file to its end. -/
def length : Content → Nat
  | text s => s.utf8ByteSize
  | fill bytes => bytes
  | hole bytes => bytes

/-- Bytes of the blocks that a file takes on disk; a hole takes none. -/
def allocated : Content → Nat
  | hole _ => 0
  | c => (c.length + (blockBytes - 1)) / blockBytes * blockBytes

/-- The bytes that a file really holds: blocks are not counted beyond its end, and a hole is not
counted at all. -/
def actualSize (c : Content) : Nat :=
  min c.allocated c.length

/-- The text of a file. -/
def toText : Content → String
  | text s => s
  | fill bytes => String.ofList (List.replicate bytes 'Z')
  | hole bytes => String.ofList (List.replicate bytes '\x00')

theorem actualSize_le (c : Content) : c.actualSize ≤ c.length :=
  Nat.min_le_right _ _

end Content

/-- A file. -/
structure FileData where
  /-- What makes the file itself under all its names. -/
  id : Nat
  content : Content
  accessed : Option Timestamp
  deriving DecidableEq, Repr

/-- What is known of a link besides where it leads. -/
structure LinkData where
  /-- The units of disk that its text takes; a short text often takes none. -/
  units : Nat
  accessed : Option Timestamp
  deriving DecidableEq, Repr

/-- What a directory permits. -/
structure DirMode where
  /-- Its names may be read. -/
  listable : Bool
  /-- Its names may be looked up: paths lead through it, and tell of what is in it. -/
  searchable : Bool
  deriving DecidableEq, Repr

/-- Everything is permitted. -/
def DirMode.free : DirMode := ⟨true, true⟩

/-- A node of a file system. -/
inductive Node where
  | file (data : FileData)
  | link (target : Path) (data : LinkData)
  /-- A pipe, a socket or a device. -/
  | special (accessed : Option Timestamp)
  | dir (mode : DirMode) (accessed : Option Timestamp) (entries : List (String × Node))
  deriving Repr

/-- What a node is, as far as its name in a directory tells. -/
inductive NodeKind where
  | link
  | dir
  | file
  deriving DecidableEq, Repr

namespace Node

/-- A directory with nothing in it. -/
def emptyDir (accessed : Option Timestamp) : Node :=
  dir .free accessed []

def isDir : Node → Bool
  | dir .. => true
  | _ => false

def isLink : Node → Bool
  | link .. => true
  | _ => false

/-- The node is a file that is not special. -/
def isRegular : Node → Bool
  | file _ => true
  | _ => false

/-- What the node is; special files count as files. -/
def kind : Node → NodeKind
  | link .. => .link
  | dir .. => .dir
  | _ => .file

/-- When the node was last used. -/
def accessed : Node → Option Timestamp
  | file data => data.accessed
  | link _ data => data.accessed
  | special accessed => accessed
  | dir _ accessed _ => accessed

/-- Bytes from the start of a node to its end. -/
def length : Node → Nat
  | file data => data.content.length
  | link target _ => target.byteLength
  | special _ => 0
  | dir .. => Content.blockBytes

/-- The bytes that a node itself really holds on disk, never more than its length. -/
def actualSize : Node → Nat
  | file data => data.content.actualSize
  | link target data => min (data.units * Content.unitBytes) target.byteLength
  | special _ => 0
  | dir .. => Content.blockBytes

/-- The entries of a directory. -/
def entries : Node → List (String × Node)
  | dir _ _ entries => entries
  | _ => []

/-- The entry of a name. -/
def childNamed? (name : String) : List (String × Node) → Option Node
  | [] => none
  | (n, node) :: rest => if n = name then some node else childNamed? name rest

/-- The entries with the node under a name put in its place, or at the end. -/
def putEntry (name : String) (node : Node) : List (String × Node) → List (String × Node)
  | [] => [(name, node)]
  | (n, old) :: rest =>
    if n = name then (name, node) :: rest else (n, old) :: putEntry name node rest

/-- The entries without a name. -/
def dropEntry (name : String) (entries : List (String × Node)) : List (String × Node) :=
  entries.filter fun e => e.1 != name

/-- The node that names lead to, one directory after the other. -/
def descend? : List String → Node → Option Node
  | [], node => some node
  | name :: rest, dir _ _ entries => (childNamed? name entries).bind (descend? rest)
  | _ :: _, _ => none

/-- The node with the entries of the directory that names lead to replaced. -/
def alter (f : List (String × Node) → List (String × Node)) : List String → Node → Node
  | [], dir mode accessed entries => dir mode accessed (f entries)
  | name :: rest, dir mode accessed entries =>
    match childNamed? name entries with
    | some child => dir mode accessed (putEntry name (alter f rest child) entries)
    | none => dir mode accessed entries
  | _, node => node

mutual
/-- The node with the content of one file replaced, under all its names. -/
def rewriteFile (id : Nat) (content : Content) : Node → Node
  | file data => if data.id = id then file { data with content } else file data
  | dir mode accessed entries => dir mode accessed (rewriteEntries id content entries)
  | node => node

def rewriteEntries (id : Nat) (content : Content) : List (String × Node) → List (String × Node)
  | [] => []
  | (name, node) :: rest => (name, node.rewriteFile id content) :: rewriteEntries id content rest
end

theorem childNamed?_putEntry_self (name : String) (node : Node) (entries : List (String × Node)) :
    childNamed? name (putEntry name node entries) = some node := by
  induction entries with
  | nil => simp [putEntry, childNamed?]
  | cons e rest ih =>
    by_cases h : e.1 = name <;> simp [putEntry, childNamed?, h, ih]

theorem childNamed?_putEntry_of_ne {name other : String} (h : other ≠ name) (node : Node)
    (entries : List (String × Node)) :
    childNamed? other (putEntry name node entries) = childNamed? other entries := by
  induction entries with
  | nil => simp [putEntry, childNamed?, Ne.symm h]
  | cons e rest ih =>
    by_cases he : e.1 = name
    · simp [putEntry, childNamed?, he, Ne.symm h]
    · simp only [putEntry, he, if_false, childNamed?, ih]

end Node

end DiskUsage
