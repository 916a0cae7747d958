import DiskUsage.FileSystem.Lookup

/-!
# Changing a file system

Each operation gives the file system after it and how it ended; an operation that fails may have
changed something before.

* `FileSystem.createDir`, `createDirAll`, `write`, `rename`: directories, files, and names.
* `FileSystem.symlink`, `hardLink`, `makePipe`, `remove`.
-/

namespace DiskUsage

namespace FileSystem

/-- A file system after an operation, and how the operation ended. -/
abbrev Edited := FileSystem × Except SystemError Unit

/-- The file system with a node under a new name. -/
def insert (fs : FileSystem) (dir : List String) (name : String) (node : Node) : FileSystem :=
  { fs with root := fs.root.alter (Node.putEntry name node) dir }

/-- The file system without a name. -/
def erase (fs : FileSystem) (dir : List String) (name : String) : FileSystem :=
  { fs with root := fs.root.alter (Node.dropEntry name) dir }

/-- Put a node at a path where nothing is. -/
def create (fs : FileSystem) (cwd : List String) (p : Path) (node : Node) : Edited :=
  match fs.resolve cwd .itself p with
  | .error e => (fs, .error e)
  | .ok (.node _ _) => (fs, .error .alreadyThere)
  | .ok (.missing dir name) => (fs.insert dir name node, .ok ())

/-- A path without slashes at its end. -/
def withoutEndSlashes (p : Path) : Path :=
  match (p.chars.reverse.dropWhile (· == '/')).reverse with
  | [] => p
  | cs => ⟨String.ofList cs⟩

/-- Make a directory. -/
def createDir (fs : FileSystem) (cwd : List String) (now : Option Timestamp) (p : Path) : Edited :=
  if fits p then fs.create cwd (withoutEndSlashes p) (.emptyDir now)
  else (fs, .error .nameTooLong)

/-- The end of making a directory: it is also well if there is one already. -/
def orDir (cwd : List String) (p : Path) : Edited → Edited
  | (fs, .error e) => if fs.isDir cwd p then (fs, .ok ()) else (fs, .error e)
  | done => done

/-- Make a directory and those above it, as many as `levels`. -/
def createDirsUpTo (cwd : List String) (now : Option Timestamp) :
    Nat → FileSystem → Path → Edited
  | 0, fs, _ => (fs, .ok ())
  | levels + 1, fs, p =>
    if p.chars.isEmpty then (fs, .ok ())
    else
      match fs.createDir cwd now p with
      | (fs, .error e) =>
        if e.kind = .absent then
          match p.parent? with
          | none => (fs, .error (.custom .other "failed to create whole tree"))
          | some parent =>
            match createDirsUpTo cwd now levels fs parent with
            | (fs, .ok ()) => orDir cwd p (fs.createDir cwd now p)
            | failed => failed
        else orDir cwd p (fs, .error e)
      | done => done

/-- Make a directory and those above it that are missing. -/
def createDirAll (fs : FileSystem) (cwd : List String) (now : Option Timestamp) (p : Path) :
    Edited :=
  createDirsUpTo cwd now (p.marks.length + 1) fs p

/-- Write a file: an old one keeps its names, a new one is made where the path leads. -/
def write (fs : FileSystem) (cwd : List String) (now : Option Timestamp) (p : Path)
    (content : Content) : Edited :=
  match fs.resolve cwd .written p with
  | .error e => (fs, .error e)
  | .ok (.node _ (.dir ..)) => (fs, .error .isADirectory)
  | .ok (.node _ (.file data)) =>
    ({ fs with root := fs.root.rewriteFile data.id content }, .ok ())
  | .ok (.node _ _) => (fs, .ok ())
  | .ok (.missing dir name) =>
    ({ fs.insert dir name (.file ⟨fs.nextId, content, now⟩) with nextId := fs.nextId + 1 }, .ok ())

/-- Make a link, whose text is short enough to take no disk space of its own. -/
def symlink (fs : FileSystem) (cwd : List String) (now : Option Timestamp) (p target : Path) :
    Edited :=
  fs.create cwd p (.link target ⟨0, now⟩)

/-- Make a named pipe. -/
def makePipe (fs : FileSystem) (cwd : List String) (now : Option Timestamp) (p : Path) : Edited :=
  fs.create cwd p (.special now)

/-- Give a file one more name. -/
def hardLink (fs : FileSystem) (cwd : List String) (p other : Path) : Edited :=
  match fs.lstat cwd other with
  | .error e => (fs, .error e)
  | .ok node => fs.create cwd p node

/-- Remove a node and all below it. -/
def remove (fs : FileSystem) (cwd : List String) (p : Path) : Edited :=
  match fs.resolve cwd .itself p with
  | .error e => (fs, .error e)
  | .ok (.missing _ _) => (fs, .error .noEntry)
  | .ok (.node names _) =>
    match names.getLast? with
    | none => (fs, .error .busy)
    | some name => (fs.erase names.dropLast name, .ok ())

/-- Both nodes are one file. -/
def sameFile : Node → Node → Bool
  | .file a, .file b => a.id == b.id
  | _, _ => false

/-- Move the node at `dir` and `name` to another name, over what is there. -/
def move (fs : FileSystem) (dir : List String) (name : String) (node : Node) (newDir : List String)
    (newName : String) : FileSystem :=
  (fs.erase dir name).insert newDir newName node

/-- The path ends in a name, slashes after it aside: neither in `.` or `..` nor at the root. -/
def endsInName (p : Path) : Bool :=
  match (steps (withoutEndSlashes p)).getLast? with
  | none => false
  | some piece => !(stays piece || piece = "..")

/-- Where a name is put, slashes after it aside. -/
def placeFor (fs : FileSystem) (cwd : List String) (p : Path) : Except SystemError Place :=
  if fits p then fs.resolve cwd .itself (withoutEndSlashes p) else .error .nameTooLong

/-- Rename a node that is no directory; what has the new name is replaced at once. -/
def rename (fs : FileSystem) (cwd : List String) (p q : Path) : Edited :=
  match fs.resolve cwd .itself p with
  | .error e => (fs, .error e)
  | .ok (.missing _ _) => (fs, .error .noEntry)
  | .ok (.node names node) =>
    match fs.placeFor cwd q with
    | .error e => (fs, .error e)
    | .ok place =>
      if !(endsInName p && endsInName q) then (fs, .error .busy)
      else if q.chars.getLast? == some '/' then (fs, .error .notADirectory)
      else
        match place, names.getLast? with
        | _, none => (fs, .error .busy)
        | .missing dir newName, some name => (fs.move names.dropLast name node dir newName, .ok ())
        | .node newNames old, some name =>
          match newNames.getLast? with
          | none => (fs, .error .busy)
          | some newName =>
            if old.isDir then (fs, .error .isADirectory)
            else if sameFile node old then (fs, .ok ())
            else (fs.move names.dropLast name node newNames.dropLast newName, .ok ())

end FileSystem

end DiskUsage
