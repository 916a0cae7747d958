import DiskUsage.FileSystem.Edit
import DiskUsage.Json.Value

/-!
# Recipes for trees

A tree is made of steps, each of which puts one node below a base directory, with the directories
above it that are missing.  Steps are written in JSON as lists: the kind of node, its path, and what
it holds.

* `Recipe.ofJson?`: read a step.
* `FileSystem.make`, `FileSystem.makeAll`: take steps.
-/

namespace DiskUsage

/-- A step that makes a node. -/
inductive Recipe where
  | dir (path : Path)
  | file (path : Path) (content : Content)
  | link (path target : Path)
  /-- One more name of a file. -/
  | hard (path other : Path)
  | pipe (path : Path)
  /-- Directories one in the other below a path, as many as `levels`, each with a name of so many
  letters and a file of so many bytes. -/
  | deep (path : Path) (letters levels bytes : Nat)
  deriving Repr

namespace Recipe

/-- Read a step. -/
def ofJson? (j : Json) : Option Recipe :=
  match j with
  | .array [.text "dir", .text p] => some (.dir ⟨p⟩)
  | .array [.text "file", .text p, n] => n.natural?.map fun n => .file ⟨p⟩ (.fill n)
  | .array [.text "sparse", .text p, n] => n.natural?.map fun n => .file ⟨p⟩ (.hole n)
  | .array [.text "text", .text p, .text s] => some (.file ⟨p⟩ (.text s))
  | .array [.text "link", .text p, .text target] => some (.link ⟨p⟩ ⟨target⟩)
  | .array [.text "hard", .text p, .text other] => some (.hard ⟨p⟩ ⟨other⟩)
  | .array [.text "fifo", .text p] => some (.pipe ⟨p⟩)
  | .array [.text "deep", .text p, k, levels, n] => do
    return .deep ⟨p⟩ (← k.natural?) (← levels.natural?) (← n.natural?)
  | _ => none

/-- Directories one in the other; the files get identities from `id` on. -/
def deepEntries (now : Option Timestamp) (letters bytes : Nat) :
    Nat → Nat → List (String × Node)
  | _, 0 => []
  | id, levels + 1 =>
    [(String.ofList (List.replicate letters 'd'),
      .dir .free now
        (("f", .file ⟨id, .fill bytes, now⟩) :: deepEntries now letters bytes (id + 1) levels))]

end Recipe

namespace FileSystem

/-- The file system with the directories above a path made. -/
def withParents (fs : FileSystem) (now : Option Timestamp) (p : Path) : FileSystem :=
  match p.parent? with
  | some parent => (fs.createDirAll [] now parent).1
  | none => fs

/-- Take a step below a base directory. -/
def make (fs : FileSystem) (now : Option Timestamp) (base : Path) (step : Recipe) : FileSystem :=
  match step with
  | .dir p => (fs.createDirAll [] now (base.join p)).1
  | .file p content =>
    let p := base.join p
    ((fs.withParents now p).write [] now p content).1
  | .link p target =>
    let p := base.join p
    ((fs.withParents now p).symlink [] now p target).1
  | .hard p other =>
    let p := base.join p
    ((fs.withParents now p).hardLink [] p (base.join other)).1
  | .pipe p =>
    let p := base.join p
    ((fs.withParents now p).makePipe [] now p).1
  | .deep p letters levels bytes =>
    let p := base.join p
    let fs := (fs.createDirAll [] now p).1
    match fs.resolve [] .followed p with
    | .ok (.node names _) =>
      { fs with
        root := fs.root.alter (· ++ Recipe.deepEntries now letters bytes fs.nextId levels) names
        nextId := fs.nextId + levels }
    | _ => fs

/-- Take steps one after the other. -/
def makeAll (fs : FileSystem) (now : Option Timestamp) (base : Path) (steps : List Recipe) :
    FileSystem :=
  steps.foldl (fun fs step => fs.make now base step) fs

/-- A file system with nothing in it. -/
def empty (now : Option Timestamp) : FileSystem := ⟨.emptyDir now, 0⟩

@[simp] theorem makeAll_nil (fs : FileSystem) (now : Option Timestamp) (base : Path) :
    fs.makeAll now base [] = fs := rfl

end FileSystem

end DiskUsage
