import DiskUsage.Cache.File

/-!
# Interrupted writing

The writing of the file of remembered sizes may end before its time, because one of its steps fails
or because the machine stops: when some of the missing directories are made, when the draft holds a
part of the text, or when the draft is whole but has not taken the file's name.

* `SizeMap.persistUntil`: the file system that an interrupted writing leaves.
* `SizeMap.persistWith`: a writing that is interrupted by an error, or not at all.
-/

namespace DiskUsage

/-- Where the writing of the file is interrupted. -/
inductive Interruption where
  /-- Directories are made only down to so many levels above the file's own. -/
  | atParents (levels : Nat)
  /-- Only so many characters of the draft are written. -/
  | atDraft (kept : Nat)
  /-- The draft does not take the name of the file. -/
  | atRename
  deriving DecidableEq, Repr

/-- The directory so many levels above a path. -/
def Path.ancestor? : Nat → Path → Option Path
  | 0, p => some p
  | levels + 1, p => p.parent?.bind (ancestor? levels)

namespace Interruption

/-- The path that the interrupted step is about. -/
def path (file : Path) : Interruption → Path
  | atParents _ => file.parent?.getD file
  | atDraft _ => SizeMap.draftPath file
  | atRename => file

end Interruption

namespace SizeMap

/-- The file system with the directories made that lie so many levels above the file's own. -/
def makeAncestor (fs : FileSystem) (cwd : List String) (now : Option Timestamp) (file : Path)
    (levels : Nat) : FileSystem :=
  match file.parent?.bind (Path.ancestor? levels) with
  | some dir => (fs.createDirAll cwd now dir).1
  | none => fs

/-- The file system with the directory of the file made, and then a text in the draft. -/
def draftText (fs : FileSystem) (cwd : List String) (now : Option Timestamp) (file : Path)
    (text : String) : FileSystem :=
  match makeParent fs cwd now file with
  | (fs, .error _) => fs
  | (fs, .ok ()) => (fs.write cwd now (draftPath file) (.text text)).1

/-- The file system that an interrupted writing leaves. -/
def persistUntil (fs : FileSystem) (cwd : List String) (now : Option Timestamp) (file : Path)
    (map : SizeMap) : Interruption → FileSystem
  | .atParents levels => makeAncestor fs cwd now file levels
  | .atDraft kept => draftText fs cwd now file (String.ofList (map.encode.toList.take kept))
  | .atRename => draftText fs cwd now file map.encode

/-- Write the file, and be interrupted by an error or not. -/
def persistWith (fs : FileSystem) (cwd : List String) (now : Option Timestamp) (file : Path)
    (map : SizeMap) : Option (Interruption × SystemError) → FileSystem × Except ScanError Unit
  | none => persist fs cwd now file map
  | some (i, e) => (persistUntil fs cwd now file map i, .error (.ofSystem (i.path file) e))

end SizeMap

end DiskUsage
