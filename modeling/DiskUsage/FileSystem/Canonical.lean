import DiskUsage.FileSystem.Lookup

/-!
# Canonical paths

The canonical path of a node starts at the root and goes through no link.  It is found by looking
at the names of a path one after the other, each by its own canonical path: so a path may be longer
than a system call takes, as long as none of the canonical paths on the way is.

* `FileSystem.canonicalize`: the canonical path of what a path leads to.
* `isAbsolute_of_canonicalize`: it starts at the root.
-/

namespace DiskUsage

namespace FileSystem

/-- The path through names from the root on. -/
def pathOf (names : List String) : Path :=
  ⟨"/" ++ "/".intercalate names⟩

/-- What comes next can only come after a directory: the path ends without another name, or goes
up. -/
def needsDir (left : List String) : Bool :=
  match left.dropWhile stays with
  | [] => !left.isEmpty
  | piece :: _ => piece == ".."

/-- The node at names from the root on, before the pieces that are left. -/
def nodeBefore (fs : FileSystem) (names left : List String) : Except SystemError Node :=
  match fs.lstat [] (pathOf names) with
  | .error e => .error e
  | .ok node =>
    if needsDir left && !node.isLink then fs.lstat [] ⟨(pathOf names).text ++ "/"⟩ else .ok node

/-- The canonical names of what pieces lead to from a directory; `onLink` goes on from a link in a
directory with the pieces that are left. -/
def canonicalNames (fs : FileSystem)
    (onLink : List String → Path → List String → Except SystemError (List String))
    (here : List String) : List String → Except SystemError (List String)
  | [] => .ok here
  | piece :: left =>
    if stays piece then canonicalNames fs onLink here left
    else if piece = ".." then canonicalNames fs onLink here.dropLast left
    else
      match fs.nodeBefore (here ++ [piece]) left with
      | .error e => .error e
      | .ok (.link target _) => onLink here target left
      | .ok _ => canonicalNames fs onLink (here ++ [piece]) left

/-- The canonical names of what pieces lead to, over up to so many links. -/
def canonicalNamesUpTo (fs : FileSystem) :
    Nat → List String → List String → Except SystemError (List String)
  | 0 => fs.canonicalNames fun _ _ _ => .error .tooManyLinks
  | links + 1 =>
    fs.canonicalNames fun here target left =>
      canonicalNamesUpTo fs links (if target.isAbsolute then [] else here) (steps target ++ left)

/-- The canonical path of what a path leads to, seen from a working directory. -/
def canonicalize (fs : FileSystem) (cwd : List String) (p : Path) : Except SystemError Path :=
  if p.chars.contains '\x00' then .error .zeroInPath
  else if p.chars.isEmpty then .error .noEntry
  else (fs.canonicalNamesUpTo maxLinks (if p.isAbsolute then [] else cwd) (steps p)).map pathOf

theorem isAbsolute_pathOf (names : List String) : (pathOf names).isAbsolute = true := by
  simp [pathOf, Path.isAbsolute, Path.chars]

/-- A canonical path starts at the root. -/
theorem isAbsolute_of_canonicalize {fs : FileSystem} {cwd : List String} {p q : Path}
    (h : fs.canonicalize cwd p = .ok q) : q.isAbsolute = true := by
  unfold canonicalize at h
  split at h
  · exact nomatch h
  · split at h
    · exact nomatch h
    · cases hn : fs.canonicalNamesUpTo maxLinks (if p.isAbsolute then [] else cwd) (steps p) with
      | error e => simp [hn, Except.map] at h
      | ok names =>
        simp only [hn, Except.map, Except.ok.injEq] at h
        exact h ▸ isAbsolute_pathOf names

end FileSystem

end DiskUsage
