import DiskUsage.Cache.Basic
import DiskUsage.Error.Scan
import DiskUsage.FileSystem.Edit
import DiskUsage.Json.Magnitude
import DiskUsage.Json.Printer
import DiskUsage.Json.Reader
import DiskUsage.Json.Record
import DiskUsage.Path.Order

/-!
# The file of remembered sizes

Remembered sizes are written to a file as a list of records in the order of their paths.  The list is
written beside the file first, and then takes its name, so that the file is never half written.  A
file that cannot be read as such a list is passed over as if it were not there.

* `SizeMap.encode`, `SizeMap.decode?`: the text of the file, and what a text holds.
* `SizeMap.persist`: write the file.
* `pairwise_sorted`: the records stand in the order of their paths.
-/

namespace DiskUsage.SizeMap

/-- The names of the fields of a record. -/
def fieldNames : List String := ["path", "size", "measured_at"]

/-- A remembered size as a record. -/
def entryJson (e : Path × Measured) : Json :=
  .record [("path", .text e.1.text), ("size", .nat e.2.size), ("measured_at", .nat e.2.measuredAt)]

/-- The entry of a path that comes before that of the other one, or of the same. -/
def entryAtMost (a b : Path × Measured) : Bool :=
  a.1.atMost b.1

/-- Remembered sizes in the order of their paths. -/
def sorted (map : SizeMap) : SizeMap :=
  map.mergeSort entryAtMost

/-- The text of the file. -/
def encode (map : SizeMap) : String :=
  (Json.array ((sorted map).map entryJson)).pretty

/-- Read a record, which has to be an object. -/
def measured? (j : Json) : Option (Path × Measured) :=
  match j with
  | .object _ => do
    match ← j.readRecord? fieldNames [] with
    | [path, size, measuredAt] =>
      return (⟨← path.text?⟩, ⟨← size.word?, ← measuredAt.word?⟩)
    | _ => none
  | _ => none

/-- How deep a file may be nested. -/
def maxNesting : Nat := 127

/-- The list of records in a text. -/
def entries? (text : String) : Option (List (Path × Measured)) := do
  let j ← Json.parse? text
  if j.isSound && j.nesting ≤ maxNesting then (← j.array?).mapM measured? else none

/-- The sizes in a text; of records with the same path the last one counts. -/
def decode? (text : String) : Option SizeMap :=
  (entries? text).map (insertAll [])

/-- The sizes in the file at a path; none if there is no such file. -/
def load (fs : FileSystem) (cwd : List String) (file : Path) : SizeMap :=
  match fs.read cwd file with
  | .ok text => (decode? text).getD []
  | .error _ => []

/-- Where the list is written before it takes the name of the file. -/
def draftPath (file : Path) : Path :=
  file.withExtension "json.tmp"

/-- Make the directory of the file. -/
def makeParent (fs : FileSystem) (cwd : List String) (now : Option Timestamp) (file : Path) :
    FileSystem × Except ScanError Unit :=
  match file.parent? with
  | none => (fs, .ok ())
  | some dir =>
    let (fs, done) := fs.createDirAll cwd now dir
    (fs, done.mapError (.ofSystem dir))

/-- Write the list beside the file. -/
def writeDraft (fs : FileSystem) (cwd : List String) (now : Option Timestamp) (file : Path)
    (map : SizeMap) : FileSystem × Except ScanError Unit :=
  let (fs, done) := fs.write cwd now (draftPath file) (.text map.encode)
  (fs, done.mapError (.ofSystem (draftPath file)))

/-- Give what was written the name of the file. -/
def publishDraft (fs : FileSystem) (cwd : List String) (file : Path) :
    FileSystem × Except ScanError Unit :=
  let (fs, done) := fs.rename cwd (draftPath file) file
  (fs, done.mapError (.ofSystem file))

/-- Write the file, step by step until one fails. -/
def persist (fs : FileSystem) (cwd : List String) (now : Option Timestamp) (file : Path)
    (map : SizeMap) : FileSystem × Except ScanError Unit :=
  match makeParent fs cwd now file with
  | (fs, .error e) => (fs, .error e)
  | (fs, .ok ()) =>
    match writeDraft fs cwd now file map with
    | (fs, .error e) => (fs, .error e)
    | (fs, .ok ()) => publishDraft fs cwd file

/-- A file of the working directory needs no other directory. -/
theorem makeParent_of_bare (fs : FileSystem) (cwd : List String) (now : Option Timestamp) {file : Path}
    (h : file.parent? = some ⟨""⟩) : makeParent fs cwd now file = (fs, .ok ()) := by
  rw [makeParent, h]
  rfl

/-- Putting sizes in order loses none. -/
theorem sorted_perm (map : SizeMap) : (sorted map).Perm map :=
  List.mergeSort_perm _ _

/-- **Order of the file**: its records stand in the order of their paths. -/
theorem pairwise_sorted (map : SizeMap) :
    (sorted map).Pairwise fun a b => a.1.atMost b.1 = true := by
  have trans : ∀ a b c, entryAtMost a b = true → entryAtMost b c = true → entryAtMost a c = true :=
    fun _ _ _ h k => Path.atMost_trans h k
  have total : ∀ a b, (entryAtMost a b || entryAtMost b a) = true := fun a b => by
    rw [Bool.or_eq_true]
    exact Path.atMost_total a.1 b.1
  exact List.pairwise_mergeSort trans total map

/-- A file that is not there holds nothing. -/
theorem load_of_error {fs : FileSystem} {cwd : List String} {file : Path} {e : SystemError}
    (h : fs.read cwd file = .error e) : load fs cwd file = [] := by
  simp [load, h]

end DiskUsage.SizeMap
