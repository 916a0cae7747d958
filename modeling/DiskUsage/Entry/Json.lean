import DiskUsage.Entry.Basic
import DiskUsage.Json.Reader
import DiskUsage.Time.Json

/-!
# Entries in JSON

Entries are records; only the time of the last access may be missing.  An entry whose last access
lies before the epoch cannot be written.

* `DirEntry.toJson?`, `DirEntry.ofJson?`, `LargeFile.toJson`, `LargeFile.ofJson?`.
* `DirEntry.ofText?`: an entry from its text.
* `DirEntry.toJson?_eq_none_iff`: exactly the entries last accessed before the epoch cannot be
  written.
-/

namespace DiskUsage

namespace DirEntry

/-- The fields of an entry. -/
def fieldNames : List String := ["name", "path", "size", "is_dir", "last_access"]

/-- The time of an entry's last access, as it is written. -/
def lastAccessJson? (e : DirEntry) : Option Json :=
  match e.lastAccess with
  | none => some .null
  | some t => t.toJson?

/-- An entry as a record. -/
def toJson? (e : DirEntry) : Option Json := do
  let accessed ← e.lastAccessJson?
  some (.record [
    ("name", .text e.name), ("path", .text e.path.text), ("size", .nat e.size),
    ("is_dir", .bool e.isDir), ("last_access", accessed)])

/-- Read an entry. -/
def ofJson? (j : Json) : Option DirEntry := do
  match ← j.readRecord? fieldNames ["last_access"] with
  | [name, path, size, isDir, lastAccess] =>
    return {
      name := ← name.text?
      path := ⟨← path.text?⟩
      size := ← size.word?
      isDir := ← isDir.bool?
      lastAccess := ← lastAccess.optional? Timestamp.ofJson? }
  | _ => none

/-- Read an entry from its text. -/
def ofText? (text : String) : Option DirEntry :=
  (Json.parse? text).bind ofJson?

theorem toJson?_eq_none_iff (e : DirEntry) :
    e.toJson? = none ↔ ∃ t, e.lastAccess = some t ∧ t.secs < 0 := by
  cases h : e.lastAccess with
  | none => simp [toJson?, lastAccessJson?, h]
  | some t =>
    have ht : e.toJson? = none ↔ t.toJson? = none := by
      cases ht : t.toJson? <;> simp [toJson?, lastAccessJson?, h, ht]
    simp [ht, Timestamp.toJson?_eq_none_iff]

end DirEntry

namespace LargeFile

/-- The fields of a large file. -/
def fieldNames : List String := ["name", "path", "size"]

/-- A large file as a record. -/
def toJson (f : LargeFile) : Json :=
  .record [("name", .text f.name), ("path", .text f.path.text), ("size", .nat f.size)]

/-- Read a large file. -/
def ofJson? (j : Json) : Option LargeFile := do
  match ← j.readRecord? fieldNames [] with
  | [name, path, size] =>
    return { name := ← name.text?, path := ⟨← path.text?⟩, size := ← size.word? }
  | _ => none

end LargeFile

end DiskUsage
