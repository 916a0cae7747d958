import DiskUsage.FileSystem.Recipe
import DiskUsage.Proofs.FileSystem.Editing

/-!
# Well-formed file systems

The root of a file system is a directory, and the identity of the next file is larger than that of
every file there is.  Putting nodes under names, taking them away and writing files keeps it so.

* `WellFormed`: the invariant.
* `WellFormed.insert`, `WellFormed.erase`, `WellFormed.rewrite`: one edit.
* `createDirAll_induction`: directories are made one at a time, each where nothing was.
* `WellFormed.write`: a file is written.
-/

open scoped List

namespace DiskUsage.FileSystem

/-- The root is a directory, and no file has the identity that is given next or a larger one. -/
structure WellFormed (fs : FileSystem) : Prop where
  root_dir : fs.HasDir []
  id_lt : ∀ names data, fs.at? names = some (.file data) → data.id < fs.nextId

variable {fs gs : FileSystem} {dir : List String} {name : String}

/-- What is no directory has a name. -/
theorem WellFormed.exists_name (h : WellFormed fs) {names : List String} (hdir : ¬fs.HasDir names) :
    ∃ dir name, names = dir ++ [name] := by
  rcases List.eq_nil_or_concat names with rfl | ⟨dir, name, rfl⟩
  · exact absurd h.root_dir hdir
  · exact ⟨dir, name, List.concat_eq_append⟩

/-! ### Edits -/

/-- An edit keeps a file system well-formed if the files that it brings have smaller identities. -/
theorem WellFormed.of_equalOff (h : WellFormed fs) (hoff : EqualOff (dir ++ [name]) gs fs)
    (hle : fs.nextId ≤ gs.nextId)
    (hat : ∀ rest data, gs.at? (dir ++ name :: rest) = some (.file data) → data.id < gs.nextId) :
    WellFormed gs := by
  constructor
  · have hroot : ¬dir ++ [name] <+: [] := by
      rw [List.prefix_nil]
      simp
    obtain ⟨searchable, hdir⟩ := h.root_dir
    exact ⟨searchable, (hoff.shape? hroot).trans hdir⟩
  · intro names data hfile
    by_cases hbelow : dir ++ [name] <+: names
    · obtain ⟨rest, rfl⟩ := hbelow
      rw [List.append_assoc] at hfile
      exact hat rest data hfile
    · have hnotdir : ¬gs.HasDir names := (Solid.of_file hfile).not_dir
      have hold : fs.at? names = some (.file data) := (hoff.at? hbelow hnotdir).trans hfile
      exact Nat.lt_of_lt_of_le (h.id_lt names data hold) hle

/-- A node may be put under a name if the files in it have identities smaller than the next one. -/
theorem WellFormed.insert (h : WellFormed fs) (hdir : fs.HasDir dir) (name : String)
    {node : Node} {next : Nat} (hle : fs.nextId ≤ next)
    (hnode : ∀ rest data, node.descend? rest = some (.file data) → data.id < next) :
    WellFormed { fs.insert dir name node with nextId := next } := by
  refine h.of_equalOff (insert_equalOff fs dir name node) hle fun rest data hfile => ?_
  exact hnode rest data ((at?_insert hdir name node rest).symm.trans hfile)

theorem WellFormed.erase (h : WellFormed fs) (hdir : fs.HasDir dir) (name : String) :
    WellFormed (fs.erase dir name) := by
  refine h.of_equalOff (erase_equalOff fs dir name) (Nat.le_refl _) fun rest data hfile => ?_
  rw [at?_erase hdir] at hfile
  cases hfile

/-- Writing a file leaves its identity as it is. -/
theorem WellFormed.rewrite (h : WellFormed fs) (id : Nat) (content : Content) :
    WellFormed (fs.rewrite id content) := by
  constructor
  · obtain ⟨searchable, hdir⟩ := h.root_dir
    exact ⟨searchable, (shape?_rewrite fs id content []).trans hdir⟩
  · intro names data hfile
    rw [at?_rewrite] at hfile
    obtain ⟨old, hold, hnew⟩ := Option.map_eq_some_iff.1 hfile
    cases old with
    | file found =>
      have hid : data.id = found.id := by
        rw [Node.rewriteFile] at hnew
        split at hnew <;> cases hnew <;> rfl
      rw [hid]
      exact h.id_lt names found hold
    | dir mode accessed entries => cases hnew
    | link target data => cases hnew
    | special accessed => cases hnew

/-- Below a file there is nothing but the file itself. -/
theorem descend?_file {data found : FileData} {rest : List String}
    (h : Node.descend? rest (.file data) = some (.file found)) : found = data := by
  cases rest with
  | nil => cases h; rfl
  | cons name rest => cases h

/-- No file is in an empty directory. -/
theorem descend?_emptyDir {accessed : Option Timestamp} {data : FileData} {rest : List String} :
    Node.descend? rest (.emptyDir accessed) ≠ some (.file data) := by
  cases rest <;> nofun

theorem WellFormed.insert_emptyDir (h : WellFormed fs) (hdir : fs.HasDir dir)
    (name : String) (accessed : Option Timestamp) :
    WellFormed (fs.insert dir name (.emptyDir accessed)) :=
  h.insert hdir name (Nat.le_refl _) fun _ _ hfile => absurd hfile descend?_emptyDir

/-- A file may be put under any name, if its identity is smaller than the next one. -/
theorem WellFormed.insert_file (h : WellFormed fs) (hdir : fs.HasDir dir) (name : String)
    {data : FileData} {next : Nat} (hle : fs.nextId ≤ next) (hid : data.id < next) :
    WellFormed { fs.insert dir name (.file data) with nextId := next } :=
  h.insert hdir name hle fun _ _ hfile => descend?_file hfile ▸ hid

/-! ### Making directories -/

section Directories

variable {P : FileSystem → Prop}
  (hstep : ∀ (fs : FileSystem) (dir : List String) (name : String) (accessed : Option Timestamp),
    P fs → fs.HasDir dir → fs.at? (dir ++ [name]) = none →
      P (fs.insert dir name (.emptyDir accessed)))

include hstep

theorem createDir_induction (h : P fs) (cwd : List String) (now : Option Timestamp) (p : Path) :
    P (fs.createDir cwd now p).1 := by
  unfold createDir create
  split
  · cases hplace : fs.resolve cwd .itself (withoutEndSlashes p) with
    | error e => exact h
    | ok place =>
      cases place with
      | node names node => exact h
      | missing dir name =>
        obtain ⟨hdir, hnone⟩ := resolve_stands hplace
        exact hstep fs dir name now h hdir hnone
  · exact h

theorem createDirsUpTo_induction (h : P fs) (cwd : List String) (now : Option Timestamp)
    (levels : Nat) (p : Path) : P (createDirsUpTo cwd now levels fs p).1 := by
  have horDir : ∀ (edited : Edited) (p : Path), P edited.1 → P (orDir cwd p edited).1 := by
    intro edited p hedited
    unfold orDir
    split
    · split <;> exact hedited
    · exact hedited
  induction levels generalizing fs p with
  | zero => exact h
  | succ levels ih =>
    have hmade : P (fs.createDir cwd now p).1 := createDir_induction hstep h cwd now p
    rw [createDirsUpTo]
    split
    · exact h
    split
    · next made e hfailed =>
      rw [hfailed] at hmade
      split
      · split
        · exact hmade
        · next parent _ =>
          have habove : P (createDirsUpTo cwd now levels made parent).1 := ih hmade parent
          split
          · next above habove' =>
            rw [habove'] at habove
            exact horDir _ p (createDir_induction hstep habove cwd now p)
          · exact habove
      · exact horDir _ p hmade
    · exact hmade

/-- **Directories** are made one at a time, each under a name that a directory does not have: what each
of these edits keeps, making a directory and those above it keeps. -/
theorem createDirAll_induction (h : P fs) (cwd : List String) (now : Option Timestamp) (p : Path) :
    P (fs.createDirAll cwd now p).1 :=
  createDirsUpTo_induction hstep h cwd now _ p

end Directories

theorem WellFormed.createDirAll (h : WellFormed fs) (cwd : List String) (now : Option Timestamp)
    (p : Path) : WellFormed (fs.createDirAll cwd now p).1 :=
  createDirAll_induction (fun _ _ name accessed hfs hdir _ => hfs.insert_emptyDir hdir name accessed)
    h cwd now p

/-- A new directory carries all paths along. -/
theorem insert_emptyDir_carries (hdir : fs.HasDir dir) (hnone : fs.at? (dir ++ [name]) = none)
    (accessed : Option Timestamp) :
    Carries (dir ++ [name]) fs (fs.insert dir name (.emptyDir accessed)) := by
  have hat : ∀ rest, (fs.insert dir name (.emptyDir accessed)).at? (dir ++ [name] ++ rest)
      = (Node.emptyDir accessed).descend? rest := fun rest => by
    rw [List.append_assoc]
    exact at?_insert hdir name _ rest
  refine (insert_equalOff fs dir name _).symm.carries (by simp) (.of_none hnone)
    (fun target => ?_) fun rest hrest => ?_
  · have hnew := hat []
    rw [List.append_nil] at hnew
    rw [shape?_of_some hnew]
    nofun
  · obtain ⟨first, more, rfl⟩ := List.exists_cons_of_ne_nil hrest
    rw [hat]
    rfl

/-- A file that is put where no path leads through carries all paths along, there and back. -/
theorem insert_file_carries (hdir : fs.HasDir dir) (hsolid : Solid fs (dir ++ [name]))
    (data : FileData) (next : Nat) :
    Carries (dir ++ [name]) fs { fs.insert dir name (.file data) with nextId := next } ∧
      Carries (dir ++ [name]) { fs.insert dir name (.file data) with nextId := next } fs := by
  have hat : ∀ rest, FileSystem.at? { fs.insert dir name (.file data) with nextId := next }
      (dir ++ [name] ++ rest) = (Node.file data).descend? rest := fun rest => by
    rw [List.append_assoc]
    exact at?_insert hdir name _ rest
  have hoff : EqualOff (dir ++ [name]) { fs.insert dir name (.file data) with nextId := next } fs :=
    insert_equalOff fs dir name _
  have hnew : Solid { fs.insert dir name (.file data) with nextId := next } (dir ++ [name]) := by
    have hfile := hat []
    rw [List.append_nil] at hfile
    exact .of_file hfile
  constructor
  · refine hoff.symm.carries (by simp) hsolid hnew.not_link fun rest hrest => ?_
    obtain ⟨first, more, rfl⟩ := List.exists_cons_of_ne_nil hrest
    rw [hat]
    rfl
  · exact hoff.carries (by simp) hnew hsolid.not_link fun rest hrest =>
      at?_append_eq_none hsolid.not_dir hrest

/-! ### Operations -/

theorem WellFormed.write (h : WellFormed fs) (cwd : List String) (now : Option Timestamp) (p : Path)
    (content : Content) : WellFormed (fs.write cwd now p content).1 := by
  unfold FileSystem.write
  cases hplace : fs.resolve cwd .written p with
  | error e => exact h
  | ok place =>
    cases place with
    | missing dir name =>
      obtain ⟨hdir, -⟩ := resolve_stands hplace
      exact h.insert_file hdir name (Nat.le_succ _) (Nat.lt_succ_self _)
    | node names node =>
      cases node with
      | file data => exact h.rewrite data.id content
      | dir mode accessed entries => exact h
      | link target data => exact h
      | special accessed => exact h

theorem wellFormed_empty (now : Option Timestamp) : WellFormed (empty now) :=
  ⟨⟨true, rfl⟩, fun _ _ hfile => absurd hfile descend?_emptyDir⟩

end DiskUsage.FileSystem
