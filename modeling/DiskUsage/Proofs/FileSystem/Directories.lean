import DiskUsage.Proofs.FileSystem.Outcomes
import DiskUsage.Proofs.FileSystem.Walking

/-!
# Paths to directories

A path that does not end in a name leads to a directory, if it leads anywhere: nothing can be written or
read there, and nothing is renamed to it.  The same holds of a path that a system call does not take.
Where a directory is already, making it changes nothing.

* `Admitted`: a system call takes the path.
* `Nameless`, `resolve_nameless`: paths that do not end in a name.
* `Barren`: nothing is ever found at the path; `write_barren`, `read_barren`, `rename_barren`: what is
  tried with it fails.
* `createDirAll_of_walk`: directories that are there.
-/

namespace DiskUsage.FileSystem

variable {fs : FileSystem} {cwd : List String} {now : Option Timestamp} {ending : Ending} {p q : Path}
  {place : Place} {content : Content} {rest : Nat} {there : List String}

/-! ### What a system call takes -/

/-- A system call takes the path: it is neither empty nor too long, and no zero is in it. -/
structure Admitted (p : Path) : Prop where
  no_zero : '\x00' ∉ p.chars
  ne_nil : p.chars ≠ []
  fits : FileSystem.fits p = true

theorem Admitted.resolve (h : Admitted p) (fs : FileSystem) (cwd : List String) (ending : Ending) :
    fs.resolve cwd ending p = fs.follow ending maxLinks (startOf cwd p) (steps p) := by
  unfold FileSystem.resolve
  rw [if_neg (by simpa using h.no_zero), if_neg (by simpa using h.ne_nil), if_neg (by simp [h.fits])]
  rfl

theorem admitted_of_resolve (h : fs.resolve cwd ending p = .ok place) : Admitted p := by
  unfold resolve at h
  split at h
  · cases h
  · split at h
    · cases h
    · split at h
      · cases h
      · next hzero hempty hfits =>
        exact ⟨by simpa using hzero, by simpa using hempty, by simpa using hfits⟩

theorem resolve_followed_of_written (h : fs.resolve cwd .written p = .ok place) :
    fs.resolve cwd .followed p = .ok place := by
  have hp := admitted_of_resolve h
  rw [hp.resolve] at h ⊢
  exact followed_of_written h

/-! ### Paths that do not end in a name -/

/-- The last piece of the path, if there is one, is not a name. -/
def Nameless (p : Path) : Prop :=
  ∀ init piece, steps p = init ++ [piece] → stays piece = true ∨ piece = ".."

/-- **A path that does not end in a name** leads to a directory, if it leads anywhere. -/
theorem resolve_nameless (hwf : WellFormed fs) (hp : Nameless p)
    (h : fs.resolve cwd .followed p = .ok place) :
    ∃ names node, place = .node names node ∧ node.isDir = true := by
  have hadmitted := admitted_of_resolve h
  rw [hadmitted.resolve] at h
  rcases List.eq_nil_or_concat (steps p) with hnil | ⟨init, piece, hsteps⟩
  · have habsolute : p.isAbsolute = true := by
      cases habsolute : p.isAbsolute with
      | true => rfl
      | false => exact absurd hnil (steps_ne_nil hadmitted.ne_nil habsolute)
    obtain ⟨mode, accessed, entries, hat⟩ := exists_dir_of_hasDir hwf.root_dir
    rw [hnil, startOf, habsolute, if_pos rfl, follow_nil hat] at h
    cases h
    exact ⟨_, _, rfl, rfl⟩
  · rw [List.concat_eq_append] at hsteps
    rw [hsteps] at h
    obtain ⟨rest, there, hwalk, hlast⟩ := exists_walk h
    have hnot : ¬IsTaken piece := fun htaken =>
      (hp init piece hsteps).elim (by simp [htaken.moves]) htaken.down
    -- the last piece stays in a directory or goes up to one
    have hdir : ∀ here, fs.HasDir here →
        fs.follow .followed rest here [] = .ok place →
          ∃ names node, place = .node names node ∧ node.isDir = true := by
      intro here hhere hon
      obtain ⟨mode, accessed, entries, hat⟩ := exists_dir_of_hasDir hhere
      rw [follow_nil hat] at hon
      cases hon
      exact ⟨_, _, rfl, rfl⟩
    cases turn_of_follow hlast with
    | stay hstays hon => exact hdir there hwalk.end_dir hon
    | up hup hon => exact hdir _ (hasDir_dropLast hwalk.end_dir) hon
    | missing hpiece => exact absurd hpiece hnot
    | itself hpiece => exact absurd hpiece hnot
    | link hpiece => exact absurd hpiece hnot
    | down hpiece => exact absurd hpiece hnot

/-! ### Paths at which nothing is found -/

/-- The path leads nowhere, whatever file system it is in. -/
def LeadsNowhere (p : Path) : Prop :=
  ∀ (fs : FileSystem) (cwd : List String) (ending : Ending), ∃ e, fs.resolve cwd ending p = .error e

/-- No file can be at the path. -/
def Barren (p : Path) : Prop :=
  Nameless p ∨ LeadsNowhere p

/-- A path that ends in a name leads nowhere if a system call takes neither the path nor the name. -/
theorem taken_or_leadsNowhere {init : List String} {name : String} (hsteps : steps p = init ++ [name])
    (hstays : stays name = false) (hup : name ≠ "..") : (Admitted p ∧ IsTaken name) ∨ LeadsNowhere p := by
  by_cases htaken : Admitted p ∧ IsTaken name
  · exact .inl htaken
  right
  intro fs cwd ending
  cases hplace : fs.resolve cwd ending p with
  | error e => exact ⟨e, rfl⟩
  | ok place =>
    have hp := admitted_of_resolve hplace
    rw [hp.resolve, hsteps] at hplace
    obtain ⟨rest, there, -, hlast⟩ := exists_walk hplace
    refine absurd ⟨hp, ?_⟩ htaken
    cases turn_of_follow hlast with
    | stay hstays' => simp [hstays] at hstays'
    | up hup' => exact absurd hup' hup
    | missing hpiece => exact hpiece
    | itself hpiece => exact hpiece
    | link hpiece => exact hpiece
    | down hpiece => exact hpiece

/-- Only a directory is found there. -/
theorem resolve_barren (hwf : WellFormed fs) (hp : Barren p)
    (h : fs.resolve cwd .followed p = .ok place) :
    ∃ names mode accessed entries, place = .node names (.dir mode accessed entries) := by
  rcases hp with hp | hp
  · obtain ⟨names, node, rfl, hdir⟩ := resolve_nameless hwf hp h
    cases node with
    | dir mode accessed entries => exact ⟨names, mode, accessed, entries, rfl⟩
    | file data => cases hdir
    | link target data => cases hdir
    | special accessed => cases hdir
  · obtain ⟨e, he⟩ := hp fs cwd .followed
    rw [he] at h
    cases h

theorem write_barren (hwf : WellFormed fs) (hp : Barren p) (cwd : List String)
    (now : Option Timestamp) (content : Content) :
    ∃ e, fs.write cwd now p content = (fs, .error e) := by
  unfold write
  cases hplace : fs.resolve cwd .written p with
  | error e => exact ⟨e, rfl⟩
  | ok place =>
    obtain ⟨names, mode, accessed, entries, rfl⟩ :=
      resolve_barren hwf hp (resolve_followed_of_written hplace)
    exact ⟨_, rfl⟩

theorem read_barren (hwf : WellFormed fs) (hp : Barren p) (cwd : List String) :
    ∃ e, fs.read cwd p = .error e := by
  unfold read stat nodeAt
  cases hplace : fs.resolve cwd .followed p with
  | error e => exact ⟨e, rfl⟩
  | ok place =>
    obtain ⟨names, mode, accessed, entries, rfl⟩ := resolve_barren hwf hp hplace
    exact ⟨_, rfl⟩

theorem endsInName_nameless (hq : Nameless q) (hslash : ¬(q.chars.getLast? == some '/') = true) :
    endsInName q = false := by
  unfold endsInName
  rw [withoutEndSlashes_of_getLast? hslash]
  split
  · rfl
  · next piece hpiece =>
    obtain ⟨init, hsteps⟩ := List.getLast?_eq_some_iff.1 hpiece
    rcases hq init piece hsteps with h | h <;> simp [h]

theorem rename_barren (hq : Barren q) (fs : FileSystem) (cwd : List String) (p : Path) :
    ∃ e, fs.rename cwd p q = (fs, .error e) := by
  rcases hq with hq | hq
  · unfold rename
    split
    · exact ⟨_, rfl⟩
    · exact ⟨_, rfl⟩
    split
    · exact ⟨_, rfl⟩
    split
    · exact ⟨_, rfl⟩
    next hnames =>
    by_cases hslash : (q.chars.getLast? == some '/') = true
    · exact ⟨_, if_pos hslash⟩
    · simp [endsInName_nameless hq hslash] at hnames
  · obtain ⟨e, he⟩ := hq fs cwd .itself
    have hrenamed : Renamed fs cwd p q (fs.rename cwd p q).1 (fs.rename cwd p q).2 :=
      renamed_of_rename rfl
    cases hout : fs.rename cwd p q with
    | mk gs done =>
      rw [hout] at hrenamed
      cases hrenamed with
      | failed e => exact ⟨e, rfl⟩
      | same names newNames node old hp hplace => rw [he] at hplace; cases hplace
      | moved dir newDir name newName node place hp hplace => rw [he] at hplace; cases hplace

/-! ### Directories that are there -/

/-- **Making a directory** that is there changes nothing. -/
theorem createDirAll_of_walk (hp : Admitted p) (hslash : withoutEndSlashes p = p)
    (h : Walk fs maxLinks (startOf cwd p) (steps p) rest there) (now : Option Timestamp) :
    fs.createDirAll cwd now p = (fs, .ok ()) := by
  obtain ⟨node, hleads, hdir⟩ := h.leads
  rw [← hp.resolve] at hleads
  have hisDir : fs.isDir cwd p = true := by
    unfold isDir stat nodeAt
    rw [hleads]
    exact hdir
  -- something stands there, be it a link to the directory
  have hthere : ∃ names found, fs.resolve cwd .itself p = .ok (.node names found) := by
    cases hitself : fs.resolve cwd .itself p with
    | error e =>
      obtain ⟨e', he⟩ := resolve_ending_error .followed hitself
      rw [he] at hleads
      cases hleads
    | ok place =>
      cases place with
      | node names found => exact ⟨names, found, rfl⟩
      | missing dir name =>
        rcases resolve_ending .followed hitself rfl with hsame | ⟨hw, -⟩
        · rw [hsame] at hleads
          cases hleads
        · cases hw
  obtain ⟨names, found, hitself⟩ := hthere
  have hcreate : fs.createDir cwd now p = (fs, .error .alreadyThere) := by
    unfold createDir create
    rw [if_pos hp.fits, hslash, hitself]
  have hkind : SystemError.alreadyThere.kind ≠ .absent := by decide
  unfold createDirAll createDirsUpTo
  rw [if_neg (by simpa using hp.ne_nil), hcreate]
  dsimp only
  rw [if_neg hkind, orDir, if_pos hisDir]

end DiskUsage.FileSystem
