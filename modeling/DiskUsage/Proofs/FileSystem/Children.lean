import DiskUsage.Proofs.FileSystem.Directories
import DiskUsage.Proofs.FileSystem.Ending
import DiskUsage.Proofs.Path.Steps

/-!
# The entries of a directory

A path that leads to a directory is a walk to it, whatever links are on the way, and one more name leads
on to the entry of that name.  So what a directory lists is what is found under the paths of its
children.

* `IsEntryName`: a name that an entry can have and a system call takes.
* `walk_of_follow`: a path that leads to a directory is a walk.
* `exists_steps_child`: the path of a child.
* `lstat_child`: an entry that is listed is found; `list_child`: so a directory among the entries can be
  listed in turn.
-/

namespace DiskUsage

/-- An entry is found by its name, if no other one has it. -/
theorem Node.childNamed?_of_mem {name : String} {node : Node} {entries : List (String × Node)}
    (hdistinct : (entries.map Prod.fst).Nodup) (h : (name, node) ∈ entries) :
    Node.childNamed? name entries = some node := by
  induction entries with
  | nil => cases h
  | cons e rest ih =>
    obtain ⟨other, found⟩ := e
    rw [List.map_cons, List.nodup_cons] at hdistinct
    obtain ⟨hfresh, hdistinct⟩ := hdistinct
    rw [Node.childNamed?]
    rcases List.mem_cons.1 h with heq | hrest
    · cases heq
      rw [if_pos rfl]
    · have hother : other ≠ name := by
        rintro rfl
        exact hfresh (List.mem_map.2 ⟨_, hrest, rfl⟩)
      rw [if_neg hother]
      exact ih hdistinct hrest

namespace FileSystem

/-- An entry can have the name, and a system call takes it. -/
structure IsEntryName (name : String) : Prop where
  isName : Path.IsName name
  no_zero : '\x00' ∉ name.toList
  short : name.utf8ByteSize ≤ maxNameBytes

theorem IsEntryName.isTaken {name : String} (h : IsEntryName name) : IsTaken name := by
  obtain ⟨hempty, hdot, hup, -⟩ := h.isName
  exact ⟨by simp [stays, hdot, hempty], hup, h.short⟩

variable {fs : FileSystem} {ending : Ending} {cwd here pieces names : List String} {links : Nat} {dir : Path}
  {name : String} {node : Node} {entries : List (String × Node)}

/-! ### The way to a directory -/

/-- A path that leads to a directory starts at one. -/
theorem start_dir_of_follow (h : fs.follow ending links here pieces = .ok (.node names node))
    (hdir : node.isDir = true) : fs.HasDir here := by
  cases pieces with
  | cons piece left => exact (admits_of_follow h).hasDir
  | nil =>
    rw [follow, advance_nil] at h
    cases hat : fs.at? here with
    | none =>
      rw [hat] at h
      cases h
    | some found =>
      rw [hat] at h
      cases h
      exact hasDir_iff.2 ⟨node, hat, hdir⟩

/-- **A path that leads to a directory** is a walk to it. -/
theorem walk_of_follow (h : fs.follow .followed links here pieces = .ok (.node names node))
    (hdir : node.isDir = true) : ∃ rest, Walk fs links here pieces rest names := by
  -- on the links that may be followed, and then on the pieces before the first one that is a link
  induction links using Nat.strongRecOn generalizing here pieces with
  | ind links ihLinks =>
    induction pieces generalizing here with
    | nil =>
      have hhere := start_dir_of_follow h hdir
      obtain ⟨mode, accessed, entries, hat⟩ := exists_dir_of_hasDir hhere
      rw [follow_nil hat] at h
      cases h
      exact ⟨links, .done hhere⟩
    | cons piece left ih =>
      have hhere := admits_of_follow h
      cases turn_of_follow h with
      | stay hstays hon =>
        obtain ⟨rest, hwalk⟩ := ih hon
        exact ⟨rest, .stay hhere hstays hwalk⟩
      | up hup hon =>
        subst hup
        obtain ⟨rest, hwalk⟩ := ih hon
        exact ⟨rest, .up hhere hwalk⟩
      | missing hpiece hleft hnone hplace => cases hplace
      | itself hpiece hleft hending => cases hending
      | link hpiece target fewer hlinks hslash hnot hlink hon =>
        subst hlinks
        obtain ⟨rest, hwalk⟩ := ihLinks fewer (Nat.lt_succ_self fewer) hon
        exact ⟨rest, .link hhere hpiece hlink hwalk⟩
      | down hpiece hslash hsome hlink hon =>
        obtain ⟨rest, hwalk⟩ := ih hon
        exact ⟨rest, .down hhere hpiece hwalk⟩

/-- The last name is meant itself, also if it is that of a link. -/
theorem takeName_itself (hat : fs.at? (here ++ [name]) = some node) :
    fs.takeName .itself here name [] = .arrived (.node (here ++ [name]) node) := by
  rw [takeName, hat]
  cases node with
  | link target data => rfl
  | dir mode accessed entries => rw [advance_nil, hat]
  | file data => rw [advance_nil, hat]
  | special accessed => rw [advance_nil, hat]

/-- After a walk to a directory whose names may be looked up, one more name leads to the entry of that
name. -/
theorem Walk.follow_entry {rest : Nat} {there : List String} {mode : DirMode}
    {accessed : Option Timestamp} (h : Walk fs links here pieces rest there)
    (hat : fs.at? there = some (.dir mode accessed entries)) (hopen : mode.searchable = true)
    (hname : IsTaken name)
    (hentry : Node.childNamed? name entries = some node) :
    fs.follow .itself links here (pieces ++ [name]) = .ok (.node (there ++ [name]) node) := by
  have hthere : fs.at? (there ++ [name]) = some node := (at?_snoc hat name).trans hentry
  have hadmits : fs.Admits there name := .inl (by rw [shape?_of_some hat, Node.shape, hopen])
  have hlast : fs.follow .itself rest there [name] = .ok (.node (there ++ [name]) node) := by
    rw [FileSystem.follow, advance_of_isTaken hadmits hname (by simp), takeName_itself hthere]
  exact (h.follow hname.ne_empty .itself []).trans hlast

/-! ### The path of a child -/

/-- The pieces of a child's path are those of the directory and its own name; only a slash at the end
of the directory's path is no piece any more. -/
theorem exists_steps_child (hdir : dir.chars ≠ []) (hname : Path.IsName name) :
    ∃ init, steps (dir.child name) = init ++ [name] ∧ (steps dir = init ∨ steps dir = init ++ [""]) := by
  have hjoin : (dir.child name).chars = _ := Path.chars_join (Path.isAbsolute_of_isName hname)
  have hlast : (Path.mk name).chars ≠ [] := by simpa [Path.chars] using hname.1
  have hslash : '/' ∉ (Path.mk name).chars := hname.2.2.2
  have hwritten : String.ofList (Path.mk name).chars = name := String.ofList_toList
  obtain ⟨init, w, hpieces⟩ :=
    (List.eq_nil_or_concat (Path.pieces dir.chars)).resolve_left (Path.pieces_ne_nil _)
  rw [List.concat_eq_append] at hpieces
  have hpiece : ∀ u ∈ init ++ [w], '/' ∉ u := fun u hu =>
    Path.slash_not_mem_of_mem_pieces (hpieces ▸ hu)
  have hinit : ∀ u ∈ init, '/' ∉ u := fun u hu => hpiece u (List.mem_append_left _ hu)
  have hw : '/' ∉ w := hpiece w (by simp)
  have hchars := Path.eq_slashed_append_of_pieces hpieces
  by_cases hempty : w = []
  · -- a slash ends the path of the directory
    subst hempty
    rw [List.append_nil] at hchars
    have hsome : init ≠ [] := by
      rintro rfl
      exact hdir hchars
    rw [if_pos (.inr (hchars ▸ Path.getLast?_slashed hsome)), hchars] at hjoin
    refine ⟨Path.named init, ?_, Path.steps_of_slashed_nil hinit hsome hchars⟩
    rw [Path.steps_of_slashed hinit hjoin hlast hslash, hwritten]
  · have hends : ¬(dir.chars = [] ∨ dir.chars.getLast? = some '/') := by
      rintro (hnil | hend)
      · exact hdir hnil
      · exact Path.getLast?_slashed_append init hempty hw (hchars ▸ hend)
    have hchild : (dir.child name).chars = Path.slashed (init ++ [w]) ++ (Path.mk name).chars := by
      rw [hjoin, if_neg hends, hchars]
      simp
    refine ⟨Path.named (init ++ [w]), ?_, .inl ?_⟩
    · rw [Path.steps_of_slashed hpiece hchild hlast hslash, hwritten]
    · rw [Path.steps_of_slashed hinit hchars hempty hw, Path.named_append, Path.named_singleton hempty]

theorem admitted_child (hdir : Admitted dir) (hname : IsEntryName name)
    (hfits : fits (dir.child name) = true) : Admitted (dir.child name) := by
  have hjoin : (dir.child name).chars = _ := Path.chars_join (Path.isAbsolute_of_isName hname.isName)
  have hzero := hdir.no_zero
  refine ⟨?_, ?_, hfits⟩
  · have hlast : '\x00' ∉ (Path.mk name).chars := hname.no_zero
    rw [hjoin]
    split <;> simp [hzero, hlast]
  · have hlast : (Path.mk name).chars ≠ [] := by simpa [Path.chars] using hname.isName.1
    rw [hjoin]
    split <;> simp [hlast]

/-! ### What a listing gives -/

/-- A directory that is listed is where its path leads. -/
theorem exists_place_of_list (h : fs.list cwd dir = .ok entries) :
    ∃ there mode accessed, fs.resolve cwd .followed dir = .ok (.node there (.dir mode accessed entries)) := by
  unfold list stat nodeAt at h
  cases hplace : fs.resolve cwd .followed dir with
  | error e =>
    rw [hplace] at h
    cases h
  | ok place =>
    rw [hplace] at h
    cases place with
    | missing dir name => cases h
    | node there node =>
      cases node with
      | dir mode accessed found =>
        dsimp only at h
        split at h
        · cases h
          exact ⟨there, mode, accessed, rfl⟩
        · cases h
      | _ => cases h

/-- What a path leads to may be searched iff the directory there permits it. -/
theorem isSearchable_of_resolve {there : List String} {mode : DirMode} {accessed : Option Timestamp}
    (h : fs.resolve cwd .followed dir = .ok (.node there (.dir mode accessed entries))) :
    fs.isSearchable cwd dir = mode.searchable := by
  rw [isSearchable, stat, nodeAt, h]

/-- **An entry that is listed** is found under the path of the child, if names may be looked up there. -/
theorem lstat_child (hlist : fs.list cwd dir = .ok entries) (hopen : fs.isSearchable cwd dir = true)
    (hname : IsEntryName name)
    (hfits : fits (dir.child name) = true) (hentry : Node.childNamed? name entries = some node) :
    fs.lstat cwd (dir.child name) = .ok node := by
  obtain ⟨there, mode, accessed, hplace⟩ := exists_place_of_list hlist
  rw [isSearchable_of_resolve hplace] at hopen
  have hdir := admitted_of_resolve hplace
  have hchild := admitted_child hdir hname hfits
  have hstart : startOf cwd (dir.child name) = startOf cwd dir := by
    unfold startOf
    rw [Path.child, Path.isAbsolute_join_of_ne_nil hdir.ne_nil (Path.isAbsolute_of_isName hname.isName)]
  obtain ⟨init, hsteps, hinit⟩ := exists_steps_child hdir.ne_nil hname.isName
  have hat : fs.at? there = some (.dir mode accessed entries) := resolve_stands hplace
  rw [hdir.resolve] at hplace
  obtain ⟨rest, hwalk⟩ : ∃ rest, Walk fs maxLinks (startOf cwd dir) init rest there := by
    rcases hinit with hsame | hslash
    · rw [hsame] at hplace
      exact walk_of_follow hplace rfl
    · -- the slash at the end stays where the walk has led
      rw [hslash] at hplace
      obtain ⟨rest, end', hwalk, hlast⟩ := exists_walk hplace
      obtain ⟨_, _, _, hend⟩ := exists_dir_of_hasDir hwalk.end_dir
      rw [follow_stay (admits_of_follow hlast) (by decide), follow_nil hend] at hlast
      cases hlast
      exact ⟨rest, hwalk⟩
  have hfound := hwalk.follow_entry hat hopen hname.isTaken hentry
  unfold lstat nodeAt
  rw [hchild.resolve, hstart, hsteps, hfound]

end FileSystem

end DiskUsage
