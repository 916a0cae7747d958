import DiskUsage.Proofs.FileSystem.WellFormed

/-!
# How writing and renaming end

Writing a file fails and changes nothing, or it writes a file that is there, under all its names, or it
makes a new one.  Renaming fails and changes nothing, or it moves a node over what has the new name; it
does nothing if both names are already those of one file.

* `Wrote`, `wrote_of_write`: the outcomes of writing.
* `Renamed`, `renamed_of_rename`: the outcomes of renaming.
* `textAt`, `toOption_read`: what is read at a path, told by the names that it leads to.
* `Touched`: what writing changes; `touched_rewrite`, `touched_withNew`: a file that is there, and a new one.
* `Moved`, `moved_of_move`: what moving changes.
-/

open scoped List

namespace DiskUsage.FileSystem

variable {fs gs : FileSystem} {cwd : List String} {now : Option Timestamp} {p q : Path} {place : Place}
  {content : Content} {done : Except SystemError Unit} {names dir newDir : List String}
  {name newName : String} {node : Node} {data : FileData}

/-! ### What renaming looks at -/

/-- The last letter of a path is no slash, so there is none to leave out. -/
theorem withoutEndSlashes_of_getLast? (h : ¬(q.chars.getLast? == some '/') = true) :
    withoutEndSlashes q = q := by
  unfold withoutEndSlashes
  have hkeep : q.chars.reverse.dropWhile (· == '/') = q.chars.reverse := by
    rw [List.getLast?_eq_head?_reverse] at h
    cases hrev : q.chars.reverse with
    | nil => rfl
    | cons c cs =>
      rw [hrev] at h
      rw [List.dropWhile_cons_of_neg]
      simpa using h
  rw [hkeep, List.reverse_reverse]
  split
  · rfl
  · next cs hcs =>
    unfold Path.chars at *
    rw [String.ofList_toList]

theorem resolve_of_placeFor (h : ¬(q.chars.getLast? == some '/') = true)
    (hplace : fs.placeFor cwd q = .ok place) : fs.resolve cwd .itself q = .ok place := by
  rw [placeFor, withoutEndSlashes_of_getLast? h] at hplace
  split at hplace
  · exact hplace
  · cases hplace

theorem sameFile_file_iff : sameFile (.file data) node = true ↔
    ∃ found, node = .file found ∧ data.id = found.id := by
  cases node <;> simp [sameFile]

/-! ### Outcomes -/

/-- The file system with a new file under a name that the directory does not have. -/
def withNew (fs : FileSystem) (dir : List String) (name : String) (content : Content)
    (now : Option Timestamp) : FileSystem :=
  { fs.insert dir name (.file ⟨fs.nextId, content, now⟩) with nextId := fs.nextId + 1 }

/-- How writing a file ends. -/
inductive Wrote (fs : FileSystem) (cwd : List String) (now : Option Timestamp) (p : Path)
    (content : Content) : FileSystem → Except SystemError Unit → Prop
  | failed (e : SystemError) : Wrote fs cwd now p content fs (.error e)
  /-- What is there takes everything and keeps nothing. -/
  | swallowed (names : List String) (node : Node) (hdir : node.isDir = false) (hfile : node.isRegular = false)
      (hplace : fs.resolve cwd .written p = .ok (.node names node)) : Wrote fs cwd now p content fs (.ok ())
  | rewritten (names : List String) (data : FileData)
      (hplace : fs.resolve cwd .written p = .ok (.node names (.file data))) :
      Wrote fs cwd now p content (fs.rewrite data.id content) (.ok ())
  | made (dir : List String) (name : String) (hplace : fs.resolve cwd .written p = .ok (.missing dir name)) :
      Wrote fs cwd now p content (fs.withNew dir name content now) (.ok ())

/-- **Writing a file** ends in one of these ways. -/
theorem wrote_of_write (h : fs.write cwd now p content = (gs, done)) :
    Wrote fs cwd now p content gs done := by
  unfold write at h
  cases hplace : fs.resolve cwd .written p with
  | error e =>
    rw [hplace] at h
    cases h
    exact .failed e
  | ok place =>
    rw [hplace] at h
    cases place with
    | missing dir name =>
      cases h
      exact .made dir name hplace
    | node names node =>
      cases node with
      | dir mode accessed entries =>
        cases h
        exact .failed _
      | file data =>
        cases h
        exact .rewritten names data hplace
      | link target data =>
        cases h
        exact .swallowed names _ rfl rfl hplace
      | special accessed =>
        cases h
        exact .swallowed names _ rfl rfl hplace

/-- How renaming ends. -/
inductive Renamed (fs : FileSystem) (cwd : List String) (p q : Path) :
    FileSystem → Except SystemError Unit → Prop
  | failed (e : SystemError) : Renamed fs cwd p q fs (.error e)
  /-- Both names are those of one file. -/
  | same (names newNames : List String) (node old : Node)
      (hp : fs.resolve cwd .itself p = .ok (.node names node))
      (hq : fs.resolve cwd .itself q = .ok (.node newNames old)) (hsame : sameFile node old = true) :
      Renamed fs cwd p q fs (.ok ())
  | moved (dir newDir : List String) (name newName : String) (node : Node) (place : Place)
      (hp : fs.resolve cwd .itself p = .ok (.node (dir ++ [name]) node))
      (hq : fs.resolve cwd .itself q = .ok place) (hnames : place.names = newDir ++ [newName])
      (hdir : ¬fs.HasDir (newDir ++ [newName]))
      (hother : ∀ old, place = .node (newDir ++ [newName]) old → sameFile node old = false) :
      Renamed fs cwd p q (fs.move dir name node newDir newName) (.ok ())

/-- **Renaming** ends in one of these ways. -/
theorem renamed_of_rename (h : fs.rename cwd p q = (gs, done)) : Renamed fs cwd p q gs done := by
  unfold rename at h
  cases hp : fs.resolve cwd .itself p with
  | error e =>
    rw [hp] at h
    cases h
    exact .failed e
  | ok place =>
    rw [hp] at h
    cases place with
    | missing dir name =>
      cases h
      exact .failed _
    | node names node =>
      dsimp only at h
      cases hfor : fs.placeFor cwd q with
      | error e =>
        rw [hfor] at h
        cases h
        exact .failed e
      | ok place =>
        rw [hfor] at h
        dsimp only at h
        split at h
        · cases h
          exact .failed _
        split at h
        · cases h
          exact .failed _
        next hslash =>
        have hq := resolve_of_placeFor hslash hfor
        rcases List.eq_nil_or_concat names with rfl | ⟨dir, name, rfl⟩
        · cases place <;> (cases h; exact .failed _)
        rw [List.concat_eq_append] at h hp
        rw [List.getLast?_concat] at h
        cases place with
        | missing newDir newName =>
          dsimp only at h
          rw [List.dropLast_concat] at h
          cases h
          exact .moved dir newDir name newName node _ hp hq rfl
            (Solid.of_none (resolve_stands hq).2).not_dir nofun
        | node newNames old =>
          dsimp only at h
          rcases List.eq_nil_or_concat newNames with rfl | ⟨newDir, newName, rfl⟩
          · cases h
            exact .failed _
          rw [List.concat_eq_append] at h hq
          rw [List.getLast?_concat] at h
          dsimp only at h
          split at h
          · cases h
            exact .failed _
          next hold =>
          split at h
          · next hsame =>
            cases h
            exact .same _ _ node old hp hq hsame
          · next hother =>
            rw [List.dropLast_concat, List.dropLast_concat] at h
            cases h
            refine .moved dir newDir name newName node _ hp hq rfl ?_ fun old' hplace => ?_
            · have hstands : fs.at? (newDir ++ [newName]) = some old := resolve_stands hq
              exact fun hdir => hold (isDir_of_hasDir hdir hstands)
            · cases hplace
              simpa using hother

/-! ### What is read -/

theorem ok_of_toOption {ε α : Type} {found : Except ε α} {a : α} (h : found.toOption = some a) :
    found = .ok a := by
  cases found with
  | error e => cases h
  | ok b => cases h; rfl

/-- What is read at names from the root on. -/
def textAt (fs : FileSystem) (names : List String) : Option String :=
  match fs.at? names with
  | none => none
  | some (.dir ..) => none
  | some (.file data) => some data.content.toText
  | some _ => some ""

/-- **What is read** at a path is what is read at the names that it leads to. -/
theorem toOption_read (fs : FileSystem) (cwd : List String) (p : Path) :
    (fs.read cwd p).toOption
      = (fs.resolve cwd .followed p).toOption.bind fun place => fs.textAt place.names := by
  unfold read stat nodeAt
  cases hplace : fs.resolve cwd .followed p with
  | error e => rfl
  | ok place =>
    have hstands := resolve_stands hplace
    cases place with
    | missing dir name =>
      show none = fs.textAt (dir ++ [name])
      rw [textAt, hstands.2]
    | node names node =>
      have hat : fs.at? names = some node := hstands
      show _ = fs.textAt names
      rw [textAt, hat]
      cases node <;> rfl

/-- Writing a file leaves what is read under the names of other files. -/
theorem textAt_rewrite {id : Nat} (h : ∀ found, fs.at? names = some (.file found) → found.id ≠ id)
    (content : Content) : (fs.rewrite id content).textAt names = fs.textAt names := by
  unfold textAt
  rw [at?_rewrite]
  cases hat : fs.at? names with
  | none => rfl
  | some node =>
    cases node with
    | dir mode accessed entries => rfl
    | link target data => rfl
    | special accessed => rfl
    | file found => rw [Option.map_some, Node.rewriteFile, if_neg (h found hat)]

theorem textAt_of_alike (h : Node.Alike (gs.at? names) (fs.at? names)) :
    gs.textAt names = fs.textAt names := by
  unfold textAt
  rcases h with heq | ⟨searchable, hg, hf⟩
  · rw [heq]
  · obtain ⟨_, _, _, hg⟩ := exists_dir_of_hasDir ⟨searchable, hg⟩
    obtain ⟨_, _, _, hf⟩ := exists_dir_of_hasDir ⟨searchable, hf⟩
    rw [hg, hf]

/-! ### What writing changes -/

/-- A file stands at the place.  Paths lead where they led before, and what is read under the names of other
files is what was read before. -/
structure Touched (fs gs : FileSystem) (loc : List String) (data : FileData) : Prop where
  wellFormed : WellFormed gs
  forth : Carries loc fs gs
  back : Carries loc gs fs
  arrived : gs.at? loc = some (.file data)
  /-- Other names of the file were names of the file at that place before. -/
  ids : ∀ names found, names ≠ loc → gs.at? names = some (.file found) → found.id = data.id →
    ∃ old other, fs.at? loc = some (.file old) ∧ fs.at? names = some (.file other) ∧ old.id = other.id
  text : ∀ names, names ≠ loc → (∀ found, gs.at? names = some (.file found) → found.id ≠ data.id) →
    gs.textAt names = fs.textAt names

/-- **A file that is there** is written under all its names. -/
theorem touched_rewrite (hwf : WellFormed fs) (hold : fs.at? names = some (.file data)) (content : Content) :
    Touched fs (fs.rewrite data.id content) names { data with content } := by
  have hsolid : Solid fs names := .of_file hold
  obtain ⟨dir, name, rfl⟩ := hwf.exists_name hsolid.not_dir
  obtain ⟨hforth, hback⟩ := rewrite_carries (by simp) hsolid data.id content
  refine ⟨hwf.rewrite data.id content, hforth, hback, ?_, fun names found hne hfound hid => ?_,
    fun names hne hfiles => ?_⟩
  · rw [at?_rewrite, hold, Option.map_some, Node.rewriteFile, if_pos rfl]
  · rw [at?_rewrite] at hfound
    obtain ⟨node, hnode, hrewritten⟩ := Option.map_eq_some_iff.1 hfound
    cases node with
    | file other =>
      have hsame : other.id = found.id := by
        rw [Node.rewriteFile] at hrewritten
        split at hrewritten <;> cases hrewritten <;> rfl
      exact ⟨data, other, hold, hnode, hid.symm.trans hsame.symm⟩
    | dir mode accessed entries => cases hrewritten
    | link target data => cases hrewritten
    | special accessed => cases hrewritten
  · refine textAt_rewrite (fun found hfound hid => ?_) content
    refine hfiles { found with content } ?_ hid
    rw [at?_rewrite, hfound, Option.map_some, Node.rewriteFile, if_pos hid]

/-- Elsewhere a new file changes nothing. -/
theorem alike_withNew (hnone : fs.at? (dir ++ [name]) = none) (hdir : fs.HasDir dir)
    (hne : names ≠ dir ++ [name]) (content : Content) (now : Option Timestamp) :
    Node.Alike ((fs.withNew dir name content now).at? names) (fs.at? names) := by
  by_cases hbelow : dir ++ [name] <+: names
  · obtain ⟨more, rfl⟩ := hbelow
    obtain ⟨first, rest, rfl⟩ : ∃ first rest, more = first :: rest :=
      List.exists_cons_of_ne_nil fun hnil => hne (by rw [hnil, List.append_nil])
    left
    rw [at?_append_eq_none (Solid.of_none hnone).not_dir (List.cons_ne_nil first rest), List.append_assoc]
    exact at?_insert hdir name _ (first :: rest)
  · exact insert_equalOff fs dir name _ names hbelow

/-- **A new file** has one name, and an identity of its own. -/
theorem touched_withNew (hwf : WellFormed fs) (hdir : fs.HasDir dir)
    (hnone : fs.at? (dir ++ [name]) = none) (content : Content) (now : Option Timestamp) :
    Touched fs (fs.withNew dir name content now) (dir ++ [name]) ⟨fs.nextId, content, now⟩ := by
  have hsolid : Solid fs (dir ++ [name]) := .of_none hnone
  obtain ⟨hforth, hback⟩ := insert_file_carries hdir hsolid ⟨fs.nextId, content, now⟩ (fs.nextId + 1)
  refine ⟨hwf.insert_file hdir name (Nat.le_succ _) (Nat.lt_succ_self _), hforth, hback,
    at?_insert hdir name _ [], fun names found hne hfound hid => ?_,
    fun names hne _ => textAt_of_alike (alike_withNew hnone hdir hne content now)⟩
  rcases alike_withNew hnone hdir hne content now with heq | ⟨_, hdirThere, -⟩
  · -- any other file has an identity that was given before
    have hlt := hwf.id_lt names found (heq.symm.trans hfound)
    rw [hid] at hlt
    exact absurd hlt (Nat.lt_irrefl _)
  · rw [hfound] at hdirThere
    cases hdirThere

/-! ### Moving -/

/-- The node stands at the new name, nothing at the old one, and everything else where it was. -/
structure Moved (fs gs : FileSystem) (loc newLoc : List String) (node : Node) : Prop where
  wellFormed : WellFormed gs
  gone : gs.at? loc = none
  arrived : gs.at? newLoc = some node
  alike : ∀ names, names ≠ loc → names ≠ newLoc → Node.Alike (gs.at? names) (fs.at? names)

theorem alike_trans {a b c : Option Node} (h : Node.Alike a b) (k : Node.Alike b c) : Node.Alike a c := by
  rcases h with rfl | ⟨searchable, ha, hb⟩
  · exact k
  · rcases k with rfl | ⟨_, hb', hc⟩
    · exact .inr ⟨searchable, ha, hb⟩
    · exact .inr ⟨searchable, ha, by rw [hc, ← hb', hb]⟩

/-- What is alike is the same to a path. -/
theorem shape?_of_alike (h : Node.Alike (gs.at? names) (fs.at? names)) :
    fs.shape? names = gs.shape? names := by
  unfold shape?
  rcases h with heq | ⟨_, hg, hf⟩
  · rw [heq]
  · rw [hg, hf]

/-- **Moving** a node that is no directory over another one. -/
theorem moved_of_move (hwf : WellFormed fs) (hat : fs.at? (dir ++ [name]) = some node)
    (hnode : node.isDir = false) (hdir : fs.HasDir newDir)
    (hold : ¬fs.HasDir (newDir ++ [newName])) (hne : newDir ++ [newName] ≠ dir ++ [name]) :
    Moved fs (fs.move dir name node newDir newName) (dir ++ [name]) (newDir ++ [newName]) node := by
  have hparent : fs.HasDir dir := hasDir_of_child hat
  have hleaf : ¬fs.HasDir (dir ++ [name]) := fun hdir => by
    simp [isDir_of_hasDir hdir hat] at hnode
  -- between the two edits the node has no name
  have herase : ∀ names, names ≠ dir ++ [name] →
      Node.Alike ((fs.erase dir name).at? names) (fs.at? names) := by
    intro names hnames
    by_cases hbelow : dir ++ [name] <+: names
    · obtain ⟨more, rfl⟩ := hbelow
      have hmore : more ≠ [] := fun hnil => hnames (by rw [hnil, List.append_nil])
      left
      rw [at?_append_eq_none hleaf hmore, List.append_assoc]
      exact at?_erase hparent name more
    · exact erase_equalOff fs dir name names hbelow
  have hdir' : (fs.erase dir name).HasDir newDir :=
    (hasDir_congr (shape?_of_alike (herase newDir fun heq => hleaf (heq ▸ hdir)))).1 hdir
  have hold' : ¬(fs.erase dir name).HasDir (newDir ++ [newName]) := fun hdir =>
    hold ((hasDir_congr (shape?_of_alike (herase _ hne))).2 hdir)
  have hinsert : ∀ names, names ≠ newDir ++ [newName] →
      Node.Alike ((fs.move dir name node newDir newName).at? names) ((fs.erase dir name).at? names) := by
    intro names hnames
    by_cases hbelow : newDir ++ [newName] <+: names
    · obtain ⟨more, rfl⟩ := hbelow
      obtain ⟨first, rest, rfl⟩ : ∃ first rest, more = first :: rest :=
        List.exists_cons_of_ne_nil fun hnil => hnames (by rw [hnil, List.append_nil])
      left
      rw [at?_append_eq_none hold' (List.cons_ne_nil first rest), List.append_assoc]
      refine (at?_insert hdir' newName node (first :: rest)).trans ?_
      cases node with
      | dir mode accessed entries => cases hnode
      | file data => rfl
      | link target data => rfl
      | special accessed => rfl
    · exact insert_equalOff (fs.erase dir name) newDir newName node names hbelow
  refine ⟨?_, ?_, at?_insert hdir' newName node [], fun names hloc hnew =>
    alike_trans (hinsert names hnew) (herase names hloc)⟩
  · refine (hwf.erase hparent name).insert hdir' newName (Nat.le_refl _) fun rest data hfile => ?_
    refine hwf.id_lt (dir ++ [name] ++ rest) data ?_
    rw [at?, Node.descend?_append]
    rw [at?] at hat
    rw [hat]
    exact hfile
  · have hgone : (fs.erase dir name).at? (dir ++ [name]) = none := at?_erase hparent name []
    rcases hinsert _ (Ne.symm hne) with heq | ⟨_, -, hdirThere⟩
    · rw [heq, hgone]
    · rw [hgone] at hdirThere
      cases hdirThere

end DiskUsage.FileSystem
