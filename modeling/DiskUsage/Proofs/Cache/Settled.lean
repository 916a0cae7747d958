import DiskUsage.Proofs.Cache.Beside

/-!
# Writing the draft and publishing it

The list is written first where the path of the draft leads, and then the draft takes the name of the file.
Links may stand under both names.  What the file holds is left alone until then, if the two paths do not
lead to one file; and what was written is read under the name of the file afterwards, unless a link stood
there that leads to a directory, through which the path of the file itself may lead.

* `Clear`: nothing is in the way, told by what a system call finds.
* `Settled`: the directory of the file is there, and nothing is in the way; `Clear.names_ne`, `Clear.settled`:
  so the paths of the file and of the draft lead to two places.
* `Settled.write`: the draft is written, and the file holds what it held.
* `Settled.rename`: the draft takes the name of the file, or nothing happens.
-/

open scoped List

namespace DiskUsage

namespace FileSystem

/-- The places are two, and they are not two names of one file. -/
def Place.Apart (a b : Place) : Prop :=
  a.names ≠ b.names ∧ ∀ names node names' node', a = .node names node → b = .node names' node' →
    sameFile node node' = false

variable {fs gs : FileSystem} {ending : Ending} {links : Nat} {here loc : List String} {piece : String}
  {pieces : List String} {place : Place} {node : Node}

/-- What stands at the place in the second file system is what is reached. -/
theorem follow_carry_node (h : Carries loc fs gs) (hhere : here ≠ loc)
    (hf : fs.follow ending links here pieces = .ok place) (hat : gs.at? place.names = some node) :
    gs.follow ending links here pieces = .ok (.node place.names node) := by
  obtain ⟨found, hg, hnames⟩ := follow_carry h hhere hf
  have hstands := follow_stands hg
  cases found with
  | node names other =>
    obtain rfl : names = place.names := hnames
    rw [hg, Option.some.inj (hstands.symm.trans hat)]
  | missing dir name =>
    rw [← hnames, Place.names, hstands.2] at hat
    cases hat

/-- A place at which a node stands is the place of that node. -/
theorem Place.eq_node (hstands : place.Stands fs) (hat : fs.at? place.names = some node) :
    place = .node place.names node := by
  cases place with
  | node names found =>
    have hfound : fs.at? names = some found := hstands
    rw [Place.names] at hat ⊢
    rw [Option.some.inj (hfound.symm.trans hat)]
  | missing dir name =>
    rw [Place.names, hstands.2] at hat
    cases hat

/-- The last name itself leads to what stands there. -/
theorem follow_itself (hdir : fs.Admits here piece) (hpiece : IsTaken piece) :
    ∃ place, fs.follow .itself links here [piece] = .ok place ∧ place.names = here ++ [piece] := by
  have hadvance : fs.advance .itself here [piece] = fs.takeName .itself here piece [] :=
    advance_of_isTaken hdir hpiece (by simp)
  cases hat : fs.at? (here ++ [piece]) with
  | none => exact ⟨_, follow_missing hdir hpiece (shape?_of_none hat), rfl⟩
  | some node =>
    refine ⟨.node (here ++ [piece]) node, ?_, rfl⟩
    unfold follow
    rw [hadvance, takeName, hat]
    cases node with
    | link target data => rfl
    | file data | dir mode accessed entries | special accessed =>
      dsimp only
      rw [advance_nil, hat]

theorem names_of_follow_itself (hpiece : IsTaken piece)
    (h : fs.follow .itself links here [piece] = .ok place) : place.names = here ++ [piece] := by
  obtain ⟨found, hfound, hnames⟩ : ∃ found, fs.follow .itself links here [piece] = .ok found ∧
      found.names = here ++ [piece] := follow_itself (admits_of_follow h) hpiece
  rw [h] at hfound
  cases hfound
  exact hnames

/-- What is no link is reached with every ending. -/
theorem follow_last (hdir : fs.Admits here piece) (hpiece : IsTaken piece)
    (hat : fs.at? (here ++ [piece]) = some node) (hlink : node.isLink = false) :
    fs.follow ending links here [piece] = .ok (.node (here ++ [piece]) node) := by
  have hshape : fs.shape? (here ++ [piece]) = some node.shape := shape?_of_some hat
  refine (follow_down hdir hpiece (by simp) (by rw [hshape]; nofun) fun target heq => ?_).trans
    (follow_nil hat)
  rw [hshape] at heq
  cases node <;> cases heq
  cases hlink

/-- What a last name does that is followed to a place. -/
inductive LastTurn (fs : FileSystem) (links : Nat) (here : List String) (piece : String) (place : Place) :
    Prop
  | missing (hnone : fs.at? (here ++ [piece]) = none) (hplace : place = .missing here piece)
  | link (target : Path) (fewer : Nat) (hlinks : links = fewer + 1)
      (hlink : fs.shape? (here ++ [piece]) = some (.link target))
      (hon : fs.follow .followed fewer (startOf here target) (steps target) = .ok place)
  | found (node : Node) (hat : fs.at? (here ++ [piece]) = some node) (hlink : node.isLink = false)
      (hplace : place = .node (here ++ [piece]) node)

/-- What is no link is the place itself. -/
theorem LastTurn.names (h : LastTurn fs links here piece place) :
    (∃ target, fs.shape? (here ++ [piece]) = some (.link target)) ∨ place.names = here ++ [piece] := by
  cases h with
  | missing hnone hplace => exact .inr (by rw [hplace]; rfl)
  | link target fewer hlinks hlink hon => exact .inl ⟨target, hlink⟩
  | found node hat hlink hplace => exact .inr (by rw [hplace]; rfl)

/-- A link under the last name is found if it is not followed. -/
theorem lstat_link {cwd : List String} {p : Path} {target : Path}
    (hresolve : fs.resolve cwd .itself p = fs.follow .itself links here [piece])
    (hdir : fs.Admits here piece) (hpiece : IsTaken piece)
    (hlink : fs.shape? (here ++ [piece]) = some (.link target)) :
    ∃ node, fs.lstat cwd p = .ok node ∧ node.isLink = true := by
  obtain ⟨accessed, hat⟩ := exists_link_of_shape? hlink
  obtain ⟨place, hplace, hnames⟩ : ∃ place, fs.follow .itself links here [piece] = .ok place ∧
      place.names = here ++ [piece] := follow_itself hdir hpiece
  have hnode := Place.eq_node (follow_stands hplace) (hnames ▸ hat)
  exact ⟨_, by rw [lstat, nodeAt, hresolve, hplace, hnode], rfl⟩

theorem lastTurn_of_follow (hpiece : IsTaken piece)
    (h : fs.follow .followed links here [piece] = .ok place) : LastTurn fs links here piece place := by
  cases turn_of_follow h with
  | stay hstays => simp [hpiece.moves] at hstays
  | up hup => exact absurd hup hpiece.down
  | missing hpiece hleft hnone hplace => exact .missing (Option.map_eq_none_iff.1 hnone) hplace
  | itself hpiece hleft hending => cases hending
  | link hpiece target fewer hlinks hslash hnot hlink hon =>
    rw [List.append_nil] at hon
    exact .link target fewer hlinks hlink hon
  | down hpiece hslash hsome hlink hon =>
    cases hat : fs.at? (here ++ [piece]) with
    | none => exact absurd (shape?_of_none hat) hsome
    | some node =>
      rw [follow_nil hat] at hon
      cases hon
      refine .found node hat ?_ rfl
      cases node with
      | link target data => exact absurd (shape?_of_some hat) (hlink target)
      | file data | dir mode accessed entries | special accessed => rfl

end FileSystem

namespace SizeMap

open FileSystem

/-- Nothing is in the way of writing the file: the path of the draft does not lead to a pipe, a socket or a
device, neither path leads through a link, symbolic or hard, to what the other one leads to, and no link to
a directory stands under the name of the file. -/
structure Clear (fs : FileSystem) (cwd : List String) (file : Path) : Prop where
  ordinary : ∀ node, fs.stat cwd (draftPath file) = .ok node → node.isDir = true ∨ node.isRegular = true
  symbolic : ∀ node, fs.lstat cwd (draftPath file) = .ok node ∨ fs.lstat cwd file = .ok node →
    node.isLink = true → ∀ place other, fs.resolve cwd .followed (draftPath file) = .ok place →
      fs.resolve cwd .followed file = .ok other → place.names ≠ other.names
  hard : ∀ names node names' node', names ≠ names' →
    fs.resolve cwd .followed (draftPath file) = .ok (.node names node) →
      fs.resolve cwd .followed file = .ok (.node names' node') → sameFile node node' = false
  /-- The link leads to no directory however many links may be followed. -/
  file_link : ∀ node, fs.lstat cwd file = .ok node → node.isLink = true → ∀ links names found,
    fs.follow .followed links (startOf cwd file) (steps file) = .ok (.node names found) →
      found.isDir = false

/-- The pieces before the two names lead to a directory that may be searched, and nothing is in the way
there. -/
structure Settled (fs : FileSystem) (cwd : List String) (file : Path) (init : List String)
    (name draft : String) (rest : Nat) (dir : List String) : Prop where
  wellFormed : fs.WellFormed
  walk : Walk fs maxLinks (startOf cwd file) init rest dir
  admits : fs.Admits dir name
  ordinary : ∀ names node, fs.follow .followed rest dir [draft] = .ok (.node names node) →
    node.isDir = true ∨ node.isRegular = true
  apart : ∀ place other, fs.follow .followed rest dir [draft] = .ok place →
    fs.follow .followed rest dir [name] = .ok other → place.Apart other
  astray : ∀ target, fs.shape? (dir ++ [name]) = some (.link target) → ∀ links rest there,
    ¬Walk fs links (startOf dir target) (steps target) rest there

variable {fs gs : FileSystem} {cwd : List String} {now : Option Timestamp} {file : Path}
  {init : List String} {name draft text : String} {rest : Nat} {dir loc : List String} {place : Place}
  {data : FileData} {node : Node} {done : Except SystemError Unit} {ending : Ending}

/-! ### The two paths -/

theorem Beside.names_ne (hb : Beside file init name draft) : dir ++ [name] ≠ dir ++ [draft] := fun heq =>
  hb.ne (List.cons.inj (List.append_cancel_left heq)).1

theorem Beside.resolve_file (hb : Beside file init name draft)
    (hwalk : Walk fs maxLinks (startOf cwd file) init rest dir) (ending : Ending) :
    fs.resolve cwd ending file = fs.follow ending rest dir [name] := by
  rw [hb.admitted.resolve, hb.file_steps]
  exact hwalk.follow hb.taken.ne_empty ending []

theorem Beside.resolve_draft (hb : Beside file init name draft)
    (hwalk : Walk fs maxLinks (startOf cwd file) init rest dir) (ending : Ending) :
    fs.resolve cwd ending (draftPath file) = fs.follow ending rest dir [draft] := by
  have hstart : startOf cwd (draftPath file) = startOf cwd file := by
    unfold startOf
    rw [hb.absolute]
  rw [hb.draft_admitted.resolve, hb.draft_steps, hstart]
  exact hwalk.follow hb.draft_taken.ne_empty ending []

/-- Where the draft can be written, its directory is there. -/
theorem Beside.exists_walk (hb : Beside file init name draft)
    (h : fs.resolve cwd ending (draftPath file) = .ok place) :
    ∃ rest dir, Walk fs maxLinks (startOf cwd file) init rest dir ∧ fs.Admits dir name := by
  have hstart : startOf cwd (draftPath file) = startOf cwd file := by
    unfold startOf
    rw [hb.absolute]
  rw [hb.draft_admitted.resolve, hb.draft_steps, hstart] at h
  obtain ⟨rest, dir, hwalk, hlast⟩ := FileSystem.exists_walk h
  exact ⟨rest, dir, hwalk, (admits_of_follow hlast).of_ne_empty hb.draft_taken.ne_empty name⟩

/-- **The two paths lead to two places**: without a link they lead to two names. -/
theorem Clear.names_ne (h : Clear fs cwd file) (hb : Beside file init name draft)
    (hwalk : Walk fs maxLinks (startOf cwd file) init rest dir) {other : Place}
    (hplace : fs.follow .followed rest dir [draft] = .ok place)
    (hother : fs.follow .followed rest dir [name] = .ok other) : place.names ≠ other.names := by
  have hlinked : ∀ node, fs.lstat cwd (draftPath file) = .ok node ∨ fs.lstat cwd file = .ok node →
      node.isLink = true → place.names ≠ other.names := fun node hnode hlink =>
    h.symbolic node hnode hlink place other (hb.resolve_draft hwalk _ ▸ hplace)
      (hb.resolve_file hwalk _ ▸ hother)
  rcases (lastTurn_of_follow hb.draft_taken hplace).names with ⟨target, hlink⟩ | hdraft
  · obtain ⟨node, hnode, hisLink⟩ :=
      lstat_link (hb.resolve_draft hwalk .itself) (admits_of_follow hplace) hb.draft_taken hlink
    exact hlinked node (.inl hnode) hisLink
  rcases (lastTurn_of_follow hb.taken hother).names with ⟨target, hlink⟩ | hfile
  · obtain ⟨node, hnode, hisLink⟩ :=
      lstat_link (hb.resolve_file hwalk .itself) (admits_of_follow hother) hb.taken hlink
    exact hlinked node (.inr hnode) hisLink
  rw [hdraft, hfile]
  exact hb.names_ne.symm

/-- A link under the name of the file leads to no directory by itself if the path of the file leads to
none. -/
theorem Beside.astray (hb : Beside file init name draft)
    (hwalk : Walk fs maxLinks (startOf cwd file) init rest dir) (hopen : fs.Admits dir name)
    (hlink : ∀ node, fs.lstat cwd file = .ok node → node.isLink = true → ∀ links names found,
      fs.follow .followed links (startOf cwd file) (steps file) = .ok (.node names found) →
        found.isDir = false)
    {target : Path} (htarget : fs.shape? (dir ++ [name]) = some (.link target)) {links rest' : Nat}
    {there : List String} (hthere : Walk fs links (startOf dir target) (steps target) rest' there) :
    False := by
  obtain ⟨node, hlstat, hisLink⟩ :=
    lstat_link (hb.resolve_file hwalk .itself) hopen hb.taken htarget
  -- with more links the path of the file leads to the directory that the link leads to
  obtain ⟨found, hfound, hdir⟩ := (hthere.mono rest).leads
  have hlong : fs.follow .followed (maxLinks + (links + 1)) (startOf cwd file) (steps file)
      = .ok (.node there found) := by
    rw [hb.file_steps, (hwalk.mono (links + 1)).follow hb.taken.ne_empty, ← Nat.add_assoc,
      follow_link hopen hb.taken (by simp) htarget (by simp), List.append_nil, Nat.add_comm rest]
    exact hfound
  have hno := hlink node hlstat hisLink _ _ _ hlong
  simp [hdir] at hno

/-- Where nothing is in the way and the directory is there, everything is settled. -/
theorem Clear.settled (h : Clear fs cwd file) (hwf : fs.WellFormed) (hb : Beside file init name draft)
    (hwalk : Walk fs maxLinks (startOf cwd file) init rest dir) (hopen : fs.Admits dir name) :
    Settled fs cwd file init name draft rest dir := by
  refine ⟨hwf, hwalk, hopen, fun names node hnode => ?_, fun place other hplace hother => ?_,
    fun target htarget links rest' there hthere => hb.astray hwalk hopen h.file_link htarget hthere⟩
  · refine h.ordinary node ?_
    rw [stat, nodeAt, hb.resolve_draft hwalk, hnode]
  · have hne := h.names_ne hb hwalk hplace hother
    refine ⟨hne, fun names node names' node' hnode hnode' => ?_⟩
    subst hnode hnode'
    exact h.hard names node names' node' hne (hb.resolve_draft hwalk _ ▸ hplace)
      (hb.resolve_file hwalk _ ▸ hother)

/-- What is read in the file, told by the names that its path leads to. -/
theorem Settled.toOption_read (h : Settled fs cwd file init name draft rest dir)
    (hb : Beside file init name draft) :
    (fs.read cwd file).toOption
      = (fs.follow .followed rest dir [name]).toOption.bind fun place => fs.textAt place.names := by
  rw [FileSystem.toOption_read, hb.resolve_file h.walk]

/-! ### Writing the draft -/

/-- After an edit where the path of the draft leads, the path of the file leads to other names, and to
another file. -/
theorem Settled.apart_touched (h : Settled fs cwd file init name draft rest dir)
    (hplace : fs.follow .written rest dir [draft] = .ok place) (ht : Touched fs gs place.names data)
    {other : Place} (hg : gs.follow .followed rest dir [name] = .ok other) :
    place.names ≠ other.names ∧
      ∀ found, gs.at? other.names = some (.file found) → found.id ≠ data.id := by
  have hhere : dir ≠ place.names := fun heq => ht.forth.solid.not_dir (heq ▸ h.walk.end_dir)
  -- where the path of the file leads now, it led before
  obtain ⟨before, hbefore, hnames⟩ := follow_carry ht.back hhere hg
  obtain ⟨hne, hfiles⟩ := h.apart place before (followed_of_written hplace) hbefore
  rw [hnames] at hne
  refine ⟨hne, fun found hfound hid => ?_⟩
  obtain ⟨old, same, hold, hsame, heq⟩ := ht.ids other.names found hne.symm hfound hid
  have hno := hfiles _ _ _ _ (Place.eq_node (follow_stands hplace) hold)
    (Place.eq_node (follow_stands hbefore) (hnames ▸ hsame))
  simp [sameFile, heq] at hno

/-- An edit where the path of the draft leads leaves everything settled. -/
theorem Settled.settled_touched (h : Settled fs cwd file init name draft rest dir)
    (hplace : fs.follow .written rest dir [draft] = .ok place) (ht : Touched fs gs place.names data)
    (hwritten : gs.follow .written rest dir [draft] = .ok (.node place.names (.file data))) :
    Settled gs cwd file init name draft rest dir := by
  have hforth : ∀ loc, loc = place.names → Blocked fs loc := fun loc hloc => hloc ▸ ht.forth.solid.blocked
  have hback : ∀ loc, loc = place.names → Blocked gs loc := fun loc hloc => hloc ▸ ht.back.solid.blocked
  have hfollowed := followed_of_written hwritten
  refine ⟨ht.wellFormed, h.walk.transfer ht.forth.agree hforth,
    admits_transfer ht.forth.agree hforth h.admits, fun names node hnode => ?_,
    fun first other hfirst hg => ?_, fun target htarget links rest' there hthere => ?_⟩
  · rw [hfollowed] at hnode
    cases hnode
    exact .inr rfl
  · rw [hfollowed] at hfirst
    cases hfirst
    obtain ⟨hne, hfiles⟩ := h.apart_touched hplace ht hg
    refine ⟨hne, fun names node names' node' hnode hnode' => ?_⟩
    cases hnode
    subst hnode'
    have hstands : gs.at? names' = some node' := follow_stands hg
    cases node' with
    | file found => simpa [sameFile] using Ne.symm (hfiles found hstands)
    | dir mode accessed entries => rfl
    | link target data => rfl
    | special accessed => rfl
  · have hne : dir ++ [name] ≠ place.names := by
      intro heq
      rw [heq] at htarget
      exact ht.back.solid.not_link target htarget
    exact h.astray target ((ht.back.agree _ hne).symm.trans htarget) links rest' there
      (hthere.transfer ht.back.agree hback)

/-- What is read in the file is what was read before an edit where the path of the draft leads. -/
theorem Settled.read_touched (h : Settled fs cwd file init name draft rest dir)
    (hb : Beside file init name draft) (hplace : fs.follow .written rest dir [draft] = .ok place)
    (ht : Touched fs gs place.names data) (hsettled : Settled gs cwd file init name draft rest dir) :
    (gs.read cwd file).toOption = (fs.read cwd file).toOption := by
  have hhere : dir ≠ place.names := fun heq => ht.forth.solid.not_dir (heq ▸ h.walk.end_dir)
  rw [hsettled.toOption_read hb, h.toOption_read hb]
  cases hf : fs.follow .followed rest dir [name] with
  | ok before =>
    obtain ⟨other, hg, hnames⟩ := follow_carry ht.forth hhere hf
    obtain ⟨hne, hfiles⟩ := h.apart_touched hplace ht hg
    rw [hg]
    show gs.textAt other.names = fs.textAt before.names
    rw [ht.text other.names hne.symm hfiles, hnames]
  | error e =>
    cases hg : gs.follow .followed rest dir [name] with
    | ok other =>
      obtain ⟨before, hbefore, -⟩ := follow_carry ht.back hhere hg
      rw [hf] at hbefore
      cases hbefore
    | error e' => rfl

/-- An edit where the path of the draft leads leaves everything settled and what is read in the file. -/
theorem Settled.touched (h : Settled fs cwd file init name draft rest dir) (hb : Beside file init name draft)
    (hplace : fs.follow .written rest dir [draft] = .ok place) (ht : Touched fs gs place.names data) :
    Settled gs cwd file init name draft rest dir ∧
      (gs.read cwd file).toOption = (fs.read cwd file).toOption ∧
      gs.follow .written rest dir [draft] = .ok (.node place.names (.file data)) := by
  have hhere : dir ≠ place.names := fun heq => ht.forth.solid.not_dir (heq ▸ h.walk.end_dir)
  have hwritten := follow_carry_node ht.forth hhere hplace ht.arrived
  have hsettled := h.settled_touched hplace ht hwritten
  exact ⟨hsettled, h.read_touched hb hplace ht hsettled, hwritten⟩

/-- **Writing the draft** leaves what the file holds. -/
theorem Settled.write (h : Settled fs cwd file init name draft rest dir) (hb : Beside file init name draft)
    {content : Content} (hw : fs.write cwd now (draftPath file) content = (gs, done)) :
    Settled gs cwd file init name draft rest dir ∧
      (gs.read cwd file).toOption = (fs.read cwd file).toOption ∧
      (done = .ok () → ∃ names data, data.content = content ∧
        gs.follow .written rest dir [draft] = .ok (.node names (.file data))) := by
  cases wrote_of_write hw with
  | failed e => exact ⟨h, rfl, nofun⟩
  | swallowed names node hdir hfile hplace =>
    rw [hb.resolve_draft h.walk] at hplace
    rcases h.ordinary names node (followed_of_written hplace) with hyes | hyes
    · simp [hdir] at hyes
    · simp [hfile] at hyes
  | rewritten names data hplace =>
    rw [hb.resolve_draft h.walk] at hplace
    obtain ⟨hsettled, hread, hwritten⟩ :=
      h.touched hb hplace (touched_rewrite h.wellFormed (follow_stands hplace) content)
    exact ⟨hsettled, hread, fun _ => ⟨_, _, rfl, hwritten⟩⟩
  | made d n hplace =>
    rw [hb.resolve_draft h.walk] at hplace
    obtain ⟨hd, hnone⟩ := follow_stands hplace
    obtain ⟨hsettled, hread, hwritten⟩ :=
      h.touched hb hplace (touched_withNew h.wellFormed hd hnone content now)
    exact ⟨hsettled, hread, fun _ => ⟨_, _, rfl, hwritten⟩⟩

/-! ### The draft takes the name of the file -/

/-- Where the draft is gone and the path of the file leads to a file, everything is settled. -/
theorem settled_of_gone (hb : Beside file init name draft) (hwf : fs.WellFormed)
    (hwalk : Walk fs maxLinks (startOf cwd file) init rest dir) (hgone : fs.at? (dir ++ [draft]) = none)
    (hleads : fs.follow .followed rest dir [name] = .ok (.node loc (.file data))) :
    Settled fs cwd file init name draft rest dir ∧ fs.read cwd file = .ok data.content.toText := by
  have hopen := admits_of_follow hleads
  have hmissing : fs.follow .followed rest dir [draft] = .ok (.missing dir draft) :=
    follow_missing (hopen.of_ne_empty hb.taken.ne_empty draft) hb.draft_taken (shape?_of_none hgone)
  have hfile : fs.at? loc = some (.file data) := follow_stands hleads
  refine ⟨⟨hwf, hwalk, hopen, fun names node hnode => ?_, fun place other hplace hother => ?_,
    fun target htarget links rest' there hthere => ?_⟩, ?_⟩
  · rw [hmissing] at hnode
    cases hnode
  · rw [hmissing] at hplace
    rw [hleads] at hother
    cases hplace
    cases hother
    refine ⟨?_, nofun⟩
    show dir ++ [draft] ≠ loc
    rintro rfl
    rw [hgone] at hfile
    cases hfile
  · -- the link would lead to a directory and to the file
    cases lastTurn_of_follow hb.taken hleads with
    | missing hnone hplace => cases hplace
    | link target' fewer hlinks hlink hon =>
      rw [htarget] at hlink
      cases hlink
      exact absurd (hthere.isDir_of_follow hon) nofun
    | found node hat hlink hplace =>
      rw [shape?, hat] at htarget
      cases hplace
      cases htarget
  · unfold FileSystem.read stat nodeAt
    rw [hb.resolve_file hwalk, hleads]

/-- No walk leads through the names of the draft and of the file. -/
theorem Settled.blocked (h : Settled fs cwd file init name draft rest dir) (hb : Beside file init name draft)
    (hdraft : fs.follow .followed rest dir [draft] = .ok (.node loc (.file data)))
    (hfile : ¬fs.HasDir (dir ++ [name])) (names : List String)
    (hnames : names = dir ++ [draft] ∨ names = dir ++ [name]) : Blocked fs names := by
  rcases hnames with rfl | rfl
  · cases lastTurn_of_follow hb.draft_taken hdraft with
    | missing hnone hplace => cases hplace
    | link target fewer hlinks hlink hon =>
      refine ⟨not_hasDir_of_link hlink, fun target' htarget links rest' there hthere => ?_⟩
      rw [List.dropLast_concat] at hthere
      rw [hlink] at htarget
      cases htarget
      exact absurd (hthere.isDir_of_follow hon) nofun
    | found node hat hlink hplace =>
      cases hplace
      exact (Solid.of_file hat).blocked
  · refine ⟨hfile, fun target htarget links rest' there hthere => ?_⟩
    rw [List.dropLast_concat] at hthere
    exact h.astray target htarget links rest' there hthere

/-- A link that took the name of the file leads to the file where it led as the draft. -/
theorem Settled.follow_moved (h : Settled fs cwd file init name draft rest dir)
    (hb : Beside file init name draft) (hfile : ¬fs.HasDir (dir ++ [name]))
    (hdraft : fs.follow .followed rest dir [draft] = .ok (.node loc (.file data)))
    {target : Path} (hlink : fs.shape? (dir ++ [draft]) = some (.link target))
    (hmoved : Moved fs gs (dir ++ [draft]) (dir ++ [name]) node)
    (hnew : gs.shape? (dir ++ [name]) = some (.link target)) {links : Nat} (hlinks : links ≤ rest)
    (hleads : fs.follow .followed links dir [draft] = .ok (.node loc (.file data))) :
    ∃ found, gs.follow .followed links dir [name] = .ok (.node loc found) := by
  have hagree : ∀ names, ¬(names = dir ++ [draft] ∨ names = dir ++ [name]) →
      fs.shape? names = gs.shape? names := fun names hnames =>
    shape?_of_alike (hmoved.alike names (fun heq => hnames (.inl heq)) fun heq => hnames (.inr heq))
  have hoff := h.blocked hb hdraft hfile
  have hopen := admits_transfer hagree hoff h.admits
  have hroot := h.wellFormed.root_dir
  -- the link may lead to itself again, but then with fewer links
  induction links using Nat.strongRecOn with
  | ind links ih =>
    cases lastTurn_of_follow hb.draft_taken hleads with
    | missing hnone hplace => cases hplace
    | found node hat hnot hplace =>
      rw [shape?, hat] at hlink
      cases node <;> cases hlink
      cases hnot
    | link target' fewer hfewer hlink' hon =>
      rw [hlink] at hlink'
      cases hlink'
      subst hfewer
      by_cases hagain : ∃ links', links' ≤ fewer ∧ ∃ other,
          fs.follow .followed links' dir [draft] = .ok (.node loc other)
      · obtain ⟨links', hle, other, hother⟩ := hagain
        have hsame : fs.at? loc = some other := follow_stands hother
        rw [show fs.at? loc = some (.file data) from follow_stands hleads] at hsame
        cases hsame
        obtain ⟨found, hfound⟩ := ih links' (by omega) (by omega) hother
        refine ⟨found, ?_⟩
        have hmore := follow_mono hfound (fewer + 1 - links')
        rwa [Nat.add_sub_of_le (by omega)] at hmore
      · have hmiss : ∀ d n links' other, (d ++ [n] = dir ++ [draft] ∨ d ++ [n] = dir ++ [name]) →
            links' ≤ fewer → fs.follow .followed links' d [n] ≠ .ok (.node loc other) := by
          rintro d n links' other (heq | heq) hle hother
          · obtain ⟨rfl, hn⟩ := List.append_inj' heq rfl
            cases hn
            exact hagain ⟨links', hle, other, hother⟩
          · obtain ⟨rfl, hn⟩ := List.append_inj' heq rfl
            cases hn
            have hlong := follow_mono hother (rest - links')
            rw [Nat.add_sub_of_le (by omega)] at hlong
            exact (h.apart _ _ hdraft hlong).1 rfl
        obtain ⟨found, hfound⟩ := follow_transfer hagree hoff hroot
          (hasDir_startOf hroot h.walk.end_dir target) hmiss hon rfl
        refine ⟨found, ?_⟩
        rw [follow_link hopen hb.taken (by simp) hnew (by simp), List.append_nil]
        exact hfound

/-- The file that the path of the draft leads to through a link is not moved with the link. -/
theorem Settled.at?_moved (h : Settled fs cwd file init name draft rest dir) (hb : Beside file init name draft)
    (hdraft : fs.follow .followed rest dir [draft] = .ok (.node loc (.file data)))
    {target : Path} (hlink : fs.shape? (dir ++ [draft]) = some (.link target))
    (hmoved : Moved fs gs (dir ++ [draft]) (dir ++ [name]) node) :
    gs.at? loc = some (.file data) := by
  have hfile : fs.at? loc = some (.file data) := follow_stands hdraft
  have hloc : loc ≠ dir ++ [draft] := by
    rintro rfl
    rw [shape?_of_some hfile] at hlink
    cases hlink
  have hloc' : loc ≠ dir ++ [name] := by
    rintro rfl
    exact (h.apart _ _ hdraft (follow_last h.admits hb.taken hfile rfl)).1 rfl
  rcases hmoved.alike loc hloc hloc' with heq | ⟨searchable, -, hdirThere⟩
  · rw [heq, hfile]
  · rw [hfile] at hdirThere
    cases hdirThere

/-- **The draft was moved** to the name of the file, where what was written is read. -/
theorem Settled.moved (h : Settled fs cwd file init name draft rest dir) (hb : Beside file init name draft)
    (hdraft : fs.follow .followed rest dir [draft] = .ok (.node loc (.file data)))
    (hat : fs.at? (dir ++ [draft]) = some node) (hold : ¬fs.HasDir (dir ++ [name])) :
    Settled (fs.move dir draft node dir name) cwd file init name draft rest dir ∧
      (fs.move dir draft node dir name).read cwd file = .ok data.content.toText := by
  have hmove (hnode : node.isDir = false) :=
    moved_of_move h.wellFormed hat hnode h.walk.end_dir hold hb.names_ne
  have hoff := h.blocked hb hdraft hold
  have hagree (hm : Moved fs (fs.move dir draft node dir name) (dir ++ [draft]) (dir ++ [name]) node)
      (names : List String) (hnames : ¬(names = dir ++ [draft] ∨ names = dir ++ [name])) :
      fs.shape? names = (fs.move dir draft node dir name).shape? names :=
    shape?_of_alike (hm.alike names (fun heq => hnames (.inl heq)) fun heq => hnames (.inr heq))
  cases lastTurn_of_follow hb.draft_taken hdraft with
  | missing hnone hplace => cases hplace
  | found found hfound hlink hplace =>
    cases hplace
    rw [hat] at hfound
    cases hfound
    have hm := hmove rfl
    exact settled_of_gone hb hm.wellFormed (h.walk.transfer (hagree hm) hoff) hm.gone
      (follow_last (admits_transfer (hagree hm) hoff h.admits) hb.taken hm.arrived rfl)
  | link target fewer hlinks hlink hon =>
    obtain ⟨linkData, hatLink⟩ := exists_link_of_shape? hlink
    rw [hat] at hatLink
    cases hatLink
    have hm := hmove rfl
    have hnew : (fs.move dir draft (.link target linkData) dir name).shape? (dir ++ [name])
        = some (.link target) := shape?_of_some hm.arrived
    obtain ⟨found, hfound⟩ := h.follow_moved hb hold hdraft hlink hm hnew (Nat.le_refl rest) hdraft
    have hsame : some found = some (.file data) :=
      (follow_stands hfound).symm.trans (h.at?_moved hb hdraft hlink hm)
    cases hsame
    exact settled_of_gone hb hm.wellFormed (h.walk.transfer (hagree hm) hoff) hm.gone hfound

/-- **The draft takes the name of the file**, and what was written is read there; or nothing happens. -/
theorem Settled.rename (h : Settled fs cwd file init name draft rest dir) (hb : Beside file init name draft)
    (hdraft : fs.follow .written rest dir [draft] = .ok (.node loc (.file data)))
    (hr : fs.rename cwd (draftPath file) file = (gs, done)) :
    (gs = fs ∧ ∃ e, done = .error e) ∨
      (done = .ok () ∧ Settled gs cwd file init name draft rest dir ∧
        gs.read cwd file = .ok data.content.toText) := by
  cases renamed_of_rename hr with
  | failed e => exact .inl ⟨rfl, e, rfl⟩
  | same names newNames node old hp hq hsame =>
    -- they would be two names of one file
    rw [hb.resolve_draft h.walk] at hp
    rw [hb.resolve_file h.walk] at hq
    obtain rfl : names = dir ++ [draft] := names_of_follow_itself hb.draft_taken hp
    obtain rfl : newNames = dir ++ [name] := names_of_follow_itself hb.taken hq
    cases node with
    | file a =>
      obtain ⟨b, rfl, -⟩ := sameFile_file_iff.1 hsame
      have hno := (h.apart _ _ (follow_last (admits_of_follow hp) hb.draft_taken (follow_stands hp) rfl)
        (follow_last h.admits hb.taken (follow_stands hq) rfl)).2 _ _ _ _ rfl rfl
      rw [hsame] at hno
      cases hno
    | dir mode accessed entries => cases hsame
    | link target data => cases hsame
    | special accessed => cases hsame
  | moved dir' newDir name' newName node place hp hq hnames hold hother =>
    rw [hb.resolve_draft h.walk] at hp
    rw [hb.resolve_file h.walk] at hq
    obtain ⟨hd, hn⟩ := List.append_inj' (names_of_follow_itself hb.draft_taken hp).symm rfl
    obtain ⟨hd', hn'⟩ :=
      List.append_inj' ((names_of_follow_itself hb.taken hq).symm.trans hnames) rfl
    cases hn
    cases hn'
    subst hd hd'
    exact .inr ⟨rfl, h.moved hb (followed_of_written hdraft) (follow_stands hp) hold⟩

end SizeMap

end DiskUsage
