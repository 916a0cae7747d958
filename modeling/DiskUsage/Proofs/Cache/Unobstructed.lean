import DiskUsage.Proofs.Cache.Interrupting

/-!
# The first writing of a file

A file that is not there yet is written first as a draft, which then takes its name.  The draft may be a
file or a link that was left under its name; it may not lead to a device, nor be a link to the file that is
not there.  Then a writing that ends well leaves the whole list in the file, and everything settled for the
next one.

* `Unobstructed`: nothing is in the file, and nothing in its way.
* `Unobstructed.publish`: a draft that is no link takes the name of the file.
* `Holding`: the file holds a list, and everything is settled.
* `Unobstructed.persist`: the first writing that ends well; `Holding.persist`: every later one.
-/

namespace DiskUsage.SizeMap

open FileSystem

/-- Nothing can be read in the file, and nothing is in the way of writing it: the path of the draft does not
lead to a pipe, a socket or a device, no link stands there that leads to where the path of the file leads,
and no link to a directory stands under the name of the file. -/
structure Unobstructed (fs : FileSystem) (cwd : List String) (file : Path) : Prop where
  absent : ∃ e, fs.read cwd file = .error e
  ordinary : ∀ node, fs.stat cwd (draftPath file) = .ok node → node.isDir = true ∨ node.isRegular = true
  draft_link : ∀ node, fs.lstat cwd (draftPath file) = .ok node → node.isLink = true →
    ∀ place other, fs.resolve cwd .followed (draftPath file) = .ok place →
      fs.resolve cwd .followed file = .ok other → place.names ≠ other.names
  /-- The link leads to no directory however many links may be followed. -/
  file_link : ∀ node, fs.lstat cwd file = .ok node → node.isLink = true → ∀ links names found,
    fs.follow .followed links (startOf cwd file) (steps file) = .ok (.node names found) →
      found.isDir = false

variable {fs gs hs : FileSystem} {cwd : List String} {now : Option Timestamp} {file : Path}
  {init : List String} {name draft text : String} {rest : Nat} {dir names : List String} {data : FileData}
  {map : SizeMap}

/-! ### What is not there -/

/-- The path of the file leads to no file. -/
theorem Unobstructed.no_file (h : Unobstructed fs cwd file) :
    fs.resolve cwd .followed file ≠ .ok (.node names (.file data)) := by
  intro hfile
  obtain ⟨e, he⟩ := h.absent
  rw [FileSystem.read, stat, nodeAt, hfile] at he
  cases he

/-- No file has the name of the file. -/
theorem Unobstructed.at?_ne (h : Unobstructed fs cwd file) (hb : Beside file init name draft)
    (hwalk : Walk fs maxLinks (startOf cwd file) init rest dir) (hopen : fs.Admits dir name) :
    fs.at? (dir ++ [name]) ≠ some (.file data) := by
  intro hat
  have hfile : fs.resolve cwd .followed file = .ok (.node (dir ++ [name]) (.file data)) := by
    rw [hb.resolve_file hwalk]
    exact follow_last hopen hb.taken hat rfl
  exact h.no_file hfile

/-- If a link stands under the name of the draft, nothing at all is in the way. -/
theorem Unobstructed.clear (h : Unobstructed fs cwd file) {link : Node}
    (hlstat : fs.lstat cwd (draftPath file) = .ok link) (hlink : link.isLink = true) :
    Clear fs cwd file where
  ordinary := h.ordinary
  symbolic _ _ _ := h.draft_link link hlstat hlink
  hard names node names' node' _ _ hother := by
    cases node' with
    | file data => exact absurd hother h.no_file
    | dir mode accessed entries => cases node <;> rfl
    | link target data => cases node <;> rfl
    | special accessed => cases node <;> rfl
  file_link := h.file_link

/-! ### A draft that is no link -/

/-- A draft that is no link is a file under its own name once it is written. -/
theorem Unobstructed.touched (h : Unobstructed fs cwd file) (hwf : fs.WellFormed)
    (hb : Beside file init name draft) (hwalk : Walk fs maxLinks (startOf cwd file) init rest dir)
    (hplain : ∀ target, fs.shape? (dir ++ [draft]) ≠ some (.link target)) {content : Content}
    (hw : fs.write cwd now (draftPath file) content = (gs, .ok ())) :
    ∃ data, data.content = content ∧ Touched fs gs (dir ++ [draft]) data := by
  -- what is written has the name of the draft
  have hnames : ∀ place, fs.follow .written rest dir [draft] = .ok place →
      place.names = dir ++ [draft] := by
    intro place hplace
    rcases (lastTurn_of_follow hb.draft_taken (followed_of_written hplace)).names with ⟨target, hlink⟩ | heq
    · exact absurd hlink (hplain target)
    · exact heq
  cases wrote_of_write hw with
  | swallowed names node hdir hfile hplace =>
    rw [hb.resolve_draft hwalk] at hplace
    have hstat : fs.stat cwd (draftPath file) = .ok node := by
      rw [stat, nodeAt, hb.resolve_draft hwalk, followed_of_written hplace]
    rcases h.ordinary node hstat with hyes | hyes
    · simp [hdir] at hyes
    · simp [hfile] at hyes
  | rewritten names data hplace =>
    rw [hb.resolve_draft hwalk] at hplace
    obtain rfl : names = dir ++ [draft] := hnames _ hplace
    exact ⟨_, rfl, touched_rewrite hwf (follow_stands hplace) content⟩
  | made d n hplace =>
    rw [hb.resolve_draft hwalk] at hplace
    obtain ⟨hd, hnone⟩ := follow_stands hplace
    have hsame : d ++ [n] = dir ++ [draft] := hnames _ hplace
    exact ⟨_, rfl, hsame ▸ touched_withNew hwf hd hnone content now⟩

/-- Once the draft is written, no walk leads through the two names. -/
theorem Unobstructed.blocked (h : Unobstructed fs cwd file) (hb : Beside file init name draft)
    (hwalk : Walk fs maxLinks (startOf cwd file) init rest dir) (hopen : fs.Admits dir name)
    (ht : Touched fs gs (dir ++ [draft]) data) (hold : ¬gs.HasDir (dir ++ [name])) (loc : List String)
    (hloc : loc = dir ++ [draft] ∨ loc = dir ++ [name]) : Blocked gs loc := by
  rcases hloc with rfl | rfl
  · exact ht.back.solid.blocked
  · refine ⟨hold, fun target htarget links rest' there hthere => ?_⟩
    rw [List.dropLast_concat] at hthere
    -- the link was there before, and led to the same directory
    exact hb.astray hwalk hopen h.file_link ((ht.back.agree _ hb.names_ne).symm.trans htarget)
      (hthere.transfer ht.back.agree fun loc hloc => hloc ▸ ht.back.solid.blocked)

/-- **A draft that is no link** is written under its own name and takes the name of the file. -/
theorem Unobstructed.publish (h : Unobstructed fs cwd file) (hwf : fs.WellFormed)
    (hb : Beside file init name draft) (hwalk : Walk fs maxLinks (startOf cwd file) init rest dir)
    (hopen : fs.Admits dir name)
    (hplain : ∀ target, fs.shape? (dir ++ [draft]) ≠ some (.link target)) {content : Content}
    (hw : fs.write cwd now (draftPath file) content = (gs, .ok ()))
    (hr : gs.rename cwd (draftPath file) file = (hs, .ok ())) :
    Settled hs cwd file init name draft rest dir ∧ hs.read cwd file = .ok content.toText := by
  obtain ⟨data, rfl, ht⟩ := h.touched hwf hb hwalk hplain hw
  have hwritten : Walk gs maxLinks (startOf cwd file) init rest dir :=
    hwalk.transfer ht.forth.agree fun loc hloc => hloc ▸ ht.forth.solid.blocked
  have hreopen : gs.Admits dir name :=
    admits_transfer ht.forth.agree (fun loc hloc => hloc ▸ ht.forth.solid.blocked) hopen
  cases renamed_of_rename hr with
  | same names newNames node old hp hq hsame =>
    -- the file would have been there before
    rw [hb.resolve_draft hwritten] at hp
    rw [hb.resolve_file hwritten] at hq
    obtain rfl : names = dir ++ [draft] := names_of_follow_itself hb.draft_taken hp
    obtain rfl : newNames = dir ++ [name] := names_of_follow_itself hb.taken hq
    obtain rfl : node = .file data := Option.some.inj ((follow_stands hp).symm.trans ht.arrived)
    obtain ⟨found, rfl, hid⟩ := sameFile_file_iff.1 hsame
    obtain ⟨-, other, -, hother, -⟩ := ht.ids _ found hb.names_ne (follow_stands hq) hid.symm
    exact absurd hother (h.at?_ne hb hwalk hopen)
  | moved dir' newDir name' newName node place hp hq hnames hold hother =>
    rw [hb.resolve_draft hwritten] at hp
    rw [hb.resolve_file hwritten] at hq
    obtain ⟨rfl, hn⟩ := List.append_inj' (names_of_follow_itself hb.draft_taken hp).symm rfl
    obtain ⟨rfl, hn'⟩ :=
      List.append_inj' ((names_of_follow_itself hb.taken hq).symm.trans hnames) rfl
    cases hn
    cases hn'
    obtain rfl : node = .file data := Option.some.inj ((follow_stands hp).symm.trans ht.arrived)
    have hm := moved_of_move ht.wellFormed ht.arrived rfl hwritten.end_dir hold hb.names_ne
    have hoff := h.blocked hb hwalk hopen ht hold
    have hagree : ∀ names, ¬(names = dir ++ [draft] ∨ names = dir ++ [name]) →
        gs.shape? names = (gs.move dir draft (.file data) dir name).shape? names := fun names hnames =>
      shape?_of_alike (hm.alike names (fun heq => hnames (.inl heq)) fun heq => hnames (.inr heq))
    exact settled_of_gone hb hm.wellFormed (hwritten.transfer hagree hoff) hm.gone
      (follow_last (admits_transfer hagree hoff hreopen) hb.taken hm.arrived rfl)

/-! ### Writings that end well -/

/-- The file holds the whole list, and nothing is in the way of the next writing. -/
def Holding (fs : FileSystem) (cwd : List String) (file : Path) (text : String) : Prop :=
  (∃ init name draft, Beside file init name draft ∧
    ∃ rest dir, Settled fs cwd file init name draft rest dir) ∧ fs.read cwd file = .ok text

/-- **The first writing** that ends well leaves the whole list in the file. -/
theorem Unobstructed.persist (hwf : fs.WellFormed)
    (h : Unobstructed (makeParent fs cwd now file).1 cwd file)
    (hpersist : map.persist fs cwd now file = (gs, .ok ())) : Holding gs cwd file map.encode := by
  cases persisted_of_persist hpersist with
  | published drafted gs hw hr =>
    have hmade := wellFormed_makeParent hwf cwd now file
    generalize (makeParent fs cwd now file).1 = made at h hw hmade
    rcases barren_or_beside file with hfile | hdraft | ⟨init, name, draft, hb⟩
    · obtain ⟨e, he⟩ := rename_barren hfile drafted cwd (draftPath file)
      rw [he] at hr
      cases hr
    · obtain ⟨e, he⟩ := write_barren hmade hdraft cwd now (.text map.encode)
      rw [he] at hw
      cases hw
    · obtain ⟨rest, dir, hwalk, hopen⟩ : ∃ rest dir,
          Walk made maxLinks (startOf cwd file) init rest dir ∧ made.Admits dir name := by
        cases hplace : made.resolve cwd .written (draftPath file) with
        | error e =>
          rw [FileSystem.write, hplace] at hw
          cases hw
        | ok place => exact hb.exists_walk hplace
      by_cases hlink : ∃ target, made.shape? (dir ++ [draft]) = some (.link target)
      · obtain ⟨target, hlink⟩ := hlink
        obtain ⟨node, hlstat, hisLink⟩ :=
          lstat_link (hb.resolve_draft hwalk .itself)
            (hopen.of_ne_empty hb.taken.ne_empty draft) hb.draft_taken hlink
        have hsettled := (h.clear hlstat hisLink).settled hmade hb hwalk hopen
        rcases (steady_settled hb cwd).published made now _ drafted gs _ ⟨rest, dir, hsettled⟩ hw hr with
          ⟨-, e, he⟩ | ⟨-, hafter, hread⟩
        · cases he
        · exact ⟨⟨init, name, draft, hb, hafter⟩, hread⟩
      · obtain ⟨hafter, hread⟩ :=
          h.publish hmade hb hwalk hopen (fun target heq => hlink ⟨target, heq⟩) hw hr
        exact ⟨⟨init, name, draft, hb, rest, dir, hafter⟩, hread⟩

/-- **Every later writing** that ends well leaves the whole list in the file, too. -/
theorem Holding.persist (h : Holding fs cwd file text)
    (hpersist : map.persist fs cwd now file = (gs, .ok ())) : Holding gs cwd file map.encode := by
  obtain ⟨⟨init, name, draft, hb, hsettled⟩, -⟩ := h
  have hsteady := steady_settled hb cwd
  cases persisted_of_persist hpersist with
  | published drafted gs hw hr =>
    rw [makeParent_fst, hsteady.made fs now 0 hsettled] at hw
    rcases hsteady.published fs now _ drafted gs _ hsettled hw hr with ⟨-, e, he⟩ | ⟨-, hafter, hread⟩
    · cases he
    · exact ⟨⟨init, name, draft, hb, hafter⟩, hread⟩

end DiskUsage.SizeMap
