import DiskUsage.Cache.Interruption
import DiskUsage.Proofs.Cache.Settled

/-!
# A writing that is interrupted

Wherever a writing is interrupted, and whichever of its steps fails, the file holds what it held before,
at most with some of the directories made on the way to it; a writing that ends well leaves the whole list.
Before the directory of the file is there, nothing but directories can be made; once it is there, no
more directories are made.

* `Prepared`: directories were made, once or several times; `Prepared.read`: what could be read is read.
* `Unchanged`: the file holds what it held.
* `Persisted`, `persisted_of_persist`: how a writing ends.
* `Lawful`, `exists_lawful`: a condition that every writing keeps, interrupted or not, and under which the
  file is old or whole.
-/

open scoped List

namespace DiskUsage

namespace FileSystem

variable {fs : FileSystem} {cwd dir : List String} {name text : String} {p : Path}

/-- What can be read still is after a directory was made where nothing was. -/
theorem read_insert_emptyDir (hdir : fs.HasDir dir) (hnone : fs.at? (dir ++ [name]) = none)
    (accessed : Option Timestamp) (h : fs.read cwd p = .ok text) :
    (fs.insert dir name (.emptyDir accessed)).read cwd p = .ok text := by
  have hread : (fs.read cwd p).toOption = some text := by
    rw [h]
    rfl
  rw [toOption_read] at hread
  obtain ⟨place, hplace, htext⟩ := Option.bind_eq_some_iff.1 hread
  obtain ⟨place', hplace', hnames⟩ :=
    resolve_carry (insert_emptyDir_carries hdir hnone accessed) (ok_of_toOption hplace)
  -- what is read does not stand where the directory was made
  have hoff : ¬dir ++ [name] <+: place.names := by
    rintro ⟨rest, hrest⟩
    have hnothing : fs.at? place.names = none := by
      rw [← hrest]
      by_cases hnil : rest = []
      · rw [hnil, List.append_nil]
        exact hnone
      · exact at?_append_eq_none (Solid.of_none hnone).not_dir hnil
    rw [textAt, hnothing] at htext
    cases htext
  refine ok_of_toOption ?_
  rw [toOption_read, hplace']
  show (fs.insert dir name (.emptyDir accessed)).textAt place'.names = some text
  rw [hnames, textAt_of_alike (insert_equalOff fs dir name _ place.names hoff)]
  exact htext

end FileSystem

namespace SizeMap

open FileSystem

/-! ### Directories on the way -/

/-- The file systems in which directories above the file were made, once or several times, each time as far
as it went. -/
inductive Prepared (fs : FileSystem) (cwd : List String) (file : Path) : FileSystem → Prop
  | none : Prepared fs cwd file fs
  | more {made : FileSystem} (h : Prepared fs cwd file made) (now : Option Timestamp) (levels : Nat) :
      Prepared fs cwd file (makeAncestor made cwd now file levels)

/-- The file holds what it held, at most with directories made on the way to it. -/
def Unchanged (fs : FileSystem) (cwd : List String) (file : Path) (gs : FileSystem) : Prop :=
  ∃ made, Prepared fs cwd file made ∧ (gs.read cwd file).toOption = (made.read cwd file).toOption

variable {fs gs hs made drafted old : FileSystem} {cwd : List String} {now : Option Timestamp} {file : Path}
  {map : SizeMap} {init : List String} {name draft text : String} {rest : Nat} {dir : List String}
  {done : Except ScanError Unit}

/-- What making directories keeps, making those above the file keeps. -/
theorem makeAncestor_keeps {P : FileSystem → Prop} (hmake : ∀ dir, P (fs.createDirAll cwd now dir).1)
    (h : P fs) (levels : Nat) : P (makeAncestor fs cwd now file levels) := by
  unfold makeAncestor
  split
  · next dir _ => exact hmake dir
  · exact h

theorem makeParent_fst (fs : FileSystem) (cwd : List String) (now : Option Timestamp) (file : Path) :
    (makeParent fs cwd now file).1 = makeAncestor fs cwd now file 0 := by
  unfold makeParent makeAncestor
  cases file.parent? <;> rfl

theorem Prepared.parent (h : Prepared fs cwd file made) (now : Option Timestamp) :
    Prepared fs cwd file (makeParent made cwd now file).1 := by
  rw [makeParent_fst]
  exact h.more now 0

theorem Prepared.wellFormed (h : Prepared fs cwd file made) (hwf : fs.WellFormed) : made.WellFormed := by
  induction h with
  | none => exact hwf
  | more _ now levels ih => exact makeAncestor_keeps (fun dir => ih.createDirAll cwd now dir) ih levels

/-- What could be read is read after directories were made. -/
theorem Prepared.read (h : Prepared fs cwd file made) (hread : fs.read cwd file = .ok text) :
    made.read cwd file = .ok text := by
  induction h with
  | none => exact hread
  | more _ now levels ih =>
    refine makeAncestor_keeps (P := fun made => made.read cwd file = .ok text) (fun dir => ?_) ih levels
    exact createDirAll_induction (P := fun made => made.read cwd file = .ok text)
      (fun _ _ _ accessed hfs hdir hnone => read_insert_emptyDir hdir hnone accessed hfs) ih cwd now dir

theorem Unchanged.read (h : Unchanged fs cwd file gs) (hread : fs.read cwd file = .ok text) :
    gs.read cwd file = .ok text := by
  obtain ⟨made, hmade, hsame⟩ := h
  rw [hmade.read hread] at hsame
  exact ok_of_toOption hsame

/-! ### How a writing ends -/

/-- How a writing ends. -/
inductive Persisted (fs : FileSystem) (cwd : List String) (now : Option Timestamp) (file : Path)
    (map : SizeMap) : FileSystem → Except ScanError Unit → Prop
  | unprepared (e : ScanError) :
      Persisted fs cwd now file map (makeParent fs cwd now file).1 (.error e)
  | unwritten (drafted : FileSystem) (e : SystemError) (e' : ScanError)
      (hw : (makeParent fs cwd now file).1.write cwd now (draftPath file) (.text map.encode)
        = (drafted, .error e)) :
      Persisted fs cwd now file map drafted (.error e')
  | unpublished (drafted gs : FileSystem) (e : SystemError) (e' : ScanError)
      (hw : (makeParent fs cwd now file).1.write cwd now (draftPath file) (.text map.encode)
        = (drafted, .ok ()))
      (hr : drafted.rename cwd (draftPath file) file = (gs, .error e)) :
      Persisted fs cwd now file map gs (.error e')
  | published (drafted gs : FileSystem)
      (hw : (makeParent fs cwd now file).1.write cwd now (draftPath file) (.text map.encode)
        = (drafted, .ok ()))
      (hr : drafted.rename cwd (draftPath file) file = (gs, .ok ())) :
      Persisted fs cwd now file map gs (.ok ())

theorem persisted_of_persist (h : persist fs cwd now file map = (gs, done)) :
    Persisted fs cwd now file map gs done := by
  unfold persist at h
  cases hmade : makeParent fs cwd now file with
  | mk made prepared =>
    rw [hmade] at h
    cases prepared with
    | error e =>
      cases h
      have hfst : (makeParent fs cwd now file).1 = gs := by rw [hmade]
      exact hfst ▸ .unprepared e
    | ok _ =>
      dsimp only at h
      unfold writeDraft at h
      cases hwrite : made.write cwd now (draftPath file) (.text map.encode) with
      | mk drafted wrote =>
        have hw : (makeParent fs cwd now file).1.write cwd now (draftPath file) (.text map.encode)
            = (drafted, wrote) := by rw [hmade]; exact hwrite
        rw [hwrite] at h
        cases wrote with
        | error e =>
          cases h
          exact .unwritten _ e _ hw
        | ok _ =>
          change publishDraft drafted cwd file = (gs, done) at h
          unfold publishDraft at h
          cases hrename : drafted.rename cwd (draftPath file) file with
          | mk renamed ended =>
            rw [hrename] at h
            cases ended with
            | error e =>
              cases h
              exact .unpublished drafted gs e _ hw hrename
            | ok _ =>
              cases h
              exact .published drafted gs hw hrename

/-- Until the draft is published, the directory is made and perhaps a text written. -/
theorem draftText_cases (fs : FileSystem) (cwd : List String) (now : Option Timestamp) (file : Path)
    (text : String) :
    draftText fs cwd now file text = (makeParent fs cwd now file).1 ∨
      draftText fs cwd now file text
        = ((makeParent fs cwd now file).1.write cwd now (draftPath file) (.text text)).1 := by
  unfold draftText
  cases makeParent fs cwd now file with
  | mk made prepared =>
    cases prepared with
    | error e => exact .inl rfl
    | ok _ => exact .inr rfl

/-! ### What every writing keeps -/

/-- The file holds what it held, or what it holds once directories were made on the way to it, both in the
old file system and in the one before. -/
def Same (old fs : FileSystem) (cwd : List String) (file : Path) (gs : FileSystem) : Prop :=
  (gs.read cwd file).toOption = (fs.read cwd file).toOption ∨
    ∃ made, Prepared old cwd file made ∧ Prepared fs cwd file made ∧
      (gs.read cwd file).toOption = (made.read cwd file).toOption

theorem Same.unchanged (h : Same old fs cwd file gs) : Unchanged fs cwd file gs := by
  rcases h with hsame | ⟨made, -, hmade, hsame⟩
  · exact ⟨fs, .none, hsame⟩
  · exact ⟨made, hmade, hsame⟩

theorem Same.trans_read (h : Same old fs cwd file gs)
    (hread : (hs.read cwd file).toOption = (gs.read cwd file).toOption) : Same old fs cwd file hs := by
  rcases h with hsame | ⟨made, hold, hmade, hsame⟩
  · exact .inl (hread.trans hsame)
  · exact .inr ⟨made, hold, hmade, hread.trans hsame⟩

/-- Every writing keeps the condition.  If it is interrupted or fails, the file holds what it held, and if
it ends well, the file holds the whole list. -/
structure Lawful (old : FileSystem) (cwd : List String) (file : Path) (P : FileSystem → Prop) : Prop where
  interrupted : ∀ fs now map i, P fs → P (persistUntil fs cwd now file map i) ∧
    Same old fs cwd file (persistUntil fs cwd now file map i)
  failed : ∀ fs now map gs e, P fs → persist fs cwd now file map = (gs, .error e) →
    P gs ∧ Same old fs cwd file gs
  ended : ∀ fs now map gs, P fs → persist fs cwd now file map = (gs, .ok ()) →
    P gs ∧ gs.read cwd file = .ok map.encode

/-! ### A path at which nothing is found -/

theorem wellFormed_makeAncestor (hwf : fs.WellFormed) (cwd : List String) (now : Option Timestamp)
    (file : Path) (levels : Nat) : (makeAncestor fs cwd now file levels).WellFormed :=
  makeAncestor_keeps (fun dir => hwf.createDirAll cwd now dir) hwf levels

theorem wellFormed_makeParent (hwf : fs.WellFormed) (cwd : List String) (now : Option Timestamp)
    (file : Path) : (makeParent fs cwd now file).1.WellFormed := by
  rw [makeParent_fst]
  exact wellFormed_makeAncestor hwf cwd now file 0

theorem wellFormed_draftText (hwf : fs.WellFormed) (cwd : List String) (now : Option Timestamp)
    (file : Path) (text : String) : (draftText fs cwd now file text).WellFormed := by
  have hmade := wellFormed_makeParent hwf cwd now file
  rcases draftText_cases fs cwd now file text with heq | heq
  · rwa [heq]
  · rw [heq]
    exact hmade.write cwd now _ _

theorem wellFormed_of_write {content : Content} {ended : Except SystemError Unit} {p : Path}
    (hwf : fs.WellFormed) (hw : fs.write cwd now p content = (gs, ended)) : gs.WellFormed := by
  have hwritten := hwf.write cwd now p content
  rwa [hw] at hwritten

/-- If no file can be at the path, the file is never there. -/
theorem lawful_of_barren (hfile : Barren file) (old : FileSystem) (cwd : List String) :
    Lawful old cwd file WellFormed := by
  have hsame : ∀ fs gs : FileSystem, fs.WellFormed → gs.WellFormed → Same old fs cwd file gs := by
    intro fs gs hfs hgs
    obtain ⟨e, he⟩ := read_barren hfs hfile cwd
    obtain ⟨e', he'⟩ := read_barren hgs hfile cwd
    left
    rw [he, he']
    rfl
  refine ⟨fun fs now map i hwf => ?_, fun fs now map gs e hwf hpersist => ?_,
    fun fs now map gs hwf hpersist => ?_⟩
  · have hkept : (persistUntil fs cwd now file map i).WellFormed := by
      cases i with
      | atParents levels => exact wellFormed_makeAncestor hwf cwd now file levels
      | atDraft kept => exact wellFormed_draftText hwf cwd now file _
      | atRename => exact wellFormed_draftText hwf cwd now file _
    exact ⟨hkept, hsame fs _ hwf hkept⟩
  · have hmade := wellFormed_makeParent hwf cwd now file
    have hkept : gs.WellFormed := by
      cases persisted_of_persist hpersist with
      | unprepared => exact hmade
      | unwritten drafted e' e hw => exact wellFormed_of_write hmade hw
      | unpublished drafted gs e' e hw hr =>
        have hdrafted := wellFormed_of_write hmade hw
        obtain ⟨e, he⟩ := rename_barren hfile drafted cwd (draftPath file)
        rw [he] at hr
        cases hr
        exact hdrafted
    exact ⟨hkept, hsame fs gs hwf hkept⟩
  · cases persisted_of_persist hpersist with
    | published drafted gs hw hr =>
      obtain ⟨e, he⟩ := rename_barren hfile drafted cwd (draftPath file)
      rw [he] at hr
      cases hr

/-! ### A path in a directory -/

/-- A condition under which the directory of the file is there, the draft can be written without a change of
the file, and a draft that was written can be published. -/
structure Steady (cwd : List String) (file : Path) (Q : FileSystem → Prop) : Prop where
  made : ∀ fs now levels, Q fs → makeAncestor fs cwd now file levels = fs
  written : ∀ fs now text gs done, Q fs → fs.write cwd now (draftPath file) (.text text) = (gs, done) →
    Q gs ∧ (gs.read cwd file).toOption = (fs.read cwd file).toOption
  published : ∀ fs now text gs hs done, Q fs →
    fs.write cwd now (draftPath file) (.text text) = (gs, .ok ()) →
      gs.rename cwd (draftPath file) file = (hs, done) →
        (hs = gs ∧ ∃ e, done = .error e) ∨ (done = .ok () ∧ Q hs ∧ hs.read cwd file = .ok text)

/-- Nothing can be written where the path of the draft leads. -/
def Unwritable (fs : FileSystem) (cwd : List String) (file : Path) : Prop :=
  ∀ now content, ∃ e, fs.write cwd now (draftPath file) content = (fs, .error e)

section Steady

variable {Q : FileSystem → Prop}

theorem kept_of_ready (h : Q fs ∨ (Prepared old cwd file fs ∧ Unwritable fs cwd file)) :
    Prepared old cwd file fs ∨ Q fs :=
  h.symm.imp_left And.left

/-- A draft is written, perhaps in part, where that can be done at all. -/
theorem Steady.write (hQ : Steady cwd file Q)
    (h : Q fs ∨ (Prepared old cwd file fs ∧ Unwritable fs cwd file))
    {ended : Except SystemError Unit} (hw : fs.write cwd now (draftPath file) (.text text) = (gs, ended)) :
    (Prepared old cwd file gs ∨ Q gs) ∧ (gs.read cwd file).toOption = (fs.read cwd file).toOption ∧
      (ended = .ok () → Q fs) := by
  rcases h with hsettled | ⟨hparent, hfails⟩
  · obtain ⟨hafter, hread⟩ := hQ.written fs now text gs ended hsettled hw
    exact ⟨.inr hafter, hread, fun _ => hsettled⟩
  · obtain ⟨e, he⟩ := hfails now (.text text)
    rw [he] at hw
    cases hw
    exact ⟨.inl hparent, rfl, nofun⟩

variable (hQ : Steady cwd file Q)
  (hready : ∀ made, Prepared old cwd file made → Q made ∨ Unwritable made cwd file)

include hQ hready

/-- The directory of the file is made, or nothing can be written. -/
theorem makeParent_ready (h : Prepared old cwd file fs ∨ Q fs)
    (hmade : (makeParent fs cwd now file).1 = made) :
    Same old fs cwd file made ∧ (Q made ∨ (Prepared old cwd file made ∧ Unwritable made cwd file)) := by
  rcases h with hprepared | hsettled
  · have hparent : Prepared old cwd file made := hmade ▸ hprepared.parent now
    have hsame : Same old fs cwd file made :=
      .inr ⟨made, hparent, hmade ▸ Prepared.none.parent now, rfl⟩
    rcases hready made hparent with hsettled | hfails
    · exact ⟨hsame, .inl hsettled⟩
    · exact ⟨hsame, .inr ⟨hparent, hfails⟩⟩
  · rw [makeParent_fst, hQ.made fs now 0 hsettled] at hmade
    subst hmade
    exact ⟨.inl rfl, .inl hsettled⟩

theorem persistUntil_kept (h : Prepared old cwd file fs ∨ Q fs) (i : Interruption) :
    (Prepared old cwd file (persistUntil fs cwd now file map i) ∨
        Q (persistUntil fs cwd now file map i)) ∧
      Same old fs cwd file (persistUntil fs cwd now file map i) := by
  have hdraft : ∀ text, (Prepared old cwd file (draftText fs cwd now file text) ∨
      Q (draftText fs cwd now file text)) ∧ Same old fs cwd file (draftText fs cwd now file text) := by
    intro text
    obtain ⟨hsame, hready'⟩ := makeParent_ready hQ hready h (rfl : (makeParent fs cwd now file).1 = _)
    rcases draftText_cases fs cwd now file text with heq | heq
    · rw [heq]
      exact ⟨kept_of_ready hready', hsame⟩
    · rw [heq]
      obtain ⟨hkept, hread, -⟩ := hQ.write hready' rfl
      exact ⟨hkept, hsame.trans_read hread⟩
  cases i with
  | atParents levels =>
    rcases h with hprepared | hsettled
    · have hmore := hprepared.more now levels
      exact ⟨.inl hmore, .inr ⟨_, hmore, Prepared.none.more now levels, rfl⟩⟩
    · have hsame : persistUntil fs cwd now file map (.atParents levels) = fs :=
        hQ.made fs now levels hsettled
      rw [hsame]
      exact ⟨.inr hsettled, .inl rfl⟩
  | atDraft kept => exact hdraft _
  | atRename => exact hdraft _

theorem persist_failed {e : ScanError} (h : Prepared old cwd file fs ∨ Q fs)
    (hpersist : persist fs cwd now file map = (gs, .error e)) :
    (Prepared old cwd file gs ∨ Q gs) ∧ Same old fs cwd file gs := by
  obtain ⟨hsame, hready'⟩ := makeParent_ready hQ hready h (rfl : (makeParent fs cwd now file).1 = _)
  cases persisted_of_persist hpersist with
  | unprepared => exact ⟨kept_of_ready hready', hsame⟩
  | unwritten drafted e' e hw =>
    obtain ⟨hkept, hread, -⟩ := hQ.write hready' hw
    exact ⟨hkept, hsame.trans_read hread⟩
  | unpublished drafted gs e' e hw hr =>
    obtain ⟨hkept, hread, hsettled⟩ := hQ.write hready' hw
    rcases hQ.published _ now _ _ _ _ (hsettled rfl) hw hr with ⟨rfl, -⟩ | ⟨hdone, -⟩
    · exact ⟨hkept, hsame.trans_read hread⟩
    · cases hdone

theorem persist_ended (h : Prepared old cwd file fs ∨ Q fs)
    (hpersist : persist fs cwd now file map = (gs, .ok ())) :
    (Prepared old cwd file gs ∨ Q gs) ∧ gs.read cwd file = .ok map.encode := by
  obtain ⟨-, hready'⟩ := makeParent_ready hQ hready h (rfl : (makeParent fs cwd now file).1 = _)
  cases persisted_of_persist hpersist with
  | published drafted gs hw hr =>
    obtain ⟨-, -, hsettled⟩ := hQ.write hready' hw
    rcases hQ.published _ now _ _ _ _ (hsettled rfl) hw hr with ⟨-, e, hdone⟩ | ⟨-, hafter, hread⟩
    · cases hdone
    · exact ⟨.inr hafter, hread⟩

/-- **Before the directory is there** nothing but directories is made, and then no more of them. -/
theorem lawful_of_steady : Lawful old cwd file fun fs => Prepared old cwd file fs ∨ Q fs where
  interrupted _ _ _ i h := persistUntil_kept hQ hready h i
  failed _ _ _ _ _ h hpersist := persist_failed hQ hready h hpersist
  ended _ _ _ _ h hpersist := persist_ended hQ hready h hpersist

end Steady

/-- Where everything is settled, it stays so. -/
theorem steady_settled (hb : Beside file init name draft) (cwd : List String) :
    Steady cwd file fun fs => ∃ rest dir, Settled fs cwd file init name draft rest dir := by
  refine ⟨fun fs now levels ⟨rest, dir, h⟩ => hb.makeAncestor_eq h.walk now levels,
    fun fs now text gs done ⟨rest, dir, h⟩ hw => ?_, fun fs now text gs hs done ⟨rest, dir, h⟩ hw hr => ?_⟩
  · obtain ⟨hafter, hread, -⟩ := h.write hb hw
    exact ⟨⟨rest, dir, hafter⟩, hread⟩
  · obtain ⟨hafter, -, hdraft⟩ := h.write hb hw
    obtain ⟨loc, data, hcontent, hleads⟩ := hdraft rfl
    rcases hafter.rename hb hleads hr with hfailed | ⟨hdone, hpublished, hread⟩
    · exact .inl hfailed
    · rw [hcontent] at hread
      exact .inr ⟨hdone, ⟨rest, dir, hpublished⟩, hread⟩

/-- **Wherever the file is**: if nothing is in its way once the directories are made, then there is a
condition that every writing keeps, interrupted or not. -/
theorem exists_lawful (hwf : old.WellFormed)
    (hclear : ∀ made, Prepared old cwd file made → Clear made cwd file) :
    ∃ P, P old ∧ Lawful old cwd file P := by
  rcases barren_or_beside file with hfile | hdraft | ⟨init, name, draft, hb⟩
  · exact ⟨WellFormed, hwf, lawful_of_barren hfile old cwd⟩
  · refine ⟨fun fs => Prepared old cwd file fs ∨ False, .inl .none, lawful_of_steady ?_ ?_⟩
    · exact ⟨nofun, nofun, nofun⟩
    · intro made hmade
      exact .inr fun now content => write_barren (hmade.wellFormed hwf) hdraft cwd now content
  · refine ⟨_, .inl .none, lawful_of_steady (steady_settled hb cwd) fun made hmade => ?_⟩
    by_cases hthere : ∃ rest dir, Walk made maxLinks (startOf cwd file) init rest dir ∧ made.Admits dir name
    · obtain ⟨rest, dir, hwalk, hopen⟩ := hthere
      exact .inl ⟨rest, dir, (hclear made hmade).settled (hmade.wellFormed hwf) hb hwalk hopen⟩
    · right
      intro now content
      unfold FileSystem.write
      cases hplace : made.resolve cwd .written (draftPath file) with
      | error e => exact ⟨e, rfl⟩
      | ok place => exact absurd (hb.exists_walk hplace) hthere

end SizeMap

end DiskUsage
