import DiskUsage.Cache.Store
import DiskUsage.Proofs.Cache.Encoding
import DiskUsage.Proofs.Cache.Interrupting
import DiskUsage.Proofs.Cache.Uses

/-!
# The file of a cache through errors and crashes

A cache puts sizes into its map and writes the map into its file.  Any step of any writing may fail, or be
the last one before the machine stops, and then the cache is opened again with what the file holds.  The
file is nevertheless always what it was in the beginning, or one whole list that some writing began with.

* `Deed`, `Life`: what happens to a cache, and what is there after it.
* `Life.Sound`, `Life.Sound.after`: what every deed keeps.
* `Life.file_is_old_or_a_snapshot`: what the file holds after any deeds, and after one writing more.
* `links_and_devices_lose_lists`: what can be in the way of a file.
-/

namespace DiskUsage

open FileSystem

/-- What happens to a cache that is kept in a file. -/
inductive Deed where
  /-- A size is put into the map. -/
  | insert (now : Timestamp) (path : Path) (size : UInt64)
  /-- The map is written, and the writing is interrupted by an error or not. -/
  | persist (now : Option Timestamp) (fate : Option (Interruption × SystemError))
  /-- The machine stops while the map is written, and the cache is opened again. -/
  | crash (now : Option Timestamp) (i : Interruption)
  /-- The cache is closed and opened again. -/
  | reopen
  deriving DecidableEq, Repr

/-- The clock does not run over when a size is put into the map. -/
def Deed.inTime : Deed → Bool
  | .insert now _ _ => decide (now.secs ≤ Timestamp.maxSecs)
  | _ => true

/-- A cache that is kept in a file: the file system, the map, and the maps that were written or should have
been. -/
structure Life where
  fs : FileSystem
  map : SizeMap
  snapshots : List SizeMap

namespace Life

/-- A cache that was just opened. -/
def opened (fs : FileSystem) (cwd : List String) (file : Path) : Life :=
  ⟨fs, SizeMap.load fs cwd file, []⟩

/-- What is there after a deed. -/
def after (cwd : List String) (file : Path) (life : Life) : Deed → Life
  | .insert now path size => { life with map := life.map.insert path ⟨size.toNat, now.unixSeconds⟩ }
  | .persist now fate =>
    { life with
      fs := (life.map.persistWith life.fs cwd now file fate).1
      snapshots := life.snapshots ++ [life.map] }
  | .crash now i =>
    let fs := life.map.persistUntil life.fs cwd now file i
    ⟨fs, SizeMap.load fs cwd file, life.snapshots ++ [life.map]⟩
  | .reopen => { life with map := SizeMap.load life.fs cwd file }

/-- What is there after one deed after the other. -/
def run (cwd : List String) (file : Path) (life : Life) (deeds : List Deed) : Life :=
  deeds.foldl (after cwd file) life

end Life

/-! ### What every deed keeps -/

namespace Life

open SizeMap

variable {old fs gs : FileSystem} {cwd : List String} {file : Path} {P : FileSystem → Prop} {life : Life}
  {snapshots : List SizeMap} {map : SizeMap} {now : Option Timestamp}
  {fate : Option (Interruption × SystemError)} {done : Except ScanError Unit}

/-- The file holds what it held in the beginning, or the whole list of a snapshot. -/
def Holds (old : FileSystem) (cwd : List String) (file : Path) (snapshots : List SizeMap)
    (fs : FileSystem) : Prop :=
  Unchanged old cwd file fs ∨ ∃ map ∈ snapshots, fs.read cwd file = .ok map.encode

/-- The invariant of a cache that is kept in a file. -/
structure Sound (old : FileSystem) (cwd : List String) (file : Path) (P : FileSystem → Prop) (life : Life) :
    Prop where
  lawful : P life.fs
  distinct : life.map.Distinct
  words : ∀ e ∈ life.map, Words e
  holds : Holds old cwd file life.snapshots life.fs

theorem Holds.append (h : Holds old cwd file snapshots fs) (more : List SizeMap) :
    Holds old cwd file (snapshots ++ more) fs :=
  h.imp_right fun ⟨map, hmap, hread⟩ => ⟨map, List.mem_append_left _ hmap, hread⟩

theorem Holds.same (h : Holds old cwd file snapshots fs) (hsame : Same old fs cwd file gs) :
    Holds old cwd file snapshots gs := by
  rcases hsame with hread | ⟨made, hmade, -, hread⟩
  · rcases h with ⟨made, hmade, hheld⟩ | ⟨map, hmap, hheld⟩
    · exact .inl ⟨made, hmade, hread.trans hheld⟩
    · refine .inr ⟨map, hmap, ok_of_toOption ?_⟩
      rw [hread, hheld]
      rfl
  · exact .inl ⟨made, hmade, hread⟩

/-- How a writing ends that is interrupted by an error or not. -/
theorem persistWith_outcome (hP : Lawful old cwd file P) (h : P fs)
    (hpersist : map.persistWith fs cwd now file fate = (gs, done)) :
    P gs ∧ (((∃ e, done = .error e) ∧ Same old fs cwd file gs) ∨
      (done = .ok () ∧ gs.read cwd file = .ok map.encode)) := by
  cases fate with
  | some fate =>
    cases hpersist
    obtain ⟨hkept, hsame⟩ := hP.interrupted fs now map fate.1 h
    exact ⟨hkept, .inl ⟨⟨_, rfl⟩, hsame⟩⟩
  | none =>
    replace hpersist : persist fs cwd now file map = (gs, done) := hpersist
    cases done with
    | error e =>
      obtain ⟨hkept, hsame⟩ := hP.failed fs now map gs e h hpersist
      exact ⟨hkept, .inl ⟨⟨e, rfl⟩, hsame⟩⟩
    | ok _ =>
      obtain ⟨hkept, hread⟩ := hP.ended fs now map gs h hpersist
      exact ⟨hkept, .inr ⟨rfl, hread⟩⟩

theorem Sound.opened (h : P old) : Sound old cwd file P (opened old cwd file) := by
  obtain ⟨hdistinct, hwords⟩ := load_sound old cwd file
  exact ⟨h, hdistinct, hwords, .inl ⟨old, .none, rfl⟩⟩

/-- **One deed** keeps the invariant. -/
theorem Sound.after (hP : Lawful old cwd file P) (h : Sound old cwd file P life) {deed : Deed}
    (htime : deed.inTime = true) : Sound old cwd file P (life.after cwd file deed) := by
  cases deed with
  | insert now path size =>
    exact ⟨h.lawful, h.distinct.insert path _,
      words_insert h.words (words_measuredOf (of_decide_eq_true htime) path size), h.holds⟩
  | persist now fate =>
    have hpersist : life.map.persistWith life.fs cwd now file fate
        = ((life.map.persistWith life.fs cwd now file fate).1,
          (life.map.persistWith life.fs cwd now file fate).2) := rfl
    obtain ⟨hkept, ⟨-, hsame⟩ | ⟨-, hread⟩⟩ := persistWith_outcome hP h.lawful hpersist
    · exact ⟨hkept, h.distinct, h.words, (h.holds.same hsame).append _⟩
    · exact ⟨hkept, h.distinct, h.words,
        .inr ⟨life.map, List.mem_append_right _ List.mem_cons_self, hread⟩⟩
  | crash now i =>
    obtain ⟨hkept, hsame⟩ := hP.interrupted life.fs now life.map i h.lawful
    obtain ⟨hdistinct, hwords⟩ := load_sound (life.map.persistUntil life.fs cwd now file i) cwd file
    exact ⟨hkept, hdistinct, hwords, (h.holds.same hsame).append _⟩
  | reopen =>
    obtain ⟨hdistinct, hwords⟩ := load_sound life.fs cwd file
    exact ⟨h.lawful, hdistinct, hwords, h.holds⟩

theorem Sound.run (hP : Lawful old cwd file P) (h : Sound old cwd file P life) {deeds : List Deed}
    (htimes : ∀ deed ∈ deeds, deed.inTime = true) : Sound old cwd file P (life.run cwd file deeds) := by
  induction deeds generalizing life with
  | nil => exact h
  | cons deed deeds ih =>
    exact ih (h.after hP (htimes deed List.mem_cons_self))
      fun d hd => htimes d (List.mem_cons_of_mem _ hd)

/-- **The file of a cache** holds after any deeds what it held in the beginning, or the whole list that some
writing began with.  A writing that is refused leaves what it holds, and one that is not leaves the whole
map, which is found when the cache is opened again.  At first directories may be made on the way to the
file; what can be read in it they leave as it is.  Nothing may be in the way of the file once they are
made. -/
theorem file_is_old_or_a_snapshot (hwf : old.WellFormed)
    (hclear : ∀ made, Prepared old cwd file made → Clear made cwd file) {deeds : List Deed}
    (htimes : ∀ deed ∈ deeds, deed.inTime = true)
    (hlife : (opened old cwd file).run cwd file deeds = life) :
    (Unchanged old cwd file life.fs ∨
        ∃ map ∈ life.snapshots, life.fs.read cwd file = .ok map.encode) ∧
      (∀ now fate gs e, life.map.persistWith life.fs cwd now file fate = (gs, .error e) →
        Unchanged life.fs cwd file gs ∧
          ∀ text, life.fs.read cwd file = .ok text → gs.read cwd file = .ok text) ∧
      (∀ now fate gs, life.map.persistWith life.fs cwd now file fate = (gs, .ok ()) →
        gs.read cwd file = .ok life.map.encode ∧ (SizeMap.load gs cwd file).Perm life.map ∧
          ∀ path, (SizeMap.load gs cwd file).find? path = life.map.find? path) := by
  obtain ⟨P, hstart, hP⟩ := exists_lawful hwf hclear
  have h : Sound old cwd file P life := hlife ▸ (Sound.opened hstart).run hP htimes
  refine ⟨h.holds, fun now fate gs e hpersist => ?_, fun now fate gs hpersist => ?_⟩
  · obtain ⟨-, ⟨-, hsame⟩ | ⟨hdone, -⟩⟩ := persistWith_outcome hP h.lawful hpersist
    · exact ⟨hsame.unchanged, fun text hread => hsame.unchanged.read hread⟩
    · cases hdone
  · obtain ⟨-, ⟨⟨e, hdone⟩, -⟩ | ⟨-, hread⟩⟩ := persistWith_outcome hP h.lawful hpersist
    · cases hdone
    · have hperm : (SizeMap.load gs cwd file).Perm life.map := by
        rw [load_of_read hread h.distinct h.words]
        exact sorted_perm life.map
      exact ⟨hread, hperm, fun path => ((h.distinct.find?_perm hperm.symm) path).symm⟩

/-! ### A few disks -/

/-- A disk on which a link to the file of the cache stands beside it, where the list is written first. -/
def linkedDisk : FileSystem :=
  ⟨.dir .free none [("c.json.tmp", .link ⟨"c.json"⟩ ⟨0, none⟩)], 0⟩

/-- A disk on which a link stands under the name of the file, which leads to a file with an empty list. -/
def keptElsewhere : FileSystem :=
  ⟨.dir .free none [("c.json", .link ⟨"old.json"⟩ ⟨0, none⟩), ("old.json", .file ⟨0, .text "[]", none⟩)], 1⟩

theorem wellFormed_keptElsewhere : keptElsewhere.WellFormed := by
  refine ⟨⟨_, rfl⟩, fun names data hfile => ?_⟩
  show data.id < 1
  cases names with
  | nil => cases hfile
  | cons name rest =>
    obtain ⟨child, hchild, hdown⟩ := Option.bind_eq_some_iff.1 hfile
    simp only [Node.childNamed?] at hchild
    split at hchild
    · cases hchild
      cases rest <;> cases hdown
    split at hchild
    · cases hchild
      rw [descend?_file hdown]
      exact Nat.one_pos
    · cases hchild

/-- Nothing is made above a file of the working directory. -/
theorem eq_of_prepared (hbare : file.parent? = some ⟨""⟩) (h : Prepared fs cwd file gs) : gs = fs := by
  induction h with
  | none => rfl
  | more _ now levels ih =>
    rw [ih]
    unfold makeAncestor
    rw [hbare]
    cases levels with
    | zero => rfl
    | succ levels => rfl

theorem clear_keptElsewhere : Clear keptElsewhere [] ⟨"c.json"⟩ := by
  have hdraft : keptElsewhere.resolve [] .followed (draftPath ⟨"c.json"⟩)
      = .ok (.missing [] "c.json.tmp") := rfl
  have hfile : keptElsewhere.resolve [] .followed ⟨"c.json"⟩
      = .ok (.node ["old.json"] (.file ⟨0, .text "[]", none⟩)) := rfl
  refine ⟨fun node hnode => ?_, fun node hnode hlink place other hplace hother => ?_,
    fun names node names' node' hne hplace hother => ?_,
    fun node hnode hlink links names found h => ?_⟩
  · rw [stat, nodeAt, hdraft] at hnode
    cases hnode
  · rw [hdraft] at hplace
    rw [hfile] at hother
    cases hplace
    cases hother
    decide
  · rw [hdraft] at hplace
    cases hplace
  · -- one link has to be followed
    rcases links with - | - | links <;> cases h <;> rfl

/-- A size is stored, but nothing can be written any more when three letters of the draft are; the machine
stops before the next draft takes the name of the file; then another size is put into the map. -/
def troubles : List Deed :=
  [.insert (.ofUnixSeconds 100) ⟨"/p"⟩ 5, .persist none (some (.atDraft 3, .code 28)),
    .crash none .atRename, .insert (.ofUnixSeconds 200) ⟨"/q"⟩ 7]

/-- After all that the file is as it was; an error leaves it so, and a writing that ends well leaves what
was put into the map since. -/
theorem old_list_survives_troubles :
    let life := (opened keptElsewhere [] ⟨"c.json"⟩).run [] ⟨"c.json"⟩ troubles
    let ended := life.map.persistWith life.fs [] none ⟨"c.json"⟩ none
    life.fs.read [] ⟨"c.json"⟩ = .ok "[]" ∧
      (life.map.persistWith life.fs [] none ⟨"c.json"⟩ (some (.atRename, .code 28))).1.read [] ⟨"c.json"⟩
        = .ok "[]" ∧
      ended.2 = .ok () ∧ (SizeMap.load ended.1 [] ⟨"c.json"⟩).find? ⟨"/q"⟩ = some ⟨7, 200⟩ := by
  intro life ended
  have hclear : ∀ made, Prepared keptElsewhere [] ⟨"c.json"⟩ made → Clear made [] ⟨"c.json"⟩ := by
    intro made hmade
    rw [eq_of_prepared (by decide +kernel) hmade]
    exact clear_keptElsewhere
  have htimes : ∀ deed ∈ troubles, deed.inTime = true := by decide
  obtain ⟨-, hfailed, hended⟩ :=
    file_is_old_or_a_snapshot wellFormed_keptElsewhere hclear htimes (rfl : _ = life)
  have hold : life.fs.read [] ⟨"c.json"⟩ = .ok "[]" := by decide +kernel
  have hdone : ended.2 = .ok () := by decide +kernel
  have hfate : life.map.persistWith life.fs [] none ⟨"c.json"⟩ (some (.atRename, .code 28))
      = ((life.map.persistWith life.fs [] none ⟨"c.json"⟩ (some (.atRename, .code 28))).1,
        .error (.ofSystem (Interruption.path ⟨"c.json"⟩ .atRename) (.code 28))) := rfl
  refine ⟨hold, (hfailed _ _ _ _ hfate).2 "[]" hold, hdone, ?_⟩
  obtain ⟨-, -, hfound⟩ := hended none none ended.1 (Prod.ext rfl hdone)
  rw [hfound]
  decide +kernel

/-- A disk on which a link to a directory stands under the name of the file. -/
def linkToDirectory : FileSystem :=
  ⟨.dir .free none [("d", .dir .free none []), ("c.json", .link ⟨"d"⟩ ⟨0, none⟩)], 0⟩

/-- A disk on which a link stands under the name of the file, which leads to the draft. -/
def linkToDraft : FileSystem :=
  ⟨.dir .free none [("c.json", .link ⟨"c.json.tmp"⟩ ⟨0, none⟩)], 0⟩

/-- A disk on which a link stands under the name of the draft, which leads to a device. -/
def linkToDevice : FileSystem :=
  ⟨.dir .free none [("null", .special none), ("c.json.tmp", .link ⟨"null"⟩ ⟨0, none⟩)], 0⟩

/-- What is answered when a size is stored and the cache is opened again. -/
def storedAndReopened (fs : FileSystem) (file : Path) : List Reply :=
  (Cache.openFile fs [] file (some 60)).replies fs []
    [(.ofUnixSeconds 100, .store ⟨"/p"⟩ 5), (.ofUnixSeconds 100, .reopen),
      (.ofUnixSeconds 100, .loadPersisted ⟨"/p"⟩)]

/-- **Three disks on which a list is lost**, though the path of the draft leads to nothing, or to something
that the path of the file does not lead to.  The file is reached through the link that it replaces; the
file is a link to the draft, of which a crash leaves one letter; and the device that swallows the list
takes the name of the file. -/
theorem links_and_devices_lose_lists :
    (linkToDirectory.lstat [] (draftPath ⟨"c.json/../c.json"⟩) = .error .noEntry ∧
      storedAndReopened linkToDirectory ⟨"c.json/../c.json"⟩ = [.stored, .reopened, .size none]) ∧
    (linkToDraft.lstat [] (draftPath ⟨"c.json"⟩) = .error .noEntry ∧
      let life := (opened linkToDraft [] ⟨"c.json"⟩).run [] ⟨"c.json"⟩ [.crash none (.atDraft 1)]
      ¬Holds linkToDraft [] ⟨"c.json"⟩ life.snapshots life.fs) ∧
    (linkToDevice.resolve [] .followed (draftPath ⟨"c.json"⟩) = .ok (.node ["null"] (.special none)) ∧
      linkToDevice.resolve [] .followed ⟨"c.json"⟩ = .ok (.missing [] "c.json") ∧
      storedAndReopened linkToDevice ⟨"c.json"⟩ = [.stored, .reopened, .size none]) := by
  refine ⟨⟨rfl, by decide +kernel⟩, ⟨rfl, ?_⟩, rfl, rfl, by decide +kernel⟩
  rintro life (⟨made, hmade, hread⟩ | ⟨map, hmap, hread⟩)
  · rw [eq_of_prepared (by decide +kernel) hmade] at hread
    exact absurd hread (by decide +kernel)
  · obtain rfl := List.mem_singleton.1 hmap
    exact absurd hread (by decide +kernel)

end Life

end DiskUsage
