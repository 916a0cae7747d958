import DiskUsage.Proofs.FileSystem.Ending
import DiskUsage.Proofs.FileSystem.WellFormed

/-!
# Walking to a directory

All pieces of a path but the last lead to a directory, and use up some of the links that may be followed
on the whole way.  The last piece is then taken in that directory.  A walk is the same in two file systems
that agree everywhere but at places that no walk leads through: where there is no directory, nor a link
that leads to one.

* `Walk`: pieces lead to a directory; `Turn`: what the next piece of a path does.
* `exists_walk`, `Walk.follow`: a path is a walk, and then its last piece.
* `Walk.mono`, `Walk.isDir_of_follow`: more links lead to the same directory.
* `Blocked`, `Walk.transfer`: walks in another file system.
* `follow_transfer`: paths to a file in another file system.
-/

namespace DiskUsage.FileSystem

/-- Where a path starts that is seen from a directory. -/
def startOf (here : List String) (target : Path) : List String :=
  if target.isAbsolute then [] else here

/-- The piece is a name that a directory may have. -/
structure IsTaken (piece : String) : Prop where
  moves : stays piece = false
  down : piece ≠ ".."
  short : piece.utf8ByteSize ≤ maxNameBytes

theorem IsTaken.ne_empty {piece : String} (h : IsTaken piece) : piece ≠ "" := by
  rintro rfl
  exact absurd h.moves (by decide)

variable {fs gs : FileSystem} {ending : Ending} {links rest more : Nat}
  {here there left pieces init tail names loc : List String} {piece : String} {target : Path}
  {place : Place} {node : Node}

/-! ### One piece -/

theorem follow_congr {here' pieces' : List String}
    (h : fs.advance ending here pieces = fs.advance ending here' pieces') :
    fs.follow ending links here pieces = fs.follow ending links here' pieces' := by
  unfold follow
  rw [h]

theorem follow_nil (hat : fs.at? here = some node) :
    fs.follow ending links here [] = .ok (.node here node) := by
  unfold follow
  rw [advance_nil, hat]

theorem follow_stay (hdir : fs.Admits here piece) (hstays : stays piece = true) :
    fs.follow ending links here (piece :: left) = fs.follow ending links here left :=
  follow_congr (by rw [advance_of_admits hdir, if_pos hstays])

theorem follow_up (hdir : fs.Admits here "..") :
    fs.follow ending links here (".." :: left) = fs.follow ending links here.dropLast left :=
  follow_congr (by rw [advance_of_admits hdir, if_neg (by decide), if_pos rfl])

/-- A name is taken in a directory. -/
theorem advance_of_isTaken (hdir : fs.Admits here piece) (hpiece : IsTaken piece)
    (hslash : ¬(ending = .written ∧ left = [""])) :
    fs.advance ending here (piece :: left) = fs.takeName ending here piece left := by
  rw [advance_of_admits hdir, if_neg (by simp [hpiece.moves]), if_neg hpiece.down,
    if_neg (by simpa using hslash), if_neg (Nat.not_lt.2 hpiece.short)]

theorem follow_missing (hdir : fs.Admits here piece) (hpiece : IsTaken piece)
    (hnone : fs.shape? (here ++ [piece]) = none) :
    fs.follow ending links here [piece] = .ok (.missing here piece) := by
  unfold follow
  rw [advance_of_isTaken hdir hpiece (by simp), takeName_of_none hnone]
  rfl

theorem follow_down (hdir : fs.Admits here piece) (hpiece : IsTaken piece)
    (hslash : ¬(ending = .written ∧ left = [""])) (hsome : fs.shape? (here ++ [piece]) ≠ none)
    (hlink : ∀ target, fs.shape? (here ++ [piece]) ≠ some (.link target)) :
    fs.follow ending links here (piece :: left) = fs.follow ending links (here ++ [piece]) left :=
  follow_congr (by rw [advance_of_isTaken hdir hpiece hslash, takeName_of_not_link hsome hlink])

theorem follow_link (hdir : fs.Admits here piece) (hpiece : IsTaken piece)
    (hslash : ¬(ending = .written ∧ left = [""]))
    (hlink : fs.shape? (here ++ [piece]) = some (.link target)) (hon : ¬(left = [] ∧ ending = .itself)) :
    fs.follow ending (links + 1) here (piece :: left)
      = fs.follow ending links (startOf here target) (steps target ++ left) := by
  obtain ⟨accessed, htake⟩ := @takeName_of_link fs ending here left piece target hlink
  rw [if_neg (by simpa using hon)] at htake
  rw [follow, advance_of_isTaken hdir hpiece hslash, htake]
  rfl

/-- What the next piece of a path does that leads to a place. -/
inductive Turn (fs : FileSystem) (ending : Ending) (links : Nat) (here : List String) (piece : String)
    (left : List String) (place : Place) : Prop
  | stay (hstays : stays piece = true) (hon : fs.follow ending links here left = .ok place)
  | up (hup : piece = "..") (hon : fs.follow ending links here.dropLast left = .ok place)
  | missing (hpiece : IsTaken piece) (hleft : left = [])
      (hnone : fs.shape? (here ++ [piece]) = none) (hplace : place = .missing here piece)
  | itself (hpiece : IsTaken piece) (hleft : left = []) (hending : ending = .itself) (target : Path)
      (hlink : fs.shape? (here ++ [piece]) = some (.link target)) (hnames : place.names = here ++ [piece])
  | link (hpiece : IsTaken piece) (target : Path) (fewer : Nat) (hlinks : links = fewer + 1)
      (hslash : ¬(ending = .written ∧ left = [""])) (hnot : ¬(left = [] ∧ ending = .itself))
      (hlink : fs.shape? (here ++ [piece]) = some (.link target))
      (hon : fs.follow ending fewer (startOf here target) (steps target ++ left) = .ok place)
  | down (hpiece : IsTaken piece) (hslash : ¬(ending = .written ∧ left = [""]))
      (hsome : fs.shape? (here ++ [piece]) ≠ none)
      (hlink : ∀ target, fs.shape? (here ++ [piece]) ≠ some (.link target))
      (hon : fs.follow ending links (here ++ [piece]) left = .ok place)

/-- A path that leads to a place goes on from a directory that admits its next piece. -/
theorem admits_of_follow (h : fs.follow ending links here (piece :: left) = .ok place) :
    fs.Admits here piece := by
  by_cases hdir : fs.Admits here piece
  · exact hdir
  · obtain ⟨e, he⟩ := advance_of_not_admits hdir
    rw [follow, he] at h
    cases h

/-- **One piece** of a path that leads to a place. -/
theorem turn_of_follow (h : fs.follow ending links here (piece :: left) = .ok place) :
    Turn fs ending links here piece left place := by
  have hdir := admits_of_follow h
  by_cases hstays : stays piece = true
  · exact .stay hstays (follow_stay hdir hstays ▸ h)
  by_cases hup : piece = ".."
  · subst hup
    exact .up rfl (follow_up hdir ▸ h)
  have hadvance := advance_of_admits hdir ending left
  rw [if_neg hstays, if_neg hup] at hadvance
  by_cases hwritten : (decide (ending = .written) && left == [""]) = true
  · rw [if_pos hwritten] at hadvance
    rw [follow, hadvance] at h
    cases h
  rw [if_neg hwritten] at hadvance
  by_cases hlong : maxNameBytes < piece.utf8ByteSize
  · rw [if_pos hlong] at hadvance
    rw [follow, hadvance] at h
    cases h
  have hpiece : IsTaken piece := ⟨by simpa using hstays, hup, Nat.not_lt.1 hlong⟩
  have hslash : ¬(ending = .written ∧ left = [""]) := by simpa using hwritten
  rw [if_neg hlong] at hadvance
  cases hshape : fs.shape? (here ++ [piece]) with
  | none =>
    rw [follow, hadvance, takeName_of_none hshape] at h
    cases left with
    | nil =>
      cases h
      exact .missing hpiece rfl hshape rfl
    | cons next rest => cases h
  | some shape =>
    by_cases hlink : ∃ target, shape = .link target
    · obtain ⟨target, rfl⟩ := hlink
      obtain ⟨accessed, htake⟩ := @takeName_of_link fs ending here left piece target hshape
      by_cases hlast : left = [] ∧ ending = .itself
      · obtain ⟨rfl, rfl⟩ := hlast
        rw [follow, hadvance, htake] at h
        cases h
        exact .itself hpiece rfl rfl target hshape rfl
      · cases links with
        | zero =>
          rw [if_neg (by simpa using hlast)] at htake
          rw [follow, hadvance, htake] at h
          cases h
        | succ fewer =>
          exact .link hpiece target fewer rfl hslash hlast hshape
            (follow_link hdir hpiece hslash hshape hlast ▸ h)
    · have hnot : ∀ target, fs.shape? (here ++ [piece]) ≠ some (.link target) :=
        fun target heq => hlink ⟨target, Option.some.inj (hshape.symm.trans heq)⟩
      have hsome : fs.shape? (here ++ [piece]) ≠ none := by simp [hshape]
      exact .down hpiece hslash hsome hnot (follow_down hdir hpiece hslash hsome hnot ▸ h)

/-! ### Walks -/

/-- Pieces lead from one directory to another and leave so many of the links that may be followed. -/
inductive Walk (fs : FileSystem) : Nat → List String → List String → Nat → List String → Prop
  | done {links : Nat} {here : List String} (hdir : fs.HasDir here) :
      Walk fs links here [] links here
  | stay {links rest : Nat} {here left there : List String} {piece : String}
      (hdir : fs.Admits here piece) (hstays : stays piece = true)
      (h : Walk fs links here left rest there) : Walk fs links here (piece :: left) rest there
  | up {links rest : Nat} {here left there : List String} (hdir : fs.Admits here "..")
      (h : Walk fs links here.dropLast left rest there) : Walk fs links here (".." :: left) rest there
  | down {links rest : Nat} {here left there : List String} {piece : String}
      (hdir : fs.Admits here piece) (hpiece : IsTaken piece)
      (h : Walk fs links (here ++ [piece]) left rest there) : Walk fs links here (piece :: left) rest there
  | link {links rest : Nat} {here left there : List String} {piece : String} {target : Path}
      (hdir : fs.Admits here piece) (hpiece : IsTaken piece)
      (hlink : fs.shape? (here ++ [piece]) = some (.link target))
      (h : Walk fs links (startOf here target) (steps target ++ left) rest there) :
      Walk fs (links + 1) here (piece :: left) rest there

theorem Walk.start_dir (h : Walk fs links here pieces rest there) : fs.HasDir here := by
  cases h with
  | done hdir => exact hdir
  | stay hdir | up hdir | down hdir | link hdir => exact hdir.hasDir

theorem Walk.end_dir (h : Walk fs links here pieces rest there) : fs.HasDir there := by
  induction h <;> assumption

/-- Above a directory there are only directories. -/
theorem hasDir_dropLast (h : fs.HasDir here) : fs.HasDir here.dropLast := by
  rcases List.eq_nil_or_concat here with rfl | ⟨above, name, rfl⟩
  · exact h
  · rw [List.concat_eq_append] at h ⊢
    rw [List.dropLast_concat]
    obtain ⟨_, _, _, hat⟩ := exists_dir_of_hasDir h
    exact hasDir_of_child hat

/-- A path starts at a directory. -/
theorem hasDir_startOf (hroot : fs.HasDir []) (hdir : fs.HasDir here)
    (target : Path) : fs.HasDir (startOf here target) := by
  unfold startOf
  split
  · exact hroot
  · exact hdir

theorem Walk.rest_le (h : Walk fs links here pieces rest there) : rest ≤ links := by
  induction h with
  | done hdir => exact Nat.le_refl _
  | stay hdir hstays h ih => exact ih
  | up hdir h ih => exact ih
  | down hdir hpiece h ih => exact ih
  | link hdir hpiece hlink h ih => exact Nat.le_succ_of_le ih

/-- A path that leads to a place begins with a walk, and its last pieces lead on from there. -/
theorem exists_walk (h : fs.follow ending links here (init ++ piece :: tail) = .ok place) :
    ∃ rest there, Walk fs links here init rest there ∧
      fs.follow ending rest there (piece :: tail) = .ok place := by
  -- on the links that may be followed, and then on the pieces before the first one that is a link
  induction links using Nat.strongRecOn generalizing here init with
  | ind links ihLinks =>
    induction init generalizing here with
    | nil => exact ⟨links, here, .done (admits_of_follow h).hasDir, h⟩
    | cons first init ih =>
      have hdir := admits_of_follow h
      cases turn_of_follow h with
      | stay hstays hon =>
        obtain ⟨rest, there, hwalk, hlast⟩ := ih hon
        exact ⟨rest, there, .stay hdir hstays hwalk, hlast⟩
      | up hup hon =>
        subst hup
        obtain ⟨rest, there, hwalk, hlast⟩ := ih hon
        exact ⟨rest, there, .up hdir hwalk, hlast⟩
      | missing hpiece hleft => simp at hleft
      | itself hpiece hleft => simp at hleft
      | link hpiece target fewer hlinks hslash hnot hlink hon =>
        subst hlinks
        rw [List.append_eq, ← List.append_assoc] at hon
        obtain ⟨rest, there, hwalk, hlast⟩ := ihLinks fewer (Nat.lt_succ_self fewer) hon
        exact ⟨rest, there, .link hdir hpiece hlink hwalk, hlast⟩
      | down hpiece hslash hsome hlink hon =>
        obtain ⟨rest, there, hwalk, hlast⟩ := ih hon
        exact ⟨rest, there, .down hdir hpiece hwalk, hlast⟩

/-- After a walk the last pieces lead on, whatever they are. -/
theorem Walk.follow (h : Walk fs links here pieces rest there) (hpiece : piece ≠ "") (ending : Ending)
    (tail : List String) :
    fs.follow ending links here (pieces ++ piece :: tail)
      = fs.follow ending rest there (piece :: tail) := by
  have hmore : ∀ left : List String, left ++ piece :: tail ≠ [""] := fun left heq => by
    cases left with
    | nil => exact hpiece (List.cons.inj heq).1
    | cons first left => simp at heq
  induction h with
  | done hdir => rfl
  | stay hdir hstays h ih => exact (follow_stay hdir hstays).trans ih
  | up hdir h ih => exact (follow_up hdir).trans ih
  | @down links rest here left there piece' hdir hpiece' h ih =>
    obtain ⟨searchable, hthrough⟩ := h.start_dir
    refine (follow_down hdir hpiece' (fun hw => hmore left hw.2) ?_ fun target => ?_).trans ih
    · rw [hthrough]; nofun
    · rw [hthrough]; nofun
  | @link links rest here left there piece' target hdir hpiece' hlink h ih =>
    refine (follow_link hdir hpiece' (fun hw => hmore left hw.2) hlink (by simp)).trans ?_
    rw [← List.append_assoc]
    exact ih

/-- A walk is a path that leads to a directory. -/
theorem Walk.leads (h : Walk fs links here pieces rest there) :
    ∃ node, fs.follow .followed links here pieces = .ok (.node there node) ∧ node.isDir = true := by
  induction h with
  | done hdir =>
    obtain ⟨mode, accessed, entries, hat⟩ := exists_dir_of_hasDir hdir
    exact ⟨_, follow_nil hat, rfl⟩
  | stay hdir hstays h ih => rwa [follow_stay hdir hstays]
  | up hdir h ih => rwa [follow_up hdir]
  | down hdir hpiece h ih =>
    obtain ⟨searchable, hthrough⟩ := h.start_dir
    rwa [follow_down hdir hpiece (by simp) (by rw [hthrough]; nofun)
      (fun target => by rw [hthrough]; nofun)]
  | link hdir hpiece hlink h ih => rwa [follow_link hdir hpiece (by simp) hlink (by simp)]

/-- The first pieces of a walk are a walk. -/
theorem Walk.of_append (h : Walk fs links here (init ++ tail) rest there) :
    ∃ rest there, Walk fs links here init rest there := by
  generalize hpieces : init ++ tail = pieces at h
  induction h generalizing init with
  | done hdir =>
    obtain ⟨rfl, -⟩ := List.append_eq_nil_iff.1 hpieces
    exact ⟨_, _, .done hdir⟩
  | stay hdir hstays h ih =>
    cases init with
    | nil => exact ⟨_, _, .done hdir.hasDir⟩
    | cons first init =>
      obtain ⟨rfl, hleft⟩ := List.cons.inj hpieces
      obtain ⟨rest, there, hwalk⟩ := ih hleft
      exact ⟨rest, there, .stay hdir hstays hwalk⟩
  | up hdir h ih =>
    cases init with
    | nil => exact ⟨_, _, .done hdir.hasDir⟩
    | cons first init =>
      obtain ⟨rfl, hleft⟩ := List.cons.inj hpieces
      obtain ⟨rest, there, hwalk⟩ := ih hleft
      exact ⟨rest, there, .up hdir hwalk⟩
  | down hdir hpiece h ih =>
    cases init with
    | nil => exact ⟨_, _, .done hdir.hasDir⟩
    | cons first init =>
      obtain ⟨rfl, hleft⟩ := List.cons.inj hpieces
      obtain ⟨rest, there, hwalk⟩ := ih hleft
      exact ⟨rest, there, .down hdir hpiece hwalk⟩
  | link hdir hpiece hlink h ih =>
    cases init with
    | nil => exact ⟨_, _, .done hdir.hasDir⟩
    | cons first init =>
      obtain ⟨rfl, hleft⟩ := List.cons.inj hpieces
      rw [← hleft, List.append_eq, ← List.append_assoc] at ih
      obtain ⟨rest, there, hwalk⟩ := ih rfl
      exact ⟨rest, there, .link hdir hpiece hlink hwalk⟩

/-! ### More links -/

/-- A path leads to the same place if more links may be followed. -/
theorem follow_mono (h : fs.follow ending links here pieces = .ok place) (more : Nat) :
    fs.follow ending (links + more) here pieces = .ok place := by
  induction links generalizing here pieces with
  | zero =>
    unfold FileSystem.follow at h ⊢
    cases hstop : fs.advance ending here pieces with
    | failed e => rw [hstop] at h; cases h
    | arrived place => rwa [hstop] at h
    | link there target left => rw [hstop] at h; cases h
  | succ links ih =>
    rw [Nat.add_right_comm]
    unfold FileSystem.follow at h ⊢
    cases hstop : fs.advance ending here pieces with
    | failed e => rw [hstop] at h; cases h
    | arrived place => rwa [hstop] at h
    | link there target left =>
      rw [hstop] at h
      exact ih h

theorem Walk.mono (h : Walk fs links here pieces rest there) (more : Nat) :
    Walk fs (links + more) here pieces (rest + more) there := by
  induction h with
  | done hdir => exact .done hdir
  | stay hdir hstays h ih => exact .stay hdir hstays ih
  | up hdir h ih => exact .up hdir ih
  | down hdir hpiece h ih => exact .down hdir hpiece ih
  | link hdir hpiece hlink h ih =>
    rw [Nat.add_right_comm]
    exact .link hdir hpiece hlink ih

/-- **However many links** may be followed, a path leads to the directory that a walk leads to. -/
theorem Walk.isDir_of_follow {links' : Nat} (h : Walk fs links here pieces rest there)
    (hf : fs.follow .followed links' here pieces = .ok (.node names node)) : node.isDir = true := by
  obtain ⟨node', hleads, hdir⟩ := (h.mono links').leads
  rw [Nat.add_comm, follow_mono hf links] at hleads
  cases hleads
  exact hdir

theorem isDir_of_follow_nil (hdir : fs.HasDir here)
    (h : fs.follow .followed links here [] = .ok (.node names node)) : node.isDir = true :=
  (Walk.done hdir : Walk fs links here [] links here).isDir_of_follow h

/-! ### What is written is what is followed -/

theorem advance_written (fs : FileSystem) (here pieces : List String) :
    fs.advance .written here pieces = fs.advance .followed here pieces ∨
      fs.advance .written here pieces = .failed .isADirectory := by
  induction pieces generalizing here with
  | nil => exact .inl (by rw [advance, advance])
  | cons piece left ih =>
    by_cases hdir : fs.Admits here piece
    · rw [advance_of_admits hdir, advance_of_admits hdir]
      by_cases hstays : stays piece = true
      · rw [if_pos hstays, if_pos hstays]
        exact ih here
      rw [if_neg hstays, if_neg hstays]
      by_cases hup : piece = ".."
      · rw [if_pos hup, if_pos hup]
        exact ih here.dropLast
      rw [if_neg hup, if_neg hup]
      by_cases hslash : left = [""]
      · exact .inr (if_pos (by simp [hslash]))
      rw [if_neg (by simpa using hslash),
        if_neg (by simp : ¬(decide (Ending.followed = .written) && left == [""]) = true)]
      by_cases hlong : maxNameBytes < piece.utf8ByteSize
      · rw [if_pos hlong, if_pos hlong]
        exact .inl rfl
      rw [if_neg hlong, if_neg hlong]
      unfold takeName
      split
      · exact .inl rfl
      · exact .inl (by simp)
      · exact ih (here ++ [piece])
    · obtain ⟨e, he⟩ := advance_of_not_admits hdir
      exact .inl ((he .written left).trans (he .followed left).symm)

/-- A path to a file that is going to be written leads there, too, if it is only followed. -/
theorem followed_of_written (h : fs.follow .written links here pieces = .ok place) :
    fs.follow .followed links here pieces = .ok place := by
  induction links generalizing here pieces with
  | zero =>
    unfold FileSystem.follow at h ⊢
    rcases advance_written fs here pieces with heq | hfailed
    · rwa [heq] at h
    · rw [hfailed] at h
      cases h
  | succ links ih =>
    unfold FileSystem.follow at h ⊢
    rcases advance_written fs here pieces with heq | hfailed
    · rw [heq] at h
      cases hstop : fs.advance .followed here pieces with
      | failed e => rw [hstop] at h; cases h
      | arrived place => rwa [hstop] at h
      | link there target left =>
        rw [hstop] at h
        exact ih h
    · rw [hfailed] at h
      cases h

/-! ### Another file system -/

/-- No walk leads through the place: there is no directory, nor a link that leads to one, however many
links may be followed. -/
structure Blocked (fs : FileSystem) (loc : List String) : Prop where
  not_dir : ¬fs.HasDir loc
  astray : ∀ target, fs.shape? loc = some (.link target) → ∀ links rest there,
    ¬Walk fs links (startOf loc.dropLast target) (steps target) rest there

theorem Solid.blocked (h : Solid fs loc) : Blocked fs loc :=
  ⟨h.not_dir, fun target hlink => absurd hlink (h.not_link target)⟩

section Transfer

variable {off : List String → Prop} (hagree : ∀ names, ¬off names → fs.shape? names = gs.shape? names)
  (hoff : ∀ loc, off loc → Blocked fs loc)

include hagree hoff

theorem hasDir_transfer (hdir : fs.HasDir here) : gs.HasDir here := by
  exact (hasDir_congr (hagree here fun hhere => (hoff here hhere).not_dir hdir)).1 hdir

theorem admits_transfer (hdir : fs.Admits here piece) : gs.Admits here piece := by
  exact (admits_congr (hagree here fun hhere => (hoff here hhere).not_dir hdir.hasDir) piece).1 hdir

/-- **Walks** are the same in another file system that differs only where no walk leads through. -/
theorem Walk.transfer (h : Walk fs links here pieces rest there) :
    Walk gs links here pieces rest there := by
  induction h with
  | done hdir => exact .done (hasDir_transfer hagree hoff hdir)
  | stay hdir hstays h ih => exact .stay (admits_transfer hagree hoff hdir) hstays ih
  | up hdir h ih => exact .up (admits_transfer hagree hoff hdir) ih
  | down hdir hpiece h ih => exact .down (admits_transfer hagree hoff hdir) hpiece ih
  | @link links _ here left _ piece target hdir hpiece hlink h ih =>
    refine .link (admits_transfer hagree hoff hdir) hpiece ?_ ih
    rw [← hagree _ fun hhere => ?_]
    · exact hlink
    · obtain ⟨rest, there, hwalk⟩ := h.of_append
      refine (hoff _ hhere).astray _ hlink links rest there ?_
      rwa [List.dropLast_concat]

/-- **Paths to a file** lead to it in the other file system, too, if no name at which the two differ leads
to it. -/
theorem follow_transfer (hroot : fs.HasDir []) (hhere : fs.HasDir here)
    (hmiss : ∀ dir name links' node', off (dir ++ [name]) → links' ≤ links →
      fs.follow .followed links' dir [name] ≠ .ok (.node names node'))
    (h : fs.follow .followed links here pieces = .ok (.node names node)) (hnode : node.isDir = false) :
    ∃ node', gs.follow .followed links here pieces = .ok (.node names node') := by
  -- on the links at the end of the way
  induction links using Nat.strongRecOn generalizing here pieces with
  | ind links ih =>
    rcases List.eq_nil_or_concat pieces with rfl | ⟨init, piece, rfl⟩
    · exact absurd (isDir_of_follow_nil hhere h) (by simp [hnode])
    rw [List.concat_eq_append] at h ⊢
    obtain ⟨rest, there, hwalk, hlast⟩ := exists_walk h
    have hthere := hwalk.end_dir
    have hother := hwalk.transfer hagree hoff
    have hnext := admits_transfer hagree hoff (admits_of_follow hlast)
    have hstill : ∀ dir, there ++ [piece] = dir → ¬off dir := fun dir hdir hin =>
      hmiss there piece rest node (hdir ▸ hin) hwalk.rest_le hlast
    cases turn_of_follow hlast with
    | stay hstays hon => exact absurd (isDir_of_follow_nil hthere hon) (by simp [hnode])
    | up hup hon =>
      exact absurd (isDir_of_follow_nil (hasDir_dropLast hthere) hon) (by simp [hnode])
    | missing hpiece hleft hnone hplace => cases hplace
    | itself hpiece hleft hending => cases hending
    | link hpiece target fewer hlinks hslash hnot hlink hon =>
      subst hlinks
      have hstart := hasDir_startOf hroot hthere target
      have hle := hwalk.rest_le
      obtain ⟨node', hnode'⟩ := ih fewer hle hstart
        (fun dir name links' other hdir hlinks' => hmiss dir name links' other hdir (by omega)) hon
      rw [hother.follow hpiece.ne_empty, follow_link hnext hpiece hslash
        ((hagree _ (hstill _ rfl)).symm.trans hlink) hnot]
      exact ⟨node', hnode'⟩
    | down hpiece hslash hsome hlink hon =>
      have hsame := hagree _ (hstill _ rfl)
      rw [hother.follow hpiece.ne_empty, follow_down hnext hpiece hslash (hsame ▸ hsome)
        (hsame ▸ hlink)]
      rw [follow, advance_nil] at hon
      cases hat : fs.at? (there ++ [piece]) with
      | none => exact absurd (shape?_of_none hat) hsome
      | some found =>
        rw [hat] at hon
        cases hon
        obtain ⟨node', hnode', -⟩ := Option.map_eq_some_iff.1 (hsame.symm.trans (shape?_of_some hat))
        exact ⟨node', follow_nil hnode'⟩

end Transfer

end DiskUsage.FileSystem
