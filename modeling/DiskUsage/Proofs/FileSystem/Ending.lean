import DiskUsage.FileSystem.Lookup

/-!
# The last name of a path

How the last name of a path is taken matters only where the path leads to a link.  Anywhere else the
path leads to the same place, whether its last name is meant itself or followed; only to write a file
there, it may have no slash after its name.

* `Place.isLink`: the place is a link.
* `advance_ending`, `follow_ending`: the way to a place that is no link.
* `resolve_ending_error`: a path that itself leads nowhere.
* `stat_of_lstat`: what is no link is found either way.
-/

namespace DiskUsage.FileSystem

/-- The place is a link. -/
def Place.isLink : Place → Bool
  | .node _ found => found.isLink
  | .missing _ _ => false

variable {fs : FileSystem}

/-- Up to the first link that has to be followed, the way is the same for every ending, unless it ends
at a link or a slash comes after the name of a file to write. -/
theorem advance_ending (fs : FileSystem) (ending : Ending) (here pieces : List String) :
    fs.advance ending here pieces = fs.advance .itself here pieces ∨
      (∃ place, fs.advance .itself here pieces = .arrived place ∧ place.isLink = true) ∨
      (ending = .written ∧ fs.advance ending here pieces = .failed .isADirectory) := by
  induction pieces generalizing here with
  | nil => exact .inl (by rw [advance, advance])
  | cons piece left ih =>
    rw [advance, advance]
    cases hat : fs.at? here with
    | none => exact .inl rfl
    | some node =>
      cases node with
      | file _ => exact .inl rfl
      | link _ _ => exact .inl rfl
      | special _ => exact .inl rfl
      | dir mode accessed entries =>
        dsimp only
        by_cases hclosed : (decide (piece ≠ "") && !mode.searchable) = true
        · rw [if_pos hclosed, if_pos hclosed]
          exact .inl rfl
        rw [if_neg hclosed, if_neg hclosed]
        by_cases hstays : stays piece = true
        · rw [if_pos hstays, if_pos hstays]
          exact ih here
        rw [if_neg hstays, if_neg hstays]
        by_cases hup : piece = ".."
        · rw [if_pos hup, if_pos hup]
          exact ih here.dropLast
        have hitself : ¬(decide (Ending.itself = .written) && left == [""]) = true := by simp
        rw [if_neg hup, if_neg hup, if_neg hitself]
        by_cases hwritten : (decide (ending = .written) && left == [""]) = true
        · rw [if_pos hwritten]
          obtain ⟨hending, -⟩ := Bool.and_eq_true_iff.1 hwritten
          exact .inr (.inr ⟨of_decide_eq_true hending, rfl⟩)
        rw [if_neg hwritten]
        by_cases hlong : maxNameBytes < piece.utf8ByteSize
        · rw [if_pos hlong, if_pos hlong]
          exact .inl rfl
        rw [if_neg hlong, if_neg hlong]
        cases hchild : Node.childNamed? piece entries with
        | none => exact .inl rfl
        | some child =>
          cases child with
          | file _ => exact ih (here ++ [piece])
          | special _ => exact ih (here ++ [piece])
          | dir _ _ _ => exact ih (here ++ [piece])
          | link target data =>
            dsimp only
            by_cases hlast : left = []
            · subst hlast
              exact .inr (.inl ⟨_, rfl, rfl⟩)
            · rw [if_neg (by simp [hlast]), if_neg (by simp [hlast])]
              exact .inl rfl

/-- A place that is no link is reached with every ending, unless a slash comes after the name of a file
to write. -/
theorem follow_ending (ending : Ending) {links : Nat} {here pieces : List String} {place : Place}
    (h : fs.follow .itself links here pieces = .ok place) (hlink : place.isLink = false) :
    fs.follow ending links here pieces = .ok place ∨
      (ending = .written ∧ fs.follow ending links here pieces = .error .isADirectory) := by
  induction links generalizing here pieces with
  | zero =>
    unfold follow at h ⊢
    rcases advance_ending fs ending here pieces with heq | ⟨p, hp, hplink⟩ | ⟨hw, hfailed⟩
    · rw [heq]
      exact .inl h
    · rw [hp] at h
      cases h
      exact absurd hlink (by simp [hplink])
    · exact .inr ⟨hw, by rw [hfailed]⟩
  | succ links ih =>
    unfold follow at h ⊢
    rcases advance_ending fs ending here pieces with heq | ⟨p, hp, hplink⟩ | ⟨hw, hfailed⟩
    · rw [heq]
      cases hstop : fs.advance .itself here pieces with
      | failed e => rw [hstop] at h; cases h
      | arrived p => rw [hstop] at h; exact .inl h
      | link there target left =>
        rw [hstop] at h
        exact ih h
    · rw [hp] at h
      cases h
      exact absurd hlink (by simp [hplink])
    · exact .inr ⟨hw, by rw [hfailed]⟩

theorem resolve_ending (ending : Ending) {cwd : List String} {p : Path} {place : Place}
    (h : fs.resolve cwd .itself p = .ok place) (hlink : place.isLink = false) :
    fs.resolve cwd ending p = .ok place ∨
      (ending = .written ∧ fs.resolve cwd ending p = .error .isADirectory) := by
  unfold resolve at h ⊢
  split at h
  · cases h
  · split at h
    · cases h
    · split at h
      · cases h
      · next hzero hempty hfits =>
        rw [if_neg hzero, if_neg hempty, if_neg hfits]
        exact follow_ending ending h hlink

/-- A path that itself leads nowhere leads nowhere with any ending. -/
theorem follow_ending_error (ending : Ending) {links : Nat} {here pieces : List String} {e : SystemError}
    (h : fs.follow .itself links here pieces = .error e) :
    ∃ e', fs.follow ending links here pieces = .error e' := by
  induction links generalizing here pieces with
  | zero =>
    unfold follow at h ⊢
    rcases advance_ending fs ending here pieces with heq | ⟨p, hp, -⟩ | ⟨-, hfailed⟩
    · rw [heq]
      exact ⟨e, h⟩
    · rw [hp] at h
      cases h
    · exact ⟨_, by rw [hfailed]⟩
  | succ links ih =>
    unfold follow at h ⊢
    rcases advance_ending fs ending here pieces with heq | ⟨p, hp, -⟩ | ⟨-, hfailed⟩
    · rw [heq]
      cases hstop : fs.advance .itself here pieces with
      | failed e' => exact ⟨e', rfl⟩
      | arrived p => rw [hstop] at h; cases h
      | link there target left =>
        rw [hstop] at h
        exact ih h
    · rw [hp] at h
      cases h
    · exact ⟨_, by rw [hfailed]⟩

theorem resolve_ending_error (ending : Ending) {cwd : List String} {p : Path} {e : SystemError}
    (h : fs.resolve cwd .itself p = .error e) : ∃ e', fs.resolve cwd ending p = .error e' := by
  unfold resolve at h ⊢
  split
  · exact ⟨_, rfl⟩
  split
  · exact ⟨_, rfl⟩
  split
  · exact ⟨_, rfl⟩
  · next hzero hempty hfits =>
    rw [if_neg hzero, if_neg hempty, if_neg hfits] at h
    exact follow_ending_error ending h

/-- A path under which something is found is not too long. -/
theorem fits_of_lstat {cwd : List String} {p : Path} {node : Node} (h : fs.lstat cwd p = .ok node) :
    fits p = true := by
  cases hlong : fits p with
  | true => rfl
  | false =>
    obtain ⟨e, he⟩ := fs.resolve_of_long cwd .itself hlong
    simp [lstat, nodeAt, he] at h

theorem fits_of_isReadable {cwd : List String} {p : Path} (h : fs.isReadable cwd p = true) :
    fits p = true := by
  unfold isReadable at h
  cases hlstat : fs.lstat cwd p with
  | ok node => exact fits_of_lstat hlstat
  | error e =>
    rw [hlstat] at h
    cases h

/-- **What is no link** is found, whether the last name is followed or not. -/
theorem stat_of_lstat {cwd : List String} {p : Path} {node : Node} (h : fs.lstat cwd p = .ok node)
    (hlink : node.isLink = false) : fs.stat cwd p = .ok node := by
  unfold lstat nodeAt at h
  cases hplace : fs.resolve cwd .itself p with
  | error e => rw [hplace] at h; cases h
  | ok place =>
    cases place with
    | missing dir name => rw [hplace] at h; cases h
    | node names found =>
      rw [hplace] at h
      cases h
      rcases resolve_ending .followed hplace hlink with hsame | ⟨hw, -⟩
      · rw [stat, nodeAt, hsame]
      · cases hw

end DiskUsage.FileSystem
