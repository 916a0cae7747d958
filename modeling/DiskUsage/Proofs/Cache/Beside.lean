import DiskUsage.Cache.Interruption
import DiskUsage.Proofs.FileSystem.Directories
import DiskUsage.Proofs.Path.Steps

/-!
# The name beside the file

The path where the list is written first is made from the text of the file's path.  Either no file can be
at one of the two, or they end in two different names after the same pieces; then the directories above
the file are on the way to both.

* `Beside`: two names after the same pieces; `barren_or_beside`: there is no third case.
* `Beside.makeAncestor_eq`: where the directory of the file is there, no directories are made.
-/

open scoped List

namespace DiskUsage.SizeMap

open FileSystem DiskUsage.Path

/-- The file and the draft have two names after the same pieces. -/
structure Beside (file : Path) (init : List String) (name draft : String) : Prop where
  file_steps : steps file = init ++ [name]
  draft_steps : steps (draftPath file) = init ++ [draft]
  absolute : (draftPath file).isAbsolute = file.isAbsolute
  admitted : Admitted file
  draft_admitted : Admitted (draftPath file)
  taken : IsTaken name
  draft_taken : IsTaken draft
  ne : name ≠ draft
  /-- The directories above the file are on the way. -/
  above : ∀ levels dir, file.parent?.bind (ancestor? levels) = some dir → dir.chars = [] ∨
    (steps dir <+: init ∧ dir.isAbsolute = file.isAbsolute ∧ withoutEndSlashes dir = dir ∧
      dir.chars <+: (draftPath file).chars)

variable {file p dir : Path} {init : List (List Char)} {name : String} {absolute : Bool}

theorem stays_of_isName (h : IsName name) : stays name = false := by
  simp [stays, h.1, h.2.1]

/-! ### The text of the draft -/

/-- What is before the last dot of a name, with the extension of the draft. -/
def draftChars (name : List Char) : List Char :=
  (splitName name).1 ++ '.' :: "json.tmp".toList

theorem draftChars_ne (cs : List Char) : draftChars cs ≠ cs := by
  intro hsame
  unfold draftChars at hsame
  rcases splitName_cases cs with hwhole | ⟨after, -, hdot, hcs⟩
  · rw [hwhole] at hsame
    simp at hsame
  · -- the extension of the draft has a dot, and what follows the last dot has none
    rw [hcs] at hsame
    have hstem : (splitName ((splitName cs).1 ++ '.' :: after)).1 = (splitName cs).1 := by rw [← hcs]
    rw [hstem] at hsame
    have hafter := List.append_cancel_left hsame
    obtain ⟨-, rfl⟩ := List.cons.inj hafter
    exact hdot (by decide)

theorem isName_draftChars (h : IsName name) : IsName (String.ofList (draftChars name.toList)) := by
  have hlong : 9 ≤ (draftChars name.toList).length := by
    simp [draftChars]
  have hne (s : String) (hs : s.toList.length < 9) : String.ofList (draftChars name.toList) ≠ s := by
    rintro rfl
    rw [String.toList_ofList] at hs
    omega
  refine ⟨hne "" (by decide), hne "." (by decide), hne ".." (by decide), ?_⟩
  rw [String.toList_ofList]
  unfold draftChars
  intro hslash
  rcases List.mem_append.1 hslash with hstem | hext
  · rw [← take_splitName] at hstem
    exact h.2.2.2 (List.mem_of_mem_take hstem)
  · exact absurd hext (by decide)

/-! ### The directories above -/

theorem above_ancestor (hinit : ∀ u ∈ init, '/' ∉ u) (habsolute : absolute = (init.head? == some []))
    {levels : Nat} (h : Above absolute init p) (hdir : ancestor? levels p = some dir) :
    Above absolute init dir := by
  induction levels generalizing p with
  | zero =>
    cases hdir
    exact h
  | succ levels ih =>
    obtain ⟨parent, hparent, hmore⟩ := Option.bind_eq_some_iff.1 hdir
    exact ih (h.parent hinit habsolute hparent) hmore

theorem withoutEndSlashes_of_above (hinit : ∀ u ∈ init, '/' ∉ u) (h : Above absolute init dir) :
    withoutEndSlashes dir = dir := by
  rcases h with hnil | ⟨-, hroot⟩ | ⟨above, w, more, rfl, hw, hchars⟩
  · refine withoutEndSlashes_of_getLast? ?_
    rw [hnil]
    decide
  · unfold withoutEndSlashes
    rw [hroot]
    rfl
  · refine withoutEndSlashes_of_getLast? ?_
    obtain ⟨v, c, rfl⟩ := List.eq_nil_or_concat w |>.resolve_left hw
    have hslash : c ≠ '/' := fun heq => hinit _ (List.mem_append_right _ List.mem_cons_self) (by simp [heq])
    rw [hchars, List.concat_eq_append, ← List.append_assoc, List.getLast?_concat]
    simpa using hslash

/-- The directories above the file are written with the pieces before its name. -/
theorem above_file (hinit : ∀ u ∈ init, '/' ∉ u) (hchars : file.chars = slashed init ++ name.toList)
    (hname : IsName name) {levels : Nat} (hdir : file.parent?.bind (ancestor? levels) = some dir) :
    Above file.isAbsolute init dir := by
  obtain ⟨parent, hparent, hmore⟩ := Option.bind_eq_some_iff.1 hdir
  have hpieces : pieces file.chars = init ++ [name.toList] := by
    rw [hchars, pieces_slashed_append hinit, pieces_of_not_mem hname.2.2.2]
  obtain ⟨mark, hmark⟩ : ∃ mark, marksFrom 0 (pieces file.chars) = marksFrom 0 init ++ [mark] := by
    rw [hpieces, marksFrom_append, marksFrom, component?_of_isName hname]
    exact ⟨_, rfl⟩
  exact above_ancestor hinit (isAbsolute_of_slashed hinit hchars hname.2.2.2)
    (above_of_marks hpieces hmark hparent) hmore

/-- Two names after the same pieces. -/
theorem beside_of_slashed (hinit : ∀ u ∈ init, '/' ∉ u) (hname : IsName name)
    (hchars : file.chars = slashed init ++ name.toList)
    (hdraft : (draftPath file).chars = slashed init ++ draftChars name.toList) (hadmitted : Admitted file)
    (htaken : IsTaken name) (hdraftAdmitted : Admitted (draftPath file))
    (hdraftTaken : IsTaken (String.ofList (draftChars name.toList))) :
    Beside file (named init) name (String.ofList (draftChars name.toList)) := by
  have hslash : '/' ∉ draftChars name.toList := by simpa using (isName_draftChars hname).2.2.2
  have habsolute := isAbsolute_of_slashed hinit hchars hname.2.2.2
  have hnonempty : name.toList ≠ [] := fun hnil => hname.1 (String.toList_inj.1 hnil)
  refine ⟨?_, steps_of_slashed hinit hdraft (by simp [draftChars]) hslash, ?_, hadmitted, hdraftAdmitted,
    htaken, hdraftTaken, ?_, fun levels dir hdir => ?_⟩
  · rw [steps_of_slashed hinit hchars hnonempty hname.2.2.2, String.ofList_toList]
  · rw [habsolute, isAbsolute_of_slashed hinit hdraft hslash]
  · intro hsame
    refine draftChars_ne name.toList ?_
    calc draftChars name.toList = (String.ofList (draftChars name.toList)).toList := by simp
      _ = name.toList := by rw [← hsame]
  · have habove := above_file hinit hchars hname hdir
    by_cases hempty : dir.chars = []
    · exact .inl hempty
    · refine .inr ⟨habove.steps hinit, habove.isAbsolute hinit habsolute hempty,
        withoutEndSlashes_of_above hinit habove, (habove.chars habsolute).trans ?_⟩
      rw [hdraft]
      exact List.prefix_append _ _

/-- **The file and its draft**: no file can be at one of them, or they have two names after the same
pieces. -/
theorem barren_or_beside (file : Path) :
    Barren file ∨ Barren (draftPath file) ∨ ∃ init name draft, Beside file init name draft := by
  by_cases hnameless : Nameless file
  · exact .inl (.inl hnameless)
  unfold Nameless at hnameless
  push Not at hnameless
  obtain ⟨xs, name, hsteps, hstays, hup⟩ := hnameless
  rcases taken_or_leadsNowhere hsteps (by simpa using hstays) hup with ⟨hadmitted, htaken⟩ | hnowhere
  swap
  · exact .inl (.inr hnowhere)
  right
  obtain ⟨init, hinit, hchars, rfl, hslash⟩ := slashed_of_steps hsteps htaken.moves
  have hname : IsName name := by
    have hmoves : name ≠ "." ∧ name ≠ "" := by simpa [stays] using hstays
    exact ⟨hmoves.2, hmoves.1, hup, hslash⟩
  have hdraft := chars_withExtension hinit hchars hname "json.tmp"
  by_cases hdots : (splitName name.toList).1 = ['.']
  · -- the draft of `..c` is the directory above
    rw [if_pos hdots] at hdraft
    refine .inl (.inl fun xs piece hpieces => ?_)
    rw [draftPath, steps_of_slashed hinit hdraft (by simp) (by decide)] at hpieces
    obtain ⟨-, hlast⟩ := List.append_inj' hpieces rfl
    cases hlast
    exact .inr rfl
  rw [if_neg hdots] at hdraft
  change (draftPath file).chars = slashed init ++ draftChars name.toList at hdraft
  have hisName := isName_draftChars hname
  have hdraftSlash : '/' ∉ draftChars name.toList := by simpa using hisName.2.2.2
  have hdraftSteps := steps_of_slashed hinit hdraft (by simp [draftChars]) hdraftSlash
  rcases taken_or_leadsNowhere hdraftSteps (stays_of_isName hisName) hisName.2.2.1 with
    ⟨hdraftAdmitted, hdraftTaken⟩ | hnowhere
  · exact .inr ⟨_, _, _,
      beside_of_slashed hinit hname hchars hdraft hadmitted htaken hdraftAdmitted hdraftTaken⟩
  · exact .inl (.inr hnowhere)

/-! ### Directories that are there -/

section Directories

variable {fs : FileSystem} {cwd pieces : List String} {draft : String} {rest : Nat} {there : List String}

/-- A path is admitted if it is the beginning of one that is. -/
theorem admitted_of_beginning (h : Admitted p) (hdir : dir.chars <+: p.chars) (hne : dir.chars ≠ []) :
    Admitted dir := by
  obtain ⟨more, hmore⟩ := hdir
  refine ⟨fun hzero => h.no_zero (hmore ▸ List.mem_append_left _ hzero), hne, ?_⟩
  have hlong : p.text = dir.text ++ String.ofList more := by
    apply String.toList_inj.1
    rw [String.toList_append, String.toList_ofList]
    exact hmore.symm
  have hfits := h.fits
  unfold fits byteLength at hfits ⊢
  rw [hlong, String.utf8ByteSize_append, decide_eq_true_eq] at hfits
  rw [decide_eq_true_eq]
  omega

/-- Where the directory of the file is there, those above it are, too. -/
theorem Beside.createDirAll_eq (h : Beside file pieces name draft)
    (hwalk : Walk fs maxLinks (startOf cwd file) pieces rest there) (now : Option Timestamp) {levels : Nat}
    (hdir : file.parent?.bind (ancestor? levels) = some dir) :
    fs.createDirAll cwd now dir = (fs, .ok ()) := by
  by_cases hempty : dir.chars = []
  · unfold createDirAll createDirsUpTo
    rw [if_pos (by simp [hempty])]
  · obtain ⟨hsteps, habsolute, hslash, hchars⟩ := (h.above levels dir hdir).resolve_left hempty
    obtain ⟨more, rfl⟩ := hsteps
    obtain ⟨rest, there, hfirst⟩ := hwalk.of_append
    have hstart : startOf cwd dir = startOf cwd file := by
      unfold startOf
      rw [habsolute]
    exact createDirAll_of_walk (admitted_of_beginning h.draft_admitted hchars hempty) hslash
      (hstart ▸ hfirst) now

/-- **Where the directory is there**, no directories are made. -/
theorem Beside.makeAncestor_eq (h : Beside file pieces name draft)
    (hwalk : Walk fs maxLinks (startOf cwd file) pieces rest there) (now : Option Timestamp)
    (levels : Nat) : makeAncestor fs cwd now file levels = fs := by
  unfold makeAncestor
  split
  · next dir hdir => rw [h.createDirAll_eq hwalk now hdir]
  · rfl

end Directories

end DiskUsage.SizeMap
