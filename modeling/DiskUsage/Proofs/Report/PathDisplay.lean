import Mathlib.Data.List.Induction
import DiskUsage.Proofs.Path.Letters
import DiskUsage.Proofs.Path.Steps
import DiskUsage.Report.PathDisplay

/-!
# Which path is meant

A path at or below the home directory is shown as `~` with the rest of its letters, from the first component
below the home directory to the last one.  What the pieces of this rest say is what the path says below the
home directory.  So the home directory in the place of `~` gives the path back, and two paths that say
different things are not written alike.  Nor are they shown alike, unless one of them has bytes that are no
text and that are shown by a replacement.

* `exists_pieces_of_marks`: the pieces from the place of one component to the end of the last one.
* `components_of_stripBase?`: what the rest of a path says.
* `components_append_slash`: what a path says after another one and a slash.
* `Report.sameAs_of_seenFrom`, `Report.sameAs_of_seenFrom_eq`: which path is written.
* `Report.shownInFull_text`: a text is shown as it is.
* `Report.shown_paths_are_told_apart`: when a path is shown from `~` on, and which one it is;
  `Report.foreign_bytes_are_shown_alike`: paths that are not told apart.
-/

open scoped List

namespace DiskUsage

namespace Path

variable {p base rest : Path} {cs v w : List Char} {ws init below : List (List Char)} {offset k : Nat}
  {ms more : List Mark} {first mark : Mark}

/-! ### Pieces and their marks -/

/-- A text begins with its first pieces, and with no slash after the last of them. -/
theorem slashed_append_prefix_of_pieces (h : pieces cs = init ++ w :: below) : slashed init ++ w <+: cs := by
  cases below with
  | nil =>
    exact ⟨[], by rw [List.append_nil, ← eq_slashed_append_of_pieces h]⟩
  | cons v below =>
    rw [List.append_cons] at h
    refine List.IsPrefix.trans ?_ (slashed_prefix_of_pieces h)
    rw [slashed_append, slashed_cons]
    exact ⟨['/'], by simp⟩

/-- The marks from one on are those of the pieces from one on. -/
theorem exists_pieces_of_drop (h : (marksFrom offset ws).drop k = first :: more) :
    ∃ above kept, ws = above ++ kept ∧ first.start = offset + (slashed above).length ∧
      marksFrom (offset + (slashed above).length) kept = first :: more := by
  induction ws generalizing offset k with
  | nil => simp [marksFrom] at h
  | cons w ws ih =>
    have hlater {j : Nat} (h : (marksFrom (offset + w.length + 1) ws).drop j = first :: more) :
        ∃ above kept, w :: ws = above ++ kept ∧ first.start = offset + (slashed above).length ∧
          marksFrom (offset + (slashed above).length) kept = first :: more := by
      obtain ⟨above, kept, rfl, hstart, hmarks⟩ := ih h
      have hlen : offset + (slashed (w :: above)).length
          = offset + w.length + 1 + (slashed above).length := by
        simp
        omega
      exact ⟨w :: above, kept, rfl, by rw [hlen, hstart], by rw [hlen, hmarks]⟩
    cases hc : component? (offset == 0) w with
    | none =>
      rw [marksFrom, hc] at h
      exact hlater h
    | some c =>
      cases k with
      | zero =>
        refine ⟨[], w :: ws, rfl, ?_, h⟩
        rw [List.drop_zero, marksFrom, hc] at h
        rw [← (List.cons.inj h).1]
        rfl
      | succ k =>
        rw [marksFrom, hc] at h
        exact hlater h

/-- The last mark is that of a piece, and the pieces after it say nothing. -/
theorem exists_pieces_of_last (hoffset : 0 < offset) (h : marksFrom offset ws = ms ++ [mark]) :
    ∃ init w below, ws = init ++ w :: below ∧ below.filterMap (component? false) = [] ∧
      mark.stop = offset + (slashed init).length + w.length := by
  induction ws using List.reverseRecOn generalizing ms mark with
  | nil => simp [marksFrom] at h
  | append_singleton ws w ih =>
    have hfirst : (offset + (slashed ws).length == 0) = false := beq_false_of_ne (by omega)
    rw [marksFrom_append, marksFrom, hfirst] at h
    cases hc : component? false w with
    | none =>
      rw [hc] at h
      obtain ⟨init, v, below, rfl, hbelow, hstop⟩ := ih (by simpa [marksFrom] using h)
      exact ⟨init, v, below ++ [w], by simp, by simp [hbelow, hc], hstop⟩
    | some c =>
      rw [hc] at h
      obtain ⟨-, hmark⟩ := List.append_inj' h rfl
      rw [← (List.cons.inj hmark).1]
      exact ⟨ws, w, [], rfl, rfl, rfl⟩

/-- **Pieces between marks**: from the place of one component to the end of the last one stand pieces that
say these components. -/
theorem exists_pieces_of_marks (hoffset : 0 < offset)
    (h : (marksFrom offset ws).drop k = first :: more) :
    ∃ above init w below, ws = above ++ init ++ w :: below ∧
      first.start = offset + (slashed above).length ∧
      ((first :: more).getLast (by simp)).stop = first.start + (slashed init ++ w).length ∧
      (init ++ [w]).filterMap (component? false) = (first :: more).map Mark.component := by
  obtain ⟨above, kept, rfl, hstart, hmarks⟩ := exists_pieces_of_drop h
  have hpositive : 0 < offset + (slashed above).length := by omega
  have hlast := (List.dropLast_concat_getLast (List.cons_ne_nil first more)).symm
  obtain ⟨init, w, below, rfl, hbelow, hstop⟩ := exists_pieces_of_last hpositive (hmarks.trans hlast)
  refine ⟨above, init, w, below, by rw [List.append_assoc], hstart, ?_, ?_⟩
  · rw [hstop, hstart, List.length_append]
    omega
  · have hsilent : (init ++ [w] ++ below).filterMap (component? false)
        = (init ++ [w]).filterMap (component? false) ++ [] :=
      hbelow ▸ List.filterMap_append
    rw [← hmarks, map_component_marksFrom hpositive, List.append_cons _ _ below, hsilent, List.append_nil]

/-! ### The rest of a path -/

/-- The text of an absolute path from the place of one component below the root to the end of the last one is
written with some of the pieces of the path, which say these components. -/
theorem exists_pieces_of_slice (hp : p.isAbsolute = true) (hk : 0 < k) (h : p.marks.drop k = first :: more) :
    ∃ above init w below, pieces p.chars = above ++ init ++ w :: below ∧
      (p.slice first.start ((first :: more).getLast (by simp)).stop).toList = slashed init ++ w ∧
      (init ++ [w]).filterMap (component? false) = p.components.drop k := by
  obtain ⟨cs, hcs⟩ : ∃ cs, p.chars = '/' :: cs := by
    cases hc : p.chars <;> simp_all [isAbsolute]
  have hmarks : p.marks = ⟨.root, 0, 1⟩ :: marksFrom 1 (pieces cs) := by
    rw [marks, hp, hcs, pieces_slash_cons, marksFrom, component?_nil]
    rfl
  obtain ⟨k, rfl⟩ := Nat.exists_eq_add_one.2 hk
  have hdrop : (marksFrom 1 (pieces cs)).drop k = first :: more := by
    rw [← h, hmarks, List.drop_succ_cons]
  obtain ⟨above, init, w, below, hpieces, hstart, hstop, hsaid⟩ := exists_pieces_of_marks Nat.one_pos hdrop
  obtain ⟨tail, htail⟩ := slashed_append_prefix_of_pieces hpieces
  refine ⟨[] :: above, init, w, below, by rw [hcs, pieces_slash_cons, hpieces]; rfl, ?_, ?_⟩
  · have hchars : p.chars = ('/' :: slashed above) ++ ((slashed init ++ w) ++ tail) := by
      rw [hcs, ← htail]
      simp
    have hlen : first.start = ('/' :: slashed above).length := by
      rw [hstart, List.length_cons, Nat.add_comm]
    rw [slice, String.toList_ofList, hstop, hlen, hchars, List.take_length_add_append, List.drop_left,
      List.take_left]
  · rw [hsaid, components, ← List.map_drop, h]

/-- The pieces of such a text are these pieces, so they say what it says. -/
theorem said_slice (hp : p.isAbsolute = true) (hk : 0 < k) (h : p.marks.drop k = first :: more) :
    (pieces (p.slice first.start ((first :: more).getLast (by simp)).stop).toList).filterMap
      (component? false) = p.components.drop k := by
  obtain ⟨above, init, w, below, hpieces, hslice, hsaid⟩ := exists_pieces_of_slice hp hk h
  have hslashes : ∀ u ∈ init ++ [w], '/' ∉ u := by
    intro u hu
    have hmem : u ∈ pieces p.chars := by
      rw [hpieces, List.append_cons]
      simp only [List.mem_append] at hu ⊢
      tauto
    exact slash_not_mem_of_mem_pieces hmem
  rw [hslice, pieces_slashed_append fun u hu => hslashes u (by simp [hu]),
    pieces_of_not_mem (hslashes w (by simp)), hsaid]

/-- The rest of an absolute path below a base is nothing, or written with some of its pieces. -/
theorem exists_pieces_of_stripBase? (hp : p.isAbsolute = true) (hbase : base.isAbsolute = true)
    (h : p.stripBase? base = some rest) :
    rest.chars = [] ∨
      ∃ above init w below, pieces p.chars = above ++ init ++ w :: below ∧ rest.chars = slashed init ++ w := by
  have hroot : 0 < base.components.length := by
    simp [components, marks, hbase]
  unfold stripBase? at h
  split at h
  · split at h
    · cases h
      exact .inl rfl
    · next first more hsome =>
      cases h
      obtain ⟨above, init, w, below, hpieces, hslice, -⟩ := exists_pieces_of_slice hp hroot hsome
      exact .inr ⟨above, init, w, below, hpieces, hslice⟩
  · cases h

/-- **The rest of a path** below a base says what the path says after the base. -/
theorem components_of_stripBase? (hp : p.isAbsolute = true) (hbase : base.isAbsolute = true)
    (h : p.stripBase? base = some rest) :
    p.components = base.components ++ (pieces rest.chars).filterMap (component? false) := by
  unfold stripBase? at h
  split at h
  · next hprefix =>
    obtain ⟨later, hlater⟩ := List.isPrefixOf_iff_prefix.1 hprefix
    have hdrop : p.components = base.components ++ p.components.drop base.components.length := by
      rw [← hlater, List.drop_left]
    have hroot : 0 < base.components.length := by
      simp [components, marks, hbase]
    split at h
    · next hnone =>
      cases h
      have hend : p.components.drop base.components.length = [] := by
        rw [show p.components = p.marks.map Mark.component from rfl, ← List.map_drop, hnone]
        rfl
      rw [hdrop, hend]
      rfl
    · next first more hsome =>
      cases h
      rw [chars, said_slice hp hroot hsome, ← hdrop]
  · cases h

theorem isSome_stripBase?_iff : (p.stripBase? base).isSome = true ↔ base.components <+: p.components := by
  rw [← List.isPrefixOf_iff_prefix]
  unfold stripBase?
  split
  · next h => split <;> simp [h]
  · next h => simp [h]

/-- A path after another one and a slash says what that one says, and then what its own pieces say. -/
theorem components_append_slash (hbase : base.isAbsolute = true) (rest : String) :
    (Path.mk (base.text ++ ("/" ++ rest))).components
      = base.components ++ (pieces rest.toList).filterMap (component? false) := by
  have hchars : (Path.mk (base.text ++ ("/" ++ rest))).chars = base.chars ++ '/' :: rest.toList := by
    simp [chars]
  refine components_append (pieces_ne_nil base.chars) ?_ (List.append_nil _).symm rfl ?_
  · rw [hbase]
    unfold isAbsolute at hbase ⊢
    rw [hchars]
    cases hc : base.chars <;> simp_all
  · rw [hchars, pieces_append_slash]

end Path

namespace Report

open DiskUsage.Path RawPath Text.Utf8

/-! ### Paths as they are written -/

section Written

variable {home p q : Path} {shown : String}

/-- A path that does not lie at or below the home directory is shown as it is. -/
theorem seenFrom_elsewhere (h : ¬home.components <+: p.components) : seenFrom home p = p.text := by
  rw [← isSome_stripBase?_iff, Option.not_isSome_iff_eq_none] at h
  rw [seenFrom, h]

/-- **A path at or below the home directory** is shown from `~` on, and the home directory in the place of
`~` gives a path that says the same. -/
theorem seenFrom_home (hhome : home.isAbsolute = true) (hp : p.isAbsolute = true)
    (h : home.components <+: p.components) :
    ∃ shown, seenFrom home p = "~" ++ shown ∧ (Path.mk (home.text ++ shown)).sameAs p = true := by
  obtain ⟨rest, hrest⟩ := Option.isSome_iff_exists.1 (isSome_stripBase?_iff.2 h)
  have hsaid := components_of_stripBase? hp hhome hrest
  rw [seenFrom, hrest]
  by_cases hempty : rest.text.isEmpty = true
  · refine ⟨"", by simp [hempty], ?_⟩
    have hnothing : rest.chars = [] := by simpa [chars] using hempty
    rw [hnothing] at hsaid
    rw [sameAs_iff, hsaid, String.append_empty]
    exact (List.append_nil _).symm
  · refine ⟨"/" ++ rest.text, by simp [hempty, ← String.append_assoc], ?_⟩
    rw [sameAs_iff, components_append_slash hhome, hsaid]
    rfl

/-- An absolute path does not begin with `~`. -/
theorem text_ne_of_isAbsolute (hp : p.isAbsolute = true) (shown : String) : p.text ≠ "~" ++ shown := by
  intro h
  rw [Path.isAbsolute, chars, h] at hp
  simp at hp

/-- Only a path at or below the home directory is shown from `~` on. -/
theorem isPrefix_of_seenFrom (hp : p.isAbsolute = true) (h : seenFrom home p = "~" ++ shown) :
    home.components <+: p.components := by
  by_contra hnot
  exact text_ne_of_isAbsolute hp shown ((seenFrom_elsewhere hnot).symm.trans h)

/-- The home directory in the place of `~` gives a path that says the same. -/
theorem sameAs_of_seenFrom (hhome : home.isAbsolute = true) (hp : p.isAbsolute = true)
    (h : seenFrom home p = "~" ++ shown) : (Path.mk (home.text ++ shown)).sameAs p = true := by
  obtain ⟨found, hfound, hsame⟩ := seenFrom_home hhome hp (isPrefix_of_seenFrom hp h)
  have heq : found = shown := String.append_right_inj "~" |>.1 (hfound.symm.trans h)
  rwa [heq] at hsame

/-- Two paths that are written alike say the same. -/
theorem sameAs_of_seenFrom_eq (hhome : home.isAbsolute = true) (hp : p.isAbsolute = true)
    (hq : q.isAbsolute = true) (h : seenFrom home p = seenFrom home q) : p.sameAs q = true := by
  by_cases hprefix : home.components <+: p.components
  · obtain ⟨shown, hshown, hsame⟩ := seenFrom_home hhome hp hprefix
    rw [sameAs_comm] at hsame
    exact sameAs_trans hsame (sameAs_of_seenFrom hhome hq (h.symm.trans hshown))
  · have hother : ¬home.components <+: q.components := by
      intro hq'
      obtain ⟨shown, hshown, -⟩ := seenFrom_home hhome hq hq'
      exact hprefix (isPrefix_of_seenFrom hp (h.trans hshown))
    rw [seenFrom_elsewhere hprefix, seenFrom_elsewhere hother] at h
    rw [Path.sameAs_iff, show p = q from congrArg Path.mk h]

end Written

/-! ### Paths as the system has them -/

variable {home p q : RawPath} {shown : String}

/-- What is shown is what is written, with bytes that are no text replaced. -/
theorem displayPath_some (home p : RawPath) :
    displayPath (some home) p = displayLetters (seenFrom home.letters p.letters) := by
  rw [displayPath, Option.bind_some, seenFrom]
  cases p.letters.stripBase? home.letters with
  | none => rfl
  | some rest =>
    cases hempty : rest.text.isEmpty with
    | true => simp only [hempty, if_true]; decide +kernel
    | false =>
      have hrest : "~/" ++ rest.text = String.ofList ('~' :: '/' :: rest.text.toList) := by
        rw [← String.toList_inj]
        simp
      simp only [hempty, Bool.false_eq_true, if_false]
      rw [hrest, displayLetters_cons (by decide), displayLetters_cons (by decide), String.ofList_toList,
        ← String.append_assoc]
      rfl

/-- What is written from `~` on is shown from `~` on, and what is written from the root on is not. -/
theorem exists_displayPath_iff (hhome : home.isAbsolute = true) (hp : p.isAbsolute = true) :
    (∃ shown, displayPath (some home) p = "~" ++ shown) ↔ home.components <+: p.components := by
  constructor
  · rintro ⟨shown, h⟩
    by_contra hnot
    obtain ⟨cs, hcs⟩ : ∃ cs, p.letters.text = String.ofList ('/' :: cs) := by
      rw [RawPath.isAbsolute, Path.isAbsolute, chars, beq_iff_eq, List.head?_eq_some_iff] at hp
      obtain ⟨cs, hcs⟩ := hp
      exact ⟨cs, by rw [← hcs, String.ofList_toList]⟩
    rw [displayPath_some, seenFrom_elsewhere hnot, hcs, displayLetters_cons (by decide),
      ← String.toList_inj] at h
    simp at h
  · intro h
    obtain ⟨written, hwritten, -⟩ := seenFrom_home hhome hp h
    have hcons : "~" ++ written = String.ofList ('~' :: written.toList) := by
      rw [← String.toList_inj]
      simp
    refine ⟨displayLetters written, ?_⟩
    rw [displayPath_some, hwritten, hcons, displayLetters_cons (by decide), String.ofList_toList]

/-- What is shown in full tells what is written. -/
theorem ShownInFull.seenFrom_eq (h : ShownInFull home p) :
    seenFrom home.letters p.letters = lettersOf (encode (displayPath (some home) p)) := by
  obtain ⟨text, htext⟩ := h
  rw [displayPath_some, htext, displayLetters_encode]

/-- The letters of a text are written with its pieces in letters. -/
theorem slashed_map_charLetters (init : List (List Char)) (w : List Char) :
    slashed (init.map (List.flatMap charLetters)) ++ w.flatMap charLetters
      = (slashed init ++ w).flatMap charLetters := by
  induction init with
  | nil => rfl
  | cons u init ih =>
    have hslash : charLetters '/' = ['/'] := by decide
    rw [List.map_cons, slashed_cons, slashed_cons, List.append_assoc, List.append_assoc, List.cons_append,
      List.cons_append, ih]
    simp only [List.flatMap_append, List.flatMap_cons, hslash, List.singleton_append]

/-- **A path that is a text** is shown in full. -/
theorem shownInFull_text (hhome : home.isAbsolute = true) (path : Path) (hp : path.isAbsolute = true) :
    ShownInFull home (.text path) := by
  have hp' : (RawPath.text path).letters.isAbsolute = true := (isAbsolute_text path).trans hp
  unfold ShownInFull seenFrom
  cases hstrip : (RawPath.text path).letters.stripBase? home.letters with
  | none => exact ⟨path.text, rfl⟩
  | some rest =>
    dsimp only
    split
    · exact ⟨"~", by decide +kernel⟩
    · next hsome =>
      obtain hnothing | ⟨above, init, w, below, hpieces, hrest⟩ := exists_pieces_of_stripBase? hp' hhome hstrip
      · exact absurd (by simpa [chars] using hnothing) hsome
      · -- the pieces are those of the text, in letters
        have htext : (RawPath.text path).letters.chars = (lettersOf (encode path.text)).toList := rfl
        rw [htext, pieces_lettersOf_encode, List.map_eq_append_iff] at hpieces
        obtain ⟨before, after, -, hbefore, hafter⟩ := hpieces
        obtain ⟨-, init, -, -, rfl⟩ := List.map_eq_append_iff.1 hbefore
        obtain ⟨w, -, -, rfl, -⟩ := List.map_eq_cons_iff.1 hafter
        rw [slashed_map_charLetters] at hrest
        have hpart : (String.ofList (slashed init ++ w)).toList = slashed init ++ w := String.toList_ofList
        refine ⟨"~/" ++ String.ofList (slashed init ++ w), ?_⟩
        rw [← String.toList_inj, toList_lettersOf_encode, String.toList_append, String.toList_append,
          List.flatMap_append, hpart, ← hrest]
        rfl

/-- **Which path is meant.**  A path is shown from `~` on iff it says first what the home directory says, and
then something or nothing: that the texts begin alike is not enough.  Where a path is shown in full, as every
text is, the home directory in the place of `~` gives a path that says the same, and two such paths that are
shown alike are the same path. -/
theorem shown_paths_are_told_apart (home p q : RawPath) (hhome : home.isAbsolute = true)
    (hp : p.isAbsolute = true) (hq : q.isAbsolute = true) :
    ((∃ shown, displayPath (some home) p = "~" ++ shown) ↔ home.components <+: p.components) ∧
      (ShownInFull home p → ∀ shown, displayPath (some home) p = "~" ++ shown →
        (RawPath.ofBytes (home.bytes ++ encode shown)).sameAs p = true) ∧
      (ShownInFull home p → ShownInFull home q →
        displayPath (some home) p = displayPath (some home) q → p.sameAs q = true) ∧
      (∀ path, p = .text path → ShownInFull home p) := by
  refine ⟨exists_displayPath_iff hhome hp, fun hfull shown h => ?_, fun hfull hfull' h => ?_, ?_⟩
  · have hwritten : seenFrom home.letters p.letters = "~" ++ lettersOf (encode shown) := by
      rw [hfull.seenFrom_eq, h, encode_append, lettersOf_append]
      rfl
    rw [RawPath.sameAs, letters_ofBytes, lettersOf_append]
    exact sameAs_of_seenFrom hhome hp hwritten
  · refine sameAs_of_seenFrom_eq hhome hp hq ?_
    rw [hfull.seenFrom_eq, hfull'.seenFrom_eq, h]
  · rintro path rfl
    exact shownInFull_text hhome path ((isAbsolute_text path).symm.trans hp)

/-- Two spellings of a path, of which only the part below the home directory is shown as it is written.  The
name of the home directory is no text. -/
theorem two_spellings_are_shown_alike :
    let home : RawPath := .ofBytes (encode "/home/" ++ [0xff] ++ encode "/")
    let p : RawPath := .ofBytes (encode "/home//" ++ [0xff] ++ encode "/./Music//é/.")
    let q : RawPath := .ofBytes (encode "/home/" ++ [0xff] ++ encode "/Music//é/")
    home.isAbsolute = true ∧ p.isAbsolute = true ∧ q.isAbsolute = true ∧
      displayPath (some home) p = "~" ++ "/Music//é" ∧
      displayPath (some home) p = displayPath (some home) q ∧
      ShownInFull home p ∧ ShownInFull home q ∧ home.components <+: p.components ∧
      (RawPath.ofBytes (home.bytes ++ encode "/Music//é")).sameAs p = true ∧ p.sameAs q = true := by
  intro home p q
  have hhome : home.isAbsolute = true := by decide +kernel
  have hp : p.isAbsolute = true := by decide +kernel
  have hq : q.isAbsolute = true := by decide +kernel
  have hshown : displayPath (some home) p = "~" ++ "/Music//é" := by decide +kernel
  have halike : displayPath (some home) p = displayPath (some home) q := by decide +kernel
  have hfull : ShownInFull home p := ⟨"~/Music//é", by decide +kernel⟩
  have hfull' : ShownInFull home q := ⟨"~/Music//é", by decide +kernel⟩
  obtain ⟨hbelow, hback, hsame, -⟩ := shown_paths_are_told_apart home p q hhome hp hq
  exact ⟨hhome, hp, hq, hshown, halike, hfull, hfull', hbelow.1 ⟨_, hshown⟩, hback hfull _ hshown,
    hsame hfull hfull' halike⟩

/-- A byte that is no text is shown by the replacement, as is another one, and as is the text that has the
replacement in its name.  Written after the home directory it is none of these bytes. -/
theorem foreign_bytes_are_shown_alike :
    let home : RawPath := .text ⟨"/h"⟩
    let p : RawPath := .ofBytes (encode "/h/" ++ [0xff])
    let q : RawPath := .ofBytes (encode "/h/" ++ [0xfe])
    let text : RawPath := .text ⟨"/h/\ufffd"⟩
    home.isAbsolute = true ∧ p.isAbsolute = true ∧ q.isAbsolute = true ∧ text.isAbsolute = true ∧
      displayPath (some home) p = "~" ++ "/\ufffd" ∧
      displayPath (some home) q = displayPath (some home) p ∧
      displayPath (some home) text = displayPath (some home) p ∧
      p.sameAs q = false ∧ p.sameAs text = false ∧
      (RawPath.ofBytes (home.bytes ++ encode "/\ufffd")).sameAs p = false := by
  decide +kernel

end Report

end DiskUsage
