import Mathlib.Data.List.TakeDrop
import Mathlib.Data.List.TakeWhile
import DiskUsage.FileSystem.Lookup
import DiskUsage.Path.Lemmas

/-!
# Pieces of a path that are taken

A path is followed piece by piece, and empty pieces are left out.  If its last piece is a name, then what
comes before that name are pieces with a slash after each of them, and these are also the pieces of every
other path with another last name.  The directories above the path are written with the first ones of
these pieces.

* `slashed`, `named`: pieces with their slashes, and the ones that are taken.
* `steps_of_slashed`, `slashed_of_steps`: a last name, and the pieces before it; `steps_of_slashed_nil`: no
  last name, but a slash.
* `exists_last_piece`, `Above`, `Above.parent`: the directories above a path.
* `chars_withExtension`: the path with another extension.
-/

open scoped List

namespace DiskUsage.Path

open FileSystem

/-- Pieces, each with the slash that comes after it. -/
def slashed (init : List (List Char)) : List Char :=
  init.flatMap (· ++ ['/'])

/-- The pieces that are not empty. -/
def named (ws : List (List Char)) : List String :=
  (ws.filter fun w => !w.isEmpty).map String.ofList

variable {p d : Path} {cs w : List Char} {init above ws rest more : List (List Char)} {offset : Nat}
  {ms : List Mark} {mark : Mark} {xs : List String} {name : String}

@[simp] theorem slashed_nil : slashed [] = [] := rfl

@[simp] theorem slashed_cons (w : List Char) (init : List (List Char)) :
    slashed (w :: init) = w ++ '/' :: slashed init := by
  simp [slashed]

@[simp] theorem slashed_append (init more : List (List Char)) :
    slashed (init ++ more) = slashed init ++ slashed more :=
  List.flatMap_append

@[simp] theorem named_append (init more : List (List Char)) :
    named (init ++ more) = named init ++ named more := by
  simp [named]

theorem named_singleton (h : w ≠ []) : named [w] = [String.ofList w] := by
  simp [named, h]

/-- After the last slash there is nothing. -/
theorem getLast?_slashed (h : init ≠ []) : (slashed init).getLast? = some '/' := by
  obtain ⟨first, u, rfl⟩ := List.eq_nil_or_concat init |>.resolve_left h
  rw [List.concat_eq_append, slashed_append]
  simp

/-- After the last slash there is a piece. -/
theorem getLast?_slashed_append (init : List (List Char)) (hw : w ≠ []) (hslash : '/' ∉ w) :
    (slashed init ++ w).getLast? ≠ some '/' := by
  obtain ⟨v, c, rfl⟩ := List.eq_nil_or_concat w |>.resolve_left hw
  rw [List.concat_eq_append, ← List.append_assoc, List.getLast?_concat]
  rintro heq
  exact hslash (by simp [Option.some.inj heq])

/-! ### Pieces -/

theorem pieces_slashed_append (h : ∀ w ∈ init, '/' ∉ w) (cs : List Char) :
    pieces (slashed init ++ cs) = init ++ pieces cs := by
  induction init with
  | nil => rfl
  | cons w init ih =>
    have hw := pieces_of_not_mem (h w List.mem_cons_self)
    rw [slashed_cons, List.append_assoc, List.cons_append, pieces_append_slash, hw,
      ih fun u hu => h u (List.mem_cons_of_mem _ hu)]
    rfl

/-- A text is its pieces with slashes between them. -/
theorem eq_slashed_append_of_pieces (h : pieces cs = init ++ [w]) : cs = slashed init ++ w := by
  induction cs generalizing init w with
  | nil =>
    cases init with
    | nil => cases h; rfl
    | cons u init => cases init <;> cases h
  | cons c cs ih =>
    rw [pieces] at h
    split at h
    · next hc =>
      cases init with
      | nil => exact absurd (List.cons.inj h).2 (pieces_ne_nil cs)
      | cons u init =>
        obtain ⟨rfl, hrest⟩ := List.cons.inj h
        rw [slashed_cons, ih hrest, hc]
        rfl
    · obtain ⟨v, vs, hv⟩ := List.exists_cons_of_ne_nil (pieces_ne_nil cs)
      rw [hv] at h
      cases init with
      | nil =>
        obtain ⟨rfl, rfl⟩ := List.cons.inj h
        have hcs : cs = slashed [] ++ v := ih hv
        rw [hcs]
        rfl
      | cons u init =>
        obtain ⟨rfl, rfl⟩ := List.cons.inj h
        have hcs : cs = slashed (v :: init) ++ w := ih hv
        rw [hcs, slashed_cons, slashed_cons]
        rfl

/-! ### Steps -/

theorem steps_of_slashed (h : ∀ u ∈ init, '/' ∉ u) (hp : p.chars = slashed init ++ w) (hw : w ≠ [])
    (hslash : '/' ∉ w) : steps p = named init ++ [String.ofList w] := by
  have hlast : p.chars.getLast? ≠ some '/' := by
    rw [hp]
    exact getLast?_slashed_append init hw hslash
  have hnames : ((pieces p.chars).filter fun w => !w.isEmpty).map String.ofList
      = named init ++ [String.ofList w] := by
    rw [hp, pieces_slashed_append h, pieces_of_not_mem hslash, ← named_singleton hw, ← named_append]
    rfl
  unfold steps
  rw [hnames]
  dsimp only
  rw [if_neg (by simp), if_neg (by simpa using hlast)]

/-- A slash at the end is one more piece, unless nothing is named before it. -/
theorem steps_of_slashed_nil (h : ∀ u ∈ init, '/' ∉ u) (hinit : init ≠ []) (hp : p.chars = slashed init) :
    steps p = named init ∨ steps p = named init ++ [""] := by
  have hlast : p.chars.getLast? = some '/' := by
    rw [hp]
    exact getLast?_slashed hinit
  have hnames : ((pieces p.chars).filter fun w => !w.isEmpty).map String.ofList = named init := by
    rw [hp, ← List.append_nil (slashed init), pieces_slashed_append h]
    simp [named, pieces]
  unfold steps
  rw [hnames]
  dsimp only
  by_cases hnone : named init = []
  · exact .inl (by simp [hnone])
  · exact .inr (by simp [hnone, hlast])

/-- **A last piece** that goes on stands at the end of the text, after pieces with their slashes. -/
theorem slashed_of_steps (h : steps p = xs ++ [name]) (hname : stays name = false) :
    ∃ init, (∀ u ∈ init, '/' ∉ u) ∧ p.chars = slashed init ++ name.toList ∧ xs = named init ∧
      '/' ∉ name.toList := by
  have hslashes : ∀ u ∈ pieces p.chars, '/' ∉ u := fun u hu => slash_not_mem_of_mem_pieces hu
  unfold steps at h
  dsimp only at h
  split at h
  · simp at h
  next hsome =>
  split at h
  · obtain ⟨-, hnil⟩ := List.append_inj' h rfl
    cases hnil
    cases hname
  next hlast =>
  obtain hnil | ⟨init, w, hpieces⟩ := List.eq_nil_or_concat (pieces p.chars)
  · exact absurd hnil (pieces_ne_nil _)
  rw [List.concat_eq_append] at hpieces
  have hchars := eq_slashed_append_of_pieces hpieces
  rw [hpieces] at h hsome hslashes
  have hw : w ≠ [] := by
    rintro rfl
    have hinit : init ≠ [] := by
      rintro rfl
      simp at hsome
    refine hlast ?_
    rw [hchars, List.append_nil, getLast?_slashed hinit]
    rfl
  have hsplit : named init ++ [String.ofList w] = xs ++ [name] := by
    rw [← h, ← named_singleton hw, ← named_append]
    rfl
  obtain ⟨hxs, hlastName⟩ := List.append_inj' hsplit rfl
  cases hlastName
  refine ⟨init, fun u hu => hslashes u (by simp [hu]), by simpa using hchars, hxs.symm, ?_⟩
  simpa using hslashes w (by simp)

/-- Whether a path starts at the root is told by the pieces before its last name. -/
theorem isAbsolute_of_slashed (h : ∀ u ∈ init, '/' ∉ u) (hp : p.chars = slashed init ++ w)
    (hslash : '/' ∉ w) : p.isAbsolute = (init.head? == some []) := by
  unfold isAbsolute
  rw [hp]
  cases init with
  | nil =>
    cases w with
    | nil => rfl
    | cons c w =>
      have hc : c ≠ '/' := fun heq => hslash (heq ▸ List.mem_cons_self)
      simpa using hc
  | cons u init =>
    cases u with
    | nil => simp
    | cons c u =>
      have hc : c ≠ '/' := fun heq => h (c :: u) List.mem_cons_self (heq ▸ List.mem_cons_self)
      simpa using hc

/-! ### Marks -/

theorem marksFrom_append (offset : Nat) (init ws : List (List Char)) :
    marksFrom offset (init ++ ws)
      = marksFrom offset init ++ marksFrom (offset + (slashed init).length) ws := by
  induction init generalizing offset with
  | nil => rfl
  | cons w init ih =>
    have hlen : offset + (slashed (w :: init)).length
        = offset + w.length + 1 + (slashed init).length := by
      simp
      omega
    rw [List.cons_append, marksFrom, marksFrom, hlen, ih]
    split <;> rfl

/-- **The last mark** is that of a piece, and the marks before it are those of the pieces before. -/
theorem exists_last_piece (h : marksFrom offset ws = ms ++ [mark]) :
    ∃ init w rest, ws = init ++ w :: rest ∧ marksFrom offset init = ms ∧ w ≠ [] ∧
      mark.stop = offset + (slashed init).length + w.length := by
  induction ws generalizing offset ms with
  | nil => simp [marksFrom] at h
  | cons w ws ih =>
    rw [marksFrom] at h
    split at h
    · next c hc =>
      cases ms with
      | nil =>
        obtain ⟨rfl, -⟩ := List.cons.inj h
        refine ⟨[], w, ws, rfl, rfl, ?_, rfl⟩
        rintro rfl
        cases hc
      | cons first ms =>
        obtain ⟨rfl, hrest⟩ := List.cons.inj h
        obtain ⟨init, v, rest, rfl, hms, hv, hstop⟩ := ih hrest
        refine ⟨w :: init, v, rest, rfl, ?_, hv, ?_⟩
        · rw [marksFrom, hc, hms]
        · rw [hstop]
          simp
          omega
    · next hc =>
      obtain ⟨init, v, rest, rfl, hms, hv, hstop⟩ := ih h
      refine ⟨w :: init, v, rest, rfl, ?_, hv, ?_⟩
      · rw [marksFrom, hc, hms]
      · rw [hstop]
        simp
        omega

/-! ### The directories above -/

/-- The path is empty or the root, or written with the first ones of the pieces. -/
def Above (absolute : Bool) (init : List (List Char)) (d : Path) : Prop :=
  d.chars = [] ∨ (absolute = true ∧ d.chars = ['/']) ∨
    ∃ above w more, init = above ++ w :: more ∧ w ≠ [] ∧ d.chars = slashed above ++ w

/-- A text begins with its first pieces and their slashes. -/
theorem slashed_prefix_of_pieces (h : pieces cs = init ++ w :: rest) : slashed init <+: cs := by
  obtain ⟨more, last, hlast⟩ := List.eq_nil_or_concat (w :: rest) |>.resolve_left (List.cons_ne_nil w rest)
  rw [hlast, List.concat_eq_append, ← List.append_assoc] at h
  rw [eq_slashed_append_of_pieces h, slashed_append, List.append_assoc]
  exact List.prefix_append _ _

/-- The path without its last component is written with the pieces before it. -/
theorem above_of_marks (hpieces : pieces p.chars = init ++ w :: rest)
    (hmarks : marksFrom 0 (pieces p.chars) = marksFrom 0 init ++ [mark]) (h : p.parent? = some d) :
    Above p.isAbsolute init d := by
  obtain ⟨tail, htail⟩ := slashed_prefix_of_pieces hpieces
  have hreverse : p.marks.reverse = mark :: ((marksFrom 0 init).reverse
      ++ if p.isAbsolute then [⟨.root, 0, 1⟩] else []) := by
    rw [marks, hmarks]
    split <;> simp
  obtain ⟨component, start, stop⟩ := mark
  unfold parent? at h
  rw [hreverse] at h
  rcases List.eq_nil_or_concat (marksFrom 0 init) with hnone | ⟨ms, before, hms⟩
  · rw [hnone] at h
    cases habsolute : p.isAbsolute with
    | true =>
      rw [habsolute] at h
      have hroot : p.slice 0 1 = "/" := by
        unfold isAbsolute at habsolute
        unfold slice
        obtain ⟨cs, hcs⟩ : ∃ cs, p.chars = '/' :: cs := by
          cases hc : p.chars <;> simp_all
        rw [hcs]
        rfl
      cases component with
      | root => cases h
      | current | parent | normal _ =>
        simp only [List.reverse_nil, List.nil_append, if_true, hroot, Option.some.injEq] at h
        subst h
        exact .inr (.inl ⟨rfl, rfl⟩)
    | false =>
      rw [habsolute] at h
      cases component with
      | root => cases h
      | current | parent | normal _ =>
        cases h
        exact .inl rfl
  · rw [List.concat_eq_append] at hms
    rw [hms, List.reverse_append] at h
    obtain ⟨above, v, more, rfl, -, hv, hstop⟩ := exists_last_piece hms
    have hslice : d = ⟨p.slice 0 before.stop⟩ := by
      cases component with
      | root => cases h
      | current | parent | normal _ =>
        cases h
        rfl
    refine .inr (.inr ⟨above, v, more, rfl, hv, ?_⟩)
    have htake : p.chars.take before.stop = slashed above ++ v := by
      rw [← htail, hstop, Nat.zero_add, ← List.length_append]
      simp only [slashed_append, slashed_cons, List.append_assoc]
      rw [← List.append_assoc]
      exact List.take_left
    rw [hslice]
    unfold slice
    show (String.ofList _).toList = _
    rw [htake]
    simp

variable {absolute : Bool}

theorem Above.append (h : Above absolute init d) (more : List (List Char)) :
    Above absolute (init ++ more) d := by
  refine h.imp_right (Or.imp_right ?_)
  rintro ⟨above, w, rest, rfl, hw, hd⟩
  exact ⟨above, w, rest ++ more, by simp, hw, hd⟩

theorem Above.isAbsolute (hinit : ∀ u ∈ init, '/' ∉ u) (habsolute : absolute = (init.head? == some []))
    (h : Above absolute init d) (hd : d.chars ≠ []) : d.isAbsolute = absolute := by
  rcases h with hnil | ⟨rfl, hroot⟩ | ⟨above, w, more, rfl, hw, hchars⟩
  · exact absurd hnil hd
  · unfold Path.isAbsolute
    rw [hroot]
    rfl
  · rw [isAbsolute_of_slashed (fun u hu => hinit u (by simp [hu])) hchars (hinit w (by simp)), habsolute]
    cases above with
    | nil => simp [hw]
    | cons u above => simp

/-- No directory is above the root, nor above a path that says nothing. -/
theorem exists_last_mark (h : p.parent? = some d) :
    ∃ ms mark, marksFrom 0 (pieces p.chars) = ms ++ [mark] := by
  rcases List.eq_nil_or_concat (marksFrom 0 (pieces p.chars)) with hnone | ⟨ms, mark, hms⟩
  · unfold parent? marks at h
    rw [hnone] at h
    cases habsolute : p.isAbsolute <;> (rw [habsolute] at h; cases h)
  · exact ⟨ms, mark, by rw [hms, List.concat_eq_append]⟩

/-- **The directory above** one of the directories above a path is one of them. -/
theorem Above.parent (hinit : ∀ u ∈ init, '/' ∉ u) (habsolute : absolute = (init.head? == some []))
    (h : Above absolute init p) (hd : p.parent? = some d) : Above absolute init d := by
  have hparts := h
  obtain ⟨ms, mark, hms⟩ := exists_last_mark hd
  rcases hparts with hnil | ⟨-, hroot⟩ | ⟨above, w, more, rfl, hw, hchars⟩
  · rw [hnil] at hms
    cases ms <;> cases hms
  · rw [hroot] at hms
    cases ms <;> cases hms
  · have hpieces : pieces p.chars = above ++ [w] := by
      rw [hchars, pieces_slashed_append fun u hu => hinit u (by simp [hu]),
        pieces_of_not_mem (hinit w (by simp))]
    have hne : p.chars ≠ [] := by
      rw [hchars]
      simp [hw]
    obtain ⟨first, v, rest, hsplit, hfirst, -⟩ := exists_last_piece hms
    have habove := above_of_marks hsplit (hfirst ▸ hms) hd
    rw [h.isAbsolute hinit habsolute hne] at habove
    have hinitial : above ++ w :: more = first ++ (v :: rest ++ more) := by
      rw [← List.append_assoc, ← hsplit, hpieces]
      simp
    rw [hinitial]
    exact habove.append _

/-- A directory above a path is on the way to it. -/
theorem Above.steps (hinit : ∀ u ∈ init, '/' ∉ u) (h : Above absolute init d) :
    steps d <+: named init := by
  rcases h with hnil | ⟨-, hroot⟩ | ⟨above, w, more, rfl, hw, hchars⟩
  · unfold FileSystem.steps
    rw [hnil]
    exact List.nil_prefix
  · unfold FileSystem.steps
    rw [hroot]
    exact List.nil_prefix
  · rw [steps_of_slashed (fun u hu => hinit u (by simp [hu])) hchars hw (hinit w (by simp)),
      ← named_singleton hw, ← named_append]
    exact ⟨named more, by rw [← named_append]; simp⟩

theorem Above.chars (habsolute : absolute = (init.head? == some [])) (h : Above absolute init d) :
    d.chars <+: slashed init := by
  rcases h with hnil | ⟨habs, hroot⟩ | ⟨above, w, more, rfl, hw, hchars⟩
  · rw [hnil]
    exact List.nil_prefix
  · obtain ⟨init, rfl⟩ : ∃ rest, init = [] :: rest := by
      rw [habs] at habsolute
      cases init <;> simp_all
    rw [hroot]
    exact ⟨slashed init, by simp⟩
  · rw [hchars]
    exact ⟨'/' :: slashed more, by simp⟩

/-! ### Another extension -/

/-- A name is cut at its last dot. -/
theorem splitName_cases (cs : List Char) :
    (splitName cs).1 = cs ∨
      ∃ after, (splitName cs).1 ≠ [] ∧ '.' ∉ after ∧ cs = (splitName cs).1 ++ '.' :: after := by
  unfold splitName
  rw [List.span_eq_takeWhile_dropWhile]
  split
  · exact .inl rfl
  next after dot before hspan =>
  obtain ⟨hafter, hbefore⟩ := Prod.mk.inj hspan
  split
  · exact .inl rfl
  next hne =>
  have hdot : dot = '.' := by
    have hhead := List.head?_dropWhile_not (· != '.') cs.reverse
    rw [hbefore] at hhead
    simpa using hhead
  refine .inr ⟨after.reverse, by simpa using hne, ?_, ?_⟩
  · intro hmem
    rw [← hafter] at hmem
    simpa using List.mem_takeWhile_imp (List.mem_reverse.1 hmem)
  · have hwhole := List.takeWhile_append_dropWhile (p := (· != '.')) (l := cs.reverse)
    rw [hafter, hbefore, hdot] at hwhole
    rw [← List.reverse_reverse cs, ← hwhole]
    simp

/-- A name begins with what is before its last dot. -/
theorem take_splitName (cs : List Char) : cs.take (splitName cs).1.length = (splitName cs).1 := by
  rcases splitName_cases cs with hwhole | ⟨after, -, -, hcs⟩
  · rw [hwhole, List.take_length]
  · calc cs.take (splitName cs).1.length
        = ((splitName cs).1 ++ '.' :: after).take (splitName cs).1.length := by rw [← hcs]
      _ = (splitName cs).1 := List.take_left

/-- The last mark of a path with a last name is that of the name. -/
theorem getLast?_marks (hinit : ∀ u ∈ init, '/' ∉ u) (hp : p.chars = slashed init ++ name.toList)
    (hname : IsName name) :
    p.marks.getLast? = some ⟨.normal name, (slashed init).length, p.chars.length⟩ := by
  have hpieces : pieces p.chars = init ++ [name.toList] := by
    rw [hp, pieces_slashed_append hinit, pieces_of_not_mem hname.2.2.2]
  rw [marks, hpieces, marksFrom_append, marksFrom, component?_of_isName hname, ← List.append_assoc,
    marksFrom, List.getLast?_concat, hp]
  simp

/-- **Another extension** leaves the pieces before the name as they are; of the name `..c` only its
first two dots are left. -/
theorem chars_withExtension (hinit : ∀ u ∈ init, '/' ∉ u) (hp : p.chars = slashed init ++ name.toList)
    (hname : IsName name) (ext : String) :
    (p.withExtension ext).chars = slashed init ++
      if (splitName name.toList).1 = ['.'] then ['.', '.']
      else (splitName name.toList).1 ++ '.' :: ext.toList := by
  have htake (k : Nat) :
      (p.slice 0 ((slashed init).length + k)).toList = slashed init ++ name.toList.take k := by
    unfold slice
    rw [hp, List.drop_zero, String.toList_ofList, List.take_length_add_append]
  unfold withExtension
  rw [getLast?_marks hinit hp hname]
  dsimp only
  by_cases hstem : (splitName name.toList).1 = ['.']
  · rw [if_pos (by simp [hstem]), if_pos hstem]
    refine (htake 2).trans ?_
    rcases splitName_cases name.toList with hwhole | ⟨after, -, -, hdots⟩
    · have hdot : name.toList = ".".toList := hwhole.symm.trans hstem
      exact absurd (String.toList_inj.1 hdot) hname.2.1
    · rw [hdots, hstem]
      rfl
  · rw [if_neg (by simp [hstem]), if_neg hstem]
    show (p.slice 0 _ ++ "." ++ ext).toList = _
    rw [String.toList_append, String.toList_append, htake, take_splitName]
    simp

end DiskUsage.Path
