import Mathlib.Data.List.Induction
import Mathlib.Data.String.Basic
import DiskUsage.Path.Clean
import DiskUsage.Proofs.Path.Steps

/-!
# What is left of a clean path

Cleaning takes components one after the other, so it does not matter whether some of them were clean
before: what is cleaned already is taken as it is.  From this it follows that a clean path stays as it is,
and that paths may be cleaned before they are joined.  A clean path begins at the root or with steps up,
and names follow; cleaning leaves out characters and writes no new ones.

* `foldl_cleanStep_cleanComponents`: components may be cleaned before they are taken; `clean_clean`,
  `clean_join`: so may paths.
* `exists_components_clean`: a start, and names after it; `isAbsolute_clean`: it starts at the root if the
  path does.
* `cleanComponents_sublist`, `chars_clean_sublist`: nothing is added; `byteLength_clean_le`: a clean path is
  no longer.
-/

open scoped List

namespace DiskUsage.Path

variable {p q : Path} {done cs ds : List Component} {c : Component} {absolute leading : Bool}
  {w : List Char} {ws : List (List Char)}

/-! ### Components that are clean already -/

/-- One more component after clean ones is taken in the same way wherever these stand. -/
theorem foldl_cleanStep_step (done kept : List Component) (c : Component) :
    (cleanStep kept c).reverse.foldl cleanStep done
      = cleanStep (kept.reverse.foldl cleanStep done) c := by
  cases c with
  | root | current | normal => simp [cleanStep]
  | parent =>
    cases kept with
    | nil => rfl
    | cons last rest => cases last <;> simp [cleanStep]

/-- **Components may be cleaned** before they are taken. -/
theorem foldl_cleanStep_cleanComponents (done cs : List Component) :
    (cleanComponents cs).foldl cleanStep done = cs.foldl cleanStep done := by
  induction cs using List.reverseRecOn with
  | nil => rfl
  | append_singleton cs c ih =>
    calc (cleanComponents (cs ++ [c])).foldl cleanStep done
        = (cleanStep (cs.foldl cleanStep []) c).reverse.foldl cleanStep done := by
          rw [cleanComponents, List.foldl_append]
          rfl
      _ = cleanStep (cs.foldl cleanStep done) c := by rw [foldl_cleanStep_step, ← cleanComponents, ih]
      _ = (cs ++ [c]).foldl cleanStep done := by
          rw [List.foldl_append]
          rfl

theorem cleanComponents_cleanComponents (cs : List Component) :
    cleanComponents (cleanComponents cs) = cleanComponents cs := by
  rw [cleanComponents, foldl_cleanStep_cleanComponents, ← cleanComponents]

/-- Both parts may be cleaned before they are set together. -/
theorem cleanComponents_append (cs ds : List Component) :
    cleanComponents (cleanComponents cs ++ cleanComponents ds) = cleanComponents (cs ++ ds) := by
  rw [cleanComponents, List.foldl_append, foldl_cleanStep_cleanComponents,
    foldl_cleanStep_cleanComponents, ← List.foldl_append, ← cleanComponents]

/-- A clean path is written with what it says. -/
theorem ofComponents_components_clean (p : Path) : ofComponents p.clean.components = p.clean := by
  rw [components_clean, ← clean]

/-- **A clean path** stays as it is. -/
theorem clean_clean (p : Path) : p.clean.clean = p.clean := by
  rw [clean, components_clean, cleanComponents_cleanComponents, ← clean]

/-! ### Where a clean path starts -/

/-- The root is the first component or none. -/
theorem exists_tail (p : Path) :
    ∃ tail, p.components = (if p.isAbsolute then [.root] else []) ++ tail ∧ .root ∉ tail := by
  obtain ⟨w, ws, hpieces⟩ := List.exists_cons_of_ne_nil (pieces_ne_nil p.chars)
  refine ⟨_, by rw [components_eq hpieces, List.append_assoc], ?_⟩
  intro hmem
  rcases List.mem_append.1 hmem with hfirst | hlater
  · exact component?_ne_root true w (Option.mem_toList.1 hfirst)
  · obtain ⟨v, -, hv⟩ := List.mem_filterMap.1 hlater
    exact component?_ne_root false v hv

theorem root_mem_components_iff (p : Path) : .root ∈ p.components ↔ p.isAbsolute = true := by
  obtain ⟨tail, htail, hroot⟩ := exists_tail p
  rw [htail, List.mem_append]
  cases p.isAbsolute <;> simp [hroot]

/-- What a clean path begins with: the root, or some steps up. -/
def start (absolute : Bool) (ups : Nat) : List Component :=
  if absolute then [.root] else List.replicate ups .parent

/-- The components taken so far, last first, are names after a start. -/
def Stacked (absolute : Bool) (done : List Component) : Prop :=
  ∃ ups names, done = List.map .normal names ++ start absolute ups

theorem Stacked.cleanStep (h : Stacked absolute done) (hc : c ≠ .root) :
    Stacked absolute (cleanStep done c) := by
  obtain ⟨ups, names, rfl⟩ := h
  cases c with
  | root => exact absurd rfl hc
  | current => exact ⟨ups, names, rfl⟩
  | normal name => exact ⟨ups, name :: names, rfl⟩
  | parent =>
    cases names with
    | cons last names => exact ⟨ups, names, rfl⟩
    | nil =>
      cases absolute with
      | true => exact ⟨ups, [], rfl⟩
      | false =>
        cases ups with
        | zero => exact ⟨1, [], rfl⟩
        | succ ups => exact ⟨ups + 2, [], rfl⟩

theorem Stacked.foldl (h : Stacked absolute done) (hroot : .root ∉ cs) :
    Stacked absolute (cs.foldl Path.cleanStep done) := by
  induction cs generalizing done with
  | nil => exact h
  | cons c cs ih =>
    rw [List.mem_cons, not_or] at hroot
    exact ih (h.cleanStep (Ne.symm hroot.1)) hroot.2

theorem reverse_start (absolute : Bool) (ups : Nat) :
    (start absolute ups).reverse = start absolute ups := by
  cases absolute <;> simp [start]

/-- **A clean path** consists of a start and of names after it. -/
theorem exists_components_clean (p : Path) :
    ∃ ups names, p.clean.components = start p.isAbsolute ups ++ List.map .normal names := by
  obtain ⟨tail, htail, hroot⟩ := exists_tail p
  have hstart : Stacked p.isAbsolute ((if p.isAbsolute then [.root] else []).foldl Path.cleanStep []) := by
    cases p.isAbsolute <;> exact ⟨0, [], rfl⟩
  obtain ⟨ups, names, hstack⟩ := hstart.foldl hroot
  refine ⟨ups, names.reverse, ?_⟩
  rw [components_clean, cleanComponents, htail, List.foldl_append, hstack, List.reverse_append,
    reverse_start, List.map_reverse]

theorem isAbsolute_clean (p : Path) : p.clean.isAbsolute = p.isAbsolute := by
  obtain ⟨ups, names, hclean⟩ := exists_components_clean p
  rw [Bool.eq_iff_iff, ← root_mem_components_iff, hclean]
  cases p.isAbsolute <;> simp [start]

/-! ### Joining -/

/-- A leading `.` is dropped, so what the first piece says is taken alike wherever it stands. -/
theorem foldl_component?_leading (w : List Char) (done : List Component) :
    (component? true w).toList.foldl cleanStep done
      = (component? false w).toList.foldl cleanStep done := by
  unfold component?
  split
  · rfl
  · split
    · rfl
    · rfl

/-- To cleaning, joining a relative path is setting its components after the others. -/
theorem cleanComponents_join (p : Path) (hq : q.isAbsolute = false) :
    cleanComponents (p.join q).components = cleanComponents (p.components ++ q.components) := by
  by_cases hp : p.chars = []
  · have hjoin : p.join q = q := by
      have hchars := chars_join (p := p) hq
      rw [if_pos (.inl hp), hp, List.nil_append] at hchars
      exact congrArg Path.mk (String.toList_inj.1 hchars)
    rw [hjoin, components_of_chars_eq_nil hp, List.nil_append]
  · obtain ⟨w, ws, hpieces⟩ := List.exists_cons_of_ne_nil (pieces_ne_nil q.chars)
    have hfirst : (w :: ws).filterMap (component? false)
        = (component? false w).toList ++ ws.filterMap (component? false) := by
      rw [List.filterMap_cons]
      cases component? false w <;> rfl
    have hsaid : q.components = (component? true w).toList ++ ws.filterMap (component? false) := by
      rw [components_eq hpieces, hq]
      rfl
    rw [components_join hp hq, hpieces, hfirst, hsaid, cleanComponents, cleanComponents]
    simp only [List.foldl_append]
    rw [foldl_component?_leading]

/-- **Paths may be cleaned** before they are joined. -/
theorem clean_join (p q : Path) : (p.join q).clean = (p.clean.join q.clean).clean := by
  cases hq : q.isAbsolute with
  | true =>
    have hclean : q.clean.isAbsolute = true := (isAbsolute_clean q).trans hq
    rw [join_of_isAbsolute hq, join_of_isAbsolute hclean, clean_clean]
  | false =>
    have hclean : q.clean.isAbsolute = false := (isAbsolute_clean q).trans hq
    have hsame : cleanComponents (p.join q).components
        = cleanComponents (p.clean.join q.clean).components := by
      rw [cleanComponents_join p hq, cleanComponents_join p.clean hclean, components_clean,
        components_clean, cleanComponents_append]
    rw [clean, hsame, ← clean]

/-! ### What is left out -/

/-- Taking a component leaves out some of the components or none. -/
theorem reverse_cleanStep_sublist (done : List Component) (c : Component) :
    (cleanStep done c).reverse <+ done.reverse ++ [c] := by
  cases c with
  | root | normal => simp [cleanStep]
  | current => exact List.sublist_append_left _ _
  | parent =>
    cases done with
    | nil => exact List.Sublist.refl _
    | cons last rest =>
      cases last with
      | root => exact List.sublist_append_left _ _
      | current | parent => simp [cleanStep]
      | normal name =>
        have hrest : rest.reverse <+ (Component.normal name :: rest).reverse := by simp
        exact hrest.trans (List.sublist_append_left _ _)

theorem reverse_foldl_cleanStep_sublist (done cs : List Component) :
    (cs.foldl cleanStep done).reverse <+ done.reverse ++ cs := by
  induction cs generalizing done with
  | nil => simp
  | cons c cs ih =>
    have hstep := (reverse_cleanStep_sublist done c).append_right cs
    rw [List.append_assoc, List.singleton_append] at hstep
    exact (ih (cleanStep done c)).trans hstep

/-- **Cleaning** leaves out components and keeps the others in order. -/
theorem cleanComponents_sublist (cs : List Component) : cleanComponents cs <+ cs :=
  reverse_foldl_cleanStep_sublist [] cs

/-- A piece is the text of what it says. -/
theorem toList_text_of_component? (h : component? leading w = some c) : c.text.toList = w := by
  unfold component? at h
  split at h
  · cases h
  · split at h
    · next hdot =>
      split at h
      · cases h
        exact hdot.symm
      · cases h
    · split at h
      · next hup =>
        cases h
        exact hup.symm
      · cases h
        exact String.toList_ofList

theorem texts_sublist_of_pieces (ws : List (List Char)) :
    (ws.filterMap (component? false)).map (·.text.toList) <+ ws := by
  induction ws with
  | nil => exact List.Sublist.refl _
  | cons w ws ih =>
    rw [List.filterMap_cons]
    cases hc : component? false w with
    | none => exact ih.cons w
    | some c =>
      rw [List.map_cons, toList_text_of_component? hc]
      exact ih.cons_cons w

/-- Pieces left out are left out of the text, with a slash each. -/
theorem intercalate_sublist {vs : List (List Char)} (h : vs <+ ws) :
    ['/'].intercalate vs <+ ['/'].intercalate ws := by
  induction h with
  | slnil => exact List.Sublist.refl _
  | @cons vs ws w h ih =>
    cases ws with
    | nil => rw [List.sublist_nil.1 h]; exact List.nil_sublist _
    | cons v ws =>
      rw [List.intercalate_cons_cons]
      exact ih.trans (List.sublist_append_right _ _)
  | @cons_cons vs ws w h ih =>
    cases ws with
    | nil => rw [List.sublist_nil.1 h]
    | cons v ws =>
      rw [List.intercalate_cons_cons]
      cases vs with
      | nil =>
        rw [List.intercalate_singleton, List.append_assoc]
        exact List.sublist_append_left _ _
      | cons u vs =>
        rw [List.intercalate_cons_cons]
        exact ih.append_left _

theorem intercalate_concat (init : List (List Char)) (w : List Char) :
    ['/'].intercalate (init ++ [w]) = slashed init ++ w := by
  induction init with
  | nil => rw [List.nil_append, List.intercalate_singleton, slashed_nil, List.nil_append]
  | cons u init ih =>
    obtain ⟨v, vs, hrest⟩ := List.exists_cons_of_ne_nil (List.append_ne_nil_of_right_ne_nil init
      (List.cons_ne_nil w []))
    rw [List.cons_append, hrest, List.intercalate_cons_cons, ← hrest, ih, slashed_cons]
    simp

/-- A text is its pieces with slashes between them. -/
theorem intercalate_pieces (cs : List Char) : ['/'].intercalate (pieces cs) = cs := by
  obtain ⟨init, w, hpieces⟩ := (List.eq_nil_or_concat (pieces cs)).resolve_left (pieces_ne_nil cs)
  rw [List.concat_eq_append] at hpieces
  rw [hpieces, intercalate_concat, ← eq_slashed_append_of_pieces hpieces]

theorem toList_intercalate_texts (ds : List Component) :
    ("/".intercalate (ds.map Component.text)).toList = ['/'].intercalate (ds.map (·.text.toList)) := by
  rw [String.toList_intercalate, List.map_map]
  rfl

theorem chars_ofComponents_root (ds : List Component) :
    (ofComponents (.root :: ds)).chars = '/' :: ['/'].intercalate (ds.map (·.text.toList)) := by
  rw [← toList_intercalate_texts]
  simp [ofComponents, chars]

theorem chars_ofComponents_of_not_mem (h : .root ∉ cs) :
    (ofComponents cs).chars = ['/'].intercalate (cs.map (·.text.toList)) := by
  rw [← toList_intercalate_texts]
  cases cs with
  | nil => rfl
  | cons c cs => cases c <;> simp_all [ofComponents, chars]

/-- **Cleaning** leaves out characters of a path and writes no others. -/
theorem chars_clean_sublist (p : Path) : p.clean.chars <+ p.chars := by
  have hkept := cleanComponents_sublist p.components
  obtain ⟨ups, names, hparts⟩ := exists_components_clean p
  rw [← components_clean, hparts] at hkept
  rw [← ofComponents_components_clean, hparts]
  cases habsolute : p.isAbsolute with
  | true =>
    obtain ⟨cs, hcs⟩ : ∃ cs, p.chars = '/' :: cs := by
      cases hc : p.chars <;> simp_all [isAbsolute]
    have hpieces : pieces p.chars = [] :: pieces cs := by rw [hcs, pieces_slash_cons]
    rw [components_eq hpieces, habsolute] at hkept
    have hrest : List.map Component.normal names <+ (pieces cs).filterMap (component? false) :=
      List.cons_sublist_cons.1 hkept
    have htexts := (hrest.map (·.text.toList)).trans (texts_sublist_of_pieces (pieces cs))
    have hwritten := intercalate_sublist htexts
    rw [intercalate_pieces] at hwritten
    rw [hcs]
    exact (chars_ofComponents_root _).symm ▸ hwritten.cons_cons '/'
  | false =>
    obtain ⟨w, ws, hpieces⟩ := List.exists_cons_of_ne_nil (pieces_ne_nil p.chars)
    rw [components_eq hpieces, habsolute] at hkept
    have hfirst : (component? true w).toList.map (·.text.toList) <+ [w] := by
      cases hc : component? true w with
      | none => exact List.nil_sublist _
      | some c => rw [Option.toList_some, List.map_singleton, toList_text_of_component? hc]
    have htexts := (hkept.map (·.text.toList)).trans
      (List.map_append ▸ hfirst.append (texts_sublist_of_pieces ws))
    have hwritten := intercalate_sublist htexts
    rw [List.singleton_append, ← hpieces, intercalate_pieces] at hwritten
    rwa [chars_ofComponents_of_not_mem (by simp [start])]

/-- A clean path is no longer than the path was. -/
theorem byteLength_clean_le (p : Path) : p.clean.byteLength ≤ p.byteLength := by
  have hbytes (p : Path) : p.byteLength = String.utf8Len p.chars := by
    rw [← String.utf8ByteSize_ofList, chars, String.ofList_toList, byteLength]
  rw [hbytes, hbytes]
  exact String.utf8Len_le_of_sublist (chars_clean_sublist p)

end DiskUsage.Path
