import DiskUsage.Path.Lemmas

/-!
# Proper components

Not every list of components is that of a path: the root and the leading `.` can only come first,
and a name holds no slash and is neither empty nor one of the marks `.` and `..`.

* `Proper`: the components can be those of a path.
* `proper_components`: those of a path are.
* `components_ofComponents`: the path of proper components says them.
-/

namespace DiskUsage.Path

/-- The component can stand after another one. -/
def Component.Inner : Component → Prop
  | parent => True
  | normal name => IsName name
  | _ => False

/-- The components can be those of a path: only the first one may be the root or the leading `.`. -/
def Proper : List Component → Prop
  | [] => True
  | c :: rest => (c = .root ∨ c = .current ∨ c.Inner) ∧ ∀ d ∈ rest, d.Inner

theorem inner_of_component? {w : List Char} {c : Component} (hw : '/' ∉ w)
    (h : component? false w = some c) : c.Inner := by
  cases c with
  | parent => trivial
  | normal name => exact (isName_of_component? hw h).1
  | root => exact absurd h (component?_ne_root false w)
  | current => exact absurd h (component?_false_ne_current w)

/-- **Properness**: the components of a path are proper. -/
theorem proper_components (p : Path) : Proper p.components := by
  obtain ⟨w, ws, h⟩ := List.exists_cons_of_ne_nil (pieces_ne_nil p.chars)
  have hw : '/' ∉ w := slash_not_mem_of_mem_pieces (h ▸ List.mem_cons_self)
  have hinner : ∀ d ∈ ws.filterMap (component? false), d.Inner := by
    intro d hd
    obtain ⟨v, hv, hvd⟩ := List.mem_filterMap.1 hd
    exact inner_of_component? (slash_not_mem_of_mem_pieces (h ▸ List.mem_cons_of_mem _ hv)) hvd
  rw [components_eq h]
  cases ha : p.isAbsolute with
  | true =>
    have hnil : w = [] := by
      obtain ⟨cs, hcs⟩ : ∃ cs, p.chars = '/' :: cs := by
        cases hc : p.chars <;> simp_all [isAbsolute]
      rw [hcs, pieces_slash_cons] at h
      exact (List.cons.inj h).1.symm
    rw [hnil]
    exact ⟨Or.inl rfl, hinner⟩
  | false =>
    cases hc : component? true w with
    | none =>
      cases hl : ws.filterMap (component? false) with
      | nil => trivial
      | cons d ds =>
        rw [hl] at hinner
        simp_all [Proper]
    | some c =>
      refine ⟨?_, hinner⟩
      cases c with
      | root => exact absurd hc (component?_ne_root true w)
      | current => exact Or.inr (Or.inl rfl)
      | parent => exact Or.inr (Or.inr trivial)
      | normal name => exact Or.inr (Or.inr (isName_of_component? hw hc).1)

/-! ## Writing components -/

theorem component?_text_of_inner {c : Component} (h : c.Inner) (leading : Bool) :
    component? leading c.text.toList = some c := by
  cases c with
  | parent => rfl
  | normal name => exact component?_of_isName h leading
  | root | current => exact h.elim

theorem slash_not_mem_text {c : Component} (h : c.Inner) : '/' ∉ c.text.toList := by
  cases c with
  | parent => decide
  | normal name => exact h.2.2.2
  | root | current => exact h.elim

theorem filterMap_component?_texts {cs : List Component} (h : ∀ c ∈ cs, c.Inner) :
    (cs.map fun c => c.text.toList).filterMap (component? false) = cs := by
  induction cs with
  | nil => rfl
  | cons c cs ih =>
    have hc := component?_text_of_inner (h c List.mem_cons_self) false
    have hcs := ih fun d hd => h d (List.mem_cons_of_mem _ hd)
    simp only [List.map_cons, List.filterMap_cons, hc, hcs]

/-- Texts without slashes come back as pieces when slashes are set between them. -/
theorem pieces_intercalate {ws : List (List Char)} (hne : ws ≠ []) (h : ∀ w ∈ ws, '/' ∉ w) :
    pieces (['/'].intercalate ws) = ws := by
  induction ws with
  | nil => exact absurd rfl hne
  | cons w ws ih =>
    have hw := pieces_of_not_mem (h w List.mem_cons_self)
    cases ws with
    | nil => simpa using hw
    | cons v vs =>
      have hrest := ih (by simp) fun u hu => h u (List.mem_cons_of_mem _ hu)
      rw [List.intercalate_cons_cons, List.append_assoc, List.singleton_append,
        pieces_append_slash, hw, hrest, List.singleton_append]

/-- A path whose first piece is not empty is relative. -/
theorem isAbsolute_of_pieces {p : Path} {w : List Char} {ws : List (List Char)}
    (h : pieces p.chars = w :: ws) (hw : w ≠ []) : p.isAbsolute = false := by
  cases hc : p.chars with
  | nil => simp [isAbsolute, hc]
  | cons c cs =>
    have hne : c ≠ '/' := by
      rintro rfl
      rw [hc, pieces_slash_cons] at h
      exact hw (List.cons.inj h).1.symm
    simp [isAbsolute, hc, hne]

/-- **Writing components**: the path of proper components says them. -/
theorem components_ofComponents {cs : List Component} (h : Proper cs) :
    (ofComponents cs).components = cs := by
  have hpieces {ds : List Component} (hne : ds ≠ []) (hd : ∀ d ∈ ds, '/' ∉ d.text.toList) :
      pieces ("/".intercalate (ds.map Component.text)).toList
        = ds.map fun d => d.text.toList := by
    rw [String.toList_intercalate, List.map_map]
    exact pieces_intercalate (by simpa using hne) (by simpa using hd)
  cases cs with
  | nil => rfl
  | cons c rest =>
    obtain ⟨hc, hrest⟩ := h
    have htexts := filterMap_component?_texts hrest
    by_cases hr : c = .root
    · subst hr
      have hp : pieces (ofComponents (.root :: rest)).chars
          = [] :: pieces ("/".intercalate (rest.map Component.text)).toList := by
        simp [ofComponents, chars]
      have ha : (ofComponents (.root :: rest)).isAbsolute = true := by
        simp [ofComponents, isAbsolute, chars]
      rw [components_eq hp, ha]
      cases rest with
      | nil => rfl
      | cons d ds =>
        rw [hpieces (by simp) fun e he => slash_not_mem_text (hrest e he), htexts]
        rfl
    · have hof : (ofComponents (c :: rest)).chars
          = ("/".intercalate ((c :: rest).map Component.text)).toList := by
        cases c <;> simp_all [ofComponents, chars]
      have hslash : '/' ∉ c.text.toList := by
        rcases hc with rfl | rfl | hc
        · exact absurd rfl hr
        · decide
        · exact slash_not_mem_text hc
      have hsaid : component? true c.text.toList = some c := by
        rcases hc with rfl | rfl | hc
        · exact absurd rfl hr
        · rfl
        · exact component?_text_of_inner hc true
      have hp : pieces (ofComponents (c :: rest)).chars
          = c.text.toList :: rest.map fun d => d.text.toList := by
        rw [hof, hpieces (by simp)]
        · rfl
        · intro d hd
          rcases List.mem_cons.1 hd with rfl | hd
          · exact hslash
          · exact slash_not_mem_text (hrest d hd)
      have hne : c.text.toList ≠ [] := by
        intro hn
        rw [hn] at hsaid
        cases hsaid
      rw [components_eq hp, isAbsolute_of_pieces hp hne, hsaid, htexts]
      rfl

end DiskUsage.Path
