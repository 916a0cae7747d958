import DiskUsage.Path.Basic

/-!
# The components of a path that is put together

What a path says is read piece by piece, so it can be told from the parts that the path was put
together from.

* `pieces_append_slash`: texts set together by a slash have the pieces of both.
* `components_eq`: the root, if there is one, and what each piece says.
* `components_join`: a relative path joined to one that is not empty adds what its pieces say.
* `components_child`: the entry of a directory lies one name below it; `child_injective`: so its path
  tells its name.
-/

namespace DiskUsage.Path

/-! ## Pieces -/

theorem pieces_ne_nil (cs : List Char) : pieces cs ≠ [] := by
  induction cs with
  | nil => simp [pieces]
  | cons c cs ih =>
    rw [pieces]
    split
    · simp
    · split <;> simp

@[simp] theorem pieces_slash_cons (cs : List Char) : pieces ('/' :: cs) = [] :: pieces cs := by
  simp [pieces]

/-- A text without a slash is one piece. -/
theorem pieces_of_not_mem {cs : List Char} (h : '/' ∉ cs) : pieces cs = [cs] := by
  induction cs with
  | nil => rfl
  | cons c cs ih =>
    have hc : c ≠ '/' := fun e => h (e ▸ List.mem_cons_self)
    have hcs : '/' ∉ cs := fun m => h (List.mem_cons_of_mem _ m)
    rw [pieces, if_neg hc, ih hcs]

/-- A slash ends one piece and begins the next. -/
theorem pieces_append_slash (as bs : List Char) :
    pieces (as ++ '/' :: bs) = pieces as ++ pieces bs := by
  induction as with
  | nil => simp [pieces]
  | cons a as ih =>
    rw [List.cons_append, pieces, pieces, ih]
    obtain ⟨w, ws, h⟩ := List.exists_cons_of_ne_nil (pieces_ne_nil as)
    split
    · rfl
    · simp [h]

/-- A slash is never inside a piece. -/
theorem slash_not_mem_of_mem_pieces {cs w : List Char} (h : w ∈ pieces cs) : '/' ∉ w := by
  induction cs generalizing w with
  | nil => simp_all [pieces]
  | cons c cs ih =>
    rw [pieces] at h
    obtain ⟨v, vs, hv⟩ := List.exists_cons_of_ne_nil (pieces_ne_nil cs)
    split at h
    · rcases List.mem_cons.1 h with rfl | h
      · simp
      · exact ih h
    · next hc =>
      rw [hv] at h
      rcases List.mem_cons.1 h with rfl | h
      · have hw := ih (hv ▸ List.mem_cons_self)
        simp [hw, Ne.symm hc]
      · exact ih (hv ▸ List.mem_cons_of_mem _ h)

/-! ## What the pieces say -/

@[simp] theorem component?_nil (leading : Bool) : component? leading [] = none := rfl

/-- No piece says the root. -/
theorem component?_ne_root (leading : Bool) (w : List Char) :
    component? leading w ≠ some .root := by
  rw [component?]
  repeat' split
  all_goals simp

/-- Only the leading piece says `.`. -/
theorem component?_false_ne_current (w : List Char) : component? false w ≠ some .current := by
  rw [component?]
  repeat' split
  all_goals simp_all

theorem map_component_marksFrom {offset : Nat} (h : 0 < offset) (ws : List (List Char)) :
    (marksFrom offset ws).map Mark.component = ws.filterMap (component? false) := by
  induction ws generalizing offset with
  | nil => rfl
  | cons w ws ih =>
    have hb : (offset == 0) = false := by simp; omega
    have hnext : 0 < offset + w.length + 1 := by omega
    have ih' := ih hnext
    rw [marksFrom, hb, List.filterMap_cons]
    split <;> simp [*]

theorem map_component_marksFrom_zero (w : List Char) (ws : List (List Char)) :
    (marksFrom 0 (w :: ws)).map Mark.component
      = (component? true w).toList ++ ws.filterMap (component? false) := by
  have hnext : 0 < 0 + w.length + 1 := by omega
  have hws := map_component_marksFrom hnext ws
  rw [marksFrom]
  simp only [beq_self_eq_true]
  split <;> simp_all

/-- A path says its root, if it has one, and then what each of its pieces says. -/
theorem components_eq {p : Path} {w : List Char} {ws : List (List Char)}
    (h : pieces p.chars = w :: ws) :
    p.components = (if p.isAbsolute then [.root] else []) ++ (component? true w).toList
      ++ ws.filterMap (component? false) := by
  rw [components, marks, h, List.map_append, map_component_marksFrom_zero, List.append_assoc]
  split <;> rfl

/-- The empty path says nothing. -/
theorem components_of_chars_eq_nil {p : Path} (h : p.chars = []) : p.components = [] := by
  have hpieces : pieces p.chars = [[]] := by rw [h]; rfl
  rw [components_eq hpieces]
  simp [isAbsolute, h]

/-- Two texts whose first pieces are the same say the same there: the second says what the first
does, and then what its further pieces say. -/
theorem components_append {p r : Path} {us es vs : List (List Char)} (hu : us ≠ [])
    (ha : r.isAbsolute = p.isAbsolute) (hp : pieces p.chars = us ++ es)
    (he : es.filterMap (component? false) = []) (hr : pieces r.chars = us ++ vs) :
    r.components = p.components ++ vs.filterMap (component? false) := by
  obtain ⟨u, us, rfl⟩ := List.exists_cons_of_ne_nil hu
  rw [components_eq hp, components_eq hr, ha]
  simp [he]

/-! ## Joining -/

/-- What joining writes between a path and a relative one. -/
theorem chars_join {p q : Path} (hq : q.isAbsolute = false) :
    (p.join q).chars
      = if p.chars = [] ∨ p.chars.getLast? = some '/' then p.chars ++ q.chars
        else p.chars ++ '/' :: q.chars := by
  by_cases h : p.chars = [] ∨ p.chars.getLast? = some '/'
  · have hb : (p.chars.isEmpty || p.chars.getLast? == some '/') = true := by simpa using h
    rw [join, hq, if_neg (by simp), if_pos hb, if_pos h]
    simp [chars]
  · have hb : ¬(p.chars.isEmpty || p.chars.getLast? == some '/') = true := by simpa using h
    rw [join, hq, if_neg (by simp), if_neg hb, if_neg h]
    simp [chars]

theorem join_of_isAbsolute {p q : Path} (h : q.isAbsolute = true) : p.join q = q := by
  simp [join, h]

theorem isAbsolute_join_of_ne_nil {p q : Path} (hp : p.chars ≠ []) (hq : q.isAbsolute = false) :
    (p.join q).isAbsolute = p.isAbsolute := by
  obtain ⟨c, cs, h⟩ := List.exists_cons_of_ne_nil hp
  rw [isAbsolute, isAbsolute, chars_join hq]
  split <;> simp [h]

/-- **Joining** a relative path adds what its pieces say; a leading `.` of it says nothing any
more. -/
theorem components_join {p q : Path} (hp : p.chars ≠ []) (hq : q.isAbsolute = false) :
    (p.join q).components = p.components ++ (pieces q.chars).filterMap (component? false) := by
  have ha := isAbsolute_join_of_ne_nil hp hq
  have hc := chars_join (p := p) hq
  by_cases hl : p.chars.getLast? = some '/'
  · obtain ⟨as, has⟩ := List.getLast?_eq_some_iff.1 hl
    have hps : pieces p.chars = pieces as ++ [[]] := by
      rw [has, pieces_append_slash]
      rfl
    refine components_append (pieces_ne_nil as) ha hps rfl ?_
    rw [hc, if_pos (Or.inr hl), has, List.append_assoc, List.singleton_append,
      pieces_append_slash]
  · have hps : pieces p.chars = pieces p.chars ++ [] := by simp
    refine components_append (pieces_ne_nil _) ha hps rfl ?_
    rw [hc, if_neg (by simp [hp, hl]), pieces_append_slash]

/-! ## Names -/

/-- The text can be the name of a directory's entry. -/
def IsName (name : String) : Prop :=
  name ≠ "" ∧ name ≠ "." ∧ name ≠ ".." ∧ '/' ∉ name.toList

instance (name : String) : Decidable (IsName name) :=
  inferInstanceAs (Decidable (_ ∧ _))

theorem component?_of_isName {name : String} (h : IsName name) (leading : Bool) :
    component? leading name.toList = some (.normal name) := by
  obtain ⟨hn, hd, hp, -⟩ := h
  have hd' : name.toList ≠ ['.'] := fun e => hd (String.toList_inj.1 e)
  have hp' : name.toList ≠ ['.', '.'] := fun e => hp (String.toList_inj.1 e)
  have hn' : name.toList ≠ [] := by simpa using hn
  simp [component?, hd', hp', hn']

/-- A piece that says a name is that name. -/
theorem isName_of_component? {leading : Bool} {w : List Char} {name : String} (hw : '/' ∉ w)
    (h : component? leading w = some (.normal name)) : IsName name ∧ w = name.toList := by
  rw [component?] at h
  split at h
  · simp at h
  · next hn =>
    split at h
    · split at h <;> simp at h
    · next hd =>
      split at h
      · simp at h
      · next hp =>
        obtain rfl : String.ofList w = name := by simpa using h
        have hne (v : String) (hv : w ≠ v.toList) : String.ofList w ≠ v := by
          rintro rfl
          simp at hv
        exact ⟨⟨hne "" hn, hne "." hd, hne ".." hp, by simpa using hw⟩, by simp⟩

theorem isAbsolute_of_isName {name : String} (h : IsName name) :
    (Path.mk name).isAbsolute = false := by
  obtain ⟨-, -, -, hs⟩ := h
  cases hc : name.toList with
  | nil => simp [isAbsolute, chars, hc]
  | cons c cs =>
    have hne : c ≠ '/' := fun e => hs (by simp [hc, e])
    simp [isAbsolute, chars, hc, hne]

/-- **Children**: the entry of a directory lies one name below it. -/
theorem components_child {p : Path} {name : String} (hp : p.chars ≠ []) (h : IsName name) :
    (p.child name).components = p.components ++ [.normal name] := by
  have hs : pieces (Path.mk name).chars = [name.toList] := pieces_of_not_mem h.2.2.2
  rw [child, components_join hp (isAbsolute_of_isName h), hs]
  simp [component?_of_isName h]

/-- Entries of different names have different paths. -/
theorem child_injective {p : Path} {name other : String} (hname : IsName name) (hother : IsName other)
    (h : p.child name = p.child other) : name = other := by
  have hjoin : (p.child name).chars = _ := chars_join (isAbsolute_of_isName hname)
  have hjoin' : (p.child other).chars = _ := chars_join (isAbsolute_of_isName hother)
  rw [h, hjoin'] at hjoin
  split at hjoin
  · exact String.toList_inj.1 (List.append_cancel_left hjoin).symm
  · exact String.toList_inj.1 (List.cons.inj (List.append_cancel_left hjoin)).2.symm

end DiskUsage.Path
