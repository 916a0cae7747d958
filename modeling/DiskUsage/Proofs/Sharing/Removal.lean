import DiskUsage.Proofs.Sharing.Joining

/-!
# When a slot leaves the table

Every caller that took a slot tries to take it out of the table, maybe long after another caller did so
and the path has a new slot.  A slot is in the table from when it is taken first until it is released
first: whoever releases it later finds it gone, and leaves the new one where it is.

* `Caller.held?`, `Caller.isUnderway`: the slot that a caller has not released; a call that began and did
  not return.
* `Stays`: a slot that nobody has released is in the table; `Step.stays`: every step keeps that.
* `Orderly.exists_holder`: a slot in the table is held.
* `Orderly.slotOf?_release`: what a release does to the slots of all paths.
* `slots_leave_with_their_first_release`: so in every reachable state, and when no call is in progress the
  table is empty.
-/

namespace DiskUsage

/-- The slot that a caller has taken and not released. -/
def Caller.held? {ε : Type} : Caller ε → Option Nat
  | .holding slot | .measuring slot | .releasing slot _ => some slot
  | .asking | .leaving .. | .returned _ => none

/-- The call began and has not returned. -/
def Caller.isUnderway {ε : Type} : Caller ε → Bool
  | .asking | .returned _ => false
  | .holding _ | .measuring _ | .releasing .. | .leaving .. => true

namespace InFlight

variable {ε : Type} {paths : List Path} {h : List (Nat × Deed ε)} {s t : InFlight ε} {d : Deed ε}
  {i k : Nat} {p : Path} {outcome : Except ε Nat}

/-- A slot that was taken and that nobody has released is in the table. -/
def Stays (h : List (Nat × Deed ε)) (s : InFlight ε) : Prop :=
  ∀ i k, (i, .takes k) ∈ h → (∀ j size?, (j, .releases k size?) ∉ h) → ∃ e ∈ s.table, e.2 = k

/-- A step that takes no slot, and takes no other out of the table than the one that it releases. -/
theorem Stays.step (h' : Stays h s) (htakes : ∀ k, d ≠ .takes k)
    (hkept : ∀ e ∈ s.table, (∀ size?, d ≠ .releases e.2 size?) → e ∈ t.table) :
    Stays (h ++ [(i, d)]) t := by
  intro j k htook hnot
  have hold : (j, .takes k) ∈ h := by
    refine (List.mem_append.1 htook).resolve_right fun hnew => ?_
    cases List.mem_singleton.1 hnew
    exact htakes k rfl
  obtain ⟨e, he, rfl⟩ := h' j k hold fun l size? hl => hnot l size? (List.mem_append_left _ hl)
  refine ⟨e, hkept e he fun size? hd => ?_, rfl⟩
  exact hnot i size? (List.mem_append_right _ (by rw [hd]; exact List.mem_singleton_self _))

/-- A step that takes a slot, which is then in the table. -/
theorem Stays.take (h' : Stays h s) (hkept : ∀ e ∈ s.table, e ∈ t.table) (htook : ∃ e ∈ t.table, e.2 = k) :
    Stays (h ++ [(i, .takes k)]) t := by
  intro j l hl hnot
  rcases List.mem_append.1 hl with hold | hnew
  · obtain ⟨e, he, rfl⟩ := h' j l hold fun m size? hm => hnot m size? (List.mem_append_left _ hm)
    exact ⟨e, hkept e he, rfl⟩
  · cases List.mem_singleton.1 hnew
    exact htook

theorem Step.stays (hs : Step s i d t) (h' : Stays h s) : Stays (h ++ [(i, d)]) t := by
  cases hs with
  | takeShared hi hs =>
    obtain ⟨e, he, -, rfl⟩ := mem_table_of_slotOf? hs
    exact h'.take (fun _ => id) ⟨e, he, rfl⟩
  | takeNew hi hs =>
    exact h'.take (fun _ => List.mem_cons_of_mem _) ⟨_, List.mem_cons_self, rfl⟩
  | start hi hs | join hi hs | finish hi | leave hi => exact h'.step nofun fun _ he _ => he
  | @release path slot own? size? hi hs =>
    refine h'.step nofun fun e he hother => List.mem_filter.2 ⟨he, ?_⟩
    have hne : e.2 ≠ slot := fun heq => hother size? (by rw [heq])
    simp [hne]

/-- **Every reachable state**: it is orderly, and no slot is missing. -/
theorem orderly_stays_run (paths : List Path) (schedule : List (Nat × Except ε Nat)) :
    Orderly paths ((init paths).history schedule) ((init paths).run schedule) ∧
      Stays ((init paths : InFlight ε).history schedule) ((init paths).run schedule) := by
  let inv (h : List (Nat × Deed ε)) (s : InFlight ε) : Prop := Orderly paths h s ∧ Stays h s
  have hinit : inv [] (init paths) := ⟨orderly_init paths, nofun⟩
  have hstep : ∀ {h s i d t}, Step s i d t → inv h s → inv (h ++ [(i, d)]) t :=
    fun hs hinv => ⟨hs.orderly hinv.1, hs.stays hinv.2⟩
  exact run_induction hstep hinit schedule

/-! ### Who holds a slot -/

/-- A caller that took a slot holds it, or has released it. -/
theorem Did.held_or_released {c : Caller ε} {l : List (Deed ε)} (hdid : Did c l) (htook : .takes k ∈ l) :
    c.held? = some k ∨ ∃ size?, .releases k size? ∈ l := by
  cases hdid with
  | asking => cases htook
  | holding slot | measuring slot | releasing slot own? =>
    have hk : k = slot := by simpa [mem_turn] using htook
    exact .inl (by rw [hk]; rfl)
  | leaving slot own? size? | returned slot own? size? =>
    have hk : k = slot := by simpa [mem_turn] using htook
    exact .inr ⟨size?, by simp [hk]⟩

/-- **A slot in the table is held** by a caller, for its path. -/
theorem Orderly.exists_holder (h' : Orderly paths h s) {e : Path × Nat} (he : e ∈ s.table) :
    ∃ (i : Nat) (p : Path) (c : Caller ε),
      s.callers[i]? = some (p, c) ∧ p.sameAs e.1 = true ∧ c.held? = some e.2 := by
  obtain ⟨i, htook⟩ := h'.taken e he
  obtain ⟨p, c, hi, hp, hdid⟩ := h'.did_of_mem htook
  refine ⟨i, p, c, hi, (Path.sameAs_iff p e.1).2 (h'.linked.agrees he htook hp).symm, ?_⟩
  refine (hdid.held_or_released (mem_deedsOf.2 htook)).resolve_right ?_
  rintro ⟨size?, hreleased⟩
  exact h'.linked.unlinked (mem_deedsOf.1 hreleased) he rfl

/-- A slot is in the table iff it was taken, and nobody has released it. -/
theorem Orderly.mem_table_iff (h' : Orderly paths h s) (hstays : Stays h s) (k : Nat) :
    (∃ e ∈ s.table, e.2 = k) ↔
      (∃ i, (i, .takes k) ∈ h) ∧ ∀ i size?, (i, .releases k size?) ∉ h := by
  constructor
  · rintro ⟨e, he, rfl⟩
    exact ⟨h'.taken e he, fun i size? hi => h'.linked.unlinked hi he rfl⟩
  · rintro ⟨⟨i, htook⟩, hnot⟩
    exact hstays i k htook hnot

/-! ### A release -/

/-- A path has at most one slot, so that what is found for it is what the table has for it. -/
theorem Linked.slotOf?_eq_some_iff (hl : Linked paths h s) {q : Path} :
    s.slotOf? q = some k ↔ ∃ e ∈ s.table, e.1.components = q.components ∧ e.2 = k := by
  constructor
  · exact mem_table_of_slotOf?
  · rintro ⟨e, he, hpath, rfl⟩
    cases hslot : s.slotOf? q with
    | none => exact absurd hpath (slotOf?_eq_none hslot he)
    | some l =>
      obtain ⟨f, hf, hfpath, rfl⟩ := mem_table_of_slotOf? hslot
      rw [hl.eq_of_path hf he (hfpath.trans hpath.symm)]

/-- **A release** takes out the slot that its caller holds, if that is still in the table, and leaves the
slots of all paths as they are otherwise. -/
theorem Orderly.slotOf?_release (h' : Orderly paths h s) {own? : Option (Except ε Nat)}
    (hi : s.callers[i]? = some (p, .releasing k own?)) (hstep : s.step? i outcome = some t) (q : Path) :
    t.slotOf? q = if s.slotOf? q = some k then none else s.slotOf? q := by
  obtain ⟨size?, hsize, rfl⟩ : ∃ size?, s.slots[k]? = some (.filled size?) ∧
      t = (s.dropSlot p k).move i p (.leaving k own? size?) := by
    rw [step?, hi] at hstep
    dsimp only at hstep
    split at hstep
    · next size? hsize => exact ⟨size?, hsize, (Option.some.inj hstep).symm⟩
    · cases hstep
  have hlinked : Linked paths (h ++ [(i, .releases k size?)])
      ((s.dropSlot p k).move i p (.leaving k own? size?)) :=
    (Step.release hi hsize).linked h'.followed h'.kept h'.linked
  have htook : (i, .takes k) ∈ h := by
    have hdid := h'.followed.did hi
    rw [← mem_deedsOf]
    generalize deedsOf h i = l at hdid
    cases hdid
    exact List.mem_cons_self
  -- whoever has the slot of this caller in the table has its path
  have hgone : ∀ e : Path × Nat, e ∈ (s.dropSlot p k).table ↔ e ∈ s.table ∧ e.2 ≠ k := by
    intro e
    refine List.mem_filter.trans (and_congr_right fun he => ?_)
    by_cases hk : e.2 = k
    · have hsame : e.1.sameAs p = true :=
        (Path.sameAs_iff _ _).2 (h'.linked.agrees he (hk ▸ htook) (h'.followed.path_eq hi))
      simp [hk, hsame]
    · simp [hk]
  refine Option.ext fun l => ?_
  rw [hlinked.slotOf?_eq_some_iff]
  have hmem : (∃ e ∈ (s.dropSlot p k).table, e.1.components = q.components ∧ e.2 = l) ↔
      s.slotOf? q = some l ∧ l ≠ k := by
    rw [h'.linked.slotOf?_eq_some_iff]
    constructor
    · rintro ⟨e, he, hpath, rfl⟩
      exact ⟨⟨e, ((hgone e).1 he).1, hpath, rfl⟩, ((hgone e).1 he).2⟩
    · rintro ⟨⟨e, he, hpath, rfl⟩, hk⟩
      exact ⟨e, (hgone e).2 ⟨he, hk⟩, hpath, rfl⟩
  refine hmem.trans ?_
  split
  · next hslot => simp [hslot, eq_comm]
  · next hslot =>
    refine and_iff_left_of_imp ?_
    rintro hl rfl
    exact hslot hl

/-- **Slots leave with their first release**, in every state that any number of calls reach in any order.
Every slot in the table is held by a call in progress for its path.  A slot is in the table from the step in
which it was first taken until the step in which it was first released.  A release takes out no slot but the
one that its call holds: if the path has a new one by then, that stays.  When no call is in progress the
table is empty. -/
theorem slots_leave_with_their_first_release (paths : List Path)
    (schedule : List (Nat × Except ε Nat)) :
    let s : InFlight ε := (init paths).run schedule
    let h : List (Nat × Deed ε) := (init paths).history schedule
    (∀ e ∈ s.table, ∃ (i : Nat) (p : Path) (c : Caller ε), s.callers[i]? = some (p, c) ∧
      p.sameAs e.1 = true ∧ c.isUnderway = true ∧ c.held? = some e.2) ∧
    (∀ k, (∃ e ∈ s.table, e.2 = k) ↔
      (∃ i, (i, .takes k) ∈ h) ∧ ∀ i size?, (i, .releases k size?) ∉ h) ∧
    (∀ i p k own? outcome t, s.callers[i]? = some (p, .releasing k own?) →
      s.step? i outcome = some t →
      ∀ q, t.slotOf? q = if s.slotOf? q = some k then none else s.slotOf? q) ∧
    ((∀ c ∈ s.callers, c.2.isUnderway = false) → s.table = []) := by
  intro s h
  obtain ⟨horderly, hstays⟩ : Orderly paths h s ∧ Stays h s := orderly_stays_run paths schedule
  refine ⟨fun e he => ?_, horderly.mem_table_iff hstays, ?_, fun hidle => ?_⟩
  · obtain ⟨i, p, c, hi, hpath, hheld⟩ := horderly.exists_holder he
    refine ⟨i, p, c, hi, hpath, ?_, hheld⟩
    cases c <;> first | rfl | cases hheld
  · intro i p k own? outcome t hi hstep
    exact horderly.slotOf?_release hi hstep
  · refine horderly.table_eq_nil fun c hc => ?_
    have hnot := hidle c hc
    cases hcaller : c.2 with
    | asking => exact .inr rfl
    | returned answer => exact .inl rfl
    | _ => rw [hcaller] at hnot; cases hnot

/-- Three calls for one path. -/
def threePaths : List Path := [⟨"/a"⟩, ⟨"/a/"⟩, ⟨"/a"⟩]

/-- A call waited and returned before the one that measured could release the slot, and a third call took
a new slot for the same path. -/
def lingering : List (Nat × Except String Nat) :=
  [0, 1, 0, 0, 1, 1, 1, 2].map fun i => (i, .ok 5)

/-- After that all of them return. -/
def ended : List (Nat × Except String Nat) :=
  lingering ++ [0, 0, 2, 2, 2, 2].map fun i => (i, .ok 7)

theorem late_release_leaves_the_new_slot :
    let s : InFlight String := (init threePaths).run lingering
    let u : InFlight String := (init threePaths).run ended
    (s.callers[0]? = some (⟨"/a"⟩, .releasing 0 (some (.ok 5))) ∧ s.table = [(⟨"/a"⟩, 1)] ∧
      ∃ t, s.step? 0 (.ok 5) = some t ∧ t.slotOf? ⟨"/a"⟩ = some 1) ∧
    (∃ (i : Nat) (p : Path) (c : Caller String), s.callers[i]? = some (p, c) ∧
      p.sameAs ⟨"/a"⟩ = true ∧ c.isUnderway = true ∧ c.held? = some 1) ∧
    (∀ c ∈ u.callers, c.2.isUnderway = false) ∧ u.table = [] := by
  intro s u
  have hcaller : s.callers[0]? = some (⟨"/a"⟩, .releasing 0 (some (.ok 5))) := by rfl
  have htable : s.table = [(⟨"/a"⟩, 1)] := by rfl
  have hslot : s.slotOf? ⟨"/a"⟩ = some 1 := by decide +kernel
  obtain ⟨t, hstep⟩ : ∃ t, s.step? 0 (.ok 5) = some t := ⟨_, rfl⟩
  obtain ⟨hheld, -, hrelease, -⟩ := slots_leave_with_their_first_release threePaths lingering
  have hnew : t.slotOf? ⟨"/a"⟩ = some 1 := by
    rw [hrelease 0 _ 0 _ (.ok 5) t hcaller hstep, hslot]
    rfl
  have hidle : ∀ c ∈ u.callers, c.2.isUnderway = false := by
    have hall : (u.callers.all fun c => !c.2.isUnderway) = true := by decide +kernel
    intro c hc
    simpa using List.all_eq_true.1 hall c hc
  exact ⟨⟨hcaller, htable, t, hstep, hnew⟩, hheld (⟨"/a"⟩, 1) (htable ▸ List.mem_singleton_self _), hidle,
    (slots_leave_with_their_first_release threePaths ended).2.2.2 hidle⟩

end InFlight

end DiskUsage
