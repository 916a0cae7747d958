import DiskUsage.Proofs.Sharing.Step

/-!
# What a caller did, from where it stands

Where a caller stands says all that it did: it took one slot, ran the measurement for it or joined
one, released that slot and returned, in this order.

* `InFlight.Did`: the deeds behind a standing; `Did.takes_mem`, `Did.slot_eq`: all are about the slot
  that was taken; `Did.answered`: nobody returns before its slot is released.
* `InFlight.Followed`: this holds of all callers; `Step.followed`: every step keeps it.
-/

namespace DiskUsage.InFlight

variable {ε : Type}

/-- How a caller came by an outcome: by a measurement of its own, or by somebody else's. -/
def turn (slot : Nat) : Option (Except ε Nat) → List (Deed ε)
  | some outcome => [.starts slot, .ends slot outcome]
  | none => [.joins slot]

/-- What a caller did, from where it stands. -/
inductive Did : Caller ε → List (Deed ε) → Prop where
  | asking : Did .asking []
  | holding (slot : Nat) : Did (.holding slot) [.takes slot]
  | measuring (slot : Nat) : Did (.measuring slot) [.takes slot, .starts slot]
  | releasing (slot : Nat) (own? : Option (Except ε Nat)) :
      Did (.releasing slot own?) (.takes slot :: turn slot own?)
  | leaving (slot : Nat) (own? : Option (Except ε Nat)) (size? : Option Nat) :
      Did (.leaving slot own? size?) (.takes slot :: (turn slot own? ++ [.releases slot size?]))
  | returned (slot : Nat) (own? : Option (Except ε Nat)) (size? : Option Nat) :
      Did (.returned (answer own? size?)) (.takes slot ::
        (turn slot own? ++ [.releases slot size?, .returns slot (answer own? size?)]))

theorem mem_turn {d : Deed ε} {slot : Nat} {own? : Option (Except ε Nat)} :
    d ∈ turn slot own? ↔
      (∃ outcome, own? = some outcome ∧ (d = .starts slot ∨ d = .ends slot outcome)) ∨
        own? = none ∧ d = .joins slot := by
  cases own? <;> simp [turn]

namespace Did

variable {c : Caller ε} {l : List (Deed ε)} {d : Deed ε} {k : Nat}

/-- Whatever a caller did, it took the slot that it did it to. -/
theorem takes_mem (h : Did c l) (hd : d ∈ l) : .takes d.slot ∈ l := by
  cases h with
  | asking => cases hd
  | _ =>
    simp only [List.mem_cons, List.mem_append, mem_turn, List.not_mem_nil] at hd ⊢
    grind [Deed.slot]

/-- A caller takes one slot. -/
theorem slot_eq (h : Did c l) (hk : .takes k ∈ l) (hd : d ∈ l) : d.slot = k := by
  cases h with
  | asking => cases hd
  | _ =>
    simp only [List.mem_cons, List.mem_append, mem_turn, List.not_mem_nil] at hd hk
    grind [Deed.slot]

/-- Nobody returns before its slot is released, and the answer is what it found in the slot, unless
it measured. -/
theorem answered {a : Except (Option ε) Nat} (h : Did c l) (hd : .returns k a ∈ l) :
    ∃ own? size?, a = answer own? size? ∧ .releases k size? ∈ l ∧
      (∀ outcome, own? = some outcome → .ends k outcome ∈ l) ∧ (own? = none → .starts k ∉ l) := by
  cases h with
  | returned slot own? size? =>
    have hk : k = slot := slot_eq (.returned slot own? size?) (by simp) hd
    subst hk
    have ha : a = answer own? size? := by simpa [mem_turn] using hd
    refine ⟨own?, size?, ha, by simp, ?_, ?_⟩
    · rintro outcome rfl
      simp [turn]
    · rintro rfl
      simp [turn]
  | _ => simp [mem_turn] at hd

theorem returns_mem {a : Except (Option ε) Nat} (h : Did (.returned a) l) : ∃ k, .returns k a ∈ l := by
  cases h with
  | returned slot own? size? => exact ⟨slot, by simp⟩

/-- A caller that measures started its measurement, and did not end it. -/
theorem measures (h : Did (.measuring k) l) :
    .starts k ∈ l ∧ ∀ outcome, .ends k outcome ∉ l := by
  cases h
  simp

end Did

/-- All callers did what their standing says, each for its path. -/
structure Followed (paths : List Path) (h : List (Nat × Deed ε)) (s : InFlight ε) : Prop where
  paths_eq : s.callers.map Prod.fst = paths
  did : ∀ {i p c}, s.callers[i]? = some (p, c) → Did c (deedsOf h i)
  present : ∀ {i d}, (i, d) ∈ h → i < s.callers.length

variable {paths : List Path} {h : List (Nat × Deed ε)} {s t : InFlight ε} {i j k : Nat} {d : Deed ε}

theorem followed_init (paths : List Path) : Followed paths ([] : List (Nat × Deed ε)) (init paths) := by
  refine ⟨by simp [init, Function.comp_def], ?_, by simp⟩
  intro i p c hi
  simp only [init, List.getElem?_map, Option.map_eq_some_iff, Prod.mk.injEq] at hi
  obtain ⟨q, -, -, rfl⟩ := hi
  exact .asking

/-- **A step** moves one caller on, by its deed. -/
theorem Step.moves (hs : Step s i d t) :
    ∃ p c c', s.callers[i]? = some (p, c) ∧ t.callers = s.callers.set i (p, c') ∧
      ∀ l, Did c l → Did c' (l ++ [d]) := by
  cases hs with
  | takeShared hi hs =>
    refine ⟨_, _, _, hi, rfl, fun l hl => ?_⟩
    cases hl
    exact .holding _
  | takeNew hi hs =>
    refine ⟨_, _, _, hi, rfl, fun l hl => ?_⟩
    cases hl
    exact .holding _
  | start hi hs =>
    refine ⟨_, _, _, hi, rfl, fun l hl => ?_⟩
    cases hl
    exact .measuring _
  | join hi hs =>
    refine ⟨_, _, _, hi, rfl, fun l hl => ?_⟩
    cases hl
    exact .releasing _ none
  | finish hi =>
    refine ⟨_, _, _, hi, rfl, fun l hl => ?_⟩
    cases hl
    exact .releasing _ (some _)
  | release hi hs =>
    refine ⟨_, _, _, hi, rfl, fun l hl => ?_⟩
    cases hl
    exact .leaving _ _ _
  | leave hi =>
    refine ⟨_, _, _, hi, rfl, fun l hl => ?_⟩
    cases hl
    rw [List.cons_append, List.append_assoc]
    exact .returned _ _ _

theorem Step.followed (hs : Step s i d t) (h' : Followed paths h s) :
    Followed paths (h ++ [(i, d)]) t := by
  obtain ⟨p, c, c', hi, hcallers, hdid⟩ := hs.moves
  obtain ⟨hlt, hp⟩ := List.getElem?_eq_some_iff.1 hi
  refine ⟨?_, ?_, ?_⟩
  · have hlt' : i < (s.callers.map Prod.fst).length := by rwa [List.length_map]
    have hmap : (s.callers.map Prod.fst)[i] = p := by rw [List.getElem_map, hp]
    rw [hcallers, List.map_set, ← h'.paths_eq, ← hmap, List.set_getElem_self]
  · intro j q b hj
    rw [hcallers] at hj
    by_cases hij : i = j
    · subst hij
      rw [List.getElem?_set_self hlt] at hj
      cases hj
      rw [deedsOf_concat_self]
      exact hdid _ (h'.did hi)
    · rw [List.getElem?_set_ne hij] at hj
      rw [deedsOf_concat_of_ne hij]
      exact h'.did hj
  · intro j e he
    rw [hcallers, List.length_set]
    rcases List.mem_append.1 he with he | he
    · exact h'.present he
    · cases List.mem_singleton.1 he
      exact hlt

end DiskUsage.InFlight
