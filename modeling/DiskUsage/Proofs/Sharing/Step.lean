import DiskUsage.Sharing.InFlight

/-!
# What callers do

A schedule says whose turn it is, and the **history** says what was done.  Every step of a caller is
one deed: it takes its slot, starts or ends its measurement or joins somebody else's, releases the
slot, and returns.

* `InFlight.Deed`, `InFlight.history`: what was done, in order, and by whom.
* `InFlight.Step`: the steps; `turn_cases`: there are no others, and each does its deed.
* `deedsOf`, `runsOf`: the deeds of one caller, and those that started or ended a measurement for
  one slot.
* `run_induction`: what every step keeps holds after every schedule, with its history.
-/

namespace DiskUsage.InFlight

variable {ε : Type}

/-- What a caller does in one step. -/
inductive Deed (ε : Type) where
  | takes (slot : Nat)
  | starts (slot : Nat)
  | ends (slot : Nat) (outcome : Except ε Nat)
  | joins (slot : Nat)
  /-- It finds the size in the slot. -/
  | releases (slot : Nat) (size? : Option Nat)
  | returns (slot : Nat) (answer : Except (Option ε) Nat)

/-- The slot that a deed is about. -/
def Deed.slot : Deed ε → Nat
  | .takes slot | .starts slot | .ends slot _ | .joins slot | .releases slot _ | .returns slot _ => slot

/-- A deed starts or ends the measurement for a slot. -/
def Deed.runs (slot : Nat) : Deed ε → Bool
  | .starts other | .ends other _ => other == slot
  | _ => false

theorem Deed.slot_of_runs {d : Deed ε} {k : Nat} (h : d.runs k = true) : d.slot = k := by
  cases d <;> simp_all [runs, slot]

/-- What a caller does in its next step, if it can take one. -/
def deed? (s : InFlight ε) (i : Nat) (outcome : Except ε Nat) : Option (Deed ε) :=
  match s.callers[i]? with
  | none => none
  | some (path, caller) =>
    match caller with
    | .asking => some (.takes ((s.slotOf? path).getD s.slots.length))
    | .holding slot =>
      match s.slots[slot]? with
      | some .empty => some (.starts slot)
      | some (.filled _) => some (.joins slot)
      | _ => none
    | .measuring slot => some (.ends slot outcome)
    | .releasing slot _ =>
      match s.slots[slot]? with
      | some (.filled size?) => some (.releases slot size?)
      | _ => none
    | .leaving slot own? size? => some (.returns slot (answer own? size?))
    | .returned _ => none

/-- What was done by a schedule, each deed with the caller that did it. -/
def history (s : InFlight ε) : List (Nat × Except ε Nat) → List (Nat × Deed ε)
  | [] => []
  | (i, outcome) :: rest =>
    ((s.deed? i outcome).map fun d => (i, d)).toList ++
      ((s.step? i outcome).getD s).history rest

/-- One step of a caller. -/
inductive Step (s : InFlight ε) (i : Nat) : Deed ε → InFlight ε → Prop where
  | takeShared {path : Path} {slot : Nat} (hi : s.callers[i]? = some (path, .asking))
      (hs : s.slotOf? path = some slot) : Step s i (.takes slot) (s.move i path (.holding slot))
  | takeNew {path : Path} (hi : s.callers[i]? = some (path, .asking)) (hs : s.slotOf? path = none) :
      Step s i (.takes s.slots.length) ((s.addSlot path).move i path (.holding s.slots.length))
  | start {path : Path} {slot : Nat} (hi : s.callers[i]? = some (path, .holding slot))
      (hs : s.slots[slot]? = some .empty) :
      Step s i (.starts slot) ((s.setSlot slot .busy).move i path (.measuring slot))
  | join {path : Path} {slot : Nat} {size? : Option Nat}
      (hi : s.callers[i]? = some (path, .holding slot))
      (hs : s.slots[slot]? = some (.filled size?)) :
      Step s i (.joins slot) (s.move i path (.releasing slot none))
  | finish {path : Path} {slot : Nat} {outcome : Except ε Nat}
      (hi : s.callers[i]? = some (path, .measuring slot)) :
      Step s i (.ends slot outcome)
        ((s.setSlot slot (.filled (sizeOf? outcome))).move i path (.releasing slot (some outcome)))
  | release {path : Path} {slot : Nat} {own? : Option (Except ε Nat)} {size? : Option Nat}
      (hi : s.callers[i]? = some (path, .releasing slot own?))
      (hs : s.slots[slot]? = some (.filled size?)) :
      Step s i (.releases slot size?)
        ((s.dropSlot path slot).move i path (.leaving slot own? size?))
  | leave {path : Path} {slot : Nat} {own? : Option (Except ε Nat)} {size? : Option Nat}
      (hi : s.callers[i]? = some (path, .leaving slot own? size?)) :
      Step s i (.returns slot (answer own? size?)) (s.move i path (.returned (answer own? size?)))

/-- **A turn**: who can take a step does one deed by it, and who cannot does none. -/
theorem turn_cases (s : InFlight ε) (i : Nat) (outcome : Except ε Nat) :
    (s.deed? i outcome = none ∧ s.step? i outcome = none) ∨
      ∃ d t, s.deed? i outcome = some d ∧ s.step? i outcome = some t ∧ Step s i d t := by
  unfold deed? step?
  cases hi : s.callers[i]? with
  | none => exact .inl ⟨rfl, rfl⟩
  | some c =>
    obtain ⟨path, caller⟩ := c
    cases caller with
    | asking =>
      dsimp only
      cases hs : s.slotOf? path with
      | none => exact .inr ⟨_, _, rfl, rfl, .takeNew hi hs⟩
      | some slot => exact .inr ⟨_, _, rfl, rfl, .takeShared hi hs⟩
    | holding slot =>
      dsimp only
      rcases hs : s.slots[slot]? with _ | (_ | _ | size?)
      · exact .inl ⟨rfl, rfl⟩
      · exact .inr ⟨_, _, rfl, rfl, .start hi hs⟩
      · exact .inl ⟨rfl, rfl⟩
      · exact .inr ⟨_, _, rfl, rfl, .join hi hs⟩
    | measuring slot => exact .inr ⟨_, _, rfl, rfl, .finish hi⟩
    | releasing slot own? =>
      dsimp only
      rcases hs : s.slots[slot]? with _ | (_ | _ | size?)
      · exact .inl ⟨rfl, rfl⟩
      · exact .inl ⟨rfl, rfl⟩
      · exact .inl ⟨rfl, rfl⟩
      · exact .inr ⟨_, _, rfl, rfl, .release hi hs⟩
    | leaving slot own? size? => exact .inr ⟨_, _, rfl, rfl, .leave hi⟩
    | returned answer => exact .inl ⟨rfl, rfl⟩

/-- What every step keeps, with the deed added to what was done before, holds after every
schedule. -/
theorem run_induction {inv : List (Nat × Deed ε) → InFlight ε → Prop}
    (hstep : ∀ {h s i d t}, Step s i d t → inv h s → inv (h ++ [(i, d)]) t)
    {h : List (Nat × Deed ε)} {s : InFlight ε} (hinv : inv h s) (schedule : List (Nat × Except ε Nat)) :
    inv (h ++ s.history schedule) (s.run schedule) := by
  induction schedule generalizing h s with
  | nil => simpa [history] using hinv
  | cons turn rest ih =>
    obtain ⟨i, outcome⟩ := turn
    rw [run_cons, history]
    rcases turn_cases s i outcome with ⟨hd, ht⟩ | ⟨d, t, hd, ht, hs⟩
    · rw [hd, ht]
      exact ih hinv
    · have hrest := ih (hstep hs hinv)
      rw [List.append_assoc] at hrest
      rw [hd, ht]
      exact hrest

/-! ## One caller, one slot -/

/-- What one caller did. -/
def deedsOf (h : List (Nat × Deed ε)) (i : Nat) : List (Deed ε) :=
  (h.filter fun e => e.1 == i).map Prod.snd

/-- What started or ended a measurement for one slot. -/
def runsOf (h : List (Nat × Deed ε)) (k : Nat) : List (Nat × Deed ε) :=
  h.filter fun e => e.2.runs k

variable {h : List (Nat × Deed ε)} {d : Deed ε} {i j k : Nat}

@[simp] theorem mem_deedsOf : d ∈ deedsOf h i ↔ (i, d) ∈ h := by
  simp [deedsOf]

theorem deedsOf_concat_self : deedsOf (h ++ [(i, d)]) i = deedsOf h i ++ [d] := by
  simp [deedsOf]

theorem deedsOf_concat_of_ne (hj : i ≠ j) : deedsOf (h ++ [(i, d)]) j = deedsOf h j := by
  simp [deedsOf, hj]

@[simp] theorem mem_runsOf {e : Nat × Deed ε} : e ∈ runsOf h k ↔ e ∈ h ∧ e.2.runs k = true := by
  simp [runsOf]

theorem runsOf_concat_of_runs (hd : d.runs k = true) :
    runsOf (h ++ [(i, d)]) k = runsOf h k ++ [(i, d)] := by
  simp [runsOf, hd]

theorem runsOf_concat_of_not (hd : d.runs k = false) : runsOf (h ++ [(i, d)]) k = runsOf h k := by
  simp [runsOf, hd]

end DiskUsage.InFlight
