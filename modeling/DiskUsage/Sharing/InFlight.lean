import DiskUsage.Path.Basic

/-!
# Sharing a measurement

Callers that want the size of the same path at the same time share one measurement.  A table has a
slot for each path that is being measured.  A caller takes the slot of its path, or a new one; the
first caller to reach an empty slot measures and fills it, and the others wait until it is filled;
then each takes the slot out of the table, if it is still there, and returns.

The state of all callers changes by the steps of one caller at a time, in any order, and every
measurement ends in an outcome of its own.

Of the table this is assumed: looking a slot up, or making it where there is none, is one step, and so is
taking a slot out if it is still the one in the table; no two callers make a slot for one path at a time.
Of a slot it is assumed that one caller fills it, and once, and that whoever comes to it meanwhile
waits until it is filled.

* `InFlight.step?`: one step of one caller, if it can take one.
* `InFlight.run`: the state after callers took steps by a schedule.
* `InFlight.share`: the answers of callers that start together.
* `table_init`: at first no slot is in the table.
-/

namespace DiskUsage

/-- What is known of a slot. -/
inductive Slot where
  | empty
  /-- Somebody is measuring. -/
  | busy
  /-- The size, or none if the measurement failed. -/
  | filled (size? : Option Nat)
  deriving DecidableEq, Repr

/-- Where a caller stands. -/
inductive Caller (ε : Type) where
  /-- It has not asked for a slot. -/
  | asking
  /-- It holds a slot and waits for it to be filled, or may fill it. -/
  | holding (slot : Nat)
  /-- It measures for a slot. -/
  | measuring (slot : Nat)
  /-- Its slot is filled; `own?` is the outcome of its own measurement. -/
  | releasing (slot : Nat) (own? : Option (Except ε Nat))
  /-- Its slot is out of the table, and it knows the size in it, or that there is none. -/
  | leaving (slot : Nat) (own? : Option (Except ε Nat)) (size? : Option Nat)
  /-- It has its answer; a failure of somebody else's measurement has no cause. -/
  | returned (answer : Except (Option ε) Nat)
  deriving Repr

/-- Callers, each with its path, and the slots that they share. -/
structure InFlight (ε : Type) where
  callers : List (Path × Caller ε)
  /-- The slots of the paths that are being measured. -/
  table : List (Path × Nat)
  /-- All slots that were ever made. -/
  slots : List Slot

namespace InFlight

variable {ε : Type}

/-- Callers that have not asked for anything. -/
def init (paths : List Path) : InFlight ε :=
  ⟨paths.map fun p => (p, .asking), [], []⟩

/-- The slot of a path. -/
def slotOf? (s : InFlight ε) (path : Path) : Option Nat :=
  (s.table.find? fun e => e.1.sameAs path).map Prod.snd

/-- The state with a caller moved on. -/
def move (s : InFlight ε) (i : Nat) (path : Path) (c : Caller ε) : InFlight ε :=
  { s with callers := s.callers.set i (path, c) }

/-- The state with a slot changed. -/
def setSlot (s : InFlight ε) (slot : Nat) (value : Slot) : InFlight ε :=
  { s with slots := s.slots.set slot value }

/-- The state with a new slot for a path. -/
def addSlot (s : InFlight ε) (path : Path) : InFlight ε :=
  { s with table := (path, s.slots.length) :: s.table, slots := s.slots ++ [.empty] }

/-- The state with a slot taken out of the table, if it is still the slot of its path. -/
def dropSlot (s : InFlight ε) (path : Path) (slot : Nat) : InFlight ε :=
  { s with table := s.table.filter fun e => !(e.1.sameAs path && e.2 == slot) }

/-- The size that an outcome leaves in a slot. -/
def sizeOf? : Except ε Nat → Option Nat
  | .ok size => some size
  | .error _ => none

/-- The answer to a caller: the outcome of its own measurement, or what is in the slot. -/
def answer (own? : Option (Except ε Nat)) (size? : Option Nat) : Except (Option ε) Nat :=
  match own? with
  | some outcome => outcome.mapError some
  | none =>
    match size? with
    | some size => .ok size
    | none => .error none

/-- The state after one step of a caller; `outcome` is what its measurement gives if it is at the end
of one.  A caller that has returned, or that waits for a slot to be filled, takes no step. -/
def step? (s : InFlight ε) (i : Nat) (outcome : Except ε Nat) : Option (InFlight ε) :=
  match s.callers[i]? with
  | none => none
  | some (path, caller) =>
    match caller with
    | .asking =>
      match s.slotOf? path with
      | some slot => some (s.move i path (.holding slot))
      | none => some ((s.addSlot path).move i path (.holding s.slots.length))
    | .holding slot =>
      match s.slots[slot]? with
      | some .empty => some ((s.setSlot slot .busy).move i path (.measuring slot))
      | some (.filled _) => some (s.move i path (.releasing slot none))
      | _ => none
    | .measuring slot =>
      some ((s.setSlot slot (.filled (sizeOf? outcome))).move i path
        (.releasing slot (some outcome)))
    | .releasing slot own? =>
      match s.slots[slot]? with
      | some (.filled size?) =>
        some ((s.dropSlot path slot).move i path (.leaving slot own? size?))
      | _ => none
    | .leaving _ own? size? => some (s.move i path (.returned (answer own? size?)))
    | .returned _ => none

/-- The state after steps by a schedule of callers, each with the outcome that its measurement has if
it is at the end of one; a caller that cannot take its step is passed over. -/
def run (s : InFlight ε) (schedule : List (Nat × Except ε Nat)) : InFlight ε :=
  schedule.foldl (fun s turn => (s.step? turn.1 turn.2).getD s) s

/-- The answers of the callers that have returned. -/
def answers (s : InFlight ε) : List (Except (Option ε) Nat) :=
  s.callers.filterMap fun
    | (_, .returned answer) => some answer
    | _ => none

/-- A schedule for callers that start together: all take their slots, the first one measures, and
then all return. -/
def together (n : Nat) : List Nat :=
  List.range n ++ [0, 0, 0] ++ List.range n ++ List.range n ++ List.range n

/-- The answers of callers that start together for the same path. -/
def share (n : Nat) (path : Path) (outcome : Except ε Nat) : List (Except (Option ε) Nat) :=
  ((init (List.replicate n path)).run ((together n).map fun i => (i, outcome))).answers

@[simp] theorem run_nil (s : InFlight ε) : s.run [] = s := rfl

@[simp] theorem run_cons (s : InFlight ε) (turn : Nat × Except ε Nat)
    (schedule : List (Nat × Except ε Nat)) :
    s.run (turn :: schedule) = ((s.step? turn.1 turn.2).getD s).run schedule := rfl

@[simp] theorem table_init (paths : List Path) : (init paths : InFlight ε).table = [] := rfl

example : (share 3 ⟨"/a"⟩ (.ok 5 : Except Nat Nat)).map (·.toOption) = [some 5, some 5, some 5] := by
  decide +kernel

end InFlight

end DiskUsage
