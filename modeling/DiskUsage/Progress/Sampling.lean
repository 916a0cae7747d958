import DiskUsage.Progress.Feed

/-!
# Counting by several workers

Several workers count files on the same counters.  To count a batch and to look whether a sampling
boundary was passed are two steps, and between them other workers may take theirs; so the counts that
are published may already be ahead of the batch that called for them.

* `Sampling.step?`: the state after a step of one worker, if it has one left.
* `Sampling.run`: the state after steps by a schedule.
* `observed_step?`: what was seen is never lost.
-/

namespace DiskUsage

/-- Files that are counted at once. -/
structure Batch where
  files : Nat
  bytes : Nat
  deriving DecidableEq, Repr

/-- A batch that was counted: the number of files before it, and after it. -/
structure Counted where
  before : Nat
  after : Nat
  deriving DecidableEq, Repr

/-- A worker that counts: the batch that it still has to look at, and those that it has still to
count. -/
structure Teller where
  pending : Option Counted
  left : List Batch
  deriving DecidableEq, Repr

/-- A batch that was looked at, with the counts that were published for it, if any were. -/
structure Observed where
  counted : Counted
  published : Option Counters
  deriving DecidableEq, Repr

/-- Workers that count, and what was seen of it so far, in order. -/
structure Sampling where
  /-- Counts are published every so many files. -/
  every : Nat
  counters : Counters
  tellers : List Teller
  observed : List Observed
  deriving DecidableEq, Repr

namespace Sampling

/-- Nothing is counted. -/
def start (every : Nat) (batches : List (List Batch)) : Sampling :=
  ⟨every, .zero, batches.map fun left => ⟨none, left⟩, []⟩

/-- The state with a worker moved on. -/
def move (s : Sampling) (i : Nat) (t : Teller) : Sampling :=
  { s with tellers := s.tellers.set i t }

/-- The state after a batch was counted. -/
def count (s : Sampling) (batch : Batch) : Sampling :=
  { s with counters := s.counters.recordFiles batch.files batch.bytes }

/-- A batch as it is counted now. -/
def countedNow (s : Sampling) (batch : Batch) : Counted :=
  ⟨s.counters.files.toNat, s.counters.files.toNat + batch.files⟩

/-- A batch as it is looked at now. -/
def observedNow (s : Sampling) (counted : Counted) : Observed :=
  ⟨counted,
    if passesBoundary s.every counted.before counted.after then some s.counters else none⟩

/-- The state after a batch was looked at. -/
def observe (s : Sampling) (counted : Counted) : Sampling :=
  { s with observed := s.observed ++ [s.observedNow counted] }

/-- The state after a step of the worker at a place, if it has one left. -/
def step? (s : Sampling) (i : Nat) : Option Sampling :=
  match s.tellers[i]? with
  | none => none
  | some ⟨some counted, left⟩ => some ((s.observe counted).move i ⟨none, left⟩)
  | some ⟨none, batch :: left⟩ =>
    some ((s.count batch).move i ⟨some (s.countedNow batch), left⟩)
  | some ⟨none, []⟩ => none

/-- The state after steps by a schedule; a step that cannot be taken is passed over. -/
def run (schedule : List Nat) (s : Sampling) : Sampling :=
  schedule.foldl (fun s i => (s.step? i).getD s) s

/-- Every batch was counted and looked at. -/
def isDone (s : Sampling) : Bool :=
  s.tellers.all fun t => t.pending.isNone && t.left.isEmpty

@[simp] theorem run_nil (s : Sampling) : s.run [] = s := rfl

@[simp] theorem run_cons (s : Sampling) (i : Nat) (schedule : List Nat) :
    s.run (i :: schedule) = ((s.step? i).getD s).run schedule := rfl

@[simp] theorem run_append (s : Sampling) (a b : List Nat) : s.run (a ++ b) = (s.run a).run b := by
  simp [run]

/-- A step leaves the sampling step as it is. -/
theorem every_step? {s t : Sampling} {i : Nat} (h : s.step? i = some t) : t.every = s.every := by
  unfold step? at h
  split at h <;> cases h <;> rfl

/-- A step loses nothing that was seen. -/
theorem observed_step? {s t : Sampling} {i : Nat} (h : s.step? i = some t) :
    ∃ more, t.observed = s.observed ++ more := by
  unfold step? at h
  split at h <;> cases h
  · exact ⟨_, rfl⟩
  · exact ⟨[], (List.append_nil _).symm⟩

/-- Two workers count one file each; the first of them looks only when both have counted. -/
example :
    ((start 1 [[⟨1, 5⟩], [⟨1, 7⟩]]).run [0, 1, 0, 1]).observed
      = [⟨⟨0, 1⟩, some ⟨2, 0, 12, 0⟩⟩, ⟨⟨1, 2⟩, some ⟨2, 0, 12, 0⟩⟩] := by
  decide +kernel

end Sampling

end DiskUsage
