import DiskUsage.Progress.Feed

/-!
# Progress of a scan by several workers

The workers of a scan share its counters and its feed.  A worker records what happens to it, event by
event.  After a file that progress takes notice of, it looks whether a sampling boundary was passed, which
is a step of its own: between the two other workers may take theirs, so a snapshot may already tell of files
that were counted later.

* `Event.due?`: what is to be looked at once an event is recorded.
* `Reporting.step?`: the state after a step of one worker, if it has one left.
* `Reporting.run`: the state after steps by a schedule.
* `Reporting.published`: the numbers of the files that snapshots were published for.
-/

namespace DiskUsage

/-- A file that was counted and is to be looked at: how many files were counted before it, and its
path. -/
structure Due where
  before : Nat
  path : Path
  deriving DecidableEq, Repr

/-- The number of a file, counted from one. -/
def Due.number (d : Due) : Nat :=
  d.before + 1

/-- What is to be looked at once an event is recorded, with so many files before it. -/
def Event.due? (before : Nat) : Event → Option Due
  | .file path _ true => some ⟨before, path⟩
  | _ => none

/-- A worker of a scan: the file that it still has to look at, and what has still to happen to it. -/
structure Reporter where
  pending : Option Due
  left : Trace
  deriving DecidableEq, Repr

/-- A file that was looked at, with the snapshot that was published for it, if one was. -/
structure Look where
  due : Due
  published : Option Snapshot
  deriving DecidableEq, Repr

/-- The workers of a scan, and what has come of it so far. -/
structure Reporting where
  /-- A snapshot is published every so many files. -/
  every : Nat
  counters : Counters
  feed : Feed
  reporters : List Reporter
  /-- What was recorded, in order. -/
  happened : Trace
  /-- What was looked at, in order. -/
  looks : List Look

namespace Reporting

/-- Nothing has happened, and somebody has subscribed. -/
def start (every : Nat) (traces : List Trace) : Reporting :=
  ⟨every, .zero, .subscribed, traces.map fun left => ⟨none, left⟩, [], []⟩

/-- The state with a worker moved on. -/
def move (s : Reporting) (i : Nat) (r : Reporter) : Reporting :=
  { s with reporters := s.reporters.set i r }

/-- The state after an event was recorded. -/
def record (s : Reporting) (event : Event) : Reporting :=
  { s with counters := s.counters.record event, happened := s.happened ++ [event] }

/-- What is to be looked at if an event is recorded now. -/
def due? (s : Reporting) (event : Event) : Option Due :=
  event.due? s.counters.files.toNat

/-- The snapshot that is published if a file is looked at now. -/
def snapshot? (s : Reporting) (due : Due) : Option Snapshot :=
  if passesBoundary s.every due.before due.number then some ⟨s.counters, due.path, .zero⟩
  else none

/-- The state after a file was looked at. -/
def look (s : Reporting) (due : Due) : Reporting :=
  { s with
    feed := (s.snapshot? due).elim s.feed s.feed.publish
    looks := s.looks ++ [⟨due, s.snapshot? due⟩] }

/-- The state after a step of the worker at a place, if it has one left. -/
def step? (s : Reporting) (i : Nat) : Option Reporting :=
  match s.reporters[i]? with
  | none => none
  | some ⟨some due, left⟩ => some ((s.look due).move i ⟨none, left⟩)
  | some ⟨none, event :: left⟩ => some ((s.record event).move i ⟨s.due? event, left⟩)
  | some ⟨none, []⟩ => none

/-- The state after steps by a schedule; a step that cannot be taken is passed over. -/
def run (schedule : List Nat) (s : Reporting) : Reporting :=
  schedule.foldl (fun s i => (s.step? i).getD s) s

/-- Everything has happened and was looked at. -/
def isDone (s : Reporting) : Bool :=
  s.reporters.all fun r => r.pending.isNone && r.left.isEmpty

/-- The numbers of the files that snapshots were published for. -/
def published (s : Reporting) : List Nat :=
  (s.looks.filter fun l => l.published.isSome).map fun l => l.due.number

/-- Two workers come to one file each, and both are counted before the first of them is looked at. -/
example :
    ((start 1 [[.file ⟨"/a"⟩ 5 true], [.dir, .file ⟨"/d/b"⟩ 7 true]]).run [1, 0, 1, 0, 1]).looks
      = [⟨⟨0, ⟨"/a"⟩⟩, some ⟨⟨2, 1, 12, 0⟩, ⟨"/a"⟩, .zero⟩⟩,
        ⟨⟨1, ⟨"/d/b"⟩⟩, some ⟨⟨2, 1, 12, 0⟩, ⟨"/d/b"⟩, .zero⟩⟩] := by
  decide +kernel

end Reporting

end DiskUsage
