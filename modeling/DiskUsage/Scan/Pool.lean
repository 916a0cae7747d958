import DiskUsage.Scan.Run

/-!
# Sizing children by workers

The children of a root wait in line.  A dispatcher puts them into a queue of jobs and then closes it.
A worker takes a job, sends the large files that sizing its child comes across, adds the size of the
child to the total and sends its entry; a child that cannot be read is dropped.  Two collectors take
entries and large files out of their queues.  A queue has room for so many items, and who finds it
full waits.

A queue is closed when nobody is left who sends to it, and who takes from a queue ends once it is
closed and empty: a worker when the dispatcher has closed the queue of jobs, a collector when all
workers have ended.  Where nobody is left to take it, what is sent is lost.

The state changes by the steps of one of them at a time, in any order.  Of the queues this is assumed:
what was sent first is taken first, sending and taking are single steps, and so is adding to the total, a
word that starts again from zero beyond the largest one.

* `Pool.step?`: the state after a step, if it can be taken.
* `Pool.run`: the state after steps by a schedule.
* `Pool.isDone`: the dispatcher, the workers and the collectors have all ended.
* `isDone_start`: at first this is not so.
-/

namespace DiskUsage

/-- How many items each queue takes. -/
structure Pool.Room where
  jobs : Nat
  entries : Nat
  files : Nat
  deriving DecidableEq, Repr

/-- Where a worker stands. -/
inductive Worker where
  | idle
  /-- It sizes the child of this number and has still to send these large files. -/
  | sizing (number : Nat) (child : SizedChild) (left : List LargeFile)
  /-- The size of its child is in the total; the entry has still to be sent. -/
  | sending (number : Nat) (entry : DirEntry)
  /-- It has ended. -/
  | gone

/-- The worker has ended. -/
def Worker.isGone : Worker → Bool
  | gone => true
  | _ => false

/-- Children on their way from a line through queues and workers to the collectors.  Each keeps the
number of its place in the line. -/
structure Pool where
  room : Pool.Room
  waiting : List (Nat × SizedChild)
  /-- The dispatcher has ended and puts no more jobs into their queue. -/
  closed : Bool
  jobs : List (Nat × SizedChild)
  workers : List Worker
  entries : List (Nat × DirEntry)
  files : List LargeFile
  /-- Bytes on disk of the children that were added up, in a word. -/
  total : Nat
  /-- The entries that were collected, in order. -/
  collected : List (Nat × DirEntry)
  /-- The large files that were collected, in order. -/
  collectedFiles : List LargeFile
  /-- The children that could not be read. -/
  dropped : List Nat
  /-- The collector of entries has ended. -/
  entriesOver : Bool
  /-- The collector of large files has ended. -/
  filesOver : Bool

/-- Who takes a step. -/
inductive Actor where
  | dispatcher
  | worker (i : Nat)
  | entryCollector
  | fileCollector
  deriving DecidableEq, Repr

namespace Pool

/-- The most items that a queue takes. -/
def maxRoom : Nat := 1024

/-- The room for so many workers and children. -/
def roomFor (workers children maxLargeFiles : Nat) : Room where
  jobs := min (workers * 2) maxRoom
  entries := max 1 (min children maxRoom)
  files := max 1 (min (maxLargeFiles * 2) maxRoom)

/-- Children with their places in the line. -/
def numbered (children : List SizedChild) : List (Nat × SizedChild) :=
  (List.range children.length).zip children

/-- All children wait, the workers stand ready, and nobody has done anything. -/
def start (room : Room) (workers : Nat) (children : List SizedChild) : Pool where
  room := room
  waiting := numbered children
  closed := false
  jobs := []
  workers := List.replicate workers .idle
  entries := []
  files := []
  total := 0
  collected := []
  collectedFiles := []
  dropped := []
  entriesOver := false
  filesOver := false

/-- All workers have ended. -/
def isDeserted (p : Pool) : Bool :=
  p.workers.all Worker.isGone

/-- The state with a worker moved on. -/
def move (p : Pool) (i : Nat) (w : Worker) : Pool :=
  { p with workers := p.workers.set i w }

/-- The state after a step of the dispatcher, which gives up if nobody is left to take a job. -/
def dispatch? (p : Pool) : Option Pool :=
  match p.waiting with
  | [] => if p.closed then none else some { p with closed := true }
  | job :: rest =>
    if p.isDeserted then some { p with waiting := [] }
    else if p.jobs.length < p.room.jobs then
      some { p with waiting := rest, jobs := p.jobs ++ [job] }
    else none

/-- The state after a step of the worker at a place, which stands here. -/
def work? (p : Pool) (i : Nat) : Worker → Option Pool
  | .idle =>
    match p.jobs with
    | [] => if p.closed then some (p.move i .gone) else none
    | (number, child) :: rest =>
      some ({ p with jobs := rest }.move i (.sizing number child child.large))
  | .sizing number child (file :: left) =>
    if p.filesOver then some (p.move i (.sizing number child left))
    else if p.files.length < p.room.files then
      some ({ p with files := p.files ++ [file] }.move i (.sizing number child left))
    else none
  | .sizing number child [] =>
    match child.listed? with
    | some entry =>
      some ({ p with total := Number.wrap (p.total + entry.size) }.move i (.sending number entry))
    | none => some ({ p with dropped := number :: p.dropped }.move i .idle)
  | .sending number entry =>
    if p.entriesOver then some (p.move i .idle)
    else if p.entries.length < p.room.entries then
      some ({ p with entries := p.entries ++ [(number, entry)] }.move i .idle)
    else none
  | .gone => none

/-- The state after a step of the collector of entries. -/
def collectEntry? (p : Pool) : Option Pool :=
  if p.entriesOver then none
  else
    match p.entries with
    | [] => if p.isDeserted then some { p with entriesOver := true } else none
    | entry :: rest => some { p with entries := rest, collected := p.collected ++ [entry] }

/-- The state after a step of the collector of large files. -/
def collectFile? (p : Pool) : Option Pool :=
  if p.filesOver then none
  else
    match p.files with
    | [] => if p.isDeserted then some { p with filesOver := true } else none
    | file :: rest => some { p with files := rest, collectedFiles := p.collectedFiles ++ [file] }

/-- The state after a step, if it can be taken. -/
def step? (p : Pool) : Actor → Option Pool
  | .dispatcher => p.dispatch?
  | .worker i => p.workers[i]?.bind (p.work? i)
  | .entryCollector => p.collectEntry?
  | .fileCollector => p.collectFile?

/-- The state after steps by a schedule; a step that cannot be taken is passed over. -/
def run (schedule : List Actor) (p : Pool) : Pool :=
  schedule.foldl (fun p actor => (p.step? actor).getD p) p

/-- The dispatcher, the workers and the collectors have all ended. -/
def isDone (p : Pool) : Bool :=
  p.closed && p.isDeserted && p.entriesOver && p.filesOver

/-- The largest children among those collected. -/
def largestEntries (c : ScanConfig) (p : Pool) : List DirEntry :=
  TopN.largest DirEntry.size c.maxEntries.toNat (p.collected.map Prod.snd)

/-- The largest files among those collected. -/
def largestFiles (c : ScanConfig) (p : Pool) : List LargeFile :=
  TopN.largest LargeFile.size c.maxLargeFiles.toNat p.collectedFiles

@[simp] theorem run_nil (p : Pool) : p.run [] = p := rfl

@[simp] theorem run_cons (p : Pool) (actor : Actor) (schedule : List Actor) :
    p.run (actor :: schedule) = ((p.step? actor).getD p).run schedule := rfl

@[simp] theorem run_append (p : Pool) (a b : List Actor) : p.run (a ++ b) = (p.run a).run b := by
  simp [run]

/-- There is room for something in every queue. -/
theorem roomFor_pos {workers : Nat} (h : 0 < workers) (children maxLargeFiles : Nat) :
    0 < (roomFor workers children maxLargeFiles).jobs
      ∧ 0 < (roomFor workers children maxLargeFiles).entries
      ∧ 0 < (roomFor workers children maxLargeFiles).files := by
  simp only [roomFor, maxRoom]
  omega

/-- At first nobody has ended but workers, if there are none. -/
@[simp] theorem isDone_start (room : Room) (workers : Nat) (children : List SizedChild) :
    (start room workers children).isDone = false := rfl

end Pool

end DiskUsage
