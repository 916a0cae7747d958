import DiskUsage.Cache.File

/-!
# Storing from several callers

Callers store sizes in one cache that is kept in a file.  A caller puts its size into the map, waits
for the lock, copies the map entry by entry, writes the copy to the file, and gives the lock back.
Others may put sizes into the map while a caller copies it: what was in the map when the caller took
the lock is copied, each path with the size that it has at that moment, and what came later may or may
not be.

The state changes by the steps of one caller at a time, in any order; each write succeeds.  Of the map
this is assumed: putting a size in and reading one entry are single steps, and reading it entry by entry
meets every path that is in it throughout, and none twice.  Of the lock, that one caller holds it at a time.

* `Writers.step?`: the state after a step of one caller, if it can take it.
* `Writers.run`: the state after steps by a schedule.
* `Writers.stepOn?`, `Writers.runOn`: the same steps with the writes carried out on a disk.
* `Writers.sizes`: the map that all callers share.
* `inserted_step?`: what was put into the map stays in its history.
-/

namespace DiskUsage

/-- Where a caller that stores a size stands. -/
inductive Writer where
  /-- Its size is not in the map. -/
  | starting
  /-- It waits for the lock. -/
  | waiting
  /-- It holds the lock and copies the map; these paths it has still to copy. -/
  | copying (copy : SizeMap) (owed : List Path)
  /-- It holds the lock and has a copy to write. -/
  | writing (copy : SizeMap)
  /-- It holds the lock, and its copy is in the file. -/
  | releasing
  | returned
  deriving DecidableEq, Repr

/-- A caller, with what it stores. -/
structure Storing where
  path : Path
  measured : Measured
  writer : Writer
  deriving DecidableEq, Repr

/-- Callers that store sizes in one cache. -/
structure Writers where
  /-- The map before the first of them. -/
  opened : SizeMap
  stores : List Storing
  /-- What was put into the map, in order. -/
  inserted : List (Path × Measured)
  locked : Bool
  /-- What the file holds. -/
  file : SizeMap
  deriving DecidableEq, Repr

namespace Writers

/-- Nobody has done anything, and the file holds the map. -/
def start (opened : SizeMap) (stores : List (Path × Measured)) : Writers where
  opened := opened
  stores := stores.map fun s => ⟨s.1, s.2, .starting⟩
  inserted := []
  locked := false
  file := opened

/-- The map that all callers share. -/
def sizes (w : Writers) : SizeMap :=
  w.opened.insertAll w.inserted

/-- The state with a caller moved on. -/
def move (w : Writers) (i : Nat) (s : Storing) (writer : Writer) : Writers :=
  { w with stores := w.stores.set i { s with writer } }

/-- The entry of a path in the map that a copy does not have yet. -/
def uncopied? (w : Writers) (copy : SizeMap) (path : Path) : Option (Path × Measured) :=
  if (copy.find? path).isSome then none
  else List.find? (fun e => e.1.sameAs path) w.sizes

/-- The state after the next step of copying: an entry is copied, or the copy ends. -/
def copy? (w : Writers) (i : Nat) (s : Storing) (copy : SizeMap) (owed : List Path) :
    Option Path → Option Writers
  | some path =>
    (w.uncopied? copy path).map fun e =>
      w.move i s (.copying (copy ++ [e]) (owed.filter fun p => !p.sameAs path))
  | none => if owed.isEmpty then some (w.move i s (.writing copy)) else none

/-- The state after a step of the caller at a place, if it can take it; `pick` is the path that it
copies next, or none if its copy ends. -/
def step? (w : Writers) (i : Nat) (pick : Option Path) : Option Writers :=
  match w.stores[i]? with
  | none => none
  | some s =>
    match s.writer with
    | .starting =>
      some ({ w with inserted := w.inserted ++ [(s.path, s.measured)] }.move i s .waiting)
    | .waiting =>
      if w.locked then none
      else some ({ w with locked := true }.move i s (.copying [] (w.sizes.map Prod.fst)))
    | .copying copy owed => w.copy? i s copy owed pick
    | .writing copy => some ({ w with file := copy }.move i s .releasing)
    | .releasing => some ({ w with locked := false }.move i s .returned)
    | .returned => none

/-- The state after steps by a schedule; a step that cannot be taken is passed over. -/
def run (schedule : List (Nat × Option Path)) (w : Writers) : Writers :=
  schedule.foldl (fun w turn => (w.step? turn.1 turn.2).getD w) w

/-- A step of a caller that is carried out on a disk at a time: a caller that writes its copy writes it to
the file, and takes no step if that fails. -/
def stepOn? (cwd : List String) (file : Path) (s : Writers × FileSystem)
    (turn : Nat × Option Path × Option Timestamp) : Option (Writers × FileSystem) :=
  (s.1.step? turn.1 turn.2.1).bind fun v =>
    match s.1.stores[turn.1]?.map Storing.writer with
    | some (.writing copy) =>
      match copy.persist s.2 cwd turn.2.2 file with
      | (fs, .ok ()) => some (v, fs)
      | (_, .error _) => none
    | _ => some (v, s.2)

/-- The state and the disk after steps by a schedule. -/
def runOn (cwd : List String) (file : Path) (schedule : List (Nat × Option Path × Option Timestamp))
    (s : Writers × FileSystem) : Writers × FileSystem :=
  schedule.foldl (fun s turn => (stepOn? cwd file s turn).getD s) s

/-- Nobody has put a size into the map and not returned yet. -/
def isQuiet (w : Writers) : Bool :=
  w.stores.all fun s => s.writer == .starting || s.writer == .returned

@[simp] theorem run_nil (w : Writers) : w.run [] = w := rfl

@[simp] theorem run_cons (w : Writers) (turn : Nat × Option Path)
    (schedule : List (Nat × Option Path)) :
    w.run (turn :: schedule) = ((w.step? turn.1 turn.2).getD w).run schedule := rfl

@[simp] theorem run_append (w : Writers) (a b : List (Nat × Option Path)) :
    w.run (a ++ b) = (w.run a).run b := by
  simp [run]

@[simp] theorem inserted_move (w : Writers) (i : Nat) (s : Storing) (writer : Writer) :
    (w.move i s writer).inserted = w.inserted := rfl

/-- A step loses nothing that was put into the map. -/
theorem inserted_step? {w v : Writers} {i : Nat} {pick : Option Path} (h : w.step? i pick = some v) :
    ∃ more, v.inserted = w.inserted ++ more := by
  unfold step? at h
  split at h
  · cases h
  · split at h
    · cases h
      exact ⟨_, rfl⟩
    · split at h <;> cases h
      exact ⟨[], by simp⟩
    · unfold copy? at h
      split at h
      · obtain ⟨e, -, rfl⟩ := Option.map_eq_some_iff.1 h
        exact ⟨[], by simp⟩
      · split at h <;> cases h
        exact ⟨[], by simp⟩
    · cases h
      exact ⟨[], by simp⟩
    · cases h
      exact ⟨[], by simp⟩
    · cases h

/-- The second caller puts its size into the map while the first one copies it, which copies it too. -/
example :
    let p : Path := ⟨"/p"⟩
    let q : Path := ⟨"/q"⟩
    let w := (start [] [(p, ⟨1, 0⟩), (q, ⟨2, 0⟩)]).run
      [(0, none), (0, none), (1, none), (0, some q), (0, some p), (0, none), (0, none), (0, none)]
    w.file = [(q, ⟨2, 0⟩), (p, ⟨1, 0⟩)] ∧ w.isQuiet = false := by
  decide +kernel

end Writers

end DiskUsage
