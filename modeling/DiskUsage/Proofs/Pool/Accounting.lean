import DiskUsage.Proofs.Pool.Closing
import Mathlib.Algebra.BigOperators.Group.List.Basic
import Mathlib.Algebra.GroupWithZero.Nat

/-!
# Where the children are

On its way from the line to a collector a child is always in one place, and so is each of its large
files.  Both are said in one way: a view tells what to look at in each place, and as long as a view
sees the same before and after every move, what it sees in all places together stays the same.

* `Pool.View`, `View.Lawful`, `Step.view_perm`: no step loses or doubles what a lawful view sees.
* `Pool.placed`, `Pool.candidates`, `Pool.added`: the children, the large files, and the entries
  whose sizes are in the total.
* `Pool.Accounted`: nothing is lost, doubled or miscounted; `Step.accounted`: every step keeps it.
-/

open scoped List

namespace DiskUsage

/-- The child at a worker, with what comes out of it. -/
def Worker.outcome : Worker → List (Nat × Option DirEntry)
  | sizing number child _ => [(number, child.listed?)]
  | sending number entry => [(number, some entry)]
  | _ => []

/-- The entry at a worker whose size is in the total. -/
def Worker.added : Worker → List (Nat × DirEntry)
  | sending number entry => [(number, entry)]
  | _ => []

/-- The large files that a worker has still to send. -/
def Worker.unsent : Worker → List LargeFile
  | sizing _ _ left => left
  | _ => []

namespace Pool

variable {p q : Pool} {children : List SizedChild}

/-! ## Views -/

/-- What to look at in each place. -/
structure View (β : Type) where
  job : Nat × SizedChild → List β
  worker : Worker → List β
  entry : Nat × DirEntry → List β
  dropped : Nat → List β
  file : LargeFile → List β

namespace View

variable {β : Type}

/-- The view sees the same before and after every move from one place to the next. -/
structure Lawful (v : View β) : Prop where
  idle : v.worker .idle = []
  gone : v.worker .gone = []
  take : ∀ number child, v.worker (.sizing number child child.large) = v.job (number, child)
  sendFile : ∀ number child file left,
    v.worker (.sizing number child (file :: left))
      = v.file file ++ v.worker (.sizing number child left)
  add : ∀ number child entry, child.listed? = some entry →
    v.worker (.sizing number child []) = v.worker (.sending number entry)
  drop : ∀ number child, child.listed? = none →
    v.worker (.sizing number child []) = v.dropped number
  sendEntry : ∀ number entry, v.worker (.sending number entry) = v.entry (number, entry)

/-- What is seen in all places, those behind the line after those in it. -/
def all (v : View β) (p : Pool) : List β :=
  p.waiting.flatMap v.job ++ (p.jobs.flatMap v.job ++ p.workers.flatMap v.worker
    ++ p.entries.flatMap v.entry ++ p.collected.flatMap v.entry ++ p.dropped.flatMap v.dropped
    ++ p.files.flatMap v.file ++ p.collectedFiles.flatMap v.file)

end View

/-- How often something is seen at the workers, when one of them moves on. -/
theorem count_flatMap_set {β : Type} [BEq β] (f : Worker → List β) {workers : List Worker} {i : Nat}
    {w : Worker} (hi : workers[i]? = some w) (w' : Worker) (b : β) :
    ((workers.set i w').flatMap f).count b + (f w).count b
      = (workers.flatMap f).count b + (f w').count b := by
  obtain ⟨others, hp, hq⟩ := flatMap_set_perm f hi
  have hp' := hp.count_eq b
  have hq' := (hq w').count_eq b
  rw [List.count_append] at hp' hq'
  omega

/-- **No step** loses or doubles what a lawful view sees. -/
theorem Step.view_perm {β : Type} [DecidableEq β] {v : View β} (hv : v.Lawful) (hs : Step p q)
    (hp : p.Orderly) : v.all q ~ v.all p := by
  refine List.perm_iff_count.2 fun b => ?_
  simp only [View.all, List.count_append]
  cases hs with
  | close hw hc => rfl
  | giveUp hw hd =>
    rw [hp.not_deserted (by simp [hw])] at hd
    cases hd
  | dispatch hw hd hr =>
    simp only [hw, List.flatMap_cons, List.flatMap_append, List.flatMap_nil, List.append_nil,
      List.count_append]
    omega
  | leave hi hj hc =>
    have h := count_flatMap_set v.worker hi .gone b
    rw [hv.idle, hv.gone] at h
    simp only [move]
    omega
  | @take i number child rest hi hj =>
    have h := count_flatMap_set v.worker hi (.sizing number child child.large) b
    rw [hv.idle, hv.take, List.count_nil] at h
    simp only [move, hj, List.flatMap_cons, List.count_append]
    omega
  | loseFile hi ho =>
    rw [(hp.collecting (isDeserted_eq_false hi rfl)).2] at ho
    cases ho
  | @sendFile i number child file left hi ho hr =>
    have h := count_flatMap_set v.worker hi (.sizing number child left) b
    rw [hv.sendFile, List.count_append] at h
    simp only [move, List.flatMap_cons, List.flatMap_append, List.flatMap_nil, List.append_nil,
      List.count_append]
    omega
  | @add i number child entry hi he =>
    have h := count_flatMap_set v.worker hi (.sending number entry) b
    rw [hv.add _ _ _ he] at h
    simp only [move]
    omega
  | drop hi he =>
    have h := count_flatMap_set v.worker hi .idle b
    rw [hv.drop _ _ he, hv.idle, List.count_nil] at h
    simp only [move, List.flatMap_cons, List.count_append]
    omega
  | loseEntry hi ho =>
    rw [(hp.collecting (isDeserted_eq_false hi rfl)).1] at ho
    cases ho
  | sendEntry hi ho hr =>
    have h := count_flatMap_set v.worker hi .idle b
    rw [hv.sendEntry, hv.idle, List.count_nil] at h
    simp only [move, List.flatMap_cons, List.flatMap_append, List.flatMap_nil, List.append_nil,
      List.count_append]
    omega
  | endEntries ho he hd => rfl
  | collectEntry ho he =>
    simp only [he, List.flatMap_cons, List.flatMap_append, List.flatMap_nil, List.append_nil,
      List.count_append]
    omega
  | endFiles ho hf hd => rfl
  | collectFile ho hf =>
    simp only [hf, List.flatMap_cons, List.flatMap_append, List.flatMap_nil, List.append_nil,
      List.count_append]
    omega

/-! ## Children and large files -/

/-- What comes out of a child. -/
def outcome (job : Nat × SizedChild) : Nat × Option DirEntry :=
  (job.1, job.2.listed?)

/-- A child whose entry is there. -/
def listed (entry : Nat × DirEntry) : Nat × Option DirEntry :=
  (entry.1, some entry.2)

/-- A child that cannot be read. -/
def unreadable (number : Nat) : Nat × Option DirEntry :=
  (number, none)

/-- The children behind the line, with what comes out of them: in the queue of jobs, at a worker, in
the queue of entries, collected, or dropped. -/
def placed (p : Pool) : List (Nat × Option DirEntry) :=
  p.jobs.map outcome ++ p.workers.flatMap Worker.outcome ++ p.entries.map listed
    ++ p.collected.map listed ++ p.dropped.map unreadable

/-- The large files behind the line: to be found in a job, to be sent by a worker, in their queue, or
collected. -/
def candidates (p : Pool) : List LargeFile :=
  p.jobs.flatMap (fun job => job.2.large) ++ p.workers.flatMap Worker.unsent ++ p.files
    ++ p.collectedFiles

/-- The entries whose sizes are in the total. -/
def added (p : Pool) : List (Nat × DirEntry) :=
  p.workers.flatMap Worker.added ++ p.entries ++ p.collected

/-- The view that sees the children. -/
def childView : View (Nat × Option DirEntry) where
  job job := [outcome job]
  worker := Worker.outcome
  entry entry := [listed entry]
  dropped number := [unreadable number]
  file _ := []

/-- The view that sees the large files. -/
def fileView : View LargeFile where
  job job := job.2.large
  worker := Worker.unsent
  entry _ := []
  dropped _ := []
  file file := [file]

theorem childView_lawful : childView.Lawful where
  idle := rfl
  gone := rfl
  take _ _ := rfl
  sendFile _ _ _ _ := rfl
  add number child entry h := by simp [childView, Worker.outcome, h]
  drop number child h := by simp [childView, Worker.outcome, unreadable, h]
  sendEntry _ _ := rfl

theorem fileView_lawful : fileView.Lawful where
  idle := rfl
  gone := rfl
  take _ _ := rfl
  sendFile _ _ _ _ := rfl
  add _ _ _ _ := rfl
  drop _ _ _ := rfl
  sendEntry _ _ := rfl

theorem flatMap_nil {β γ : Type} (xs : List β) : (xs.flatMap fun _ => ([] : List γ)) = [] := by
  rw [List.flatMap_eq_nil_iff]
  intro x _
  rfl

theorem all_childView (p : Pool) : childView.all p = p.waiting.map outcome ++ p.placed := by
  simp only [View.all, childView, ← List.map_eq_flatMap, flatMap_nil, List.append_nil, placed]

theorem all_fileView (p : Pool) :
    fileView.all p = p.waiting.flatMap (fun job => job.2.large) ++ p.candidates := by
  simp only [View.all, fileView, ← List.map_eq_flatMap, flatMap_nil, List.append_nil, candidates,
    List.map_id']

/-! ## The total -/

/-- The sizes of entries, added up. -/
def sizeOf (entries : List (Nat × DirEntry)) : Nat :=
  (entries.map fun entry => entry.2.size).sum

theorem sizeOf_append (xs ys : List (Nat × DirEntry)) : sizeOf (xs ++ ys) = sizeOf xs + sizeOf ys := by
  simp [sizeOf]

theorem sizeOf_perm {xs ys : List (Nat × DirEntry)} (h : xs ~ ys) : sizeOf xs = sizeOf ys :=
  (h.map _).sum_eq

/-- The sizes at the workers, when one of them moves on. -/
theorem sizeOf_flatMap_set {workers : List Worker} {i : Nat} {w : Worker}
    (hi : workers[i]? = some w) (w' : Worker) :
    sizeOf ((workers.set i w').flatMap Worker.added) + sizeOf w.added
      = sizeOf (workers.flatMap Worker.added) + sizeOf w'.added := by
  obtain ⟨others, hp, hq⟩ := flatMap_set_perm Worker.added hi
  have hp' := sizeOf_perm hp
  have hq' := sizeOf_perm (hq w')
  rw [sizeOf_append] at hp' hq'
  omega

/-- **A step** adds an entry up and its size to the total, or leaves both as they are. -/
theorem Step.added_cases (hs : Step p q) (hp : p.Orderly) :
    (q.total = p.total ∧ sizeOf q.added = sizeOf p.added) ∨
      ∃ size, q.total = Number.wrap (p.total + size) ∧ sizeOf q.added = sizeOf p.added + size := by
  simp only [added, sizeOf_append]
  cases hs with
  | close hw hc => exact .inl ⟨rfl, rfl⟩
  | giveUp hw hd => exact .inl ⟨rfl, rfl⟩
  | dispatch hw hd hr => exact .inl ⟨rfl, rfl⟩
  | leave hi hj hc =>
    have hset := sizeOf_flatMap_set hi .gone
    simp only [Worker.added] at hset
    refine .inl ⟨rfl, ?_⟩
    simp only [move]
    omega
  | @take i number child rest hi hj =>
    have hset := sizeOf_flatMap_set hi (.sizing number child child.large)
    simp only [Worker.added] at hset
    refine .inl ⟨rfl, ?_⟩
    simp only [move]
    omega
  | @loseFile i number child file left hi ho =>
    have hset := sizeOf_flatMap_set hi (.sizing number child left)
    simp only [Worker.added] at hset
    refine .inl ⟨rfl, ?_⟩
    simp only [move]
    omega
  | @sendFile i number child file left hi ho hr =>
    have hset := sizeOf_flatMap_set hi (.sizing number child left)
    simp only [Worker.added] at hset
    refine .inl ⟨rfl, ?_⟩
    simp only [move]
    omega
  | @add i number child entry hi he =>
    have hset := sizeOf_flatMap_set hi (.sending number entry)
    refine .inr ⟨entry.size, rfl, ?_⟩
    simp only [Worker.added, sizeOf, List.map_cons, List.map_nil, List.sum_cons, List.sum_nil] at hset
    simp only [move, sizeOf]
    omega
  | drop hi he =>
    have hset := sizeOf_flatMap_set hi .idle
    simp only [Worker.added] at hset
    refine .inl ⟨rfl, ?_⟩
    simp only [move]
    omega
  | loseEntry hi ho =>
    rw [(hp.collecting (isDeserted_eq_false hi rfl)).1] at ho
    cases ho
  | sendEntry hi ho hr =>
    have hset := sizeOf_flatMap_set hi .idle
    refine .inl ⟨rfl, ?_⟩
    simp only [Worker.added, sizeOf, List.map_nil, List.sum_nil] at hset
    simp only [move, sizeOf, List.map_append, List.sum_append]
    omega
  | endEntries ho he hd => exact .inl ⟨rfl, rfl⟩
  | collectEntry ho he =>
    refine .inl ⟨rfl, ?_⟩
    rw [he]
    simp only [sizeOf, List.map_cons, List.sum_cons, List.map_append, List.sum_append, List.map_nil,
      List.sum_nil]
    omega
  | endFiles ho hf hd => exact .inl ⟨rfl, rfl⟩
  | collectFile ho hf => exact .inl ⟨rfl, rfl⟩

/-- **The total** is that of the entries that were added up, in a word, after every step. -/
theorem Step.total (hs : Step p q) (hp : p.Orderly) (h : p.total = Number.wrap (sizeOf p.added)) :
    q.total = Number.wrap (sizeOf q.added) := by
  rcases hs.added_cases hp with ⟨htotal, hadded⟩ | ⟨size, htotal, hadded⟩
  · rw [htotal, hadded, h]
  · rw [htotal, hadded, h, Number.wrap_wrap_add]

/-! ## All of it -/

/-- Each child is in one place, each large file is in one place, and the total is that of the
entries that were added up, in a word. -/
structure Accounted (children : List SizedChild) (p : Pool) : Prop where
  line : p.waiting <:+ numbered children
  placed : p.waiting.map outcome ++ p.placed ~ (numbered children).map outcome
  candidates : p.waiting.flatMap (fun job => job.2.large) ++ p.candidates
    ~ children.flatMap SizedChild.large
  total : p.total = Number.wrap (sizeOf p.added)

theorem map_snd_numbered (children : List SizedChild) :
    (numbered children).map Prod.snd = children :=
  List.map_snd_zip (by simp)

theorem map_fst_numbered (children : List SizedChild) :
    (numbered children).map Prod.fst = List.range children.length :=
  List.map_fst_zip (by simp)

theorem flatMap_replicate_idle {β : Type} {f : Worker → List β} (hf : f .idle = []) (n : Nat) :
    (List.replicate n Worker.idle).flatMap f = [] := by
  rw [List.flatMap_eq_nil_iff]
  intro w hw
  rw [List.eq_of_mem_replicate hw, hf]

theorem accounted_start (room : Room) (workers : Nat) (children : List SizedChild) :
    Accounted children (start room workers children) := by
  have ho := flatMap_replicate_idle (f := Worker.outcome) rfl workers
  have hu := flatMap_replicate_idle (f := Worker.unsent) rfl workers
  have ha := flatMap_replicate_idle (f := Worker.added) rfl workers
  refine ⟨List.suffix_rfl, ?_, ?_, ?_⟩
  · simp [Pool.placed, start, ho]
  · have hlarge := congrArg (List.flatMap SizedChild.large) (map_snd_numbered children)
    rw [List.flatMap_map] at hlarge
    simp [Pool.candidates, start, hu, hlarge]
  · simp [added, start, ha, sizeOf]

/-- The line only gets shorter. -/
theorem Step.waiting_suffix (hs : Step p q) : q.waiting <:+ p.waiting := by
  cases hs with
  | giveUp hw hd => exact List.nil_suffix
  | dispatch hw hd hr =>
    rw [hw]
    exact List.suffix_cons _ _
  | _ => exact List.suffix_rfl

/-- **Every step** keeps the accounts. -/
theorem Step.accounted (hs : Step p q) (hp : p.Orderly) (h : Accounted children p) :
    Accounted children q := by
  refine ⟨hs.waiting_suffix.trans h.line, ?_, ?_, hs.total hp h.total⟩
  · have hview := hs.view_perm childView_lawful hp
    rw [all_childView, all_childView] at hview
    exact hview.trans h.placed
  · have hview := hs.view_perm fileView_lawful hp
    rw [all_fileView, all_fileView] at hview
    exact hview.trans h.candidates

end Pool

end DiskUsage
