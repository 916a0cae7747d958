import DiskUsage.Proofs.Pool.Closing
import Mathlib.Algebra.BigOperators.Group.List.Basic
import Mathlib.Algebra.GroupWithZero.Nat

/-!
# The pool gets on

Nobody waits for ever: who finds a queue full waits for one who takes from it, and who finds it empty
waits for one who sends to it, and in this chain somebody can always take a step.  Every step leaves
less to do, so that steps come to an end, and that can only be where all have ended.

* `exists_step_of_not_isDone`: until all have ended, somebody can take a step.
* `Pool.work`, `Step.work_lt`: what is left to do gets less with every step.
* `exists_isDone_run`: so all end if those who can take a step go on taking one.
-/

namespace DiskUsage

/-- Steps that are left to a worker, and to those who take what it sends. -/
def Worker.work : Worker → Nat
  | idle => 1
  | sizing _ _ left => 2 * left.length + 4
  | sending _ _ => 3
  | gone => 0

namespace Pool

variable {p q : Pool}

/-! ## Somebody can take a step -/

/-- Every queue has room for something. -/
structure Room.Usable (room : Room) : Prop where
  jobs : 0 < room.jobs
  entries : 0 < room.entries
  files : 0 < room.files

theorem usable_roomFor {workers : Nat} (h : 0 < workers) (children maxLargeFiles : Nat) :
    (roomFor workers children maxLargeFiles).Usable := by
  obtain ⟨hj, he, hf⟩ := roomFor_pos h children maxLargeFiles
  exact ⟨hj, he, hf⟩

/-- A collector is at work or can end, whatever is in its queue. -/
theorem exists_step_of_entries (ho : p.entriesOver = false)
    (h : p.entries ≠ [] ∨ p.isDeserted = true) : ∃ q, Step p q := by
  cases he : p.entries with
  | nil =>
    have hd : p.isDeserted = true := h.resolve_left fun hne => hne he
    exact ⟨_, .endEntries ho he hd⟩
  | cons entry rest => exact ⟨_, .collectEntry ho he⟩

theorem exists_step_of_files (ho : p.filesOver = false)
    (h : p.files ≠ [] ∨ p.isDeserted = true) : ∃ q, Step p q := by
  cases hf : p.files with
  | nil =>
    have hd : p.isDeserted = true := h.resolve_left fun hne => hne hf
    exact ⟨_, .endFiles ho hf hd⟩
  | cons file rest => exact ⟨_, .collectFile ho hf⟩

/-- **A worker** that has not ended can go on, or a collector makes room for it, unless it has to
wait for a job. -/
theorem exists_step_of_worker (h : p.Orderly) (hr : p.room.Usable) {i : Nat} {w : Worker}
    (hi : p.workers[i]? = some w) (hw : w.isGone = false)
    (hjobs : p.jobs ≠ [] ∨ p.closed = true) : ∃ q, Step p q := by
  obtain ⟨hoe, hof⟩ := h.collecting (isDeserted_eq_false hi hw)
  cases w with
  | idle =>
    cases hj : p.jobs with
    | nil =>
      have hc : p.closed = true := hjobs.resolve_left fun hne => hne hj
      exact ⟨_, .leave hi hj hc⟩
    | cons job rest => exact ⟨_, .take hi hj⟩
  | sizing number child left =>
    cases left with
    | nil =>
      cases he : child.listed? with
      | none => exact ⟨_, .drop hi he⟩
      | some entry => exact ⟨_, .add hi he⟩
    | cons file left =>
      by_cases hroom : p.files.length < p.room.files
      · exact ⟨_, .sendFile hi hof hroom⟩
      · have hpos := hr.files
        have hne : p.files ≠ [] := List.length_pos_iff.1 (by omega)
        exact exists_step_of_files hof (.inl hne)
  | sending number entry =>
    by_cases hroom : p.entries.length < p.room.entries
    · exact ⟨_, .sendEntry hi hoe hroom⟩
    · have hpos := hr.entries
      have hne : p.entries ≠ [] := List.length_pos_iff.1 (by omega)
      exact exists_step_of_entries hoe (.inl hne)
  | gone => cases hw

/-- Where not all workers have ended, there is one that has not. -/
theorem exists_worker (hd : p.isDeserted = false) :
    ∃ (i : Nat) (w : Worker), p.workers[i]? = some w ∧ w.isGone = false := by
  obtain ⟨w, hmem, hw⟩ := List.all_eq_false.1 hd
  obtain ⟨i, hi⟩ := List.mem_iff_getElem?.1 hmem
  exact ⟨i, w, hi, by simpa using hw⟩

/-- **No deadlock**: until all have ended, somebody can take a step. -/
theorem exists_step_of_not_isDone (h : p.Orderly) (hr : p.room.Usable) (hn : p.isDone = false) :
    ∃ q, Step p q := by
  cases hw : p.waiting with
  | cons job rest =>
    -- the dispatcher can go on, or a worker takes a job out of the full queue
    have hd := h.not_deserted (p := p) (by simp [hw])
    by_cases hroom : p.jobs.length < p.room.jobs
    · exact ⟨_, .dispatch hw hd hroom⟩
    · have hpos := hr.jobs
      have hne : p.jobs ≠ [] := List.length_pos_iff.1 (by omega)
      obtain ⟨i, w, hi, hg⟩ := exists_worker hd
      exact exists_step_of_worker h hr hi hg (.inl hne)
  | nil =>
    cases hc : p.closed with
    | false => exact ⟨_, .close hw hc⟩
    | true =>
      cases hd : p.isDeserted with
      | false =>
        obtain ⟨i, w, hi, hg⟩ := exists_worker hd
        exact exists_step_of_worker h hr hi hg (.inr hc)
      | true =>
        cases hoe : p.entriesOver with
        | false => exact exists_step_of_entries hoe (.inr hd)
        | true =>
          cases hof : p.filesOver with
          | false => exact exists_step_of_files hof (.inr hd)
          | true => simp [isDone, hc, hd, hoe, hof] at hn

/-! ## Steps come to an end -/

/-- Steps that a job takes, once it is in its queue. -/
def jobWork (job : Nat × SizedChild) : Nat :=
  2 * job.2.large.length + 4

/-- What is left to do, counted so that every step leaves less. -/
def work (p : Pool) : Nat :=
  (p.waiting.map fun job => jobWork job + 1).sum + (p.jobs.map jobWork).sum
    + (p.workers.map Worker.work).sum + p.entries.length + p.files.length
    + (!p.closed).toNat + (!p.entriesOver).toNat + (!p.filesOver).toNat

/-- What is left to the workers, when one of them moves on. -/
theorem work_set {workers : List Worker} {i : Nat} {w : Worker} (hi : workers[i]? = some w)
    (w' : Worker) : ((workers.set i w').map Worker.work).sum + w.work
      = (workers.map Worker.work).sum + w'.work := by
  obtain ⟨others, hp, hq⟩ := exists_set_perm hi
  have hp' := (hp.map Worker.work).sum_eq
  have hq' := ((hq w').map Worker.work).sum_eq
  rw [List.map_cons, List.sum_cons] at hp' hq'
  omega

/-- **Every step** leaves less to do. -/
theorem Step.work_lt (hs : Step p q) : q.work < p.work := by
  unfold work
  cases hs with
  | close hw hc =>
    simp only [hc]
    simp
  | giveUp hw hd =>
    simp only [hw, List.map_cons, List.sum_cons, List.map_nil, List.sum_nil]
    omega
  | dispatch hw hd hr =>
    simp only [hw, List.map_cons, List.sum_cons, List.map_append, List.sum_append, List.map_nil,
      List.sum_nil]
    omega
  | leave hi hj hc =>
    have h := work_set hi .gone
    simp only [Worker.work] at h
    simp only [move]
    omega
  | @take i number child rest hi hj =>
    have h := work_set hi (.sizing number child child.large)
    simp only [Worker.work] at h
    simp only [move, hj, List.map_cons, List.sum_cons, jobWork]
    omega
  | @loseFile i number child file left hi ho =>
    have h := work_set hi (.sizing number child left)
    simp only [Worker.work, List.length_cons] at h
    simp only [move]
    omega
  | @sendFile i number child file left hi ho hr =>
    have h := work_set hi (.sizing number child left)
    simp only [Worker.work, List.length_cons] at h
    simp only [move, List.length_append, List.length_singleton]
    omega
  | @add i number child entry hi he =>
    have h := work_set hi (.sending number entry)
    simp only [Worker.work, List.length_nil] at h
    simp only [move]
    omega
  | drop hi he =>
    have h := work_set hi .idle
    simp only [Worker.work, List.length_nil] at h
    simp only [move]
    omega
  | loseEntry hi ho =>
    have h := work_set hi .idle
    simp only [Worker.work] at h
    simp only [move]
    omega
  | sendEntry hi ho hr =>
    have h := work_set hi .idle
    simp only [Worker.work] at h
    simp only [move, List.length_append, List.length_singleton]
    omega
  | endEntries ho he hd =>
    simp only [ho]
    simp
  | collectEntry ho he =>
    simp only [he, List.length_cons]
    omega
  | endFiles ho hf hd =>
    simp only [ho]
    simp
  | collectFile ho hf =>
    simp only [hf, List.length_cons]
    omega

/-- **All end** if those who can take a step go on taking one. -/
theorem exists_isDone_run (h : p.Orderly) (hr : p.room.Usable) :
    ∃ schedule, (p.run schedule).isDone = true := by
  refine exists_takeTurns_done (fun p : Pool => p.Orderly ∧ p.room.Usable) work ?_ ?_ ?_ ⟨h, hr⟩
  · intro p actor q ha hp
    have hs := step_of_step? ha
    exact ⟨hs.orderly hp.1, hs.room ▸ hp.2⟩
  · intro p hp hd
    obtain ⟨q, hs⟩ := exists_step_of_not_isDone hp.1 hp.2 hd
    obtain ⟨actor, ha⟩ := hs.exists_actor
    exact ⟨actor, q, ha⟩
  · intro p actor q ha
    exact (step_of_step? ha).work_lt

end Pool

end DiskUsage
