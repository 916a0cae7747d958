import DiskUsage.Proofs.Pool.Step

/-!
# Who ends when

A worker ends only after the dispatcher has, and a collector only after all workers have; each finds
its queue empty then.  So nothing is ever sent to a queue that nobody takes from any more.

* `Pool.Orderly`: who has ended, and what is empty then; `Step.orderly`: every step keeps it.
* `Orderly.collecting`: while a worker works, both collectors collect.
-/

namespace DiskUsage.Pool

/-- Who has ended left nothing behind. -/
structure Orderly (p : Pool) : Prop where
  staffed : p.workers ≠ []
  waiting_of_closed : p.closed = true → p.waiting = []
  jobs_of_gone : .gone ∈ p.workers → p.closed = true ∧ p.jobs = []
  entries_of_over : p.entriesOver = true → p.isDeserted = true ∧ p.entries = []
  files_of_over : p.filesOver = true → p.isDeserted = true ∧ p.files = []

variable {p q : Pool}

theorem orderly_start (room : Room) {workers : Nat} (h : 0 < workers) (children : List SizedChild) :
    (start room workers children).Orderly := by
  refine ⟨?_, by simp [start], ?_, by simp [start], by simp [start]⟩
  · rw [start, ← List.length_pos_iff, List.length_replicate]
    exact h
  · intro hg
    have hg' := List.eq_of_mem_replicate hg
    cases hg'

theorem isDeserted_eq_false {i : Nat} {w : Worker} (hi : p.workers[i]? = some w)
    (hw : w.isGone = false) : p.isDeserted = false := by
  rw [isDeserted, List.all_eq_false]
  exact ⟨w, List.mem_of_getElem? hi, by simp [hw]⟩

theorem eq_gone_of_isGone {w : Worker} (h : w.isGone = true) : w = .gone := by
  cases w <;> simp_all [Worker.isGone]

/-- Where all workers have ended, there was one. -/
theorem Orderly.gone_mem (h : p.Orderly) (hd : p.isDeserted = true) : .gone ∈ p.workers := by
  obtain ⟨w, ws, hw⟩ := List.exists_cons_of_ne_nil h.staffed
  have hmem : w ∈ p.workers := by simp [hw]
  have hg := List.all_eq_true.1 hd w hmem
  exact eq_gone_of_isGone hg ▸ hmem

/-- While a worker works, both collectors collect. -/
theorem Orderly.collecting (h : p.Orderly) (hd : p.isDeserted = false) :
    p.entriesOver = false ∧ p.filesOver = false := by
  constructor
  · refine Bool.eq_false_iff.2 fun ho => ?_
    rw [(h.entries_of_over ho).1] at hd
    cases hd
  · refine Bool.eq_false_iff.2 fun ho => ?_
    rw [(h.files_of_over ho).1] at hd
    cases hd

/-- A dispatcher that has jobs to give is not left alone. -/
theorem Orderly.not_deserted (h : p.Orderly) (hw : p.waiting ≠ []) : p.isDeserted = false :=
  Bool.eq_false_iff.2 fun hd => hw (h.waiting_of_closed (h.jobs_of_gone (h.gone_mem hd)).1)

/-- A worker moves on while the collectors collect: what is left to check concerns the workers that
have ended. -/
theorem Orderly.move {i : Nat} {w w' : Worker} (h : p.Orderly) (hi : p.workers[i]? = some w)
    (hw : w.isGone = false) {r : Pool} (hworkers : r.workers = p.workers.set i w')
    (hclosed : r.closed = p.closed) (hwaiting : r.waiting = p.waiting)
    (hentries : r.entriesOver = p.entriesOver) (hfiles : r.filesOver = p.filesOver)
    (hgone : .gone ∈ r.workers → r.closed = true ∧ r.jobs = []) : r.Orderly := by
  obtain ⟨he, hf⟩ := h.collecting (isDeserted_eq_false hi hw)
  refine ⟨?_, ?_, hgone, ?_, ?_⟩
  · rw [hworkers, ← List.length_pos_iff, List.length_set]
    exact List.length_pos_iff.2 h.staffed
  · rw [hclosed, hwaiting]
    exact h.waiting_of_closed
  · intro ho
    rw [hentries, he] at ho
    cases ho
  · intro ho
    rw [hfiles, hf] at ho
    cases ho

/-- A worker that moves on and has not ended was not among those that have. -/
theorem gone_mem_of_set {i : Nat} {w' : Worker} (hw' : w'.isGone = false)
    (hg : .gone ∈ p.workers.set i w') : .gone ∈ p.workers := by
  rcases List.mem_or_eq_of_mem_set hg with hg | hg
  · exact hg
  · rw [← hg] at hw'
    cases hw'

/-- A worker that goes on, and takes no job, changes nothing about who has ended. -/
theorem Orderly.goOn {i : Nat} {w w' : Worker} (h : p.Orderly) (hi : p.workers[i]? = some w)
    (hw : w.isGone = false) (hw' : w'.isGone = false) {r : Pool}
    (hworkers : r.workers = p.workers.set i w') (hclosed : r.closed = p.closed)
    (hwaiting : r.waiting = p.waiting) (hentries : r.entriesOver = p.entriesOver)
    (hfiles : r.filesOver = p.filesOver) (hjobs : r.jobs = p.jobs) : r.Orderly := by
  refine h.move hi hw hworkers hclosed hwaiting hentries hfiles fun hg => ?_
  rw [hworkers] at hg
  rw [hclosed, hjobs]
  exact h.jobs_of_gone (gone_mem_of_set hw' hg)

/-- **Every step** leaves who has ended with nothing behind. -/
theorem Step.orderly (hs : Step p q) (h : p.Orderly) : q.Orderly := by
  cases hs with
  | close hw hc =>
    exact ⟨h.staffed, fun _ => hw, fun hg => ⟨rfl, (h.jobs_of_gone hg).2⟩, h.entries_of_over,
      h.files_of_over⟩
  | giveUp hw hd => exact ⟨h.staffed, fun _ => rfl, h.jobs_of_gone, h.entries_of_over, h.files_of_over⟩
  | dispatch hw hd hr =>
    have hopen : p.closed ≠ true := fun hc => by simp [h.waiting_of_closed hc] at hw
    exact ⟨h.staffed, fun hc => absurd hc hopen,
      fun hg => absurd (h.jobs_of_gone hg).1 hopen, h.entries_of_over, h.files_of_over⟩
  | leave hi hj hc => exact h.move hi rfl rfl rfl rfl rfl rfl fun _ => ⟨hc, hj⟩
  | take hi hj =>
    refine h.move hi rfl rfl rfl rfl rfl rfl fun hg => ?_
    have hnil := (h.jobs_of_gone (gone_mem_of_set rfl hg)).2
    simp [hnil] at hj
  | loseFile hi ho => exact h.goOn hi rfl rfl rfl rfl rfl rfl rfl rfl
  | sendFile hi ho hr => exact h.goOn hi rfl rfl rfl rfl rfl rfl rfl rfl
  | add hi he => exact h.goOn hi rfl rfl rfl rfl rfl rfl rfl rfl
  | drop hi he => exact h.goOn hi rfl rfl rfl rfl rfl rfl rfl rfl
  | loseEntry hi ho => exact h.goOn hi rfl rfl rfl rfl rfl rfl rfl rfl
  | sendEntry hi ho hr => exact h.goOn hi rfl rfl rfl rfl rfl rfl rfl rfl
  | endEntries ho he hd =>
    exact ⟨h.staffed, h.waiting_of_closed, h.jobs_of_gone, fun _ => ⟨hd, he⟩, h.files_of_over⟩
  | collectEntry ho he =>
    refine ⟨h.staffed, h.waiting_of_closed, h.jobs_of_gone, fun ho' => ?_, h.files_of_over⟩
    rw [ho] at ho'
    cases ho'
  | endFiles ho hf hd =>
    exact ⟨h.staffed, h.waiting_of_closed, h.jobs_of_gone, h.entries_of_over, fun _ => ⟨hd, hf⟩⟩
  | collectFile ho hf =>
    refine ⟨h.staffed, h.waiting_of_closed, h.jobs_of_gone, h.entries_of_over, fun ho' => ?_⟩
    rw [ho] at ho'
    cases ho'

end DiskUsage.Pool
