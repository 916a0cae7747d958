import DiskUsage.Proofs.Turns
import DiskUsage.Scan.Pool

/-!
# What a step of the pool can be

Everything that the dispatcher, a worker or a collector can do in one step, each with what it needs.
What holds after every step is proved by cases on `Step`, and never by opening `Pool.step?`.

* `Pool.Step`: the steps; `step_iff`: they are those that `Pool.step?` takes.
* `run_induction`: what every step keeps holds after every schedule.
-/

open scoped List

namespace DiskUsage.Pool

/-- One step of one of them. -/
inductive Step (p : Pool) : Pool → Prop where
  | close (hw : p.waiting = []) (hc : p.closed = false) : Step p { p with closed := true }
  | giveUp {job : Nat × SizedChild} {rest : List (Nat × SizedChild)} (hw : p.waiting = job :: rest)
      (hd : p.isDeserted = true) : Step p { p with waiting := [] }
  | dispatch {job : Nat × SizedChild} {rest : List (Nat × SizedChild)}
      (hw : p.waiting = job :: rest) (hd : p.isDeserted = false)
      (hr : p.jobs.length < p.room.jobs) :
      Step p { p with waiting := rest, jobs := p.jobs ++ [job] }
  | leave {i : Nat} (hi : p.workers[i]? = some .idle) (hj : p.jobs = []) (hc : p.closed = true) :
      Step p (p.move i .gone)
  | take {i number : Nat} {child : SizedChild} {rest : List (Nat × SizedChild)}
      (hi : p.workers[i]? = some .idle) (hj : p.jobs = (number, child) :: rest) :
      Step p ({ p with jobs := rest }.move i (.sizing number child child.large))
  | loseFile {i number : Nat} {child : SizedChild} {file : LargeFile} {left : List LargeFile}
      (hi : p.workers[i]? = some (.sizing number child (file :: left))) (ho : p.filesOver = true) :
      Step p (p.move i (.sizing number child left))
  | sendFile {i number : Nat} {child : SizedChild} {file : LargeFile} {left : List LargeFile}
      (hi : p.workers[i]? = some (.sizing number child (file :: left))) (ho : p.filesOver = false)
      (hr : p.files.length < p.room.files) :
      Step p ({ p with files := p.files ++ [file] }.move i (.sizing number child left))
  | add {i number : Nat} {child : SizedChild} {entry : DirEntry}
      (hi : p.workers[i]? = some (.sizing number child [])) (he : child.listed? = some entry) :
      Step p
        ({ p with total := Number.wrap (p.total + entry.size) }.move i (.sending number entry))
  | drop {i number : Nat} {child : SizedChild}
      (hi : p.workers[i]? = some (.sizing number child [])) (he : child.listed? = none) :
      Step p ({ p with dropped := number :: p.dropped }.move i .idle)
  | loseEntry {i number : Nat} {entry : DirEntry}
      (hi : p.workers[i]? = some (.sending number entry)) (ho : p.entriesOver = true) :
      Step p (p.move i .idle)
  | sendEntry {i number : Nat} {entry : DirEntry}
      (hi : p.workers[i]? = some (.sending number entry)) (ho : p.entriesOver = false)
      (hr : p.entries.length < p.room.entries) :
      Step p ({ p with entries := p.entries ++ [(number, entry)] }.move i .idle)
  | endEntries (ho : p.entriesOver = false) (he : p.entries = []) (hd : p.isDeserted = true) :
      Step p { p with entriesOver := true }
  | collectEntry {entry : Nat × DirEntry} {rest : List (Nat × DirEntry)}
      (ho : p.entriesOver = false) (he : p.entries = entry :: rest) :
      Step p { p with entries := rest, collected := p.collected ++ [entry] }
  | endFiles (ho : p.filesOver = false) (hf : p.files = []) (hd : p.isDeserted = true) :
      Step p { p with filesOver := true }
  | collectFile {file : LargeFile} {rest : List LargeFile} (ho : p.filesOver = false)
      (hf : p.files = file :: rest) :
      Step p { p with files := rest, collectedFiles := p.collectedFiles ++ [file] }

variable {p q : Pool}

theorem step_of_dispatch? (h : p.dispatch? = some q) : Step p q := by
  unfold dispatch? at h
  split at h
  · next hw =>
    split at h <;> cases h
    next hc => exact .close hw (by simpa using hc)
  · next job rest hw =>
    split at h
    · next hd =>
      cases h
      exact .giveUp hw hd
    · next hd =>
      split at h <;> cases h
      next hr => exact .dispatch hw (by simpa using hd) hr

theorem step_of_work? {i : Nat} {w : Worker} (hi : p.workers[i]? = some w)
    (h : p.work? i w = some q) : Step p q := by
  cases w with
  | idle =>
    simp only [work?] at h
    split at h
    · next hj =>
      split at h <;> cases h
      next hc => exact .leave hi hj hc
    · next number child rest hj =>
      cases h
      exact .take hi hj
  | sizing number child left =>
    cases left with
    | nil =>
      simp only [work?] at h
      split at h
      · next entry he =>
        cases h
        exact .add hi he
      · next he =>
        cases h
        exact .drop hi he
    | cons file left =>
      simp only [work?] at h
      split at h
      · next ho =>
        cases h
        exact .loseFile hi ho
      · next ho =>
        split at h <;> cases h
        next hr => exact .sendFile hi (by simpa using ho) hr
  | sending number entry =>
    simp only [work?] at h
    split at h
    · next ho =>
      cases h
      exact .loseEntry hi ho
    · next ho =>
      split at h <;> cases h
      next hr => exact .sendEntry hi (by simpa using ho) hr
  | gone => cases h

theorem step_of_collectEntry? (h : p.collectEntry? = some q) : Step p q := by
  unfold collectEntry? at h
  split at h
  · cases h
  · next ho =>
    have ho' : p.entriesOver = false := by simpa using ho
    split at h
    · next he =>
      split at h <;> cases h
      next hd => exact .endEntries ho' he hd
    · next entry rest he =>
      cases h
      exact .collectEntry ho' he

theorem step_of_collectFile? (h : p.collectFile? = some q) : Step p q := by
  unfold collectFile? at h
  split at h
  · cases h
  · next ho =>
    have ho' : p.filesOver = false := by simpa using ho
    split at h
    · next hf =>
      split at h <;> cases h
      next hd => exact .endFiles ho' hf hd
    · next file rest hf =>
      cases h
      exact .collectFile ho' hf

theorem step_of_step? {actor : Actor} (h : p.step? actor = some q) : Step p q := by
  cases actor with
  | dispatcher => exact step_of_dispatch? h
  | worker i =>
    obtain ⟨w, hi, hw⟩ := Option.bind_eq_some_iff.1 h
    exact step_of_work? hi hw
  | entryCollector => exact step_of_collectEntry? h
  | fileCollector => exact step_of_collectFile? h

theorem step?_worker {i : Nat} {w : Worker} (hi : p.workers[i]? = some w) :
    p.step? (.worker i) = p.work? i w := by
  simp [step?, hi]

/-- Every step is taken by somebody. -/
theorem Step.exists_actor (h : Step p q) : ∃ actor, p.step? actor = some q := by
  cases h with
  | close hw hc => exact ⟨.dispatcher, by simp [step?, dispatch?, hw, hc]⟩
  | giveUp hw hd => exact ⟨.dispatcher, by simp [step?, dispatch?, hw, hd]⟩
  | dispatch hw hd hr => exact ⟨.dispatcher, by simp [step?, dispatch?, hw, hd, hr]⟩
  | leave hi hj hc => exact ⟨_, (step?_worker hi).trans (by simp [work?, hj, hc])⟩
  | take hi hj => exact ⟨_, (step?_worker hi).trans (by simp [work?, hj])⟩
  | loseFile hi ho => exact ⟨_, (step?_worker hi).trans (by simp [work?, ho])⟩
  | sendFile hi ho hr => exact ⟨_, (step?_worker hi).trans (by simp [work?, ho, hr])⟩
  | add hi he => exact ⟨_, (step?_worker hi).trans (by simp [work?, he])⟩
  | drop hi he => exact ⟨_, (step?_worker hi).trans (by simp [work?, he])⟩
  | loseEntry hi ho => exact ⟨_, (step?_worker hi).trans (by simp [work?, ho])⟩
  | sendEntry hi ho hr => exact ⟨_, (step?_worker hi).trans (by simp [work?, ho, hr])⟩
  | endEntries ho he hd => exact ⟨.entryCollector, by simp [step?, collectEntry?, ho, he, hd]⟩
  | collectEntry ho he => exact ⟨.entryCollector, by simp [step?, collectEntry?, ho, he]⟩
  | endFiles ho hf hd => exact ⟨.fileCollector, by simp [step?, collectFile?, ho, hf, hd]⟩
  | collectFile ho hf => exact ⟨.fileCollector, by simp [step?, collectFile?, ho, hf]⟩

/-- **The steps** are those that somebody can take. -/
theorem step_iff : (∃ actor, p.step? actor = some q) ↔ Step p q :=
  ⟨fun ⟨_, h⟩ => step_of_step? h, Step.exists_actor⟩

/-- No step changes the room. -/
theorem Step.room (h : Step p q) : q.room = p.room := by
  cases h <;> rfl

/-- What every step keeps holds after every schedule. -/
theorem run_induction {I : Pool → Prop} (hstep : ∀ {p q}, I p → Step p q → I q) (hp : I p)
    (schedule : List Actor) : I (p.run schedule) :=
  takeTurns_induction I (fun hs hp => hstep hp (step_of_step? hs)) hp schedule

end DiskUsage.Pool
