import DiskUsage.Proofs.Entry.Largest
import DiskUsage.Proofs.Pool.Accounting
import DiskUsage.Proofs.Pool.Progress
import DiskUsage.Proofs.Scan.Descendant

/-!
# No schedule matters

However the steps of the dispatcher, the workers and the collectors follow each other, and however
many workers there are, the pool ends with the total of all children and with the largest entries and
files among all.

* `accounted_run`: what holds after every schedule.
* `Accounted.collected_perm`, `Accounted.collectedFiles_perm`: what was collected in the end.
* `every_schedule_accounts_and_completes`: all of it.
-/

open scoped List

namespace DiskUsage

namespace Pool

variable {p : Pool} {children : List SizedChild}

/-- The accounts hold, and who has ended left nothing behind, after every schedule. -/
theorem accounted_run (room : Room) {workers : Nat} (h : 0 < workers) (children : List SizedChild)
    (schedule : List Actor) :
    ((start room workers children).run schedule).Orderly
      ∧ Accounted children ((start room workers children).run schedule)
      ∧ ((start room workers children).run schedule).room = room := by
  refine run_induction (I := fun p => p.Orderly ∧ Accounted children p ∧ p.room = room) ?_
    ⟨orderly_start room h children, accounted_start room workers children, rfl⟩ schedule
  rintro p q ⟨hp, ha, hr⟩ hs
  exact ⟨hs.orderly hp, hs.accounted hp ha, hs.room.trans hr⟩

/-- The children behind the line are those that were in front of it. -/
theorem Accounted.dispatched (h : Accounted children p) :
    ∃ dispatched, numbered children = dispatched ++ p.waiting
      ∧ p.placed ~ dispatched.map outcome := by
  obtain ⟨dispatched, hd⟩ := h.line
  refine ⟨dispatched, hd.symm, ?_⟩
  have hp := h.placed
  rw [← hd, List.map_append] at hp
  exact (List.perm_append_left_iff _).1 (hp.trans List.perm_append_comm)

/-- **One place**: behind the line there are the children that were dispatched, each once. -/
theorem Accounted.numbers_perm (h : Accounted children p) :
    p.placed.map Prod.fst ~ List.range (children.length - p.waiting.length) := by
  obtain ⟨dispatched, hn, hp⟩ := h.dispatched
  have hfst := map_fst_numbered children
  rw [hn, List.map_append] at hfst
  have hlen := congrArg List.length hfst
  simp only [List.length_append, List.length_map, List.length_range] at hlen
  have htake := congrArg (List.take dispatched.length) hfst
  rw [List.take_left' (by simp), List.take_range] at htake
  have hout : (dispatched.map outcome).map Prod.fst = dispatched.map Prod.fst := by
    rw [List.map_map]
    rfl
  have hmin : min dispatched.length children.length = children.length - p.waiting.length := by
    omega
  rw [← hmin, ← htake, ← hout]
  exact hp.map Prod.fst

theorem mem_numbered {job : Nat × SizedChild} (h : job ∈ numbered children) :
    children[job.1]? = some job.2 := by
  obtain ⟨i, hi⟩ := List.mem_iff_getElem?.1 h
  rw [numbered, List.getElem?_zip_eq_some] at hi
  obtain ⟨hr, hc⟩ := hi
  obtain ⟨hlt, hr⟩ := List.getElem?_eq_some_iff.1 hr
  rw [List.getElem_range] at hr
  rwa [← hr]

/-- Of each child behind the line it is known what comes out of it. -/
theorem Accounted.outcome_of_mem (h : Accounted children p) {found : Nat × Option DirEntry}
    (hf : found ∈ p.placed) :
    children[found.1]?.map SizedChild.listed? = some found.2 := by
  obtain ⟨dispatched, hn, hp⟩ := h.dispatched
  obtain ⟨job, hjob, rfl⟩ := List.mem_map.1 (hp.mem_iff.1 hf)
  have hmem : job ∈ numbered children := by
    rw [hn]
    exact List.mem_append_left _ hjob
  rw [outcome, mem_numbered hmem]
  rfl

/-- The children that were added up are behind the line, with their entries. -/
theorem listed_mem_placed {entry : Nat × DirEntry} (h : entry ∈ p.added) :
    listed entry ∈ p.placed := by
  simp only [added, placed, List.mem_append, List.mem_flatMap, List.mem_map] at h ⊢
  rcases h with (⟨w, hw, he⟩ | he) | he
  · cases w with
    | sending number e =>
      obtain rfl : entry = (number, e) := by simpa [Worker.added] using he
      exact .inl (.inl (.inl (.inr ⟨_, hw, by simp [Worker.outcome, listed]⟩)))
    | idle => simp [Worker.added] at he
    | sizing number child left => simp [Worker.added] at he
    | gone => simp [Worker.added] at he
  · exact .inl (.inl (.inr ⟨entry, he, rfl⟩))
  · exact .inl (.inr ⟨entry, he, rfl⟩)

/-! ## In the end -/

/-- In the end nothing is on its way. -/
structure Emptied (p : Pool) : Prop where
  waiting : p.waiting = []
  jobs : p.jobs = []
  workers : ∀ w ∈ p.workers, w = .gone
  entries : p.entries = []
  files : p.files = []

theorem Orderly.emptied (h : p.Orderly) (hd : p.isDone = true) : p.Emptied := by
  simp only [isDone, Bool.and_eq_true] at hd
  obtain ⟨⟨⟨hc, hw⟩, he⟩, hf⟩ := hd
  refine ⟨h.waiting_of_closed hc, (h.jobs_of_gone (h.gone_mem hw)).2, fun w hmem => ?_,
    (h.entries_of_over he).2, (h.files_of_over hf).2⟩
  exact eq_gone_of_isGone (List.all_eq_true.1 hw w hmem)

theorem Emptied.flatMap_workers {β : Type} (h : p.Emptied) {f : Worker → List β}
    (hf : f .gone = []) : p.workers.flatMap f = [] := by
  rw [List.flatMap_eq_nil_iff]
  intro w hw
  rw [h.workers w hw, hf]

/-- In the end each child was collected or dropped. -/
theorem Accounted.collected_or_dropped (h : Accounted children p) (he : p.Emptied) :
    p.collected.map listed ++ p.dropped.map unreadable ~ (numbered children).map outcome := by
  have hp := h.placed
  simpa [Pool.placed, he.waiting, he.jobs, he.entries, he.flatMap_workers (f := Worker.outcome) rfl]
    using hp

/-- In the end the entries of all children that can be read were collected. -/
theorem Accounted.collected_perm (h : Accounted children p) (he : p.Emptied) :
    p.collected.map Prod.snd ~ children.filterMap SizedChild.listed? := by
  have hp := (h.collected_or_dropped he).filterMap Prod.snd
  have hl : (p.collected.map listed).filterMap Prod.snd = p.collected.map Prod.snd := by
    rw [List.filterMap_map, ← List.filterMap_eq_map]
    rfl
  have hu : (p.dropped.map unreadable).filterMap Prod.snd = [] := by
    rw [List.filterMap_map, List.filterMap_eq_nil_iff]
    intro number _
    rfl
  have hn : ((numbered children).map outcome).filterMap Prod.snd
      = children.filterMap SizedChild.listed? := by
    conv_rhs => rw [← map_snd_numbered children]
    rw [List.filterMap_map, List.filterMap_map]
    rfl
  rwa [List.filterMap_append, hl, hu, hn, List.append_nil] at hp

/-- In the end all large files were collected. -/
theorem Accounted.collectedFiles_perm (h : Accounted children p) (he : p.Emptied) :
    p.collectedFiles ~ children.flatMap SizedChild.large := by
  have hc := h.candidates
  simpa [Pool.candidates, he.waiting, he.jobs, he.files, he.flatMap_workers (f := Worker.unsent) rfl]
    using hc

/-- In the end the total is that of all children. -/
theorem Accounted.total_eq (h : Accounted children p) (he : p.Emptied) :
    p.total = totalSize children := by
  have ha : p.added = p.collected := by
    simp [added, he.entries, he.flatMap_workers (f := Worker.added) rfl]
  have hs := ((h.collected_perm he).map DirEntry.size).sum_eq
  rw [h.total, ha, totalSize_eq, ← hs, sizeOf, List.map_map]
  rfl

/-- **No schedule matters.**  After every schedule each dispatched child is in exactly one place, with
what comes out of it, and the total is that of the children added up, in a word, so it is their sum
as long as that fits; until all have ended somebody can take a step, and all can end; and when they
have, every entry and every large file was collected once, so that the total and the sizes kept are
those of sizing the children one after the other. -/
theorem every_schedule_accounts_and_completes (c : ScanConfig) {room : Room} (hroom : room.Usable)
    {workers : Nat} (hworkers : 0 < workers) (children : List SizedChild)
    (schedule : List Actor) :
    let p := (start room workers children).run schedule
    (p.placed.map Prod.fst ~ List.range (children.length - p.waiting.length)
        ∧ ∀ found ∈ p.placed, children[found.1]?.map SizedChild.listed? = some found.2)
      ∧ (p.total = Number.wrap (sizeOf p.added)
        ∧ (sizeOf p.added < Number.wordCount → p.total = sizeOf p.added)
        ∧ ∀ entry ∈ p.added, listed entry ∈ p.placed)
      ∧ (p.isDone = false → ∃ actor q, p.step? actor = some q)
      ∧ (∃ more, (p.run more).isDone = true)
      ∧ (p.isDone = true →
          p.collected.map Prod.snd ~ children.filterMap SizedChild.listed?
          ∧ p.collectedFiles ~ children.flatMap SizedChild.large
          ∧ p.total = totalSize children
          ∧ (p.largestEntries c).map DirEntry.size
              = (DiskUsage.largestEntries c children).map DirEntry.size
          ∧ (p.largestFiles c).map LargeFile.size
              = (walkedLargeFiles c children).map LargeFile.size) := by
  intro p
  obtain ⟨ho, ha, hr⟩ := accounted_run room hworkers children schedule
  have husable : p.room.Usable := hr.symm ▸ hroom
  refine ⟨⟨ha.numbers_perm, fun found hf => ha.outcome_of_mem hf⟩,
    ⟨ha.total, fun hword => ha.total.trans (Number.wrap_of_lt hword),
      fun entry he => listed_mem_placed he⟩, fun hn => ?_,
    exists_isDone_run ho husable, fun hd => ?_⟩
  · obtain ⟨q, hs⟩ := exists_step_of_not_isDone ho husable hn
    obtain ⟨actor, h⟩ := hs.exists_actor
    exact ⟨actor, q, h⟩
  · have he := ho.emptied hd
    have hentries := ha.collected_perm he
    have hfiles := ha.collectedFiles_perm he
    exact ⟨hentries, hfiles, ha.total_eq he, TopN.map_size_largest_of_perm _ hentries,
      TopN.map_size_largest_of_perm _ hfiles⟩

/-- A file that is large, a child that cannot be read, and a directory. -/
def sampleChildren : List SizedChild :=
  [⟨[.file ⟨"/r/a"⟩ 5 false], some (.file "a" ⟨"/r/a"⟩ 5 none), [⟨"a", ⟨"/r/a"⟩, 5⟩]⟩,
    ⟨[.error], none, []⟩,
    ⟨[.dir], some (.directory "d" ⟨"/r/d"⟩ 7), []⟩]

/-- All take their turns, so many times. -/
def turns (n : Nat) : List Actor :=
  (List.replicate n [.dispatcher, .worker 1, .fileCollector, .worker 0, .entryCollector]).flatten

/-- Two workers with the least room size three children. -/
theorem two_workers_size_three_children :
    (⟨1, 1, 1⟩ : Room).Usable ∧ 0 < 2
      ∧ ((start ⟨1, 1, 1⟩ 2 sampleChildren).run (turns 10)).isDone = true
      ∧ ((start ⟨1, 1, 1⟩ 2 sampleChildren).run (turns 10)).total = totalSize sampleChildren
      ∧ totalSize sampleChildren = 12 := by
  have hroom : (⟨1, 1, 1⟩ : Room).Usable := ⟨by decide, by decide, by decide⟩
  have hdone : ((start ⟨1, 1, 1⟩ 2 sampleChildren).run (turns 10)).isDone = true := by
    decide +kernel
  obtain ⟨-, -, -, -, hend⟩ := every_schedule_accounts_and_completes (.default ⟨none, 1⟩) hroom
    (by decide : 0 < 2) sampleChildren (turns 10)
  exact ⟨hroom, by decide, hdone, (hend hdone).2.2.1, rfl⟩

/-- Two children of as many bytes as a word can tell. -/
def vastChildren : List SizedChild :=
  [⟨[.dir], some (.directory "a" ⟨"/r/a"⟩ Number.maxWord), []⟩,
    ⟨[.dir], some (.directory "b" ⟨"/r/b"⟩ Number.maxWord), []⟩]

/-- A total that does not fit a word is not the sum of the sizes that were added up. -/
theorem vast_children_overflow_the_total :
    let p := (start (roomFor 1 2 1) 1 vastChildren).run (turns 10)
    p.isDone = true ∧ sizeOf p.added = 36893488147419103230 ∧ p.total = 18446744073709551614 := by
  decide +kernel

end Pool

end DiskUsage
