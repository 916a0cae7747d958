import DiskUsage.Progress.Reporting
import DiskUsage.Proofs.Progress.Boundaries
import DiskUsage.Proofs.Scan.Recorded
import DiskUsage.Proofs.Turns

/-!
# What several workers publish

The files of a scan have numbers, in the order in which they are counted.  A file that progress takes notice
of is looked at by the worker that counted it, sooner or later, and by nobody else; so a multiple of the
sampling step is published once if the file with that number is such a file, and else never.

* `Trace.files`, `Trace.dues`: the files of a trace, and what is to be looked at of them.
* `Reporting.Step`: what a worker can do; `Reporting.Kept`: what every step keeps.
* `published_perm`: the numbers that are published in the end.
* `exists_isDone_run`: the end comes; `exists_run_observe`: also with one worker that does it all, whose feed
  is that of a scan.
-/

open scoped List

namespace DiskUsage

/-- Progress takes notice of it. -/
def Event.isSeen : Event → Bool
  | .file _ _ observed => observed
  | _ => false

namespace Trace

/-- The files that a trace tells of, in order. -/
def files (trace : Trace) : Trace :=
  trace.filter (Event.tells false)

/-- What is to be looked at of a trace, in the order in which it is counted. -/
def dues (trace : Trace) : List Due :=
  trace.files.zipIdx.filterMap fun x => x.1.due? x.2

theorem length_files (trace : Trace) : trace.files.length = trace.count false :=
  List.countP_eq_length_filter.symm

theorem due?_eq_none {event : Event} (h : event.tells false = false) (before : Nat) :
    event.due? before = none := by
  cases event with
  | file path size observed => cases h
  | _ => rfl

/-- One more event is numbered by the files before it. -/
theorem dues_concat (trace : Trace) (event : Event) :
    dues (trace ++ [event]) = trace.dues ++ (event.due? trace.files.length).toList := by
  unfold dues files
  rw [List.filter_append, List.filter_cons, List.filter_nil]
  cases htells : event.tells false with
  | false => simp [due?_eq_none htells]
  | true =>
    rw [if_pos rfl, List.zipIdx_append, List.filterMap_append, List.zipIdx_singleton, Nat.zero_add,
      List.filterMap_cons, List.filterMap_nil]
    rfl

/-- What is to be looked at are the files that progress takes notice of, each by its number. -/
theorem map_number_dues (trace : Trace) :
    trace.dues.map Due.number
      = (List.range' 1 trace.files.length).filter fun n => trace.files[n - 1]?.any Event.isSeen := by
  unfold dues
  -- from the end, since a number tells how many files come before
  induction trace.files using List.reverseRecOn with
  | nil => rfl
  | append_singleton files event ih =>
    have hbefore : (List.range' 1 files.length).filter
          (fun n => (files ++ [event])[n - 1]?.any Event.isSeen)
        = (List.range' 1 files.length).filter fun n => files[n - 1]?.any Event.isSeen := by
      refine List.filter_congr fun n hn => ?_
      rw [List.mem_range'_1] at hn
      rw [List.getElem?_append_left (by omega)]
    rw [List.zipIdx_append, List.filterMap_append, List.map_append, ih, List.length_append,
      List.length_singleton, List.range'_concat, List.filter_append, hbefore]
    congr 1
    cases event with
    | file path size observed =>
      cases observed <;> simp [Event.due?, Event.isSeen, Due.number, Nat.add_comm]
    | _ => simp [Event.due?, Event.isSeen]

end Trace

namespace Reporting

variable {s t : Reporting} {trace : Trace}

/-- What was counted and is not yet looked at. -/
def due (s : Reporting) : List Due :=
  s.reporters.flatMap fun r => r.pending.toList

/-- What has still to happen. -/
def left (s : Reporting) : Trace :=
  s.reporters.flatMap Reporter.left

/-- A snapshot is published for a file. -/
def crosses (s : Reporting) (due : Due) : Bool :=
  passesBoundary s.every due.before due.number

/-! ### Steps -/

/-- One step of one of the workers. -/
inductive Step (s : Reporting) : Reporting → Prop where
  | look {i : Nat} {due : Due} {rest : Trace} (hi : s.reporters[i]? = some ⟨some due, rest⟩) :
      Step s ((s.look due).move i ⟨none, rest⟩)
  | record {i : Nat} {event : Event} {rest : Trace}
      (hi : s.reporters[i]? = some ⟨none, event :: rest⟩) :
      Step s ((s.record event).move i ⟨s.due? event, rest⟩)

theorem step_of_step? {i : Nat} (h : s.step? i = some t) : Step s t := by
  unfold step? at h
  split at h
  · cases h
  · next hi =>
    cases h
    exact .look hi
  · next hi =>
    cases h
    exact .record hi
  · cases h

variable {i : Nat} {d : Due} {event : Event} {rest : Trace}

theorem due_look (hi : s.reporters[i]? = some ⟨some d, rest⟩) :
    s.due ~ d :: ((s.look d).move i ⟨none, rest⟩).due :=
  flatMap_perm_of_give (fun r : Reporter => r.pending.toList) hi [d] rfl

theorem due_record (hi : s.reporters[i]? = some ⟨none, event :: rest⟩) :
    ((s.record event).move i ⟨s.due? event, rest⟩).due ~ (s.due? event).toList ++ s.due :=
  flatMap_set_perm_of_get (fun r : Reporter => r.pending.toList) hi _ (List.append_nil _).symm

theorem left_look (hi : s.reporters[i]? = some ⟨some d, rest⟩) :
    ((s.look d).move i ⟨none, rest⟩).left ~ s.left :=
  flatMap_set_perm_of_get Reporter.left hi [] rfl

theorem left_record (hi : s.reporters[i]? = some ⟨none, event :: rest⟩) :
    s.left ~ event :: ((s.record event).move i ⟨s.due? event, rest⟩).left :=
  flatMap_perm_of_give Reporter.left hi [event] rfl

/-! ### What every step keeps -/

/-- What was recorded and what is left make up the trace, and the counters tell of what was recorded; of
this, what was looked at and what is still to be makes up what is to be looked at; and a snapshot was
published for each file that passes a boundary, which waits or was lost. -/
structure Kept (trace : Trace) (s : Reporting) : Prop where
  split : s.happened ++ s.left ~ trace
  counters : s.counters = Counters.zero.after s.happened
  dues : s.looks.map Look.due ++ s.due ~ s.happened.dues
  looked : ∀ l ∈ s.looks, l.published.isSome = s.crosses l.due
  listening : s.feed.listening = true
  room : s.feed.waiting.length ≤ Feed.room
  sent : s.feed.lost + s.feed.waiting.length = s.published.length

theorem kept_start (every : Nat) (threads : List Trace) :
    Kept threads.flatten (start every threads) := by
  have hdue : (start every threads).due = [] := by simp [due, start, List.flatMap_map]
  have hleft : (start every threads).left = threads.flatten := by
    simp [left, start, List.flatMap_map, List.flatMap_id']
  exact
    { split := by
        rw [hleft]
        rfl
      counters := rfl
      dues := by
        rw [hdue]
        rfl
      looked := by simp [start]
      listening := rfl
      room := Nat.zero_le _
      sent := rfl }

/-- While there are fewer than 2⁶⁴ files, their counter tells how many there are. -/
theorem Kept.files (h : Kept trace s) (hroom : trace.count false < 2 ^ 64) :
    s.counters.files.toNat = s.happened.files.length := by
  have hle : s.happened.count false ≤ trace.count false := by
    have hcount := h.split.countP_eq (Event.tells false)
    rw [List.countP_append] at hcount
    exact Nat.le.intro hcount
  rw [h.counters, (Counters.after_eq _ _).1, Trace.length_files]
  simp only [Counters.zero, UInt64.zero_add, UInt64.toNat_ofNat']
  omega

theorem isSome_snapshot? (s : Reporting) (d : Due) : (s.snapshot? d).isSome = s.crosses d := by
  simp only [snapshot?, crosses]
  split <;> simp_all

theorem published_look (s : Reporting) (d : Due) :
    (s.look d).published.length = s.published.length + (s.snapshot? d).toList.length := by
  cases hsnapshot : s.snapshot? d <;> simp [published, look, hsnapshot]

/-- Whoever listens goes on listening, and gets what is published. -/
theorem Kept.sent_look (h : Kept trace s) (d : Due) :
    (s.look d).feed.listening = true ∧ (s.look d).feed.waiting.length ≤ Feed.room
      ∧ (s.look d).feed.lost + (s.look d).feed.waiting.length = (s.look d).published.length := by
  rw [published_look, look]
  cases s.snapshot? d with
  | none => exact ⟨h.listening, h.room, h.sent⟩
  | some snapshot =>
    refine ⟨?_, Feed.length_waiting_publish h.room snapshot, ?_⟩
    · exact (Feed.listening_publish s.feed snapshot).trans h.listening
    · exact (Feed.lost_add_length_publish h.listening h.room snapshot).trans (congrArg (· + 1) h.sent)

/-- **Every step** keeps what is said of the numbers. -/
theorem Step.kept (hroom : trace.count false < 2 ^ 64) (hstep : Step s t) (h : Kept trace s) :
    Kept trace t := by
  cases hstep with
  | @look i d rest hi =>
    obtain ⟨hlistening, hwaiting, hsent⟩ := h.sent_look d
    refine
      { split := ((left_look hi).append_left _).trans h.split
        counters := h.counters
        dues := ?dues
        looked := fun l hl => ?looked
        listening := hlistening
        room := hwaiting
        sent := hsent }
    case dues =>
      have hlooks : (s.look d).looks.map Look.due = s.looks.map Look.due ++ [d] := by
        simp [Reporting.look]
      calc (s.look d).looks.map Look.due ++ ((s.look d).move i ⟨none, rest⟩).due
          = s.looks.map Look.due ++ d :: ((s.look d).move i ⟨none, rest⟩).due := by
            rw [hlooks, List.append_assoc]
            rfl
        _ ~ s.looks.map Look.due ++ s.due := (due_look hi).symm.append_left _
        _ ~ s.happened.dues := h.dues
    case looked =>
      rcases List.mem_append.1 hl with hl | hl
      · exact h.looked l hl
      · obtain rfl := List.mem_singleton.1 hl
        exact isSome_snapshot? s d
  | @record i event rest hi =>
    refine
      { split := ?split
        counters := ?counters
        dues := ?dues
        looked := h.looked
        listening := h.listening
        room := h.room
        sent := h.sent }
    case split =>
      calc (s.happened ++ [event]) ++ ((s.record event).move i ⟨s.due? event, rest⟩).left
          = s.happened ++ event :: ((s.record event).move i ⟨s.due? event, rest⟩).left := by simp
        _ ~ s.happened ++ s.left := (left_record hi).symm.append_left _
        _ ~ trace := h.split
    case counters =>
      change s.counters.record event = Counters.zero.after (s.happened ++ [event])
      rw [Counters.after_append, ← h.counters]
      rfl
    case dues =>
      -- the counter gives the event the number that it has in the trace
      have hdue : s.due? event = event.due? s.happened.files.length := by rw [due?, h.files hroom]
      calc s.looks.map Look.due ++ ((s.record event).move i ⟨s.due? event, rest⟩).due
          ~ s.looks.map Look.due ++ (s.due ++ (s.due? event).toList) :=
            ((due_record hi).trans List.perm_append_comm).append_left _
        _ = (s.looks.map Look.due ++ s.due) ++ (s.due? event).toList := (List.append_assoc ..).symm
        _ ~ s.happened.dues ++ (s.due? event).toList := h.dues.append_right _
        _ = Trace.dues (s.happened ++ [event]) := by rw [hdue, Trace.dues_concat]

/-- However a trace is shared out, what every step keeps holds after every schedule. -/
theorem kept_run (hroom : trace.count false < 2 ^ 64) {threads : List Trace}
    (hthreads : threads.flatten ~ trace) (every : Nat) (schedule : List Nat) :
    Kept trace ((start every threads).run schedule) := by
  have hkept := kept_start every threads
  have hstart : Kept trace (start every threads) :=
    { hkept with split := hkept.split.trans hthreads }
  exact takeTurns_induction (Kept trace) (fun hstep => (step_of_step? hstep).kept hroom) hstart schedule

theorem every_run (s : Reporting) (schedule : List Nat) : (s.run schedule).every = s.every := by
  refine takeTurns_induction (fun t : Reporting => t.every = s.every) (fun hstep ht => ?_) rfl schedule
  refine Eq.trans ?_ ht
  cases step_of_step? hstep <;> rfl

/-! ### All gets recorded and looked at -/

/-- The steps that are left. -/
def work (s : Reporting) : Nat :=
  2 * s.left.length + s.due.length

theorem Step.work_lt (hstep : Step s t) : t.work < s.work := by
  unfold work
  cases hstep with
  | look hi =>
    have hleft := (left_look hi).length_eq
    have hdue := (due_look hi).length_eq
    rw [List.length_cons] at hdue
    omega
  | @record i event rest hi =>
    have hleft := (left_record hi).length_eq
    have hdue := (due_record hi).length_eq
    have hone : (s.due? event).toList.length ≤ 1 := Option.length_toList_le
    rw [List.length_cons] at hleft
    rw [List.length_append] at hdue
    omega

/-- Until all is done, somebody can go on. -/
theorem exists_step? (h : s.isDone = false) : ∃ i t, s.step? i = some t := by
  obtain ⟨reporter, hmem, hbusy⟩ := List.all_eq_false.1 h
  obtain ⟨i, hi⟩ := List.getElem?_of_mem hmem
  match reporter, hi, hbusy with
  | ⟨some d, rest⟩, hi, _ => exact ⟨i, _, by rw [step?, hi]⟩
  | ⟨none, event :: rest⟩, hi, _ => exact ⟨i, _, by rw [step?, hi]⟩
  | ⟨none, []⟩, _, hbusy => exact absurd rfl hbusy

/-- **The end comes**, whatever has happened so far. -/
theorem exists_isDone_run (s : Reporting) : ∃ more, (s.run more).isDone = true :=
  exists_takeTurns_done (fun _ => True) work (fun _ _ => trivial) (fun _ => exists_step?)
    (fun hstep => (step_of_step? hstep).work_lt) trivial

theorem left_and_due_of_isDone (h : s.isDone = true) : s.left = [] ∧ s.due = [] := by
  have hall : ∀ r ∈ s.reporters, r.pending = none ∧ r.left = [] := by
    simpa [isDone] using h
  exact ⟨List.flatMap_eq_nil_iff.2 fun r hr => (hall r hr).2,
    List.flatMap_eq_nil_iff.2 fun r hr => by rw [(hall r hr).1]; rfl⟩

/-- In the end everything was recorded. -/
theorem Kept.happened_perm (h : Kept trace s) (hdone : s.isDone = true) : s.happened ~ trace := by
  have hsplit := h.split
  rwa [(left_and_due_of_isDone hdone).1, List.append_nil] at hsplit

/-! ### What is published -/

theorem published_eq (h : Kept trace s) :
    s.published = ((s.looks.map Look.due).filter s.crosses).map Due.number := by
  rw [List.filter_map, List.map_map]
  exact congrArg _ (List.filter_congr h.looked)

/-- **What is published** in the end are the multiples of the sampling step, where the file with that number
is one that progress takes notice of. -/
theorem published_perm (hevery : 0 < s.every) (h : Kept trace s) (hdone : s.isDone = true) :
    s.published ~ (boundaries s.every s.happened.files.length).filter
      fun n => s.happened.files[n - 1]?.any Event.isSeen := by
  have hlooked : s.looks.map Look.due ~ s.happened.dues := by
    have hdues := h.dues
    rwa [(left_and_due_of_isDone hdone).2, List.append_nil] at hdues
  have hcrosses : s.crosses = (fun n => decide (s.every ∣ n)) ∘ Due.number := by
    funext d
    exact passesBoundary_succ hevery d.before
  calc s.published
      = ((s.looks.map Look.due).filter s.crosses).map Due.number := published_eq h
    _ ~ (s.happened.dues.filter s.crosses).map Due.number := (hlooked.filter _).map _
    _ = (s.happened.dues.map Due.number).filter fun n => decide (s.every ∣ n) := by
      rw [hcrosses, List.filter_map]
    _ = ((List.range' 1 s.happened.files.length).filter fun n => decide (s.every ∣ n)).filter
          fun n => s.happened.files[n - 1]?.any Event.isSeen := by
      rw [Trace.map_number_dues, List.filter_comm]
    _ ~ _ := (filter_dvd_perm hevery _).filter _

/-! ### One worker alone -/

/-- What a scan publishes for one event is what a worker does that looks at once. -/
theorem feed_look_record (s : Reporting) (event : Event) :
    s.feed.observe s.every s.counters [event]
      = (s.due? event).elim s.feed fun d => ((s.record event).look d).feed := by
  cases event with
  | file path size observed =>
    cases observed with
    | false => rfl
    | true =>
      let snapshot : Snapshot := ⟨s.counters.record (.file path size true), path, .zero⟩
      have hsnapshot : (s.record (.file path size true)).snapshot? ⟨s.counters.files.toNat, path⟩
          = if passesBoundary s.every s.counters.files.toNat (s.counters.files.toNat + 1) then some snapshot
            else none := rfl
      change (Feed.step s.every (s.counters, s.feed) (.file path size true)).2
        = ((s.record (.file path size true)).snapshot? ⟨s.counters.files.toNat, path⟩).elim s.feed
            s.feed.publish
      rw [hsnapshot, Feed.step]
      cases passesBoundary s.every s.counters.files.toNat (s.counters.files.toNat + 1) <;> rfl
  | _ => rfl

/-- One worker alone comes past its next event. -/
theorem exists_run_event (h : s.reporters = [⟨none, event :: rest⟩]) :
    ∃ schedule, (s.run schedule).reporters = [⟨none, rest⟩] ∧ (s.run schedule).every = s.every
      ∧ (s.run schedule).counters = s.counters.record event
      ∧ (s.run schedule).feed = s.feed.observe s.every s.counters [event] := by
  have hrecord : s.step? 0 = some ((s.record event).move 0 ⟨s.due? event, rest⟩) := by
    rw [step?, h]
    rfl
  rw [feed_look_record]
  cases hdue : s.due? event with
  | none =>
    have hrun : s.run [0] = (s.record event).move 0 ⟨none, rest⟩ := by
      rw [hdue] at hrecord
      exact takeTurns_cons_of_step hrecord []
    exact ⟨[0], by rw [hrun]; simp [move, record, h]⟩
  | some d =>
    have hlook : ((s.record event).move 0 ⟨some d, rest⟩).step? 0
        = some ((((s.record event).move 0 ⟨some d, rest⟩).look d).move 0 ⟨none, rest⟩) := by
      have hreporters : ((s.record event).move 0 ⟨some d, rest⟩).reporters = [⟨some d, rest⟩] := by
        simp [move, record, h]
      rw [step?, hreporters]
      rfl
    have hrun : s.run [0, 0]
        = (((s.record event).move 0 ⟨some d, rest⟩).look d).move 0 ⟨none, rest⟩ := by
      rw [hdue] at hrecord
      exact (takeTurns_cons_of_step hrecord [0]).trans (takeTurns_cons_of_step hlook [])
    refine ⟨[0, 0], ?_⟩
    rw [hrun]
    exact ⟨by simp [move, look, record, h], rfl, rfl, rfl⟩

/-- One worker alone publishes what a scan publishes that goes through its trace in order. -/
theorem exists_run_observe (trace : Trace) (h : s.reporters = [⟨none, trace⟩]) :
    ∃ schedule, (s.run schedule).isDone = true
      ∧ (s.run schedule).feed = s.feed.observe s.every s.counters trace := by
  induction trace generalizing s with
  | nil => exact ⟨[], by simp [run, isDone, h], rfl⟩
  | cons event rest ih =>
    obtain ⟨first, hreporters, hevery, hcounters, hfeed⟩ := exists_run_event h
    obtain ⟨more, hdone, hrest⟩ := ih hreporters
    have hrun : s.run (first ++ more) = (s.run first).run more := takeTurns_append first more s
    refine ⟨first ++ more, hrun ▸ hdone, ?_⟩
    rw [hrun, hrest, hevery, hcounters, hfeed]
    exact (Feed.observe_append s.every s.counters [event] rest s.feed).symm

end Reporting

end DiskUsage
