import DiskUsage.Progress.Snapshot
import DiskUsage.Scan.Trace

/-!
# Publishing progress

Whenever the number of files passes a multiple of the sampling step, a snapshot is published to the
subscriber, if there is one.  The newest 128 snapshots wait to be read; older ones are lost.

Of the channel this is assumed: sending never waits and never fails a scan, whether somebody has
subscribed or not; snapshots are read in the order in which they were sent; and a subscriber that fell
behind is told how many it has missed and goes on with the oldest one that is kept.

* `passesBoundary`: a multiple of the step lies above the first count and not above the second.
* `Feed.observe`, `Feed.drain`: publish what a trace calls for, and read what waits.
* `lost_add_length_publish`: a snapshot that is published waits or is counted as lost.
* `observe_append`: the feed after two traces is that of the second after that of the first.
-/

namespace DiskUsage

/-- A multiple of the step lies above the first count and not above the second. -/
def passesBoundary (step before now : Nat) : Bool :=
  step != 0 && before / step != now / step

/-- Snapshots that wait to be read. -/
structure Feed where
  /-- Somebody has subscribed. -/
  listening : Bool
  /-- The snapshots that wait, the oldest first. -/
  waiting : List Snapshot
  /-- How many were lost since the last reading. -/
  lost : Nat

namespace Feed

/-- How many snapshots can wait. -/
def room : Nat := 128

/-- Nobody has subscribed. -/
def closed : Feed := ⟨false, [], 0⟩

/-- Somebody subscribes, and sees what is published from now on. -/
def subscribed : Feed := ⟨true, [], 0⟩

/-- Publish a snapshot. -/
def publish (f : Feed) (s : Snapshot) : Feed :=
  if f.listening then
    if f.waiting.length < room then { f with waiting := f.waiting ++ [s] }
    else { f with waiting := f.waiting.drop 1 ++ [s], lost := f.lost + 1 }
  else f

/-- One event: the counters after it, and the feed with the snapshot that it calls for. -/
def step (every : Nat) (state : Counters × Feed) (event : Event) : Counters × Feed :=
  let counters := state.1.record event
  match event with
  | .file path _ true =>
    if passesBoundary every state.1.files.toNat (state.1.files.toNat + 1) then
      (counters, state.2.publish ⟨counters, path, .zero⟩)
    else (counters, state.2)
  | _ => (counters, state.2)

/-- Publish the snapshots that a trace calls for, which starts with these counters. -/
def observe (every : Nat) (counters : Counters) (trace : Trace) (f : Feed) : Feed :=
  (trace.foldl (step every) (counters, f)).2

/-- Read all that waits: the snapshots, how many were lost, and the feed afterwards. -/
def drain (f : Feed) : List Snapshot × Nat × Feed :=
  (f.waiting, f.lost, { f with waiting := [], lost := 0 })

theorem fst_step (every : Nat) (state : Counters × Feed) (event : Event) :
    (step every state event).1 = state.1.record event := by
  unfold step
  split
  · split <;> rfl
  · rfl

/-- No more snapshots wait than there is room for. -/
theorem length_waiting_publish {f : Feed} (h : f.waiting.length ≤ room) (s : Snapshot) :
    (f.publish s).waiting.length ≤ room := by
  unfold publish
  split
  · split
    · simpa
    · simp only [List.length_append, List.length_drop, List.length_singleton]
      have : 0 < room := by decide
      omega
  · exact h

/-- Whoever listens misses no snapshot: it waits or is counted as lost. -/
theorem lost_add_length_publish {f : Feed} (hl : f.listening = true)
    (h : f.waiting.length ≤ room) (s : Snapshot) :
    (f.publish s).lost + (f.publish s).waiting.length = f.lost + f.waiting.length + 1 := by
  have hr : 0 < room := by decide
  simp only [publish, hl, if_true]
  split
  · simp [Nat.add_assoc]
  · simp only [List.length_append, List.length_drop, List.length_singleton]
    omega

/-- Whoever listens goes on listening. -/
theorem listening_publish (f : Feed) (s : Snapshot) : (f.publish s).listening = f.listening := by
  unfold publish
  split
  · split <;> rfl
  · rfl

/-- Nothing is published to nobody. -/
theorem publish_of_not_listening {f : Feed} (h : f.listening = false) (s : Snapshot) :
    f.publish s = f := by
  simp [publish, h]

@[simp] theorem observe_nil (every : Nat) (counters : Counters) (f : Feed) :
    observe every counters [] f = f := rfl

theorem fst_foldl_step (every : Nat) (state : Counters × Feed) (trace : Trace) :
    (trace.foldl (step every) state).1 = state.1.after trace := by
  induction trace generalizing state with
  | nil => rfl
  | cons event trace ih =>
    rw [List.foldl_cons, ih, fst_step]
    rfl

/-- What is published for two traces, one after the other. -/
theorem observe_append (every : Nat) (counters : Counters) (a b : Trace) (f : Feed) :
    observe every counters (a ++ b) f
      = observe every (counters.after a) b (observe every counters a f) := by
  simp only [observe, List.foldl_append]
  rw [← fst_foldl_step every (counters, f) a]

theorem passesBoundary_iff {step before now : Nat} (hs : 0 < step) (h : before ≤ now) :
    passesBoundary step before now = true ↔ ∃ k, before < k * step ∧ k * step ≤ now := by
  have hle : before / step ≤ now / step := Nat.div_le_div_right h
  constructor
  · intro hp
    have hne : before / step ≠ now / step := by
      simp [passesBoundary] at hp
      exact hp.2
    refine ⟨now / step, ?_, Nat.div_mul_le_self now step⟩
    exact (Nat.div_lt_iff_lt_mul hs).1 (Nat.lt_of_le_of_ne hle hne)
  · rintro ⟨k, hk, hk'⟩
    have h1 : before / step < k := (Nat.div_lt_iff_lt_mul hs).2 hk
    have h2 : k ≤ now / step := (Nat.le_div_iff_mul_le hs).2 hk'
    simp only [passesBoundary, Bool.and_eq_true, bne_iff_ne, ne_eq]
    omega

end Feed

end DiskUsage
