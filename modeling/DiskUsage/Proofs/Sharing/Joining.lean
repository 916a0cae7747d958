import DiskUsage.Proofs.Sharing.Measurement
import Mathlib.Data.List.Perm.Basic

/-!
# Callers that come later

A table outlives the callers that use it: others join after they have returned.  Once all callers have
returned, nothing is left in the table, so that those who join find it as it was at first: if they ask
for different paths, each of them makes its own measurement, once, and gets what that one gave.

* `joinedBy`: the state with more callers; `isIdle`: all callers have returned.
* `Orderly`: what holds of a state after any callers came and any steps were taken.
* `Orderly.table_eq_nil`: an idle table is empty.
* `measuredBy`: who made measurements, in order.
* `Orderly.each_measures`: what callers that join an idle table for different paths do and get.
* `Orderly.exists_turns`: they can all return.
-/

open scoped List

namespace DiskUsage

/-- The caller has its answer. -/
def Caller.isReturned {ε : Type} : Caller ε → Bool
  | .returned _ => true
  | _ => false

namespace InFlight

variable {ε : Type}

/-- The state with more callers, that have not asked for anything. -/
def joinedBy (s : InFlight ε) (paths : List Path) : InFlight ε :=
  { s with callers := s.callers ++ paths.map fun p => (p, .asking) }

/-- All callers have their answers. -/
def isIdle (s : InFlight ε) : Bool :=
  s.callers.all fun c => c.2.isReturned

/-- Every slot in the table was taken by a caller. -/
def Taken (h : List (Nat × Deed ε)) (s : InFlight ε) : Prop :=
  ∀ e ∈ s.table, ∃ i, (i, .takes e.2) ∈ h

/-- What holds of a state, by what was done, after any callers came and any steps were taken. -/
structure Orderly (paths : List Path) (h : List (Nat × Deed ε)) (s : InFlight ε) : Prop
    extends Lawful paths h s where
  taken : Taken h s

variable {paths more : List Path} {h h' : List (Nat × Deed ε)} {s t : InFlight ε} {d : Deed ε}
  {i j k : Nat}

/-! ### Reachable states -/

theorem Step.taken (hs : Step s i d t) (h' : Taken h s) : Taken (h ++ [(i, d)]) t := by
  have hold : ∀ e ∈ s.table, ∃ j, (j, .takes e.2) ∈ h ++ [(i, d)] := by
    intro e he
    obtain ⟨j, hj⟩ := h' e he
    exact ⟨j, List.mem_append_left _ hj⟩
  cases hs with
  | takeNew hi hs =>
    intro e he
    rcases List.mem_cons.1 he with rfl | he
    · exact ⟨i, List.mem_append_right _ (List.mem_singleton_self _)⟩
    · exact hold e he
  | release hi hs => exact fun e he => hold e (List.mem_filter.1 he).1
  | takeShared | start | join | finish | leave => exact hold

theorem Step.orderly (hs : Step s i d t) (h' : Orderly paths h s) :
    Orderly paths (h ++ [(i, d)]) t :=
  ⟨⟨hs.followed h'.followed, hs.kept h'.followed h'.kept, hs.linked h'.followed h'.kept h'.linked⟩,
    hs.taken h'.taken⟩

theorem Orderly.run (h' : Orderly paths h s) (schedule : List (Nat × Except ε Nat)) :
    Orderly paths (h ++ s.history schedule) (s.run schedule) :=
  run_induction (fun hs h' => hs.orderly h') h' schedule

theorem orderly_init (paths : List Path) : Orderly paths ([] : List (Nat × Deed ε)) (init paths) :=
  ⟨⟨followed_init paths, kept_init paths, linked_init paths⟩, nofun⟩

theorem Followed.length_eq (hf : Followed paths h s) : paths.length = s.callers.length := by
  rw [← hf.paths_eq, List.length_map]

/-- More callers have done nothing, so that they change nothing. -/
theorem Orderly.joinedBy (h' : Orderly paths h s) (more : List Path) :
    Orderly (paths ++ more) h (s.joinedBy more) := by
  have hpaths : ∀ {i d p}, (i, d) ∈ h → (paths ++ more)[i]? = some p → paths[i]? = some p := by
    intro i d p hd hp
    have hlt : i < paths.length := h'.followed.length_eq ▸ h'.followed.present hd
    rwa [List.getElem?_append_left hlt] at hp
  refine ⟨⟨⟨?_, ?_, ?_⟩, ?_, ?_⟩, h'.taken⟩
  · show (s.callers ++ more.map fun p => (p, Caller.asking)).map Prod.fst = paths ++ more
    rw [List.map_append, h'.followed.paths_eq, List.map_map]
    exact congrArg _ (List.map_id more)
  · intro i p c hi
    rcases Nat.lt_or_ge i s.callers.length with hlt | hge
    · exact h'.followed.did ((List.getElem?_append_left hlt).symm.trans hi)
    · have hasking : (more.map fun p => (p, (Caller.asking : Caller ε)))[i - s.callers.length]?
          = some (p, c) := (List.getElem?_append_right hge).symm.trans hi
      rw [List.getElem?_map] at hasking
      obtain ⟨q, -, hq⟩ := Option.map_eq_some_iff.1 hasking
      cases hq
      have hnone : deedsOf h i = [] := by
        refine List.eq_nil_iff_forall_not_mem.2 fun d hd => ?_
        exact absurd (h'.followed.present (mem_deedsOf.1 hd)) (Nat.not_lt.2 hge)
      rw [hnone]
      exact .asking
  · intro i d hd
    show i < (s.callers ++ _).length
    rw [List.length_append]
    exact Nat.lt_add_right _ (h'.followed.present hd)
  · exact ⟨h'.kept.known, h'.kept.listed, h'.kept.saw, h'.kept.released⟩
  · refine ⟨h'.linked.distinct, ?_, h'.linked.linked, h'.linked.unlinked, ?_, h'.linked.later⟩
    · exact fun he hd hp => h'.linked.agrees he hd (hpaths hd hp)
    · exact fun hi hj hp hq => h'.linked.together hi hj (hpaths hi hp) (hpaths hj hq)

/-- **An idle table is empty**, also if there are callers that have not asked yet. -/
theorem Orderly.table_eq_nil (h' : Orderly paths h s)
    (hidle : ∀ c ∈ s.callers, c.2.isReturned = true ∨ c.2 = .asking) : s.table = [] := by
  refine List.eq_nil_iff_forall_not_mem.2 fun e he => ?_
  -- whoever took the slot has returned, and so has released it
  obtain ⟨i, htakes⟩ := h'.taken e he
  obtain ⟨p, c, hi, -, hdid⟩ := h'.did_of_mem htakes
  cases c with
  | returned answer =>
    obtain ⟨k, hreturns⟩ := hdid.returns_mem
    have hk : e.2 = k := h'.slot_eq htakes (mem_deedsOf.1 hreturns)
    exact h'.followed.unlinked_of_returns h'.linked (mem_deedsOf.1 hreturns) he hk
  | asking =>
    generalize hdeeds : deedsOf h i = l at hdid
    cases hdid
    have hmem : .takes e.2 ∈ deedsOf h i := mem_deedsOf.2 htakes
    rw [hdeeds] at hmem
    cases hmem
  | _ => rcases hidle _ (List.mem_of_getElem? hi) with hbad | hbad <;> cases hbad

theorem exists_returned_of_isIdle (hidle : s.isIdle = true) (hi : i < s.callers.length) :
    ∃ p a, s.callers[i]? = some (p, .returned a) := by
  have hget := List.getElem?_eq_getElem hi
  have hreturned := List.all_eq_true.1 hidle _ (List.getElem_mem hi)
  generalize s.callers[i] = c at hget hreturned
  obtain ⟨p, caller⟩ := c
  cases caller with
  | returned a => exact ⟨p, a, hget⟩
  | _ => cases hreturned

/-! ### Who measures -/

/-- The callers that ended a measurement, in order. -/
def measuredBy (h : List (Nat × Deed ε)) : List Nat :=
  h.filterMap fun
    | (i, .ends _ _) => some i
    | _ => none

theorem mem_measuredBy : i ∈ measuredBy h ↔ ∃ k outcome, (i, .ends k outcome) ∈ h := by
  constructor
  · intro hi
    obtain ⟨⟨j, d⟩, he, hd⟩ := List.mem_filterMap.1 hi
    cases d <;> simp at hd
    subst hd
    exact ⟨_, _, he⟩
  · rintro ⟨k, outcome, he⟩
    exact List.mem_filterMap.2 ⟨_, he, rfl⟩

/-- A deed ends a measurement. -/
def Deed.isEnd : Deed ε → Bool
  | .ends _ _ => true
  | _ => false

theorem count_measuredBy (h : List (Nat × Deed ε)) (i : Nat) :
    (measuredBy h).count i = (deedsOf h i).countP Deed.isEnd := by
  induction h with
  | nil => rfl
  | cons e rest ih =>
    obtain ⟨j, d⟩ := e
    unfold measuredBy deedsOf at ih ⊢
    cases d <;> by_cases hj : j = i <;>
      simp [hj, ih, Deed.isEnd, List.countP_cons]

theorem Did.countP_isEnd_le {c : Caller ε} {l : List (Deed ε)} (hdid : Did c l) :
    l.countP Deed.isEnd ≤ 1 := by
  cases hdid with
  | asking | holding | measuring => simp [Deed.isEnd]
  | releasing slot own? | leaving slot own? | returned slot own? =>
    cases own? <;> simp [turn, Deed.isEnd, List.countP_cons]

/-- Nobody ends two measurements. -/
theorem Orderly.nodup_measuredBy (h' : Orderly paths h s) : (measuredBy h).Nodup := by
  rw [List.nodup_iff_count_le_one]
  intro i
  rw [count_measuredBy]
  by_cases hi : i < s.callers.length
  · exact (h'.followed.did (List.getElem?_eq_getElem hi)).countP_isEnd_le
  · have hnone : deedsOf h i = [] := by
      refine List.eq_nil_iff_forall_not_mem.2 fun d hd => ?_
      exact hi (h'.followed.present (mem_deedsOf.1 hd))
    simp [hnone]

/-- What ends a measurement is the outcome that its caller has in the schedule. -/
theorem outcome_of_ends {f : Nat → Except ε Nat} {turns : List Nat} {outcome : Except ε Nat}
    (he : (i, .ends k outcome) ∈ s.history (turns.map fun i => (i, f i))) : outcome = f i := by
  induction turns generalizing s with
  | nil => cases he
  | cons j turns ih =>
    rw [List.map_cons, history] at he
    rcases List.mem_append.1 he with he | he
    · rcases turn_cases s j (f j) with ⟨hd, -⟩ | ⟨d, t, hd, -, hs⟩
      · rw [hd] at he
        cases he
      · rw [hd] at he
        obtain ⟨rfl, rfl⟩ := Prod.mk.inj (List.mem_singleton.1 he)
        cases hs
        rw [deed?] at hd
        simp_all
    · exact ih he

theorem deed?_of_returned {p : Path} {a : Except (Option ε) Nat} {outcome : Except ε Nat}
    (hi : s.callers[i]? = some (p, .returned a)) : s.deed? i outcome = none := by
  rw [deed?, hi]

/-- Whoever has returned stays so, whoever takes a step. -/
theorem Step.returned {p : Path} {a : Except (Option ε) Nat} (hs : Step s j d t)
    (hi : s.callers[i]? = some (p, .returned a)) : t.callers[i]? = some (p, .returned a) := by
  have hne : ∀ {q : Path} {c : Caller ε}, s.callers[j]? = some (q, c) → c.isReturned = false → j ≠ i := by
    rintro q c hj hc rfl
    rw [hi] at hj
    cases hj
    cases hc
  obtain ⟨q, c, c', hj, hcallers, -⟩ := hs.moves
  have hji : j ≠ i := by
    cases hs with
    | takeShared hi | takeNew hi | start hi | join hi | finish hi | release hi | leave hi =>
      exact hne hi rfl
  rw [hcallers, List.getElem?_set_ne hji, hi]

/-- Whoever has returned does nothing more. -/
theorem not_mem_history_of_returned {p : Path} {a : Except (Option ε) Nat}
    {schedule : List (Nat × Except ε Nat)} (hi : s.callers[i]? = some (p, .returned a)) :
    (i, d) ∉ s.history schedule := by
  induction schedule generalizing s with
  | nil => exact List.not_mem_nil
  | cons first schedule ih =>
    obtain ⟨j, outcome⟩ := first
    rw [history, List.mem_append, not_or]
    rcases turn_cases s j outcome with ⟨hd, ht⟩ | ⟨e, t, hd, ht, hs⟩
    · rw [hd, ht]
      exact ⟨List.not_mem_nil, ih hi⟩
    · rw [ht]
      refine ⟨fun hmem => ?_, ih (hs.returned hi)⟩
      rw [hd] at hmem
      obtain ⟨rfl, -⟩ := Prod.mk.inj (List.mem_singleton.1 hmem)
      rw [deed?_of_returned hi] at hd
      cases hd

/-! ### Callers with paths of their own -/

section Alone

variable {f : Nat → Except ε Nat} {turns : List Nat}

/-- Who joins an idle table for a path that nobody else joins for owns the measurement that it gets. -/
theorem Orderly.owner_eq (h' : Orderly paths h s) (hidle : s.isIdle = true)
    (hmore : more.Pairwise fun p q => p.components ≠ q.components) {schedule : List (Nat × Except ε Nat)}
    {p : Path} {a : Except (Option ε) Nat} (hi : s.callers.length ≤ i)
    (hreturned : ((s.joinedBy more).run schedule).callers[i]? = some (p, .returned a)) :
    ∃ k outcome, (i, .ends k outcome) ∈ (s.joinedBy more).history schedule ∧
      a = outcome.mapError some := by
  have hrun := (h'.joinedBy more).run schedule
  obtain ⟨k, m, q, hreturns, hm, hq, hqp, ha⟩ := hrun.returned hreturned
  have hends := ends_of_mem_measurementsOf (m := m) (by rw [hm]; exact List.mem_singleton_self m)
  have hnew : ∀ {j : Nat} {d : Deed ε}, s.callers.length ≤ j →
      (j, d) ∈ h ++ (s.joinedBy more).history schedule → (j, d) ∈ (s.joinedBy more).history schedule := by
    intro j d hj hd
    refine (List.mem_append.1 hd).resolve_left fun hold => ?_
    exact absurd (h'.followed.present hold) (Nat.not_lt.2 hj)
  have howner : m.owner = i := by
    rcases Nat.lt_or_ge m.owner s.callers.length with hlt | hge
    · -- it returned before the slot was taken again, which cannot be
      obtain ⟨r, b, hr⟩ := exists_returned_of_isIdle hidle hlt
      obtain ⟨l, hreturns'⟩ := (h'.followed.did hr).returns_mem
      have hold := mem_deedsOf.1 hreturns'
      have hl : l = k := hrun.slot_eq (List.mem_append_left _ hold) hends
      have htakes := hnew hi (hrun.takes_of_mem hreturns)
      exact absurd rfl
        ((List.pairwise_append.1 hrun.linked.later).2.2 _ hold _ htakes k b (by rw [← hl]))
    · by_contra hne
      have hlen := h'.followed.length_eq
      have hp := hrun.followed.path_eq hreturned
      rw [List.getElem?_append_right (by omega)] at hp hq
      have hpair := List.pairwise_iff_getElem.1 hmore
      obtain ⟨hltp, rfl⟩ := List.getElem?_eq_some_iff.1 hp
      obtain ⟨hltq, rfl⟩ := List.getElem?_eq_some_iff.1 hq
      rcases Nat.lt_or_gt_of_ne hne with hlt | hgt
      · exact hpair _ _ hltq hltp (by omega) hqp
      · exact hpair _ _ hltp hltq (by omega) hqp.symm
  refine ⟨k, m.outcome, hnew hi (howner ▸ hends), ?_⟩
  rw [ha, Measurement.answerTo]
  simp only [howner, if_true]

/-- **Callers that join an idle table** for different paths make one measurement each, and get what it
gives, by whichever turns they all return. -/
theorem Orderly.each_measures (h' : Orderly paths h s) (hidle : s.isIdle = true)
    (hmore : more.Pairwise fun p q => p.components ≠ q.components)
    (hdone : ((s.joinedBy more).run (turns.map fun i => (i, f i))).isIdle = true) :
    measuredBy ((s.joinedBy more).history (turns.map fun i => (i, f i)))
        ~ List.range' s.callers.length more.length ∧
      ((s.joinedBy more).run (turns.map fun i => (i, f i))).callers.drop s.callers.length
        = more.mapIdx fun j p =>
          (p, .returned ((f (s.callers.length + j)).mapError some)) := by
  have hrun := (h'.joinedBy more).run (turns.map fun i => (i, f i))
  have hlen := h'.followed.length_eq
  have hlen' := hrun.followed.length_eq
  rw [List.length_append] at hlen'
  have hanswer : ∀ i, s.callers.length ≤ i → i < s.callers.length + more.length →
      ∃ p k, more[i - s.callers.length]? = some p ∧
        ((s.joinedBy more).run (turns.map fun i => (i, f i))).callers[i]?
          = some (p, .returned ((f i).mapError some)) ∧
        (i, .ends k (f i)) ∈ (s.joinedBy more).history (turns.map fun i => (i, f i)) := by
    intro i hi hlt
    obtain ⟨p, a, hreturned⟩ := exists_returned_of_isIdle hdone (i := i) (by omega)
    obtain ⟨k, outcome, hends, rfl⟩ := h'.owner_eq hidle hmore hi hreturned
    have houtcome := outcome_of_ends hends
    subst houtcome
    have hp := hrun.followed.path_eq hreturned
    rw [List.getElem?_append_right (by omega), hlen] at hp
    exact ⟨p, k, hp, hreturned, hends⟩
  constructor
  · refine (List.perm_ext_iff_of_nodup ?_ List.nodup_range').2 fun i => ?_
    · have hnodup := hrun.nodup_measuredBy
      rw [measuredBy, List.filterMap_append] at hnodup
      exact (List.nodup_append.1 hnodup).2.1
    · rw [mem_measuredBy, List.mem_range'_1]
      constructor
      · rintro ⟨k, outcome, hends⟩
        have hlt := hrun.followed.present (List.mem_append_right h hends)
        refine ⟨?_, by omega⟩
        by_contra hold
        obtain ⟨p, a, hreturned⟩ := exists_returned_of_isIdle hidle (Nat.not_le.1 hold)
        refine not_mem_history_of_returned (p := p) (a := a) ?_ hends
        exact (List.getElem?_append_left (Nat.not_le.1 hold)).trans hreturned
      · rintro ⟨hi, hlt⟩
        obtain ⟨p, k, -, -, hends⟩ := hanswer i hi hlt
        exact ⟨k, _, hends⟩
  · refine List.ext_getElem? fun j => ?_
    rw [List.getElem?_drop, List.getElem?_mapIdx]
    rcases Nat.lt_or_ge j more.length with hlt | hge
    · obtain ⟨p, k, hp, hcaller, -⟩ := hanswer (s.callers.length + j) (by omega) (by omega)
      rw [Nat.add_sub_cancel_left] at hp
      rw [hp, hcaller]
      rfl
    · rw [List.getElem?_eq_none (by omega), List.getElem?_eq_none hge]
      rfl

end Alone

/-! ### Everybody can return -/

section Progress

variable {p : Path} {outcome : Except ε Nat}

/-- The state while a caller on its own holds a slot that was not in the table. -/
def heldAlone (s : InFlight ε) (i : Nat) (p : Path) (c : Caller ε) (v : Slot) : InFlight ε where
  callers := s.callers.set i (p, c)
  table := (p, s.slots.length) :: s.table
  slots := s.slots ++ [v]

/-- The state after a caller on its own took its slot out of the table. -/
def leftAlone (s : InFlight ε) (i : Nat) (p : Path) (c : Caller ε) (outcome : Except ε Nat) :
    InFlight ε where
  callers := s.callers.set i (p, c)
  table := s.table.filter fun e => !(e.1.sameAs p && e.2 == s.slots.length)
  slots := s.slots ++ [.filled (sizeOf? outcome)]

/-- The state after a caller on its own returned. -/
def servedAlone (s : InFlight ε) (i : Nat) (p : Path) (outcome : Except ε Nat) : InFlight ε :=
  s.leftAlone i p (.returned (outcome.mapError some)) outcome

theorem takesAlone (hi : s.callers[i]? = some (p, .asking)) (hslot : s.slotOf? p = none) :
    s.step? i outcome = some (s.heldAlone i p (.holding s.slots.length) .empty) := by
  rw [step?, hi]
  simp only [hslot]
  rfl

section Steps

variable (hlt : i < s.callers.length)

include hlt

theorem getElem?_heldAlone (c : Caller ε) (v : Slot) :
    (s.heldAlone i p c v).callers[i]? = some (p, c) :=
  List.getElem?_set_self hlt

theorem startsAlone :
    (s.heldAlone i p (.holding s.slots.length) .empty).step? i outcome
      = some (s.heldAlone i p (.measuring s.slots.length) .busy) := by
  rw [step?, getElem?_heldAlone hlt]
  simp [heldAlone, setSlot, move]

theorem endsAlone :
    (s.heldAlone i p (.measuring s.slots.length) .busy).step? i outcome
      = some (s.heldAlone i p (.releasing s.slots.length (some outcome)) (.filled (sizeOf? outcome))) := by
  rw [step?, getElem?_heldAlone hlt]
  simp [heldAlone, setSlot, move]

theorem releasesAlone (own : Except ε Nat) :
    (s.heldAlone i p (.releasing s.slots.length (some own)) (.filled (sizeOf? own))).step? i outcome
      = some (s.leftAlone i p (.leaving s.slots.length (some own) (sizeOf? own)) own) := by
  rw [step?, getElem?_heldAlone hlt]
  simp [heldAlone, leftAlone, dropSlot, move]

theorem leavesAlone (own : Except ε Nat) :
    (s.leftAlone i p (.leaving s.slots.length (some own) (sizeOf? own)) own).step? i outcome
      = some (s.servedAlone i p own) := by
  rw [step?, show (s.leftAlone i p _ own).callers[i]? = some (p, _) from List.getElem?_set_self hlt]
  simp [servedAlone, leftAlone, move, answer]

end Steps

/-- **A caller on its own** takes a new slot, measures, fills the slot, releases it and returns. -/
theorem run_alone (hi : s.callers[i]? = some (p, .asking)) (hslot : s.slotOf? p = none)
    (outcome : Except ε Nat) :
    s.run (List.replicate 5 (i, outcome)) = s.servedAlone i p outcome := by
  have hlt : i < s.callers.length := (List.getElem?_eq_some_iff.1 hi).1
  simp only [List.replicate, run_cons, run_nil, takesAlone hi hslot, startsAlone hlt, endsAlone hlt,
    releasesAlone hlt, leavesAlone hlt, Option.getD_some]

/-- **Callers that have not asked yet can all return**, one after the other. -/
theorem Orderly.exists_turns (h' : Orderly paths h s)
    (hidle : ∀ c ∈ s.callers, c.2.isReturned = true ∨ c.2 = .asking) (f : Nat → Except ε Nat) :
    ∃ turns : List Nat, (s.run (turns.map fun i => (i, f i))).isIdle = true := by
  generalize hn : s.callers.countP (fun c => !c.2.isReturned) = n
  induction n generalizing h s with
  | zero =>
    refine ⟨[], List.all_eq_true.2 fun c hc => ?_⟩
    have hnone := List.countP_eq_zero.1 hn c hc
    simpa using hnone
  | succ n ih =>
    -- one that asks is served
    obtain ⟨c, hc, hasks⟩ := List.countP_pos_iff.1 (by omega : 0 < s.callers.countP fun c => !c.2.isReturned)
    obtain ⟨p, caller⟩ := c
    have hcaller : caller = .asking := by
      rcases hidle _ hc with hreturned | hasking
      · simp [hreturned] at hasks
      · exact hasking
    subst hcaller
    obtain ⟨i, hlt, hget⟩ := List.getElem_of_mem hc
    have hi : s.callers[i]? = some (p, .asking) := by rw [List.getElem?_eq_getElem hlt, hget]
    have hslot : s.slotOf? p = none := by
      rw [slotOf?, h'.table_eq_nil hidle]
      rfl
    have hserved := run_alone hi hslot (f i)
    have horderly := h'.run (List.replicate 5 (i, f i))
    rw [hserved] at horderly
    have hrest : ∀ c ∈ (s.servedAlone i p (f i)).callers, c.2.isReturned = true ∨ c.2 = .asking := by
      intro c hc
      rcases List.mem_or_eq_of_mem_set hc with hc | rfl
      · exact hidle c hc
      · exact .inl rfl
    have hcount : (s.servedAlone i p (f i)).callers.countP (fun c => !c.2.isReturned) = n := by
      have hset := List.countP_set (p := fun c : Path × Caller ε => !c.2.isReturned)
        (l := s.callers) (a := (p, .returned ((f i).mapError some))) hlt
      rw [hget, hn] at hset
      exact hset
    obtain ⟨turns, hturns⟩ := ih horderly hrest hcount
    refine ⟨List.replicate 5 i ++ turns, ?_⟩
    rw [List.map_append, List.map_replicate, InFlight.run, List.foldl_append]
    show ((s.run (List.replicate 5 (i, f i))).run _).isIdle = true
    rw [hserved]
    exact hturns

end Progress

end InFlight

end DiskUsage
