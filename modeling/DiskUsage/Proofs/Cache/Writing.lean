import DiskUsage.Cache.Writers
import DiskUsage.Proofs.Cache.Snapshot
import DiskUsage.Proofs.Turns

/-!
# No stored size is lost

Callers store sizes in one cache, and each writes a copy of the map into the file.  A copy may be older
than what others have put into the map since, but copies are begun and written one after the other, so
that the file never goes back: it is always a copy that was begun after certain insertions, and there are
more of these with every write.  A caller that returns has written a copy that it began after its own.

* `Writers.Step`: the steps; `step_of_step?`: there are no others.
* `HeldBy`, `Step.heldBy`: at most one caller holds the lock.
* `Lawful`, `Step.lawful`: which insertions the file has, and which every copy will have.
* `stored_sizes_stay_in_the_file`: what was stored is found in the file, until something later is, and the
  file is the map when nobody stores.
-/

namespace DiskUsage

open SizeMap

/-- A caller that holds the lock. -/
def Writer.holds : Writer → Bool
  | .copying .. | .writing _ | .releasing => true
  | _ => false

namespace Writers

/-- One step of a caller. -/
inductive Step (w : Writers) (i : Nat) : Writers → Prop where
  | insert {s : Storing} (hs : w.stores[i]? = some s) (hw : s.writer = .starting) :
      Step w i ({ w with inserted := w.inserted ++ [(s.path, s.measured)] }.move i s .waiting)
  | lock {s : Storing} (hs : w.stores[i]? = some s) (hw : s.writer = .waiting)
      (hfree : w.locked = false) :
      Step w i ({ w with locked := true }.move i s (.copying [] (w.sizes.map Prod.fst)))
  | copy {s : Storing} {copy : SizeMap} {owed : List Path} {path : Path} {e : Path × Measured}
      (hs : w.stores[i]? = some s) (hw : s.writer = .copying copy owed)
      (he : w.uncopied? copy path = some e) :
      Step w i (w.move i s (.copying (copy ++ [e]) (owed.filter fun p => !p.sameAs path)))
  | finish {s : Storing} {copy : SizeMap} (hs : w.stores[i]? = some s)
      (hw : s.writer = .copying copy []) : Step w i (w.move i s (.writing copy))
  | write {s : Storing} {copy : SizeMap} (hs : w.stores[i]? = some s) (hw : s.writer = .writing copy) :
      Step w i ({ w with file := copy }.move i s .releasing)
  | release {s : Storing} (hs : w.stores[i]? = some s) (hw : s.writer = .releasing) :
      Step w i ({ w with locked := false }.move i s .returned)

variable {w v : Writers} {i j : Nat}

theorem step_of_step? {pick : Option Path} (h : w.step? i pick = some v) : Step w i v := by
  unfold step? at h
  cases hs : w.stores[i]? with
  | none =>
    rw [hs] at h
    cases h
  | some s =>
    rw [hs] at h
    dsimp only at h
    cases hw : s.writer with
    | starting =>
      rw [hw] at h
      cases h
      exact .insert hs hw
    | waiting =>
      rw [hw] at h
      dsimp only at h
      cases hfree : w.locked with
      | true =>
        rw [hfree] at h
        cases h
      | false =>
        rw [hfree] at h
        cases h
        exact .lock hs hw hfree
    | copying copy owed =>
      rw [hw] at h
      dsimp only at h
      cases pick with
      | some path =>
        obtain ⟨e, he, rfl⟩ := Option.map_eq_some_iff.1 h
        exact .copy hs hw he
      | none =>
        cases owed with
        | nil =>
          cases h
          exact .finish hs hw
        | cons p owed => cases h
    | writing copy =>
      rw [hw] at h
      cases h
      exact .write hs hw
    | releasing =>
      rw [hw] at h
      cases h
      exact .release hs hw
    | returned =>
      rw [hw] at h
      cases h

theorem step?_of_starting {s : Storing} (hs : w.stores[i]? = some s) (hw : s.writer = .starting)
    (pick : Option Path) :
    w.step? i pick
      = some ({ w with inserted := w.inserted ++ [(s.path, s.measured)] }.move i s .waiting) := by
  rw [step?, hs]
  dsimp only
  rw [hw]

/-- What is copied next was not copied before, and is in the map. -/
theorem of_uncopied? {copy : SizeMap} {path : Path} {e : Path × Measured}
    (h : w.uncopied? copy path = some e) :
    copy.find? path = none ∧ e.1.sameAs path = true ∧ e ∈ w.sizes := by
  unfold uncopied? at h
  split at h
  · cases h
  · next hnot =>
    have hsame : e.1.sameAs path = true := by simpa using List.find?_some h
    exact ⟨by simpa using hnot, hsame, List.mem_of_find?_eq_some h⟩

/-- What every step keeps holds after every schedule. -/
theorem run_induction (inv : Writers → Prop) (hstep : ∀ {w i v}, Step w i v → inv w → inv v)
    (h : inv w) (schedule : List (Nat × Option Path)) : inv (w.run schedule) :=
  takeTurns_induction inv (fun hs => hstep (step_of_step? hs)) h schedule

/-- A caller that moved on, or another one. -/
theorem stores_move {s t : Storing} {x : Writer} (h : (w.move i s x).stores[j]? = some t) :
    (j = i ∧ t = { s with writer := x }) ∨ (j ≠ i ∧ w.stores[j]? = some t) := by
  rw [move, List.getElem?_set] at h
  by_cases hij : i = j
  · rw [if_pos hij] at h
    split at h
    · exact .inl ⟨hij.symm, (Option.some.inj h).symm⟩
    · cases h
  · rw [if_neg hij] at h
    exact .inr ⟨Ne.symm hij, h⟩

theorem stores_move_self {s : Storing} (hs : w.stores[i]? = some s) (x : Writer) :
    (w.move i s x).stores[i]? = some { s with writer := x } := by
  rw [move, List.getElem?_set_self (List.getElem?_eq_some_iff.1 hs).1]

theorem stores_move_of_ne (hne : j ≠ i) (s : Storing) (x : Writer) :
    (w.move i s x).stores[j]? = w.stores[j]? :=
  List.getElem?_set_ne (Ne.symm hne)

/-! ### The lock -/

/-- The lock is held by this caller alone, or free. -/
structure HeldBy (w : Writers) (holder? : Option Nat) : Prop where
  locked : w.locked = holder?.isSome
  holds : ∀ {i s}, w.stores[i]? = some s → (s.writer.holds = true ↔ holder? = some i)

theorem heldBy_start (opened : SizeMap) (stores : List (Path × Measured)) :
    HeldBy (start opened stores) none where
  locked := rfl
  holds := by
    intro i s hs
    obtain ⟨store, -, rfl⟩ := List.mem_map.1 (List.mem_of_getElem? hs)
    simp [Writer.holds]

/-- One caller moves on; whether another one holds the lock does not change. -/
theorem HeldBy.move {holder? next? : Option Nat} (h : HeldBy w holder?) {s : Storing} {x : Writer}
    (hv : v.stores = (w.move i s x).stores) (hlocked : v.locked = next?.isSome)
    (hx : x.holds = true ↔ next? = some i)
    (hothers : ∀ j, j ≠ i → (next? = some j ↔ holder? = some j)) : HeldBy v next? where
  locked := hlocked
  holds := by
    intro j t ht
    rw [hv] at ht
    rcases stores_move ht with ⟨rfl, rfl⟩ | ⟨hne, ht⟩
    · exact hx
    · rw [hothers j hne]
      exact h.holds ht

/-- **At most one caller holds the lock.** -/
theorem Step.heldBy (h : Step w i v) {holder? : Option Nat} (hheld : HeldBy w holder?) :
    ∃ next?, HeldBy v next? := by
  cases h with
  | insert hs hw =>
    have hnot := hheld.holds hs
    rw [hw] at hnot
    exact ⟨holder?, hheld.move rfl hheld.locked hnot fun _ _ => Iff.rfl⟩
  | lock hs hw hfree =>
    have hnone : holder? = none := by
      rw [← Option.not_isSome_iff_eq_none, ← hheld.locked, hfree]
      exact Bool.false_ne_true
    refine ⟨some i, hheld.move rfl rfl (iff_of_true rfl rfl) fun j hne => ?_⟩
    rw [hnone]
    exact iff_of_false (fun h => hne (Option.some.inj h).symm) nofun
  | copy hs hw he =>
    have hholds := hheld.holds hs
    rw [hw] at hholds
    exact ⟨holder?, hheld.move rfl hheld.locked hholds fun _ _ => Iff.rfl⟩
  | finish hs hw =>
    have hholds := hheld.holds hs
    rw [hw] at hholds
    exact ⟨holder?, hheld.move rfl hheld.locked hholds fun _ _ => Iff.rfl⟩
  | write hs hw =>
    have hholds := hheld.holds hs
    rw [hw] at hholds
    exact ⟨holder?, hheld.move rfl hheld.locked hholds fun _ _ => Iff.rfl⟩
  | release hs hw =>
    have hholds := hheld.holds hs
    rw [hw] at hholds
    have hself : holder? = some i := hholds.1 rfl
    refine ⟨none, hheld.move rfl rfl (iff_of_false Bool.false_ne_true nofun) fun j hne => ?_⟩
    rw [hself]
    exact iff_of_false nofun fun h => hne (Option.some.inj h).symm

/-! ### Insertions, copies and the file -/

/-- Where a caller stands that put its size into the map at this place of the history, while the file has
everything from before another place.  A copy that it makes will have its size, and whatever the file
has. -/
def Placed (opened : SizeMap) (inserted : List (Path × Measured)) (covered place : Nat) : Writer → Prop
  | .starting => False
  | .waiting => place < inserted.length
  | .copying copy owed =>
    ∃ k, place < k ∧ covered ≤ k ∧ k ≤ inserted.length ∧ Covers opened inserted k copy owed
  | .writing copy =>
    ∃ k, place < k ∧ covered ≤ k ∧ k ≤ inserted.length ∧ Covers opened inserted k copy []
  | .releasing | .returned => place < covered

/-- More insertions change nothing for a caller, nor does a write by another one if the caller does not
hold the lock. -/
theorem Placed.keep {opened : SizeMap} {inserted : List (Path × Measured)} {covered place next : Nat}
    {x : Writer} (h : Placed opened inserted covered place x) (more : List (Path × Measured))
    (hle : covered ≤ next) (hsame : x.holds = true → next = covered) :
    Placed opened (inserted ++ more) next place x := by
  have hmore : inserted.length ≤ (inserted ++ more).length := by
    rw [List.length_append]
    omega
  cases x with
  | starting => exact h
  | waiting => exact Nat.lt_of_lt_of_le h hmore
  | copying copy owed =>
    obtain ⟨k, hplace, hk, hlength, hcovers⟩ := h
    exact ⟨k, hplace, (hsame rfl).trans_le hk, hlength.trans hmore, hcovers.grow hlength more⟩
  | writing copy =>
    obtain ⟨k, hplace, hk, hlength, hcovers⟩ := h
    exact ⟨k, hplace, (hsame rfl).trans_le hk, hlength.trans hmore, hcovers.grow hlength more⟩
  | releasing => exact Nat.lt_of_lt_of_le h hle
  | returned => exact Nat.lt_of_lt_of_le h hle

/-- The insertions were made by these callers, in order, and the file has all up to a certain one. -/
structure Lawful (w : Writers) (owners : List Nat) (covered : Nat) : Prop where
  length_eq : owners.length = w.inserted.length
  nodup : owners.Nodup
  covered_le : covered ≤ w.inserted.length
  file : Covers w.opened w.inserted covered w.file []
  owned : ∀ {i s}, w.stores[i]? = some s → s.writer ≠ .starting → i ∈ owners
  placed : ∀ {place i}, owners[place]? = some i →
    ∃ s, w.stores[i]? = some s ∧ Placed w.opened w.inserted covered place s.writer

theorem lawful_start {opened : SizeMap} (hopened : Distinct opened) (stores : List (Path × Measured)) :
    Lawful (start opened stores) [] 0 where
  length_eq := rfl
  nodup := List.nodup_nil
  covered_le := Nat.le_refl 0
  file := .refl hopened
  owned := by
    intro i s hs hw
    obtain ⟨store, -, rfl⟩ := List.mem_map.1 (List.mem_of_getElem? hs)
    exact absurd rfl hw
  placed := nofun

section Moves

variable {owners : List Nat} {covered : Nat} {s : Storing}

/-- Who has put something into the map is not starting any more. -/
theorem Lawful.not_starting (h : Lawful w owners covered) (hs : w.stores[i]? = some s)
    (hi : i ∈ owners) : s.writer ≠ .starting := by
  obtain ⟨place, hplace⟩ := List.mem_iff_getElem?.1 hi
  obtain ⟨t, ht, hplaced⟩ := h.placed hplace
  rw [Option.some.inj (ht.symm.trans hs)] at hplaced
  intro hw
  rw [hw] at hplaced
  exact hplaced

/-- A caller puts its size into the map. -/
theorem Lawful.insert (h : Lawful w owners covered) (hs : w.stores[i]? = some s)
    (hw : s.writer = .starting) :
    Lawful ({ w with inserted := w.inserted ++ [(s.path, s.measured)] }.move i s .waiting)
      (owners ++ [i]) covered where
  length_eq := by
    rw [List.length_append, h.length_eq, inserted_move, List.length_append]
    rfl
  nodup := List.nodup_append.2 ⟨h.nodup, List.pairwise_singleton _ i, by
    intro j hj i' hi'
    cases List.mem_singleton.1 hi'
    rintro rfl
    exact h.not_starting hs hj hw⟩
  covered_le := by
    have hle := h.covered_le
    rw [inserted_move, List.length_append]
    omega
  file := h.file.grow h.covered_le _
  owned := by
    intro j t ht hstarted
    rcases stores_move ht with ⟨rfl, -⟩ | ⟨-, ht⟩
    · simp
    · exact List.mem_append_left _ (h.owned ht hstarted)
  placed := by
    intro place j hj
    rw [List.getElem?_append] at hj
    split at hj
    · obtain ⟨t, ht, hplaced⟩ := h.placed hj
      have hne : j ≠ i := by
        rintro rfl
        exact h.not_starting hs (List.mem_of_getElem? hj) hw
      exact ⟨t, (stores_move_of_ne hne s _).trans ht, hplaced.keep _ (Nat.le_refl _) fun _ => rfl⟩
    · cases List.mem_singleton.1 (List.mem_of_getElem? hj)
      have hplace := (List.getElem?_eq_some_iff.1 hj).1
      have hlength := h.length_eq
      refine ⟨_, stores_move_self (w := { w with inserted := _ }) hs _, ?_⟩
      show place < (w.inserted ++ [(s.path, s.measured)]).length
      rw [List.length_append]
      rw [List.length_singleton] at hplace ⊢
      omega

/-- A caller moves on that has put its size into the map; if it writes the file, no other one holds the
lock. -/
theorem Lawful.move (h : Lawful w owners covered) (hs : w.stores[i]? = some s)
    (hstarted : s.writer ≠ .starting) {x : Writer} (locked : Bool) {file : SizeMap} {next : Nat}
    (hfile : Covers w.opened w.inserted next file []) (hle : covered ≤ next)
    (hlength : next ≤ w.inserted.length)
    (hothers : ∀ {j t}, j ≠ i → w.stores[j]? = some t → t.writer.holds = true → next = covered)
    (hx : ∀ {place}, owners[place]? = some i → Placed w.opened w.inserted covered place s.writer →
      Placed w.opened w.inserted next place x) :
    Lawful ({ w with locked, file }.move i s x) owners next where
  length_eq := h.length_eq
  nodup := h.nodup
  covered_le := hlength
  file := hfile
  owned := by
    intro j t ht hw
    rcases stores_move ht with ⟨rfl, -⟩ | ⟨-, ht⟩
    · exact h.owned hs hstarted
    · exact h.owned ht hw
  placed := by
    intro place j hj
    obtain ⟨t, ht, hplaced⟩ := h.placed hj
    by_cases hne : j = i
    · subst hne
      cases Option.some.inj (ht.symm.trans hs)
      exact ⟨_, stores_move_self (w := { w with locked, file }) hs _, hx hj hplaced⟩
    · refine ⟨t, (stores_move_of_ne hne s _).trans ht, ?_⟩
      have hkeep := hplaced.keep [] hle (hothers hne ht)
      rwa [List.append_nil] at hkeep

end Moves

/-- **Every step** may add an insertion, and the file has no fewer of them than before. -/
theorem Step.lawful (h : Step w i v) {holder? : Option Nat} (hheld : HeldBy w holder?) {owners : List Nat}
    {covered : Nat} (hw : Lawful w owners covered) :
    ∃ more next, covered ≤ next ∧ Lawful v (owners ++ more) next := by
  cases h with
  | insert hs hstarting => exact ⟨[i], covered, Nat.le_refl _, hw.insert hs hstarting⟩
  | lock hs hwaiting hfree =>
    refine ⟨[], covered, Nat.le_refl _, ?_⟩
    rw [List.append_nil]
    refine hw.move hs (by rw [hwaiting]; nofun) true hw.file (Nat.le_refl _) hw.covered_le
      (fun _ _ _ => rfl) ?_
    intro place _ hplaced
    rw [hwaiting] at hplaced
    exact ⟨w.inserted.length, hplaced, hw.covered_le, Nat.le_refl _, .begin _ _⟩
  | copy hs hcopying he =>
    refine ⟨[], covered, Nat.le_refl _, ?_⟩
    rw [List.append_nil]
    refine hw.move hs (by rw [hcopying]; nofun) w.locked hw.file (Nat.le_refl _) hw.covered_le
      (fun _ _ _ => rfl) ?_
    intro place _ hplaced
    rw [hcopying] at hplaced
    obtain ⟨k, hplace, hk, hlength, hcovers⟩ := hplaced
    obtain ⟨hnew, hsame, hin⟩ := of_uncopied? he
    exact ⟨k, hplace, hk, hlength, hcovers.snoc hlength hnew hsame hin⟩
  | finish hs hcopying =>
    refine ⟨[], covered, Nat.le_refl _, ?_⟩
    rw [List.append_nil]
    refine hw.move hs (by rw [hcopying]; nofun) w.locked hw.file (Nat.le_refl _) hw.covered_le
      (fun _ _ _ => rfl) ?_
    intro place _ hplaced
    rw [hcopying] at hplaced
    exact hplaced
  | write hs hwriting =>
    obtain ⟨place, hplace⟩ := List.mem_iff_getElem?.1 (hw.owned hs (by rw [hwriting]; nofun))
    obtain ⟨t, ht, hplaced⟩ := hw.placed hplace
    rw [Option.some.inj (ht.symm.trans hs), hwriting] at hplaced
    obtain ⟨k, hbefore, hk, hlength, hcovers⟩ := hplaced
    -- Nobody else holds the lock, so no other copy falls behind the file.
    have hself : holder? = some i := (hheld.holds hs).1 (by rw [hwriting]; rfl)
    have halone : ∀ {j u}, j ≠ i → w.stores[j]? = some u → u.writer.holds = true → k = covered := by
      intro j u hne hu hholds
      have hother := hself.symm.trans ((hheld.holds hu).1 hholds)
      exact absurd (Option.some.inj hother).symm hne
    refine ⟨[], k, hk, ?_⟩
    rw [List.append_nil]
    refine hw.move hs (by rw [hwriting]; nofun) w.locked hcovers hk hlength halone ?_
    intro place' hplace' _
    have hsame : place' = place :=
      (List.getElem?_inj (List.getElem?_eq_some_iff.1 hplace').1 hw.nodup).1 (hplace'.trans hplace.symm)
    rwa [hsame]
  | release hs hreleasing =>
    refine ⟨[], covered, Nat.le_refl _, ?_⟩
    rw [List.append_nil]
    refine hw.move hs (by rw [hreleasing]; nofun) false hw.file (Nat.le_refl _) hw.covered_le
      (fun _ _ _ => rfl) ?_
    intro place _ hplaced
    rw [hreleasing] at hplaced
    exact hplaced

theorem Step.opened_eq (h : Step w i v) : v.opened = w.opened := by
  cases h <;> rfl

theorem Step.exists_inserted (h : Step w i v) : ∃ more, v.inserted = w.inserted ++ more := by
  cases h with
  | insert hs hw => exact ⟨_, rfl⟩
  | _ => exact ⟨[], (List.append_nil _).symm⟩

/-- The state goes on from one in which these callers have put their sizes into the map, and the file has
no fewer of the insertions than then. -/
structure GoesOn (w : Writers) (owners : List Nat) (covered : Nat) (v : Writers) : Prop where
  opened_eq : v.opened = w.opened
  held : ∃ holder?, HeldBy v holder?
  inserted : ∃ since, v.inserted = w.inserted ++ since
  lawful : ∃ more next, covered ≤ next ∧ Lawful v (owners ++ more) next

/-- **Every run** goes on. -/
theorem Lawful.run {owners : List Nat} {covered : Nat} (h : Lawful w owners covered)
    {holder? : Option Nat} (hheld : HeldBy w holder?) (schedule : List (Nat × Option Path)) :
    GoesOn w owners covered (w.run schedule) := by
  have hself : GoesOn w owners covered w :=
    ⟨rfl, ⟨_, hheld⟩, ⟨[], (List.append_nil _).symm⟩, [], covered, Nat.le_refl _,
      by rwa [List.append_nil]⟩
  refine run_induction (GoesOn w owners covered) ?_ hself schedule
  rintro u i v hstep ⟨hsame, ⟨holder?, hu⟩, ⟨since, hsince⟩, more, next, hle, hlaw⟩
  obtain ⟨inserts, hinserts⟩ := hstep.exists_inserted
  obtain ⟨added, later, hlater, hafter⟩ := hstep.lawful hu hlaw
  refine ⟨hstep.opened_eq.trans hsame, hstep.heldBy hu, ⟨since ++ inserts, ?_⟩, more ++ added, later,
    hle.trans hlater, ?_⟩
  · rw [hinserts, hsince, List.append_assoc]
  · rwa [← List.append_assoc]

theorem lawful_run {opened : SizeMap} (hopened : Distinct opened) (stores : List (Path × Measured))
    (schedule : List (Nat × Option Path)) :
    GoesOn (start opened stores) [] 0 ((start opened stores).run schedule) :=
  (lawful_start hopened stores).run (heldBy_start opened stores) schedule

/-- A caller that has returned finds everything up to its own insertion in the file. -/
theorem Lawful.lt_covered {owners : List Nat} {covered place : Nat} (h : Lawful w owners covered)
    (hplace : owners[place]? = some i) {s : Storing} (hs : w.stores[i]? = some s)
    (hw : s.writer = .returned) : place < covered := by
  obtain ⟨t, ht, hplaced⟩ := h.placed hplace
  rw [Option.some.inj (ht.symm.trans hs), hw] at hplaced
  exact hplaced

/-- When every caller has returned or not begun, the file has every insertion. -/
theorem Lawful.covered_of_isQuiet {owners : List Nat} {covered : Nat} (h : Lawful w owners covered)
    (hquiet : w.isQuiet = true) : covered = w.inserted.length := by
  refine Nat.le_antisymm h.covered_le (Nat.le_of_not_lt fun hlt => ?_)
  have hlength := h.length_eq
  -- The last insertion, if there is one, was made by a caller that has returned.
  obtain ⟨i, hi⟩ : ∃ i, owners[w.inserted.length - 1]? = some i :=
    ⟨_, List.getElem?_eq_getElem (by omega)⟩
  obtain ⟨s, hs, -⟩ := h.placed hi
  have hstarted := h.not_starting hs (List.mem_of_getElem? hi)
  have hs' := List.all_eq_true.1 hquiet s (List.mem_of_getElem? hs)
  have hreturned : s.writer = .returned := by simpa [hstarted] using hs'
  have hcovered := h.lt_covered hi hs hreturned
  omega

/-- **No stored size is lost**, however the callers take their turns.  After a caller has returned, the file
always has its size for its path, or one that was put into the map for that path after it.  And whenever
every caller has returned or not begun, the file is the map. -/
theorem stored_sizes_stay_in_the_file {opened : SizeMap} (hopened : opened.Distinct)
    (stores : List (Path × Measured)) :
    (∀ before i pick middle later s t,
      ((start opened stores).run before).stores[i]? = some s → s.writer = .starting →
      ((start opened stores).run (before ++ (i, pick) :: middle)).stores[i]? = some t →
      t.writer = .returned →
      let earlier := ((start opened stores).run before).inserted
      let w := (start opened stores).run (before ++ (i, pick) :: middle ++ later)
      ∃ since, w.inserted = earlier ++ (s.path, s.measured) :: since ∧
        ∃ found, w.file.find? s.path = some found ∧
          (found = s.measured ∨ ∃ e ∈ since, e.1.sameAs s.path = true ∧ e.2 = found)) ∧
    ∀ schedule,
      let w := (start opened stores).run schedule
      w.isQuiet = true → w.file.Perm w.sizes ∧ w.file.encode = w.sizes.encode := by
  constructor
  · intro before i pick middle later s t hs hw ht hreturned earlier w
    obtain ⟨hsame, ⟨holder?, hheld⟩, -, owners, covered, -, hbefore⟩ := lawful_run hopened stores before
    rw [List.nil_append] at hbefore
    obtain ⟨v, hv⟩ : ∃ v, v = { (start opened stores).run before with
        inserted := earlier ++ [(s.path, s.measured)] }.move i s .waiting := ⟨_, rfl⟩
    have hstep : ((start opened stores).run before).step? i pick = some v :=
      hv ▸ step?_of_starting hs hw pick
    have hinsert : Lawful v (owners ++ [i]) covered := hv ▸ hbefore.insert hs hw
    obtain ⟨holder?, hheld⟩ := (step_of_step? hstep).heldBy hheld
    have hmiddle : (start opened stores).run (before ++ (i, pick) :: middle) = v.run middle := by
      rw [run_append, run_cons, hstep, Option.getD_some]
    have hlater : w = (v.run middle).run later := by
      show (start opened stores).run _ = _
      rw [run_append, hmiddle]
    obtain ⟨hsame', ⟨_, hheld'⟩, ⟨since, hsince⟩, more, next, hle, hlaw⟩ := hinsert.run hheld middle
    obtain ⟨hsame'', -, ⟨since', hsince'⟩, more', next', hle', hlaw'⟩ := hlaw.run hheld' later
    have hplace : (owners ++ [i] ++ more)[earlier.length]? = some i := by
      rw [← hbefore.length_eq]
      simp
    have hcovered := hlaw.lt_covered hplace (hmiddle ▸ ht) hreturned
    have hinserted : w.inserted = earlier ++ (s.path, s.measured) :: (since ++ since') := by
      rw [hlater, hsince', hsince, hv]
      simp
    rw [← hlater] at hlaw' hsame''
    have hopened' : Distinct w.opened := by
      rw [hsame'', hsame', hv]
      exact hsame ▸ hopened
    refine ⟨since ++ since', hinserted, ?_⟩
    exact hlaw'.file.find? hopened' hinserted (hcovered.trans_le hle')
  · intro schedule w hquiet
    obtain ⟨hsame, -, -, owners, covered, -, hlaw⟩ := lawful_run hopened stores schedule
    have hopened' : Distinct w.opened := hsame ▸ hopened
    have hfile := hlaw.file
    rw [hlaw.covered_of_isQuiet hquiet] at hfile
    have hperm := hfile.perm hopened'
    have hdistinct : Distinct w.sizes := hopened'.insertAll w.inserted
    exact ⟨hperm, (encode_perm hdistinct hperm.symm).symm⟩

/-- Two sizes for one path. -/
def twoSizes : List (Path × Measured) :=
  [(⟨"/p"⟩, ⟨1, 0⟩), (⟨"/p/"⟩, ⟨2, 0⟩)]

/-- The turns after the first caller has put its size into the map: the second one does so too, and is
the first to write. -/
def overtaking : List (Nat × Option Path) :=
  [(1, none), (1, none), (1, some ⟨"/p"⟩), (1, none), (1, none), (1, none),
    (0, none), (0, some ⟨"/p"⟩), (0, none), (0, none), (0, none)]

theorem overtaking_size_stays_in_the_file :
    List.Pairwise (fun a b : Path × Measured => a.1.sameAs b.1 = false) [] ∧
      (let w := (start [] twoSizes).run ((0, none) :: overtaking)
       w.file = [(⟨"/p"⟩, ⟨2, 0⟩)] ∧
        (∃ since, w.inserted = (⟨"/p"⟩, ⟨1, 0⟩) :: since ∧
          ∃ found, w.file.find? ⟨"/p"⟩ = some found ∧
            (found = ⟨1, 0⟩ ∨ ∃ e ∈ since, e.1.sameAs ⟨"/p"⟩ = true ∧ e.2 = found)) ∧
        w.file.Perm w.sizes) := by
  obtain ⟨hlasting, hquiet⟩ := stored_sizes_stay_in_the_file List.Pairwise.nil twoSizes
  have hreturned : ((start [] twoSizes).run ((0, none) :: overtaking)).stores[0]?
      = some ⟨⟨"/p"⟩, ⟨1, 0⟩, .returned⟩ := by decide +kernel
  refine ⟨List.Pairwise.nil, by decide +kernel, ?_, ?_⟩
  · have hlater := hlasting [] 0 none overtaking [] ⟨⟨"/p"⟩, ⟨1, 0⟩, .starting⟩ _ rfl rfl hreturned rfl
    rw [List.append_nil] at hlater
    exact hlater
  · exact (hquiet ((0, none) :: overtaking) (by decide +kernel)).1

end Writers

end DiskUsage
