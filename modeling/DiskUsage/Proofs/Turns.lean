import Mathlib.Data.List.Perm.Basic

/-!
# Taking turns

Several parties move on by turns, one step at a time.  A schedule says whose turn it is, and a turn in
which no step can be taken is passed over.

* `takeTurns`: the state after the turns of a schedule.
* `takeTurns_induction`: what every step keeps holds after every schedule.
* `exists_takeTurns_done`: where somebody can always go on, and every step leaves less to do, all gets done.
* `exists_set_perm`, `flatMap_set_perm`: one that moves on leaves all others where they are.
* `flatMap_perm_of_give`, `flatMap_set_perm_of_get`: so all together have less, or more, by what that one gives
  away or gets.
-/

open scoped List

namespace DiskUsage

section Schedule

variable {σ α : Type} {step? : σ → α → Option σ} {s t : σ}

/-- The state after turns; a step that cannot be taken is passed over. -/
def takeTurns (step? : σ → α → Option σ) (schedule : List α) (s : σ) : σ :=
  schedule.foldl (fun s a => (step? s a).getD s) s

theorem takeTurns_cons_of_step {a : α} (h : step? s a = some t) (schedule : List α) :
    takeTurns step? (a :: schedule) s = takeTurns step? schedule t := by
  rw [takeTurns, List.foldl_cons, h]
  rfl

theorem takeTurns_append (a b : List α) (s : σ) :
    takeTurns step? (a ++ b) s = takeTurns step? b (takeTurns step? a s) :=
  List.foldl_append

/-- What every step keeps holds after every schedule. -/
theorem takeTurns_induction (inv : σ → Prop) (hstep : ∀ {s a t}, step? s a = some t → inv s → inv t)
    (hs : inv s) (schedule : List α) : inv (takeTurns step? schedule s) := by
  induction schedule generalizing s with
  | nil => exact hs
  | cons a schedule ih =>
    cases h : step? s a with
    | none =>
      have hpass : takeTurns step? (a :: schedule) s = takeTurns step? schedule s := by
        rw [takeTurns, List.foldl_cons, h]
        rfl
      exact hpass ▸ ih hs
    | some t => exact takeTurns_cons_of_step h schedule ▸ ih (hstep h hs)

/-- **All gets done** where somebody can take a step until then, and every step leaves less to do. -/
theorem exists_takeTurns_done (inv : σ → Prop) {done : σ → Bool} (work : σ → Nat)
    (hstep : ∀ {s a t}, step? s a = some t → inv s → inv t)
    (hgo : ∀ {s}, inv s → done s = false → ∃ a t, step? s a = some t)
    (hless : ∀ {s a t}, step? s a = some t → work t < work s) (hs : inv s) :
    ∃ schedule, done (takeTurns step? schedule s) = true := by
  -- induction on what is left to do
  induction hn : work s using Nat.strongRecOn generalizing s with
  | ind n ih =>
    cases hd : done s with
    | true => exact ⟨[], hd⟩
    | false =>
      obtain ⟨a, t, ht⟩ := hgo hs hd
      obtain ⟨schedule, hdone⟩ := ih (work t) (hn ▸ hless ht) (hstep ht hs) rfl
      exact ⟨a :: schedule, takeTurns_cons_of_step ht schedule ▸ hdone⟩

end Schedule

section Parties

variable {α β : Type} {parties : List α} {i : Nat} {a : α}

/-- One that moves on leaves all others where they are. -/
theorem exists_set_perm (hi : parties[i]? = some a) :
    ∃ others, parties ~ a :: others ∧ ∀ b, parties.set i b ~ b :: others := by
  obtain ⟨hlt, rfl⟩ := List.getElem?_eq_some_iff.1 hi
  exact ⟨parties.eraseIdx i, (List.getElem_cons_eraseIdx_perm hlt).symm,
    fun b => List.set_perm_cons_eraseIdx hlt b⟩

/-- What the parties have, when one of them moves on: the others keep theirs. -/
theorem flatMap_set_perm (f : α → List β) (hi : parties[i]? = some a) :
    ∃ others, parties.flatMap f ~ f a ++ others ∧ ∀ b, (parties.set i b).flatMap f ~ f b ++ others := by
  obtain ⟨others, hp, hq⟩ := exists_set_perm hi
  refine ⟨others.flatMap f, ?_, fun b => ?_⟩
  · simpa using hp.flatMap_right f
  · simpa using (hq b).flatMap_right f

/-- What one of them gives away, the others do not have. -/
theorem flatMap_perm_of_give (f : α → List β) (hi : parties[i]? = some a) (given : List β) {b : α}
    (h : f a = given ++ f b) : parties.flatMap f ~ given ++ (parties.set i b).flatMap f := by
  obtain ⟨others, hbefore, hafter⟩ := flatMap_set_perm f hi
  rw [h, List.append_assoc] at hbefore
  exact hbefore.trans ((hafter b).symm.append_left given)

/-- What one of them gets, the others had not. -/
theorem flatMap_set_perm_of_get (f : α → List β) (hi : parties[i]? = some a) (got : List β) {b : α}
    (h : f b = got ++ f a) : (parties.set i b).flatMap f ~ got ++ parties.flatMap f := by
  obtain ⟨others, hbefore, hafter⟩ := flatMap_set_perm f hi
  have hb := hafter b
  rw [h, List.append_assoc] at hb
  exact hb.trans (hbefore.symm.append_left got)

end Parties

end DiskUsage
