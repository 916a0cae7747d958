import DiskUsage.Path.Proper

/-!
# Clean paths

A path is cleaned without asking any file system: `.` is dropped and `..` takes back the name before
it.  A `..` at the root stays at the root, and the leading `..` of a relative path are kept.

* `clean`: the cleaned path.
* `cleanStep_length_le`: a component adds at most one component.
* `components_clean`: the cleaned path says the cleaned components.
-/

namespace DiskUsage.Path

/-- Take one more component after the clean ones, which are given last first. -/
def cleanStep (done : List Component) : Component → List Component
  | .current => done
  | .parent =>
    match done with
    | .normal _ :: rest => rest
    | .root :: rest => .root :: rest
    | done => .parent :: done
  | c => c :: done

/-- The components of the clean path. -/
def cleanComponents (cs : List Component) : List Component :=
  (cs.foldl cleanStep []).reverse

/-- The path with `.` dropped and `..` taken back. -/
def clean (p : Path) : Path :=
  ofComponents (cleanComponents p.components)

@[simp] theorem cleanComponents_nil : cleanComponents [] = [] := rfl

theorem cleanStep_length_le (done : List Component) (c : Component) :
    (cleanStep done c).length ≤ done.length + 1 := by
  cases c with
  | parent =>
    cases done with
    | nil => simp [cleanStep]
    | cons d rest =>
      cases d <;> simp [cleanStep]
      omega
  | root | current | normal => simp [cleanStep]

/-- The components taken so far, last first, are those of a path that never stays: names and `..`,
perhaps below the root. -/
def Tidy (done : List Component) : Prop :=
  ∃ ds base, done = ds ++ base ∧ (∀ d ∈ ds, d.Inner) ∧ (base = [] ∨ base = [.root])

theorem tidy_nil : Tidy [] :=
  ⟨[], [], rfl, by simp, Or.inl rfl⟩

theorem tidy_root : Tidy [.root] :=
  ⟨[], [.root], rfl, by simp, Or.inr rfl⟩

theorem Tidy.cons {done : List Component} {c : Component} (h : Tidy done) (hc : c.Inner) :
    Tidy (c :: done) := by
  obtain ⟨ds, base, rfl, hd, hb⟩ := h
  exact ⟨c :: ds, base, rfl, by simp_all, hb⟩

theorem Tidy.tail {rest : List Component} {c : Component} (h : Tidy (c :: rest)) (hc : c ≠ .root) :
    Tidy rest := by
  obtain ⟨ds, base, he, hd, hb⟩ := h
  cases ds with
  | nil => rcases hb with rfl | rfl <;> simp_all
  | cons d ds =>
    obtain ⟨-, rfl⟩ := List.cons.inj he
    exact ⟨ds, base, rfl, fun e he => hd e (List.mem_cons_of_mem _ he), hb⟩

theorem Tidy.cleanStep {done : List Component} {c : Component} (h : Tidy done)
    (hc : c = .current ∨ c.Inner) : Tidy (cleanStep done c) := by
  cases c with
  | root => simp [Component.Inner] at hc
  | current => exact h
  | normal name => exact h.cons (by simpa using hc)
  | parent =>
    cases done with
    | nil => exact h.cons trivial
    | cons d rest =>
      cases d with
      | root => exact h
      | normal name => exact h.tail (by simp)
      | current | parent => exact h.cons trivial

theorem Tidy.foldl {done : List Component} (h : Tidy done) {cs : List Component}
    (hc : ∀ c ∈ cs, c = .current ∨ c.Inner) : Tidy (cs.foldl Path.cleanStep done) := by
  induction cs generalizing done with
  | nil => exact h
  | cons c cs ih =>
    have hstep := h.cleanStep (hc c List.mem_cons_self)
    exact ih hstep fun d hd => hc d (List.mem_cons_of_mem _ hd)

theorem Tidy.proper_reverse {done : List Component} (h : Tidy done) : Proper done.reverse := by
  obtain ⟨ds, base, rfl, hd, rfl | rfl⟩ := h
  · have hr : ∀ d ∈ ds.reverse, d.Inner := fun d m => hd d (List.mem_reverse.1 m)
    rw [List.append_nil]
    cases he : ds.reverse with
    | nil => trivial
    | cons e es =>
      rw [he] at hr
      exact ⟨Or.inr (Or.inr (hr e List.mem_cons_self)), fun d m => hr d (List.mem_cons_of_mem _ m)⟩
  · rw [List.reverse_append]
    exact ⟨Or.inl rfl, fun d m => hd d (List.mem_reverse.1 m)⟩

theorem proper_cleanComponents {cs : List Component} (h : Proper cs) :
    Proper (cleanComponents cs) := by
  cases cs with
  | nil => trivial
  | cons c rest =>
    obtain ⟨hc, hrest⟩ := h
    have hstep : Tidy (cleanStep [] c) := by
      rcases hc with rfl | hc
      · exact tidy_root
      · exact tidy_nil.cleanStep hc
    exact (hstep.foldl fun d hd => Or.inr (hrest d hd)).proper_reverse

/-- **Cleaning** a path cleans what it says. -/
theorem components_clean (p : Path) : p.clean.components = cleanComponents p.components :=
  components_ofComponents (proper_cleanComponents (proper_components p))

example : clean ⟨"/home/u/x/.."⟩ = ⟨"/home/u"⟩ := by decide +kernel
example : clean ⟨"/../.."⟩ = ⟨"/"⟩ := by decide +kernel
example : clean ⟨"a/../../b"⟩ = ⟨"../b"⟩ := by decide +kernel

end DiskUsage.Path
