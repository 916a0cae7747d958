import DiskUsage.Usage.Tool

/-!
# A subtree without a part of it

A subtree without a part of it is measured by two calls of the usage tool, and nothing ties their answers
together: the files may change in between, and so may the tool.  So the tool here has a state, on which its
answers depend in any way.  A tool that answers each path in one way is a special case.

* `run_measureExcluding_recorded`: with a tool that keeps to its answers it is `UsageTool.measureExcluding`.
* `Counts`: what the answer for the part counts for; `partSize_eq_ok_iff`, `partSize_eq_error_iff`.
* `part_is_taken_off_the_whole`: the calls, the failures and the sizes.
-/

namespace DiskUsage

open UsageTool

/-- **A tool that keeps to its answers** is called for the paths that the measurement names, and the answer
is that of the measurement. -/
theorem run_measureExcluding_recorded (tool : UsageTool) (path exclude : Path) (calls : List Path) :
    (tool.recorded.measureExcluding path exclude).run calls
      = ((tool.measureExcluding path exclude).answer,
        calls ++ (tool.measureExcluding path exclude).calls) := by
  unfold UsageTool.measureExcluding
  cases htool : tool path with
  | error e =>
    simp only [LiveTool.measureExcluding, UsageTool.recorded, htool]
    rfl
  | ok total =>
    simp only [LiveTool.measureExcluding, UsageTool.recorded, htool]
    show (_, calls ++ [path] ++ [exclude]) = _
    rw [List.append_assoc]
    rfl

/-! ### What the part counts for -/

/-- An answer for the part counts for so much: for the size that it gives, or for nothing if it says that
the part does not exist. -/
def Counts (answer : Except ToolError Nat) (size : Nat) : Prop :=
  answer = .ok size ∨ size = 0 ∧ ∃ missing, answer = .error (.notFound missing)

variable {answer : Except ToolError Nat} {size total part : Nat} {e : ToolError}

theorem partSize_eq_ok_iff : partSize answer = .ok size ↔ Counts answer size := by
  unfold partSize Counts
  cases answer with
  | ok found => simp
  | error e =>
    by_cases he : e.isNotFound = true
    · have hmissing := e.isNotFound_iff.1 he
      simp [he, hmissing, eq_comm]
    · have hother : ¬∃ missing, e = .notFound missing := fun h => he (e.isNotFound_iff.2 h)
      simp [he, hother]

/-- Only a failure that says something else than that the part does not exist is passed on. -/
theorem partSize_eq_error_iff :
    partSize answer = .error e ↔ answer = .error e ∧ ∀ missing, e ≠ .notFound missing := by
  have hiff : (∀ missing, e ≠ .notFound missing) ↔ e.isNotFound = false := by
    rw [← Bool.not_eq_true, e.isNotFound_iff]
    simp
  rw [hiff]
  unfold partSize
  cases answer with
  | ok found => simp
  | error found =>
    dsimp only
    by_cases hfound : found.isNotFound = true
    · rw [if_pos hfound]
      refine ⟨nofun, ?_⟩
      rintro ⟨heq, he⟩
      cases heq
      rw [hfound] at he
      cases he
    · rw [if_neg hfound, Except.error.injEq]
      refine ⟨?_, And.left⟩
      rintro rfl
      exact ⟨rfl, by simpa using hfound⟩

/-- What is left is the total less the part, or the total if the part is larger. -/
theorem without_eq_iff :
    without total part = size ↔ part ≤ total ∧ size + part = total ∨ total < part ∧ size = total := by
  unfold without
  split <;> omega

/-! ### The measurement -/

section Run

variable {σ : Type} {tool : LiveTool σ} {path exclude : Path} {s t : σ}

/-- If the whole cannot be measured, the part is not asked for. -/
theorem run_measureExcluding_of_error (h : (tool path).run s = (.error e, t)) :
    (tool.measureExcluding path exclude).run s = (.error e, t) := by
  unfold LiveTool.measureExcluding
  rw [StateT.run_bind, h]
  rfl

/-- If it can, the part is asked for next. -/
theorem run_measureExcluding_of_ok (h : (tool path).run s = (.ok total, t)) :
    (tool.measureExcluding path exclude).run s
      = ((partSize ((tool exclude).run t).1).map (without total), ((tool exclude).run t).2) := by
  unfold LiveTool.measureExcluding
  rw [StateT.run_bind, h]
  rfl

end Run

theorem map_without_eq_ok_iff {counted : Except ToolError Nat} :
    counted.map (without total) = .ok size ↔ ∃ part, counted = .ok part ∧ without total part = size := by
  cases counted <;> simp [Except.map]

theorem map_without_eq_error_iff {counted : Except ToolError Nat} :
    counted.map (without total) = .error e ↔ counted = .error e := by
  cases counted <;> simp [Except.map]

/-- **A subtree without a part of it.**  The tool is called for the whole, and for the part only if the
whole has a size.  The measurement fails iff the whole cannot be measured, or the part cannot for another
reason than that it does not exist, and then with that very failure.  Otherwise it gives the size of the
whole less that of the part, or all of it if the part is said to be larger: so never more than the whole,
and nothing is taken off that is not there.  A tool that keeps to its answers is measured with in this
way. -/
theorem part_is_taken_off_the_whole {σ : Type} (tool : LiveTool σ) (path exclude : Path) (s : σ) :
    let whole := (tool path).run s
    let part := (tool exclude).run whole.2
    let measured := (tool.measureExcluding path exclude).run s
    ((∀ e, whole.1 = .error e → measured.2 = whole.2) ∧
      ∀ total, whole.1 = .ok total → measured.2 = part.2) ∧
    (∀ e, measured.1 = .error e ↔ whole.1 = .error e ∨
      (∃ total, whole.1 = .ok total) ∧ part.1 = .error e ∧ ∀ missing, e ≠ .notFound missing) ∧
    (∀ size, measured.1 = .ok size ↔ ∃ total counted, whole.1 = .ok total ∧ Counts part.1 counted ∧
      (counted ≤ total ∧ size + counted = total ∨ total < counted ∧ size = total)) ∧
    (∀ total size, whole.1 = .ok total → measured.1 = .ok size → size ≤ total) ∧
    ∀ (steady : UsageTool) (calls : List Path),
      (steady.recorded.measureExcluding path exclude).run calls
        = ((steady.measureExcluding path exclude).answer,
          calls ++ (steady.measureExcluding path exclude).calls) := by
  intro whole part measured
  cases hwhole : (tool path).run s with
  | mk answer t =>
    have hanswer : whole.1 = answer := congrArg Prod.fst hwhole
    have hstate : whole.2 = t := congrArg Prod.snd hwhole
    rw [hanswer, hstate]
    cases answer with
    | error e =>
      have hmeasured : measured = (.error e, t) := run_measureExcluding_of_error hwhole
      rw [hmeasured]
      refine ⟨⟨fun _ _ => rfl, nofun⟩, fun e' => ⟨.inl, ?_⟩, fun size => ⟨nofun, ?_⟩, nofun,
        fun steady => run_measureExcluding_recorded steady path exclude⟩
      · rintro (heq | ⟨⟨total, htotal⟩, -⟩)
        · exact heq
        · cases htotal
      · rintro ⟨total, counted, htotal, -⟩
        cases htotal
    | ok total =>
      have hpart : part = (tool exclude).run t := by
        show (tool exclude).run whole.2 = _
        rw [hstate]
      have hmeasured : measured = ((partSize part.1).map (without total), part.2) := by
        rw [hpart]
        exact run_measureExcluding_of_ok hwhole
      have hsize (size : Nat) : measured.1 = .ok size ↔ ∃ counted, Counts part.1 counted ∧
          (counted ≤ total ∧ size + counted = total ∨ total < counted ∧ size = total) := by
        rw [hmeasured, map_without_eq_ok_iff]
        simp only [partSize_eq_ok_iff, without_eq_iff]
      refine ⟨⟨nofun, fun _ _ => by rw [hmeasured]⟩, fun e => ?_, fun size => ?_, ?_,
        fun steady => run_measureExcluding_recorded steady path exclude⟩
      · rw [hmeasured, map_without_eq_error_iff, partSize_eq_error_iff]
        simp
      · rw [hsize]
        constructor
        · rintro ⟨counted, hcounted, hleft⟩
          exact ⟨total, counted, rfl, hcounted, hleft⟩
        · rintro ⟨total', counted, htotal, hcounted, hleft⟩
          cases htotal
          exact ⟨counted, hcounted, hleft⟩
      · intro total' size htotal h
        cases htotal
        obtain ⟨counted, -, hleft⟩ := (hsize size).1 h
        omega

/-- Where the part is the whole itself, a tool that grows may still say that it is larger. -/
example :
    let growing : LiveTool Nat := fun _ => do
      modify (· + 100)
      return .ok (← get)
    (growing.measureExcluding ⟨"/p"⟩ ⟨"/p"⟩).run 0 = (.ok 100, 200) := by
  rfl

end DiskUsage
