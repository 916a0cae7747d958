import DiskUsage.Error.Tool

/-!
# Usage tools

A usage tool measures a whole subtree in one call.  To measure a subtree without a part of it, both
are measured: a part that does not exist counts as zero, and so does a part that is larger than the
whole.

* `UsageTool.measureExcluding`: the measurement without a part, with the calls that it takes.
* `size_measureExcluding_le`: the result is at most the whole.
* `LiveTool`, `LiveTool.measureExcluding`: a tool whose answers change, and the same measurement.
-/

namespace DiskUsage

/-- What a usage tool answers for each path. -/
abbrev UsageTool := Path → Except ToolError Nat

/-- The answer to a question, with the paths that the tool was called for, in order. -/
structure Measurement where
  calls : List Path
  answer : Except ToolError Nat

/-- The size that an answer gives, if it is not zero. -/
def positiveSize? : Except ToolError Nat → Option Nat
  | .ok size => if 0 < size then some size else none
  | .error _ => none

namespace UsageTool

/-- The size of a path. -/
def measure (tool : UsageTool) (path : Path) : Measurement :=
  ⟨[path], tool path⟩

/-- The size of the part to leave out, if its measurement does not fail. -/
def partSize (answer : Except ToolError Nat) : Except ToolError Nat :=
  match answer with
  | .ok size => .ok size
  | .error e => if e.isNotFound then .ok 0 else .error e

/-- What is left of a total without a part. -/
def without (total part : Nat) : Nat :=
  if total < part then total else total - part

/-- The size of a path without the part at another one. -/
def measureExcluding (tool : UsageTool) (path exclude : Path) : Measurement :=
  match tool path with
  | .error e => ⟨[path], .error e⟩
  | .ok total => ⟨[path, exclude], (partSize (tool exclude)).map (without total)⟩

theorem without_le (total part : Nat) : without total part ≤ total := by
  unfold without
  split <;> omega

/-- The result is at most the whole. -/
theorem size_measureExcluding_le {tool : UsageTool} {path exclude : Path} {total size : Nat}
    (ht : tool path = .ok total) (h : (measureExcluding tool path exclude).answer = .ok size) :
    size ≤ total := by
  simp only [measureExcluding, ht] at h
  cases hp : partSize (tool exclude) with
  | error e => simp [hp, Except.map] at h
  | ok part =>
    simp only [hp, Except.map, Except.ok.injEq] at h
    exact h ▸ without_le total part

end UsageTool

open UsageTool

/-- A usage tool with a state: each call may answer anything, and change the state in any way. -/
abbrev LiveTool (σ : Type) := Path → StateM σ (Except ToolError Nat)

/-- The size of a path without the part at another one. -/
def LiveTool.measureExcluding {σ : Type} (tool : LiveTool σ) (path exclude : Path) :
    StateM σ (Except ToolError Nat) := do
  match ← tool path with
  | .error e => return .error e
  | .ok total => return (partSize (← tool exclude)).map (without total)

/-- A tool that keeps to its answers, with the paths that it was called for as its state. -/
def UsageTool.recorded (tool : UsageTool) : LiveTool (List Path) := fun path => do
  modify (· ++ [path])
  return tool path

end DiskUsage
