import DiskUsage.Error.System
import DiskUsage.Path.Basic
import DiskUsage.Text.Quoted
import DiskUsage.Time.Duration

/-!
# Why a tool fails

A tool is another program that measures or searches.  Its failures are never the end: whoever asks
goes on to the next way of finding out.

* `ToolError.message`: the text of a failure.
-/

namespace DiskUsage

/-- Why a tool gives no answer. -/
inductive ToolError where
  /-- It took too long and was stopped. -/
  | timeout (tool : String) (limit : Duration)
  /-- Its output says nothing. -/
  | parse (tool output : String)
  /-- Its output is a size that cannot be right. -/
  | invalidResult (tool : String) (value : Int)
  /-- The path does not exist. -/
  | notFound (path : Path)
  /-- It could not be started. -/
  | spawn (tool : String) (source : SystemError)
  /-- It ended with a failure. -/
  | failed (tool status stderr : String)
  /-- There is no such tool. -/
  | unavailable (tool : String)
  deriving DecidableEq, Repr

namespace ToolError

/-- The text of the failure. -/
def message : ToolError → String
  | timeout tool limit => tool ++ " timed out after " ++ limit.describe
  | parse tool output => "failed to parse " ++ tool ++ " output: " ++ Text.quote output
  | invalidResult tool value => tool ++ " reported invalid size " ++ toString value
  | notFound path => "path does not exist: " ++ path.text
  | spawn tool source => "failed to run " ++ tool ++ ": " ++ source.message
  | failed tool status stderr => tool ++ " failed (" ++ status ++ "): " ++ stderr
  | unavailable tool => tool ++ " is not available"

/-- The failure says that the path does not exist. -/
def isNotFound : ToolError → Bool
  | notFound _ => true
  | _ => false

theorem isNotFound_iff (e : ToolError) : e.isNotFound = true ↔ ∃ path, e = notFound path := by
  cases e <;> simp [isNotFound]

end ToolError

end DiskUsage
