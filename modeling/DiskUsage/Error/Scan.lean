import DiskUsage.Error.System
import DiskUsage.Path.Basic

/-!
# Why a scan or a measurement fails

* `ScanError.ofSystem`: the error that an error of the system at a path is.
* `ScanError.message`: its text.
-/

namespace DiskUsage

/-- What is wrong with a path. -/
inductive InvalidPathReason where
  | empty
  | notAbsolute
  deriving DecidableEq, Repr

/-- The text of the reason. -/
def InvalidPathReason.message : InvalidPathReason → String
  | empty => "empty path"
  | notAbsolute => "path must be absolute"

/-- Why a scan or a measurement fails. -/
inductive ScanError where
  | permissionDenied (path : Path)
  | notFound (path : Path)
  | io (path : Path) (source : SystemError)
  | invalidPath (path : Path) (reason : InvalidPathReason)
  | notADirectory (path : Path)
  /-- No way of measuring gave a size. -/
  | measureFailed (path : Path)
  | invalidConfig (message : String)
  | other (message : String)
  deriving DecidableEq, Repr

namespace ScanError

/-- The error that an error of the system at a path is. -/
def ofSystem (path : Path) (source : SystemError) : ScanError :=
  match source.kind with
  | .denied => permissionDenied path
  | .absent => notFound path
  | .notDirectory => notADirectory path
  | .other => io path source

/-- The text of the error. -/
def message : ScanError → String
  | permissionDenied path => "Permission denied: " ++ path.text
  | notFound path => "Path not found: " ++ path.text
  | io path source => "I/O error at " ++ path.text ++ ": " ++ source.message
  | invalidPath path reason => "Invalid path: " ++ path.text ++ " (" ++ reason.message ++ ")"
  | notADirectory path => "Root path is not a directory: " ++ path.text
  | measureFailed path => "Unable to measure size of " ++ path.text
  | invalidConfig message => "Invalid configuration: " ++ message
  | other message => message

/-- The error of the system behind the error. -/
def source? : ScanError → Option SystemError
  | io _ source => some source
  | _ => none

theorem ofSystem_eq_notFound_iff (path : Path) (source : SystemError) :
    ofSystem path source = notFound path ↔ source.kind = .absent := by
  unfold ofSystem
  cases source.kind <;> simp

end ScanError

end DiskUsage
