import DiskUsage.Progress.Counters
import DiskUsage.Path.Basic

/-!
# What happens during a scan

A trace is the list of the events of a scan, in order.  The counters, the progress that is published
and the calls of the usage tool are read off it.

* `Counters.after`: the counters after a trace.
* `Trace.asked`: the paths that the usage tool was called for.
-/

namespace DiskUsage

/-- One thing that happens during a scan. -/
inductive Event where
  /-- A file or a link was sized; `observed` tells whether progress takes notice of it. -/
  | file (path : Path) (size : Nat) (observed : Bool)
  /-- A directory was reached. -/
  | dir
  /-- A directory was sized in bulk. -/
  | bulk (bytes : Nat)
  /-- Something could not be read. -/
  | error
  /-- The usage tool was called. -/
  | asked (path : Path)
  deriving DecidableEq, Repr

/-- What happens during a scan, in order. -/
abbrev Trace := List Event

/-- The counters after one more event. -/
def Counters.record (c : Counters) : Event → Counters
  | .file _ size _ => c.recordFile size
  | .dir => c.recordDir
  | .bulk bytes => c.recordBytes bytes
  | .error => c.recordError
  | .asked _ => c

/-- The counters after a trace. -/
def Counters.after (c : Counters) (trace : Trace) : Counters :=
  trace.foldl Counters.record c

namespace Trace

/-- The paths that the usage tool was called for. -/
def asked (trace : Trace) : List Path :=
  trace.filterMap fun
    | .asked path => some path
    | _ => none

end Trace

@[simp] theorem Counters.after_nil (c : Counters) : c.after [] = c := rfl

@[simp] theorem Counters.after_append (c : Counters) (a b : Trace) :
    c.after (a ++ b) = (c.after a).after b := by
  simp [after]

@[simp] theorem Trace.asked_append (a b : Trace) :
    Trace.asked (a ++ b) = Trace.asked a ++ Trace.asked b := by
  simp [asked]

end DiskUsage
