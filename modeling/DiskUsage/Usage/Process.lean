import DiskUsage.FileSystem.Node
import DiskUsage.Json.Record
import DiskUsage.Usage.Kilobytes
import DiskUsage.Usage.Tool
import DiskUsage.Text.Utf8

/-!
# Running the usage tool

The usage tool is a program.  It may be missing or not executable; when it runs it writes output and
then ends, with a status or by a signal, or it goes on for longer than its time limit.

* `Program.ofJson`: a program as a record describes it.
* `Program.run`: the output of a run, or why there is none.
* `duMeasure`: the size that the program tells for a path.
-/

namespace DiskUsage.Usage

/-- How a run of a program ends. -/
inductive Ending where
  | status (code : Nat)
  | signal (number : Nat)
  /-- It sleeps for so many milliseconds and ends well. -/
  | sleeps (milliseconds : Nat)
  deriving DecidableEq, Repr

/-- A program under a name. -/
inductive Program where
  | missing
  | notExecutable
  /-- A program that writes these bytes to its two outputs and ends. -/
  | script (stdout stderr : List Nat) (ending : Ending)
  deriving DecidableEq, Repr

namespace Program

/-- The bytes of an output: a list of numbers under one name, or a text under the other. -/
def bytesOf (j : Json) (bytesName textName : String) : List Nat :=
  match (j.field? bytesName).bind Json.array? with
  | some items => items.filterMap Json.natural?
  | none =>
    match (j.field? textName).bind Json.text? with
    | some s => s.toUTF8.toList.map UInt8.toNat
    | none => []

/-- A flag of a record. -/
def isSet (j : Json) (name : String) : Bool :=
  ((j.field? name).bind Json.bool?).getD false

/-- How a run ends that is written as a record: it sleeps, or gets a signal, or ends with a status,
which is zero if nothing is said. -/
def endingOf (j : Json) : Ending :=
  match (j.field? "sleep").bind Json.natural? with
  | some seconds => .sleeps (seconds * 1000)
  | none =>
    match (j.field? "signal").bind Json.natural? with
    | some number => .signal number
    | none => .status (((j.field? "exit").bind Json.natural?).getD 0)

/-- The program that a record describes. -/
def ofJson (j : Json) : Program :=
  if isSet j "missing" then missing
  else if isSet j "not_executable" then notExecutable
  else script (bytesOf j "stdout_bytes" "stdout") (bytesOf j "stderr_bytes" "stderr") (endingOf j)

end Program

/-- The names of the signals, from the first one on. -/
def signalNames : List String := [
  "SIGHUP", "SIGINT", "SIGQUIT", "SIGILL", "SIGTRAP", "SIGABRT", "SIGBUS", "SIGFPE", "SIGKILL",
  "SIGUSR1", "SIGSEGV", "SIGUSR2", "SIGPIPE", "SIGALRM", "SIGTERM", "SIGSTKFLT", "SIGCHLD",
  "SIGCONT", "SIGSTOP", "SIGTSTP", "SIGTTIN", "SIGTTOU", "SIGURG", "SIGXCPU", "SIGXFSZ",
  "SIGVTALRM", "SIGPROF", "SIGWINCH", "SIGIO", "SIGPWR", "SIGSYS"]

/-- The text of a status that is a failure. -/
def statusText (code : Nat) : String :=
  "exit status: " ++ toString code

/-- The text of a signal. -/
def signalText (number : Nat) : String :=
  "signal: " ++ toString number
    ++ match signalNames[number - 1]? with
       | some name => " (" ++ name ++ ")"
       | none => ""

/-- The failure of a run that wrote this to its second output. -/
def failure (status : String) (stderr : List Nat) : ToolError :=
  .failed duName status (Text.trim (Text.Utf8.decode stderr))

/-- Nanoseconds that a run sleeps. -/
def Ending.sleepNanos : Ending → Nat
  | sleeps milliseconds => milliseconds * 1000000
  | _ => 0

/-- The output of a run with a time limit, or why there is none.  Every run takes some time, so that
a limit that is no longer than its sleep is always exceeded. -/
def Program.run (p : Program) (limit : Duration) : Except ToolError String :=
  match p with
  | missing => .error (.spawn duName .noEntry)
  | notExecutable => .error (.spawn duName .accessDenied)
  | script stdout stderr ending =>
    if limit.toNanos ≤ ending.sleepNanos then .error (.timeout duName limit)
    else
      match ending with
      | .status 0 => .ok (Text.Utf8.decode stdout)
      | .status code => .error (failure (statusText code) stderr)
      | .signal number => .error (failure (signalText number) stderr)
      | .sleeps _ => .ok (Text.Utf8.decode stdout)

/-- No program is started with an argument that holds a zero character. -/
def zeroInArgument : SystemError :=
  .custom .other "nul byte found in provided data"

/-- The path is known not to exist. -/
def isKnownMissing : Except SystemError Node → Bool
  | .error e => e.kind == .absent
  | .ok _ => false

/-- The size that the program tells for a path. -/
def duMeasure (p : Program) (limit : Duration) (stat : Path → Except SystemError Node) : UsageTool :=
  fun path =>
    if isKnownMissing (stat path) then .error (.notFound path)
    else if path.chars.contains '\x00' then .error (.spawn duName zeroInArgument)
    else (p.run limit).bind parseKilobytes

/-- The program is started for this path. -/
def duStarts (p : Program) (stat : Path → Except SystemError Node) (path : Path) : Bool :=
  !isKnownMissing (stat path) && !path.chars.contains '\x00'
    && match p with
       | .script .. => true
       | _ => false

/-- The arguments of a run for a path. -/
def duArguments (path : Path) : List String :=
  ["-sk", path.text]

theorem duMeasure_of_missing (p : Program) (limit : Duration)
    {stat : Path → Except SystemError Node} {path : Path} (h : stat path = .error .noEntry) :
    duMeasure p limit stat path = .error (.notFound path) := by
  simp [duMeasure, isKnownMissing, h, SystemError.noEntry, SystemError.kind]

end DiskUsage.Usage
