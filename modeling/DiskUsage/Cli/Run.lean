import DiskUsage.Cache.Store
import DiskUsage.Cli.Command
import DiskUsage.FileSystem.Canonical
import DiskUsage.Report.Summary
import DiskUsage.Scan.Scanner
import DiskUsage.Usage.Process

/-!
# Carrying out a command

A command runs on a machine: a file system with a working directory, a home directory, a usage tool
and a clock.  It ends with an exit code, with output, and with the errors that led to a failure.

* `Cli.run`: carry out arguments.
-/

namespace DiskUsage.Cli

/-- What a command runs on. -/
structure Machine where
  fs : FileSystem
  /-- The working directory, by the names from the root on. -/
  cwd : List String
  /-- The home directory and the number of processors. -/
  environment : Environment
  /-- The program that measures usage. -/
  du : Usage.Program
  now : Timestamp
  /-- How long a scan takes. -/
  elapsed : Duration
  /-- So many nanoseconds after its start a fast walk lists the directory at this path. -/
  listedAfter : Path → Nat
  /-- Why the system does not start the worker of this number. -/
  startError? : Nat → Option SystemError

/-- What a command writes to its output. -/
inductive Output where
  | lines (lines : List String)
  | json (j : Json)

/-- The text of an output, with a line end after each line. -/
def Output.text : Output → String
  | .lines all => String.join (all.map (· ++ "\n"))
  | .json j => j.pretty ++ "\n"

/-- How a command ends. -/
structure Outcome where
  exit : Nat
  output : Output
  /-- The errors of a failure, each with its cause after it. -/
  errors : List String
  /-- What is announced before a scan. -/
  announced : Option String
  /-- The file system afterwards. -/
  fs : FileSystem

namespace Machine

/-- The command ends well. -/
def finish (m : Machine) (output : Output) (announced : Option String) : Outcome :=
  ⟨0, output, [], announced, m.fs⟩

/-- The command fails. -/
def fail (m : Machine) (errors : List String) (announced : Option String) : Outcome :=
  ⟨1, .lines [], errors, announced, m.fs⟩

/-- Where sizes are remembered below a home directory. -/
def cacheFile (home : Path) : Path :=
  ((home.child ".cache").child "spacesift").child "overview.json"

/-- The cache of a configuration: a file below the home directory, if there is one. -/
def openCache (m : Machine) (c : ScanConfig) : Cache :=
  match c.homePath? with
  | some home => .openFile m.fs m.cwd (cacheFile home) (some Cache.defaultTtl)
  | none => .inMemory (some Cache.defaultTtl)

/-- What a scanner of a configuration meets. -/
def surroundings (m : Machine) (c : ScanConfig) : Surroundings where
  fs := m.fs
  cwd := m.cwd
  tool := Usage.duMeasure m.du c.duTimeout (m.fs.stat m.cwd)
  index := .platform c.indexTimeout
  now := m.now
  elapsed := m.elapsed
  listedAfter := m.listedAfter
  processors := m.environment.processors
  startError? := m.startError?

end Machine

/-- The texts of an error of a scan and of its cause. -/
def errorChain (e : ScanError) : List String :=
  e.message :: (e.source?.map SystemError.message).toList

/-- What is written of a result. -/
def resultOutput (m : Machine) (c : ScanConfig) (json : Bool) (r : ScanResult) :
    Except String Output :=
  if json then
    match r.toJson? with
    | some j => .ok (.json j)
    | none => .error "SystemTime must be later than UNIX_EPOCH"
  else .ok (.lines (Report.summary m.now c.homeDir r))

/-- Scan a root that is a canonical path. -/
def runScanAt (m : Machine) (c : ScanConfig) (json : Bool) (root : Path) : Outcome :=
  let announced := if json then none else some ("Scanning " ++ root.text ++ "...")
  let scanner := Scanner.new c (m.openCache c)
  match (scanner.scan (m.surroundings c) root).answer with
  | .error e => m.fail ("Scan failed" :: errorChain e) announced
  | .ok r =>
    match resultOutput m c json r with
    | .ok output => m.finish output announced
    | .error e => m.fail [e] announced

/-- Scan a path. -/
def runScan (m : Machine) (c : ScanConfig) (json : Bool) (path : Path) : Outcome :=
  match m.fs.canonicalize m.cwd path with
  | .error e => m.fail ["Invalid path", e.message] none
  | .ok root => runScanAt m c json root

/-- Measure a path. -/
def runOverview (m : Machine) (path : Path) (noCache : Bool) : Outcome :=
  let c := ScanConfig.default m.environment
  let cache := if noCache then .inMemory none else m.openCache c
  let viewed := (Scanner.new c cache).overview (m.surroundings c) path
  let m := { m with fs := viewed.fs }
  match viewed.overview.answer with
  | .ok size => m.finish (.lines [Report.formatSize size ++ "\t" ++ path.text]) none
  | .error e => m.fail (("Cannot measure " ++ path.text) :: errorChain e) none

/-- Carry out a command. -/
def runCommand (m : Machine) : Command → Outcome
  | .scan o =>
    match o.settings with
    | .error e => m.fail e.chain none
    | .ok settings =>
      match ScanConfig.build m.environment settings with
      | .error e => m.fail ["Invalid scan options", e.message] none
      | .ok c => runScan m c o.json o.path
  | .overview path noCache => runOverview m path noCache

/-- What is done about arguments that are not carried out. -/
def refuse (m : Machine) : Refusal → Outcome
  | .usage => ⟨2, .lines [], [], none, m.fs⟩
  | .help => m.finish (.lines []) none
  | .version => m.finish (.lines [versionLine]) none

/-- Carry out arguments. -/
def run (m : Machine) (args : List String) : Outcome :=
  match Command.parse args with
  | .error e => refuse m e
  | .ok command => runCommand m command

end DiskUsage.Cli
