import DiskUsage.Cli.Arguments
import DiskUsage.Config.Setting
import DiskUsage.Number.Numeral
import DiskUsage.Report.SizeInput

/-!
# Commands

There are two commands: to scan a directory, and to measure one.

* `Command.parse`: the command that arguments give.
* `ScanOptions.settings`: the settings that the options of a scan make.
-/

namespace DiskUsage.Cli

/-- The options of a scan. -/
structure ScanOptions where
  path : Path
  json : Bool
  entries : UInt64
  largeFiles : UInt64
  minSize : String
  workers : Option UInt64
  deriving DecidableEq, Repr

/-- What to do. -/
inductive Command where
  | scan (options : ScanOptions)
  | overview (path : Path) (noCache : Bool)
  deriving DecidableEq, Repr

/-- The name and the version of the program. -/
def versionLine : String := "spacesift 0.1.0"

/-- A word that a text stands for. -/
def word? (s : String) : Option UInt64 :=
  Number.word? s.toList

/-- The text stands for a word. -/
def isWord (s : String) : Bool :=
  (word? s).isSome

/-- What a scan understands. -/
def scanSpec : CommandSpec where
  flags := ["json"]
  options := [
    ⟨'n', "entries", isWord⟩, ⟨'l', "large-files", isWord⟩, ⟨'m', "min-size", fun _ => true⟩,
    ⟨'w', "workers", isWord⟩]

/-- What a measurement understands. -/
def overviewSpec : CommandSpec where
  flags := ["no-cache"]
  options := []

/-- The options that arguments of a scan give. -/
def scanOptions (a : Arguments) : ScanOptions where
  path := ⟨a.path?.getD "."⟩
  json := a.hasFlag "json"
  entries := ((a.value? "entries").bind word?).getD 30
  largeFiles := ((a.value? "large-files").bind word?).getD 30
  minSize := (a.value? "min-size").getD "100MB"
  workers := (a.value? "workers").bind word?

/-- The names of the commands. -/
def commandNames : List String := ["scan", "overview", "help"]

/-- What is done about a request for help on commands: help is given on all of them together, or on
one of them. -/
def helpOn : List String → Refusal
  | [] => .help
  | [name] => if commandNames.contains name then .help else .usage
  | _ => .usage

namespace Command

/-- Flags in place of a command: each asks for one thing at once. -/
def refusalOf (flag : String) : Refusal :=
  match flag.toList with
  | '-' :: '-' :: long =>
    if long = "version".toList then .version
    else if long = "help".toList then .help
    else .usage
  | '-' :: 'V' :: _ => .version
  | '-' :: 'h' :: _ => .help
  | _ => .usage

/-- The command that arguments give. -/
def parse : List String → Except Refusal Command
  | [] => .error .usage
  | name :: args =>
    if name = "scan" then (Arguments.read scanSpec args).map fun a => .scan (scanOptions a)
    else if name = "overview" then
      match Arguments.read overviewSpec args with
      | .error e => .error e
      | .ok a =>
        match a.path? with
        | some path => .ok (.overview ⟨path⟩ (a.hasFlag "no-cache"))
        | none => .error .usage
    else if name = "help" then .error (helpOn args)
    else .error (refusalOf name)

end Command

namespace ScanOptions

/-- The settings that the options make. -/
def settings (o : ScanOptions) : Except Report.SizeError (List Setting) :=
  (Report.parseSize o.minSize).map fun size => [
    .maxEntries o.entries, .maxLargeFiles o.largeFiles, .minLargeFileSize (UInt64.ofNat size),
    .workers o.workers]

end ScanOptions

theorem parse_nil : Command.parse [] = .error .usage := rfl

end DiskUsage.Cli
