import DiskUsage.Cli.Run
import DiskUsage.FileSystem.Recipe
import DiskUsage.Json.Reader

/-!
# The description of a machine

A machine is described by a record in JSON: the recipe of a tree, the absolute directory below which
the tree is made and which is the working directory, the home directory, the usage tool, the number
of processors and the time in seconds from the Unix epoch.  On such a machine every fast walk has
listed all directories within a microsecond, and every worker can be started.

* `Machine.parse?`: the machine that a text describes.
-/

namespace DiskUsage.Cli.Machine

/-- The directory below which the tree of a description is made. -/
def baseOf (j : Json) : Path :=
  ⟨((j.field? "base").bind Json.text?).getD "/"⟩

/-- The time of a description. -/
def timeOf (j : Json) : Timestamp :=
  .ofUnixSeconds (((j.field? "now").bind Json.natural?).getD 0)

/-- The file system of a description. -/
def treeOf? (j : Json) : Option FileSystem := do
  let now := some (timeOf j)
  let steps ← (← (← j.field? "tree").array?).mapM Recipe.ofJson?
  let base := baseOf j
  return (((FileSystem.empty now).createDirAll [] now base).1).makeAll now base steps

/-- The home directory and the number of processors of a description. -/
def environmentOf (j : Json) : Environment where
  home := ((j.field? "home").bind Json.text?).map fun text => .text ⟨text⟩
  processors := UInt64.ofNat (((j.field? "processors").bind Json.natural?).getD 1)

/-- The machine that a record describes. -/
def ofJson? (j : Json) : Option Machine := do
  let fs ← treeOf? j
  return {
    fs
    cwd := FileSystem.steps (baseOf j)
    environment := environmentOf j
    du := ((j.field? "du").map Usage.Program.ofJson).getD .missing
    now := timeOf j
    elapsed := .zero
    listedAfter := fun _ => 1000
    startError? := fun _ => none }

/-- The machine that a text describes. -/
def parse? (text : String) : Option Machine :=
  (Json.parse? text).bind ofJson?

end DiskUsage.Cli.Machine
