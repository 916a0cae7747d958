import DiskUsage.Cli.Machine

/-!
# The program

The program reads the description of a machine from its input, carries out its arguments on that
machine, and writes what they give: the output, what is announced and the errors, each on its own
stream, and the exit code.
-/

def main (args : List String) : IO UInt32 := do
  let input ← IO.getStdin
  let output ← IO.getStdout
  let errors ← IO.getStderr
  match DiskUsage.Cli.Machine.parse? (← input.readToEnd) with
  | none =>
    errors.putStrLn "the input describes no machine"
    return 2
  | some machine =>
    let outcome := DiskUsage.Cli.run machine args
    for line in outcome.announced.toList do
      errors.putStrLn line
    output.putStr outcome.output.text
    for line in outcome.errors do
      errors.putStrLn line
    return UInt32.ofNat outcome.exit
