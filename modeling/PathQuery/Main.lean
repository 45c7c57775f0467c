import PathQuery.Command.Run
/-!
# The program

Reads the document when one is needed, and shows what the run came to.
-/
open PathQuery

/-- Runs the program with its arguments. -/
def main (arguments : List String) : IO UInt32 := do
  let input ←
    if CommandLine.readsInput arguments then (← IO.getStdin).readBinToEnd else pure .empty
  let outcome := CommandLine.run arguments input
  (← IO.getStdout).putStr outcome.output
  (← IO.getStderr).putStr outcome.errors
  return outcome.code
