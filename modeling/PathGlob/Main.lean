import PathGlob.Run

/-!
# The program
-/

open PathGlob in
/-- Runs the command line. -/
def main (words : List String) : IO UInt32 := do
  let request := Request.read words
  let input ← if request.readsInput then (← IO.getStdin).readBinToEnd else pure .empty
  let outcome := request.outcome input
  (← IO.getStderr).putStr outcome.err
  (← IO.getStdout).putStr outcome.out
  return outcome.exit.toUInt32
