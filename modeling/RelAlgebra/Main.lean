/-
The demo program.
-/
import RelAlgebra.CommandLine

/-- Answers the command line on the standard streams. -/
def main (arguments : List String) : IO UInt32 := do
  let response := RelAlgebra.CommandLine.respond arguments
  (← IO.getStdout).putStr response.output
  (← IO.getStderr).putStr response.errors
  return response.exitCode
