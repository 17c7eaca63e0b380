import PlanarExpr.CommandLine

/-!
# The program

Reads the arguments and the environment, runs the command line, and prints
what it leaves behind.
-/

namespace PlanarExpr.CommandLine

/-- The texts of those names that are set. -/
def readEnvironment (names : List String) : IO Environment :=
  names.filterMapM fun name => do
    return (← IO.getEnv name).map fun text => (name, text)

end PlanarExpr.CommandLine

open PlanarExpr

/-- Runs the command line on the arguments of the process. -/
def main (arguments : List String) : IO UInt32 := do
  let environment ← CommandLine.readEnvironment ["POSEVAL_MAX_DEPTH", "POSEVAL_LOG_LEVEL"]
  let outcome := CommandLine.run environment arguments
  IO.print outcome.output
  IO.eprint outcome.errors
  return outcome.exitCode.toUInt32
