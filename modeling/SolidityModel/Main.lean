import SolidityModel.Command.Run

/-!
# The program

Reads the JSON syntax tree of one Solidity source unit and prints what is derived
from it.
-/

namespace SolidityModel

namespace Command

/-- The text of a file, if it can be read. -/
def readTextFile? (path : String) : IO (Option String) := do
  match ← (IO.FS.readFile path).toBaseIO with
  | .ok text => return some text
  | .error _ => return none

/-- Print an outcome: its text to standard output, and what is wrong to standard
error. -/
def report (outcome : Outcome) : IO Unit := do
  IO.print outcome.output
  match outcome with
  | .success _ => pure ()
  | .failure cause => IO.eprintln ("Error: " ++ cause.message)
  | .usage _ => IO.eprint helpText

end Command

end SolidityModel

/-- Run the program with the arguments of its command line. -/
def main (arguments : List String) : IO UInt32 := do
  let outcome ← SolidityModel.Command.run SolidityModel.Command.readTextFile? (IO.getEnv ·)
    arguments
  SolidityModel.Command.report outcome
  return UInt32.ofNat outcome.exitCode
