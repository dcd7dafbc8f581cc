/-
JoosStatics.Main — the program `joosc`.
-/
import JoosStatics.CommandLine

open JoosStatics

/-- The text of a file, if it can be read. -/
def readText? (path : String) : IO (Option String) := do
  try
    return some (← IO.FS.readFile path)
  catch _ =>
    return none

/-- Runs the command on the arguments of the program. -/
def main (args : List String) : IO UInt32 := do
  let outcome ← CommandLine.run readText? args
  (← IO.getStdout).putStr outcome.stdout
  if let some failure := outcome.failure then
    (← IO.getStderr).putStrLn failure.message
  if outcome.exit == 2 then
    (← IO.getStderr).putStr CommandLine.usage
  return outcome.exit.toUInt32
