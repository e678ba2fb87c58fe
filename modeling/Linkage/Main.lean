import Linkage.Demo

/-!
# Command line

Runs the demonstration with the arguments of the command line.
-/

set_option autoImplicit false

open Linkage

def writeText (stream : IO.FS.Stream) (text : Text) : IO Unit := do
  stream.write ⟨text.toArray⟩
  stream.flush

def main (arguments : List String) : IO UInt32 := do
  let outcome := Demo.run "linkage" (arguments.map Text.ofString)
  writeText (← IO.getStdout) outcome.output
  writeText (← IO.getStderr) outcome.errors
  return outcome.exitCode
