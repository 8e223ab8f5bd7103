import Shader.CommandLine.Compilation

/-!
# The command line
-/

namespace Shader.CommandLine

/-- Ends with the message of a failure. -/
def orFail {α : Type} : Except Failure α → IO α
  | .ok value => pure value
  | .error failure => throw (IO.userError failure.message)

def writeFile (path : String) (file : Target.OutputFile) : IO Unit := do
  IO.FS.writeBinFile path ⟨file.bytes.toArray⟩
  if let some report := report? path file then
    IO.eprintln report

def run (arguments : Arguments) : IO Unit := do
  let m ← orFail (program (← IO.FS.readFile arguments.input))
  if arguments.listing then
    IO.eprintln (← orFail (m.listing.mapError .listing))
  unless arguments.dryRun do
    for (path, file) in ← orFail (files arguments m) do
      writeFile path file

end Shader.CommandLine

open Shader.CommandLine in
/-- Compiles a surface module to a file.  The exit code is 2 for arguments that cannot be read and
1 for any other failure. -/
def main (arguments : List String) : IO UInt32 := do
  match Arguments.parse arguments with
  | .error error =>
    IO.eprintln s!"Error: {error.message}"
    return 2
  | .ok arguments =>
    try
      run arguments
      return 0
    catch error =>
      IO.eprintln s!"Error: {error}"
      return 1
