import Shader.CommandLine.Arguments
import Shader.IR.Listing
import Shader.Json.Text
import Shader.Surface.Elaboration
import Shader.Surface.Form

/-!
# Compiling from the command line

The input is the text of a JSON object with two fields: `module`, a surface module, and `types`,
the types of its expressions.
-/

namespace Shader.CommandLine

open Json (Value FormError)
open Target (OutputFile Registry)

inductive Failure where
  | notJson
  | form (error : FormError)
  | elaboration (error : Surface.Error)
  | listing (error : IR.Error)
  | target (name : String) (available : List String)
  | compilation (error : Target.Error)
deriving DecidableEq, Repr

def Failure.message : Failure → String
  | notJson => "the input is not a JSON value"
  | form error => s!"the input is not a module: {error.message}"
  | elaboration error => error.message
  | listing error => error.message
  | target name available =>
    let available := ", ".intercalate available
    s!"unknown target '{name}' (available: {available})"
  | compilation error => s!"backend compilation failed: {error.message}"

/-- The program that an input describes. -/
def program (source : String) : Except Failure IR.Module := do
  let some value := Value.ofText? source | throw .notJson
  let m ← (Surface.Module.ofForm (value.get "module") (value.get "types")).mapError .form
  m.elaborate.mapError .elaboration

/-- The files that a program becomes, each with the path it is written to. -/
def files (arguments : Arguments) (m : IR.Module) :
    Except Failure (List (String × OutputFile)) := do
  let registry := Registry.standard
  let some backend := registry.find? arguments.target
    | throw (.target arguments.target registry.targets)
  let files ← (backend.compile m arguments.options).mapError .compilation
  return files.map fun file => (outputPath arguments.input arguments.output file.name, file)

/-- What is said about a file that has been written. -/
def report? (path : String) (file : OutputFile) : Option String := do
  let header ← file.header?
  return s!"{path}: SPIR-V {header.version.text}, id bound {header.bound.toNat}, " ++
    s!"{file.words.length} words"

end Shader.CommandLine
