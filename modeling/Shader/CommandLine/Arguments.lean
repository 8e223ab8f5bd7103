import Shader.CommandLine
import Shader.Target.Backend

/-!
# Arguments of the command line

One argument is the path of the input; the others are options, in any order.  An option that takes
a value is followed by it, as the next argument or, for a long name, behind an equals sign.
-/

namespace Shader.CommandLine

open Assembly (Version)

/-- What options decide. -/
structure Settings where
  target : String := "spirv"
  output : Option String := none
  version : Version := ⟨1, 3⟩
  debugNames : Bool := true
  /-- The program is listed before it is compiled. -/
  listing : Bool := false
  /-- The program is checked but not compiled. -/
  dryRun : Bool := false
deriving DecidableEq, Repr

structure Arguments extends Settings where
  input : String
deriving DecidableEq, Repr

inductive ArgumentError where
  | missingInput
  | missingValue (option : String)
  | version (text : String)
  | unexpected (argument : String)
deriving DecidableEq, Repr

def ArgumentError.message : ArgumentError → String
  | missingInput => "no input is given"
  | missingValue option => s!"option '{option}' lacks a value"
  | version text => invalidVersion text
  | unexpected argument => s!"unexpected argument '{argument}'"

namespace Arguments

/-- A long option with an equals sign, split into the option and its value. -/
def splitOption (argument : String) : List String :=
  let name := argument.toList.takeWhile (· ≠ '=')
  match argument.toList.dropWhile (· ≠ '=') with
  | '=' :: value =>
    if name.take 2 = ['-', '-'] then [String.ofList name, String.ofList value] else [argument]
  | _ => [argument]

/-- Reads arguments, given what those before them say. -/
def read (settings : Settings) (input : Option String) :
    List String → Except ArgumentError Arguments
  | [] =>
    match input with
    | some input => .ok { settings with input }
    | none => .error .missingInput
  | "--no-debug-names" :: rest => read { settings with debugNames := false } input rest
  | "--emit-ir" :: rest => read { settings with listing := true } input rest
  | "--dry-run" :: rest => read { settings with dryRun := true } input rest
  | [argument] =>
    if ["-t", "--target", "-o", "--output", "--spirv-version"].contains argument then
      .error (.missingValue argument)
    else if argument.startsWith "-" || input.isSome then .error (.unexpected argument)
    else .ok { settings with input := argument }
  | argument :: value :: rest =>
    if ["-t", "--target"].contains argument then
      read { settings with target := value } input rest
    else if ["-o", "--output"].contains argument then
      read { settings with output := some value } input rest
    else if argument = "--spirv-version" then
      match version? value with
      | some version => read { settings with version } input rest
      | none => .error (.version value)
    else if argument.startsWith "-" || input.isSome then .error (.unexpected argument)
    else read settings (some argument) (value :: rest)

def parse (arguments : List String) : Except ArgumentError Arguments :=
  read {} none (arguments.flatMap splitOption)

/-- The options of a backend. -/
def options (a : Arguments) : Target.Options := ⟨a.version, a.debugNames⟩

end Arguments

end Shader.CommandLine
