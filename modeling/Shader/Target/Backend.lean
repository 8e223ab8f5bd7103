import Shader.Emit.Module
import Shader.Target.File

/-!
# Backends

A backend turns a program into files and answers to one or more target names.  A registry finds
the backend for a target name.
-/

namespace Shader.Target

open Assembly (Version)

/-- What the user of a backend chooses. -/
structure Options where
  version : Version := ⟨1, 3⟩
  debugNames : Bool := true
deriving DecidableEq, Repr

/-- The highest minor version that backends write, of major version 1. -/
def maxMinor : UInt8 := 6

inductive Error where
  | version (version : Version)
  | noEntryPoints
  | emission (failure : Emit.Failure)
deriving DecidableEq, Repr

namespace Error

/-- What is wrong, in the case that the backend lacks support for something. -/
def unsupported? : Error → Option String
  | version v => some s!"SPIR-V version {v.text}"
  | emission (.declaration (.unsupported cause)) => some cause.message
  | emission (.functions faults) =>
    if faults.all fun f => f.fault.isUnsupported then
      some ("; ".intercalate (faults.map Emit.FunctionFault.message))
    else
      none
  | _ => none

/-- What is wrong in any other case. -/
def otherMessage : Error → String
  | version v => v.text
  | noEntryPoints => "no entry points in module"
  | emission (.functions faults) => "; ".intercalate (faults.map Emit.FunctionFault.message)
  | emission (.declaration fault) => fault.message

def message (e : Error) : String :=
  match e.unsupported? with
  | some what => s!"unsupported: {what}"
  | none => e.otherMessage

end Error

namespace Options

/-- Versions 1.0 to 1.6 can be written. -/
def validate (options : Options) : Except Error Unit :=
  if options.version.major = 1 ∧ options.version.minor ≤ maxMinor then .ok ()
  else .error (.version options.version)

/-- The options of emission.  No generator is registered for this library. -/
def emission (options : Options) : Emit.Options where
  version := options.version
  generator := 0
  debugNames := options.debugNames

end Options

structure Backend where
  name : String
  /-- The names the backend is chosen by. -/
  targets : List String
  compile : IR.Module → Options → Except Error (List OutputFile)

/-- Compiles a program to a file with a module. -/
def compileModule (m : IR.Module) (options : Options) : Except Error (List OutputFile) := do
  options.validate
  if m.entryPoints.isEmpty then
    throw .noEntryPoints
  match Emit.words m options.emission with
  | .ok words => return [⟨"module.spv", words⟩]
  | .error failure => throw (.emission failure)

def spirv : Backend where
  name := "SPIR-V"
  targets := ["spirv", "spv"]
  compile := compileModule

/-! ### Registries -/

/-- Backends in the order they were registered. -/
structure Registry where
  backends : List Backend := []

namespace Registry

def register (r : Registry) (b : Backend) : Registry := ⟨r.backends ++ [b]⟩

/-- The first backend that answers to a target name. -/
def find? (r : Registry) (target : String) : Option Backend :=
  r.backends.find? fun b => b.targets.contains target

/-- All target names. -/
def targets (r : Registry) : List String := r.backends.flatMap Backend.targets

/-- The backends of this library. -/
def standard : Registry := ⟨[spirv]⟩

end Registry

end Shader.Target
