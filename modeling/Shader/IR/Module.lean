import Shader.IR.Function

/-!
# Modules

A complete shader program: types, pipeline-overridable constants, global variables, constant
expressions, helper functions and entry points.
-/

namespace Shader.IR

/-- A constant whose value is chosen when the pipeline is built. -/
structure Override where
  name : Option String
  /-- The identifier the pipeline refers to it by, if the program fixes it. -/
  id : Option UInt16
  type : Handle .type
  init : Option (Handle .expression)
deriving DecidableEq, Repr

structure GlobalVariable where
  name : Option String
  space : AddressSpace
  binding : Option ResourceBinding
  type : Handle .type
  init : Option (Handle .expression)
deriving DecidableEq, Repr

structure Module where
  types : UniqueArena .type Ty := {}
  overrides : Arena .override Override := {}
  globals : Arena .globalVariable GlobalVariable := {}
  /-- The constant expressions of the module. -/
  constants : ExpressionArena := {}
  functions : Arena .function Function := {}
  entryPoints : List EntryPoint := []
deriving Inhabited

/-- The type behind a handle. -/
def Module.typeAt (m : Module) (h : Handle .type) : Except Error Ty :=
  match m.types.get? h with
  | some type => .ok type
  | none => .error (.badHandle h.index m.types.size)

end Shader.IR
