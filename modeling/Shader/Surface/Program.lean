import Shader.IR.Function
import Shader.Surface.Expression

/-!
# Surface modules

A module of the surface language, parsed and checked: each expression comes with the type that
the check found for it.
-/

namespace Shader.Surface

mutual

inductive Statement where
  | emit (range : HandleRange .expression)
  | block (body : List Statement)
  | store (pointer value : Handle .expression)
  | ifElse (condition : Handle .expression) (accept reject : List Statement)
  | switch (selector : Handle .expression) (cases : List SwitchCase)
  | loop (body continuing : List Statement) (breakIf : Option (Handle .expression))
  | call (function : Handle .function) (arguments : List (Handle .expression))
      (result : Option (Handle .expression))
  | atomic (pointer : Handle .expression) (function : IR.AtomicFunction)
      (value : Handle .expression) (result : Option (Handle .expression))
  | «break»
  | «continue»
  | «return» (value : Option (Handle .expression))
  | kill
  | barrier (barrier : IR.Barrier)
  /-- A statement that programs do not have after elaboration, by name. -/
  | other (name : String)

/-- A case of a switch; one that falls through goes on with the body of the next. -/
structure SwitchCase where
  value : IR.SwitchValue
  body : List Statement
  fallsThrough : Bool

end

instance : Inhabited Statement := ⟨.kill⟩

/-- An expression with its type. -/
structure TypedExpression where
  expression : Expression
  type : Resolution
deriving DecidableEq, Repr

structure Argument where
  name : Option String
  type : Handle .type
  binding : Option Binding
deriving DecidableEq, Repr

structure Result where
  type : Handle .type
  binding : Option Binding
deriving DecidableEq, Repr

structure LocalVariable where
  name : Option String
  type : Handle .type
  init : Option (Handle .expression)
deriving DecidableEq, Repr

structure Function where
  name : Option String
  arguments : List Argument
  result : Option Result
  locals : List LocalVariable
  expressions : List TypedExpression
  named : List (Handle .expression × String)
  body : List Statement

/-- The pipeline stage of an entry point: one that programs can have after elaboration, or another
one by name. -/
inductive Stage where
  | known (stage : IR.Stage)
  | other (name : String)
deriving DecidableEq, Repr

structure EntryPoint where
  name : String
  stage : Stage
  workgroupSize : UInt32 × UInt32 × UInt32
  /-- Overrides decide the size of the workgroup. -/
  overridesSize : Bool
  function : Function

structure Constant where
  init : Handle .expression
deriving DecidableEq, Repr

structure Override where
  name : Option String
  id : Option UInt16
  type : Handle .type
  init : Option (Handle .expression)
deriving DecidableEq, Repr

structure GlobalVariable where
  name : Option String
  space : AddressSpace
  binding : Option IR.ResourceBinding
  type : Handle .type
  init : Option (Handle .expression)
deriving DecidableEq, Repr

structure Module where
  types : List Ty
  constants : Arena .constant Constant
  overrides : List Override
  globals : List GlobalVariable
  /-- The constant expressions of the module. -/
  expressions : List TypedExpression
  functions : List Function
  entryPoints : List EntryPoint

end Shader.Surface
