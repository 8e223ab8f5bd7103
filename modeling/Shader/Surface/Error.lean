import Shader.Surface.Program
import Shader.Text.Quoted

/-!
# Failures of elaboration
-/

namespace Shader.Surface

/-- What programs cannot have after elaboration. -/
inductive Unsupported where
  | resourceType (kind : ResourceKind)
  /-- A type that was skipped. -/
  | type (name : Option String)
  | pendingArray
  | handleSpace
  | pushConstantSpace
  | stage (name : String)
  | pendingWorkgroup
  | builtIn (name : String)
  | mathFunction (name : String)
  | fourArguments (function : MathFunction)
  | literal (literal : Literal)
  | abstractInt (value : Int64)
  | expression (expression : UnsupportedExpression)
  | statement (name : String)
  | handleGlobal
  | fallThrough
deriving DecidableEq, Repr

def Unsupported.message : Unsupported → String
  | resourceType kind => s!"{kind.name} type"
  | type name => "type " ++ Text.quoted (name.getD "_")
  | pendingArray => "override-sized array"
  | handleSpace => "Handle address space"
  | pushConstantSpace => "PushConstant address space"
  | stage name => s!"{name} shader stage"
  | pendingWorkgroup => "override-sized workgroup"
  | builtIn name => s!"{name} builtin"
  | mathFunction name => s!"{name} math function"
  | fourArguments function => s!"{function.name} with four arguments"
  | literal l => s!"{l.valueText} literal"
  | abstractInt value => s!"abstract integer {value.toInt} outside i32 range"
  | expression e => s!"{e.name} expression"
  | statement name => s!"{name} statement"
  | handleGlobal => "texture or sampler global"
  | fallThrough => "switch case falling through after a body"

/-- What is wrong with a surface module itself: handles of things that do not exist, or not yet. -/
inductive Malformed where
  | type (h : Handle .type)
  | constant (h : Handle .constant)
  | override (h : Handle .override)
  | constantExpression (h : Handle .expression)
  | localVariable (h : Handle .localVariable)
  | expression (h : Handle .expression)
  | function (h : Handle .function)
  | calledFunction (h : Handle .function)
  /-- An expression that is not constant, among the constant expressions. -/
  | notConstant (e : Expression)
  /-- A constant expression without a type. -/
  | ir (error : IR.Error)
deriving DecidableEq, Repr

def Malformed.message : Malformed → String
  | type h => s!"unmapped type {h.text}"
  | constant h => s!"unmapped constant {h.text}"
  | override h => s!"unmapped override {h.text}"
  | constantExpression h => s!"unmapped const expression {h.text}"
  | localVariable h => s!"unmapped local var {h.text}"
  | expression h => s!"unmapped expression {h.text}"
  | function h => s!"unmapped function {h.text}"
  | calledFunction h => s!"unmapped called function {h.text}"
  | notConstant e => s!"unsupported global expression: {e.valueText}"
  | ir error => error.message

inductive Error where
  | unsupported (cause : Unsupported)
  | malformed (cause : Malformed)
deriving DecidableEq, Repr

def Error.message : Error → String
  | unsupported cause => s!"unsupported: {cause.message}"
  | malformed cause => s!"lowering: {cause.message}"

end Shader.Surface
