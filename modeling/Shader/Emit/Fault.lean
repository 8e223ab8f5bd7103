import Shader.Assembly.Fault
import Shader.IR.Error
import Shader.IR.Expression

/-!
# Faults of emission

Why a program, or a function of it, has no code in the target format.
-/

namespace Shader.Emit

open IR (BinaryOp UnaryOp MathFunction Scalar ScalarKind TypeShape Expression Literal)

/-- What the target format, or this library, cannot express. -/
inductive Unsupported where
  /-- An operand that is neither a scalar nor a vector nor a matrix. -/
  | operand (shape : TypeShape)
  | binary (op : BinaryOp) (left right : TypeShape)
  | unary (op : UnaryOp) (operand : TypeShape)
  | math (function : MathFunction) (operand : TypeShape)
  | conversion (source : Scalar) (kind : ScalarKind) (width : Option UInt8)
  | conversionOperand
  | one (scalar : Scalar)
  | oneOfComposite
  /-- A constant composite with a part that can be specialized. -/
  | compositeOfOverrides
  | constantExpression (e : Expression)
  | overrideShape (name : String)
  | overrideScalar (name : String) (scalar : Scalar)
  | overrideZeroShape
  | overrideZero (scalar : Scalar)
  | overrideInit (e : Expression)
  | unboundArgument
  | unboundResult
  | unboundMember
  | localInit (name : Option String)
  | dynamicIndex
  | arrayLength
deriving DecidableEq, Repr

def Unsupported.message : Unsupported → String
  | .operand shape => s!"operand of type {shape.summary}"
  | .binary op left right => s!"{op.name} on {left.summary} and {right.summary}"
  | .unary op shape => s!"{op.name} on {shape.summary}"
  | .math function shape => s!"{function.name} on {shape.summary}"
  | .conversion source kind width =>
    let width := Text.option (width.map fun w => s!"{w.toNat}")
    s!"conversion from {source.kind.name}{(source.width * 8).toNat} to {kind.name} ({width})"
  | .conversionOperand => "conversion of a non-numeric value"
  | .one scalar => s!"constant one of type {scalar.text}"
  | .oneOfComposite => "constant one of a non-numeric type"
  | .compositeOfOverrides => "module-scope composite of overrides"
  | .constantExpression e => s!"non-constant module-scope expression {e.valueText}"
  | .overrideShape name => s!"override `{name}` of non-scalar type"
  | .overrideScalar name scalar => s!"override `{name}` of type {scalar.text}"
  | .overrideZeroShape => "override of non-scalar type"
  | .overrideZero scalar => s!"override of type {scalar.text}"
  | .overrideInit e => s!"override initializer {e.valueText}"
  | .unboundArgument => "entry point argument without a binding"
  | .unboundResult => "entry point result without a binding"
  | .unboundMember => "entry point struct member without a binding"
  | .localInit name =>
    let name := name.getD "_"
    s!"non-constant initializer for local `{name}`"
  | .dynamicIndex => "dynamic index into a non-vector value; store it in a variable first"
  | .arrayLength => "arrayLength of a non-buffer array"

/-- What contradicts itself in a program, or in its emission. -/
inductive Inconsistency where
  | shortCircuitOperator
  | overrideDefault (name : String) (scalar : Scalar) (default : Literal)
  | undeclaredOverride (override : Handle .override)
  | undeclaredGlobal (global : Handle .globalVariable)
  | undeclaredLocal (slot : Handle .localVariable)
  | missingArgument (index : UInt32)
  /-- The result of a statement that did not run yet. -/
  | earlyResult (result : Handle .expression) (e : Expression)
  | splatOperand
  | shortCircuitOutsideBlock
  | shortCircuitClosedBlock
  | arity (function : MathFunction) (given : Nat)
  | unknownFunction (function : Handle .function)
  | returnedValue (name : String)
  | inputWithoutMember
  | framesLeftOpen (count : Nat) (name : String)
  /-- References that go round in a circle. -/
  | circular
deriving DecidableEq, Repr

def Inconsistency.message : Inconsistency → String
  | .shortCircuitOperator => "short-circuit operators are lowered as control flow"
  | .overrideDefault name scalar default =>
    s!"override `{name}` is {scalar.text} but defaults to {default.valueText}"
  | .undeclaredOverride o => s!"override {o.text} was not declared"
  | .undeclaredGlobal g => s!"global {g.text} was not declared"
  | .undeclaredLocal slot => s!"local {slot.text} was not declared"
  | .missingArgument index => s!"argument {index.toNat} out of range"
  | .earlyResult result e =>
    s!"{e.valueText} {result.text} used before the statement producing it"
  | .splatOperand => "splat of a non-scalar operand"
  | .shortCircuitOutsideBlock => "short-circuit operator outside a block"
  | .shortCircuitClosedBlock => "right operand closed its block"
  | .arity function given => s!"{function.name} takes {function.arity} argument(s), got {given}"
  | .unknownFunction f => s!"call to unknown function {f.text}"
  | .returnedValue name => s!"value returned from `{name}`, which returns nothing"
  | .inputWithoutMember => "struct input without member index"
  | .framesLeftOpen count name => s!"{count} control-flow frame(s) left open in `{name}`"
  | .circular => "circular reference"

inductive Fault where
  | unsupported (cause : Unsupported)
  | inconsistent (cause : Inconsistency)
  /-- A request to the module under construction that failed. -/
  | construction (fault : Assembly.Fault)
  /-- The program itself is malformed. -/
  | malformed (error : IR.Error)
deriving DecidableEq, Repr

namespace Fault

def message : Fault → String
  | unsupported cause => s!"unsupported operation: {cause.message}"
  | inconsistent cause => s!"internal consistency: {cause.message}"
  | construction fault => fault.message
  | malformed error => error.message

def isUnsupported : Fault → Bool
  | unsupported _ => true
  | _ => false

end Fault

/-- A failure that concerns one function only. -/
structure FunctionFault where
  function : String
  fault : Fault
deriving DecidableEq, Repr

def FunctionFault.message (f : FunctionFault) : String :=
  s!"in function `{f.function}`: {f.fault.message}"

/-- Why a module has no code. -/
inductive Failure where
  /-- A declaration outside the functions failed. -/
  | declaration (fault : Fault)
  /-- Some functions failed. -/
  | functions (faults : List FunctionFault)
deriving DecidableEq, Repr

def Failure.message : Failure → String
  | declaration fault => fault.message
  | functions faults => s!"{faults.length} function(s) failed to lower"

end Shader.Emit
