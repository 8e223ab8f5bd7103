import Shader.IR.Expression
import Shader.Surface.Type
import Shader.Surface.Unsupported

/-!
# Expressions of the surface language
-/

namespace Shader.Surface

/-- A literal: one of a type that values have, or one that is still abstract, or a half. -/
inductive Literal where
  | concrete (literal : IR.Literal)
  | f16 (bits : UInt16)
  | abstractInt (value : Int64)
  | abstractFloat (bits : UInt64)
deriving DecidableEq, Repr

/-- The literal as a structured value; a half is written as the float it equals. -/
def Literal.valueText : Literal → String
  | concrete literal => literal.valueText
  | f16 bits =>
    let value := Number.Format.half.convert .single bits.toNat
    Text.applied "F16" [Number.Format.single.text .value value]
  | abstractInt value => Text.applied "AbstractInt" [s!"{value.toInt}"]
  | abstractFloat bits => Text.applied "AbstractFloat" [Number.Format.double.text .value bits.toNat]

/-- A mathematical function: one that programs can use after elaboration, or another one by
name. -/
inductive MathFunction where
  | known (function : IR.MathFunction)
  | other (name : String)
deriving DecidableEq, Repr

def MathFunction.name : MathFunction → String
  | known function => function.name
  | other name => name

/-- The name of a binary operator in the surface language. -/
def operatorName : IR.BinaryOp → String
  | .bitwiseAnd => "And"
  | .bitwiseOr => "InclusiveOr"
  | .bitwiseXor => "ExclusiveOr"
  | op => op.name

inductive Expression where
  | literal (literal : Literal)
  | constant (constant : Handle .constant)
  | override (override : Handle .override)
  | zeroValue (type : Handle .type)
  | compose (type : Handle .type) (components : List (Handle .expression))
  | access (base index : Handle .expression)
  | accessIndex (base : Handle .expression) (index : UInt32)
  | splat (size : IR.VectorSize) (value : Handle .expression)
  | swizzle (size : IR.VectorSize) (vector : Handle .expression) (pattern : Vector IR.Component 4)
  | argument (index : UInt32)
  | globalVariable (global : Handle .globalVariable)
  | localVariable (slot : Handle .localVariable)
  | load (pointer : Handle .expression)
  | unary (op : IR.UnaryOp) (operand : Handle .expression)
  | binary (op : IR.BinaryOp) (left right : Handle .expression)
  | select (condition accept reject : Handle .expression)
  | math (function : MathFunction) (arg : Handle .expression)
      (arg1 arg2 arg3 : Option (Handle .expression))
  | cast (operand : Handle .expression) (kind : ScalarKind) (width : Option UInt8)
  | callResult (function : Handle .function)
  | atomicResult (type : Handle .type) (comparison : Bool)
  | arrayLength (array : Handle .expression)
  /-- An expression that programs do not have after elaboration. -/
  | unsupported (expression : UnsupportedExpression)
deriving DecidableEq, Repr

namespace Expression

/-- The expression as a structured value. -/
def valueText : Expression → String
  | literal l => Text.applied "Literal" [l.valueText]
  | constant c => Text.applied "Constant" [c.text]
  | override o => Text.applied "Override" [o.text]
  | zeroValue type => Text.applied "ZeroValue" [type.text]
  | compose type components => IR.Expression.valueText (.compose type components)
  | access base index => IR.Expression.valueText (.access base index)
  | accessIndex base index => IR.Expression.valueText (.accessIndex base index)
  | splat size value => IR.Expression.valueText (.splat size value)
  | swizzle size vector pattern => IR.Expression.valueText (.swizzle size vector pattern)
  | argument index => Text.applied "FunctionArgument" [s!"{index.toNat}"]
  | globalVariable global => Text.applied "GlobalVariable" [global.text]
  | localVariable slot => Text.applied "LocalVariable" [slot.text]
  | load pointer => Text.record "Load" [("pointer", pointer.text)]
  | unary op operand => IR.Expression.valueText (.unary op operand)
  | binary op left right =>
    Text.record "Binary" [("op", operatorName op), ("left", left.text), ("right", right.text)]
  | select condition accept reject => IR.Expression.valueText (.select condition accept reject)
  | math function arg arg1 arg2 arg3 =>
    Text.record "Math"
      [("fun", function.name), ("arg", arg.text), ("arg1", optionText arg1),
        ("arg2", optionText arg2), ("arg3", optionText arg3)]
  | cast operand kind width =>
    Text.record "As"
      [("expr", operand.text), ("kind", kind.name),
        ("convert", Text.option (width.map fun w => s!"{w.toNat}"))]
  | callResult function => Text.applied "CallResult" [function.text]
  | atomicResult type comparison => IR.Expression.valueText (.atomicResult type comparison)
  | arrayLength array => Text.applied "ArrayLength" [array.text]
  | unsupported e => e.valueText

end Expression

end Shader.Surface
