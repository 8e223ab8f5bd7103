import Shader.IR.Literal
import Shader.IR.Operator
import Shader.IR.Type

/-!
# Expressions

An expression computes a value without side effects and refers to its operands by handle.
-/

namespace Shader.IR

inductive Expression where
  | literal (literal : Literal)
  /-- A constant expression of the module. -/
  | constant (value : Handle .expression)
  | zeroValue (type : Handle .type)
  | override (override : Handle .override)
  | compose (type : Handle .type) (components : List (Handle .expression))
  | argument (index : UInt32)
  /-- A pointer to a global variable. -/
  | globalVariable (global : Handle .globalVariable)
  /-- A pointer to a local variable. -/
  | localVariable (slot : Handle .localVariable)
  | load (pointer : Handle .expression)
  | access (base index : Handle .expression)
  | accessIndex (base : Handle .expression) (index : UInt32)
  | swizzle (size : VectorSize) (vector : Handle .expression) (pattern : Vector Component 4)
  | splat (size : VectorSize) (value : Handle .expression)
  | unary (op : UnaryOp) (operand : Handle .expression)
  | binary (op : BinaryOp) (left right : Handle .expression)
  | select (condition accept reject : Handle .expression)
  | math (function : MathFunction) (arg : Handle .expression)
      (arg1 arg2 : Option (Handle .expression))
  /-- A conversion to the given width, or a reinterpretation of the bits. -/
  | cast (operand : Handle .expression) (kind : ScalarKind) (width : Option UInt8)
  | arrayLength (array : Handle .expression)
  /-- The result of a call statement. -/
  | callResult (function : Handle .function)
  /-- The result of an atomic statement. -/
  | atomicResult (type : Handle .type) (comparison : Bool)
deriving DecidableEq, Repr

namespace Expression

/-- The expressions this one reads, in operand order. -/
def operands : Expression → List (Handle .expression)
  | literal _ | constant _ | zeroValue _ | override _ | argument _ | globalVariable _
  | localVariable _ | callResult _ | atomicResult .. => []
  | compose _ components => components
  | load pointer => [pointer]
  | access base index => [base, index]
  | accessIndex base _ => [base]
  | swizzle _ vector _ => [vector]
  | splat _ value => [value]
  | unary _ operand => [operand]
  | binary _ left right => [left, right]
  | select condition accept reject => [condition, accept, reject]
  | math _ arg arg1 arg2 => arg :: arg1.toList ++ arg2.toList
  | cast operand _ _ => [operand]
  | arrayLength array => [array]

/-- The expression stands for something declared elsewhere and is not computed in place. -/
def isReference : Expression → Bool
  | literal _ | constant _ | zeroValue _ | override _ | argument _ | globalVariable _
  | localVariable _ | callResult _ | atomicResult .. => true
  | _ => false

/-- The components a swizzle picks, in order. -/
def picked (size : VectorSize) (pattern : Vector Component 4) : List Component :=
  pattern.toList.take size.toNat

/-- The spelling in a listing. -/
def text : Expression → String
  | literal l => l.text
  | constant value => s!"Constant({value.text})"
  | zeroValue type => s!"ZeroValue({type.text})"
  | override o => s!"Override({o.text})"
  | compose type components =>
    Text.applied "Compose" [type.text, Text.list (components.map (·.text))]
  | argument index => s!"FunctionArgument({index.toNat})"
  | globalVariable v => s!"GlobalVariable({v.text})"
  | localVariable v => s!"LocalVariable({v.text})"
  | load pointer => s!"Load({pointer.text})"
  | access base index => s!"Access({base.text}, {index.text})"
  | accessIndex base index => s!"AccessIndex({base.text}, {index.toNat})"
  | swizzle size vector pattern =>
    s!"Swizzle({vector.text})." ++ String.join ((picked size pattern).map (·.text))
  | splat size value => s!"Splat({value.text}, vec{size.text})"
  | unary op operand => op.text ++ operand.text
  | binary op left right => s!"{left.text} {op.text} {right.text}"
  | select condition accept reject => s!"Select({condition.text}, {accept.text}, {reject.text})"
  | math function arg arg1 arg2 =>
    Text.applied function.text ((arg :: arg1.toList ++ arg2.toList).map (·.text))
  | cast operand kind (some width) => s!"As({operand.text} -> {kind.text}/{width.toNat})"
  | cast operand kind none => s!"Bitcast({operand.text} -> {kind.text})"
  | arrayLength array => s!"ArrayLength({array.text})"
  | callResult function => s!"CallResult({function.text})"
  | atomicResult type comparison => s!"AtomicResult({type.text}, cmp={Text.bool comparison})"

/-- The expression as a structured value. -/
def valueText : Expression → String
  | literal l => Text.applied "Literal" [l.valueText]
  | constant value => Text.applied "Constant" [value.text]
  | zeroValue type => Text.applied "ZeroValue" [type.text]
  | override o => Text.applied "Override" [o.text]
  | compose type components =>
    Text.record "Compose"
      [("ty", type.text), ("components", Text.list (components.map (·.text)))]
  | argument index => Text.applied "FunctionArgument" [s!"{index.toNat}"]
  | globalVariable v => Text.applied "GlobalVariable" [v.text]
  | localVariable v => Text.applied "LocalVariable" [v.text]
  | load pointer => Text.record "Load" [("pointer", pointer.text)]
  | access base index => Text.record "Access" [("base", base.text), ("index", index.text)]
  | accessIndex base index =>
    Text.record "AccessIndex" [("base", base.text), ("index", s!"{index.toNat}")]
  | swizzle size vector pattern =>
    Text.record "Swizzle"
      [("size", size.name), ("vector", vector.text),
        ("pattern", Text.list (pattern.toList.map (·.name)))]
  | splat size value => Text.record "Splat" [("size", size.name), ("value", value.text)]
  | unary op operand => Text.record "Unary" [("op", op.name), ("expr", operand.text)]
  | binary op left right =>
    Text.record "Binary" [("op", op.name), ("left", left.text), ("right", right.text)]
  | select condition accept reject =>
    Text.record "Select"
      [("condition", condition.text), ("accept", accept.text), ("reject", reject.text)]
  | math function arg arg1 arg2 =>
    Text.record "Math"
      [("fun", function.name), ("arg", arg.text), ("arg1", Text.option (arg1.map (·.text))),
        ("arg2", Text.option (arg2.map (·.text)))]
  | cast operand kind width =>
    Text.record "As"
      [("expr", operand.text), ("kind", kind.name),
        ("convert", Text.option (width.map fun w => s!"{w.toNat}"))]
  | arrayLength array => Text.applied "ArrayLength" [array.text]
  | callResult function => Text.applied "CallResult" [function.text]
  | atomicResult type comparison =>
    Text.record "AtomicResult" [("ty", type.text), ("comparison", Text.bool comparison)]

end Expression

end Shader.IR
