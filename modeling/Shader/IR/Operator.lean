import Shader.Arena

/-!
# Operators and built-in functions

Each has a name, by which messages call it, and a spelling in listings.
-/

namespace Shader.IR

inductive UnaryOp where
  | negate
  | logicalNot
  | bitwiseNot
deriving DecidableEq, Repr

namespace UnaryOp

def all : List UnaryOp := [.negate, .logicalNot, .bitwiseNot]

theorem mem_all (op : UnaryOp) : op ∈ all := by cases op <;> decide

def name : UnaryOp → String
  | negate => "Negate"
  | logicalNot => "LogicalNot"
  | bitwiseNot => "BitwiseNot"

def text : UnaryOp → String
  | negate => "-"
  | logicalNot => "!"
  | bitwiseNot => "~"

end UnaryOp

inductive BinaryOp where
  | add
  | subtract
  | multiply
  | divide
  | modulo
  | equal
  | notEqual
  | less
  | lessEqual
  | greater
  | greaterEqual
  | logicalAnd
  | logicalOr
  | bitwiseAnd
  | bitwiseOr
  | bitwiseXor
  | shiftLeft
  | shiftRight
deriving DecidableEq, Repr

namespace BinaryOp

def all : List BinaryOp := [
  .add, .subtract, .multiply, .divide, .modulo, .equal, .notEqual, .less, .lessEqual, .greater,
  .greaterEqual, .logicalAnd, .logicalOr, .bitwiseAnd, .bitwiseOr, .bitwiseXor, .shiftLeft,
  .shiftRight]

theorem mem_all (op : BinaryOp) : op ∈ all := by cases op <;> decide

/-- `&&` and `||`, which evaluate their right operand only when it matters. -/
def isShortCircuit : BinaryOp → Bool
  | logicalAnd | logicalOr => true
  | _ => false

def name : BinaryOp → String
  | add => "Add"
  | subtract => "Subtract"
  | multiply => "Multiply"
  | divide => "Divide"
  | modulo => "Modulo"
  | equal => "Equal"
  | notEqual => "NotEqual"
  | less => "Less"
  | lessEqual => "LessEqual"
  | greater => "Greater"
  | greaterEqual => "GreaterEqual"
  | logicalAnd => "LogicalAnd"
  | logicalOr => "LogicalOr"
  | bitwiseAnd => "BitwiseAnd"
  | bitwiseOr => "BitwiseOr"
  | bitwiseXor => "BitwiseXor"
  | shiftLeft => "ShiftLeft"
  | shiftRight => "ShiftRight"

def text : BinaryOp → String
  | add => "+"
  | subtract => "-"
  | multiply => "*"
  | divide => "/"
  | modulo => "%"
  | equal => "=="
  | notEqual => "!="
  | less => "<"
  | lessEqual => "<="
  | greater => ">"
  | greaterEqual => ">="
  | logicalAnd => "&&"
  | logicalOr => "||"
  | bitwiseAnd => "&"
  | bitwiseOr => "|"
  | bitwiseXor => "^"
  | shiftLeft => "<<"
  | shiftRight => ">>"

end BinaryOp

inductive MathFunction where
  | abs
  | min
  | max
  | clamp
  | saturate
  | sign
  | floor
  | ceil
  | round
  | fract
  | trunc
  | sin
  | cos
  | tan
  | asin
  | acos
  | atan
  | atan2
  | sinh
  | cosh
  | tanh
  | radians
  | degrees
  | sqrt
  | inverseSqrt
  | log
  | log2
  | exp
  | exp2
  | pow
  | dot
  | cross
  | normalize
  | length
  | distance
  | transpose
  | determinant
  | reflect
  | mix
  | step
  | smoothStep
  | fma
deriving DecidableEq, Repr

namespace MathFunction

def all : List MathFunction := [
  .abs, .min, .max, .clamp, .saturate, .sign, .floor, .ceil, .round, .fract, .trunc, .sin, .cos,
  .tan, .asin, .acos, .atan, .atan2, .sinh, .cosh, .tanh, .radians, .degrees, .sqrt, .inverseSqrt,
  .log, .log2, .exp, .exp2, .pow, .dot, .cross, .normalize, .length, .distance, .transpose,
  .determinant, .reflect, .mix, .step, .smoothStep, .fma]

/-- The number of arguments. -/
def arity : MathFunction → Nat
  | clamp | mix | smoothStep | fma => 3
  | min | max | atan2 | pow | dot | cross | distance | reflect | step => 2
  | _ => 1

def name : MathFunction → String
  | abs => "Abs"
  | min => "Min"
  | max => "Max"
  | clamp => "Clamp"
  | saturate => "Saturate"
  | sign => "Sign"
  | floor => "Floor"
  | ceil => "Ceil"
  | round => "Round"
  | fract => "Fract"
  | trunc => "Trunc"
  | sin => "Sin"
  | cos => "Cos"
  | tan => "Tan"
  | asin => "Asin"
  | acos => "Acos"
  | atan => "Atan"
  | atan2 => "Atan2"
  | sinh => "Sinh"
  | cosh => "Cosh"
  | tanh => "Tanh"
  | radians => "Radians"
  | degrees => "Degrees"
  | sqrt => "Sqrt"
  | inverseSqrt => "InverseSqrt"
  | log => "Log"
  | log2 => "Log2"
  | exp => "Exp"
  | exp2 => "Exp2"
  | pow => "Pow"
  | dot => "Dot"
  | cross => "Cross"
  | normalize => "Normalize"
  | length => "Length"
  | distance => "Distance"
  | transpose => "Transpose"
  | determinant => "Determinant"
  | reflect => "Reflect"
  | mix => "Mix"
  | step => "Step"
  | smoothStep => "SmoothStep"
  | fma => "Fma"

def text : MathFunction → String
  | smoothStep => "smoothstep"
  | function => function.name.decapitalize

/-- The function messages call by this name. -/
def ofName? (name : String) : Option MathFunction := all.find? (·.name == name)

end MathFunction

/-- A read-modify-write operation on an atomic. -/
inductive AtomicFunction where
  | add
  | subtract
  | and
  | exclusiveOr
  | inclusiveOr
  | min
  | max
  | exchange (compare : Option (Handle .expression))
deriving DecidableEq, Repr

def AtomicFunction.text : AtomicFunction → String
  | add => "atomicAdd"
  | subtract => "atomicSub"
  | and => "atomicAnd"
  | exclusiveOr => "atomicXor"
  | inclusiveOr => "atomicOr"
  | min => "atomicMin"
  | max => "atomicMax"
  | exchange none => "atomicExchange"
  | exchange (some compare) => s!"atomicCompareExchange({compare.text})"

/-- A component of a vector, selected by a swizzle. -/
inductive Component where
  | x
  | y
  | z
  | w
deriving DecidableEq, Repr

namespace Component

def all : List Component := [.x, .y, .z, .w]

theorem mem_all (c : Component) : c ∈ all := by cases c <;> decide

def toNat : Component → Nat
  | x => 0
  | y => 1
  | z => 2
  | w => 3

def name : Component → String
  | x => "X"
  | y => "Y"
  | z => "Z"
  | w => "W"

def text (c : Component) : String := c.name.decapitalize

end Component

end Shader.IR
