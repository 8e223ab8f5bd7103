import Shader.Emit.Fault

/-!
# The table of operations

Which instruction an operator, a function or a conversion becomes, given the types of its
operands.  Each table is a partial function of what it depends on; where it has no entry the
operation is unsupported.
-/

namespace Shader.Emit

open Assembly (Opcode ExtendedOp)
open IR (BinaryOp UnaryOp MathFunction Scalar ScalarKind TypeShape)

/-- The shape of an operand, as far as the tables are concerned. -/
inductive Rank where
  | scalar
  | vector
  | matrix
deriving DecidableEq, Repr

/-- The rank and the scalar of an operand. -/
def operandRank : TypeShape → Except Fault (Rank × Scalar)
  | .scalar s       => .ok (.scalar, s)
  | .vector _ s     => .ok (.vector, s)
  | .matrix _ _ s   => .ok (.matrix, s)
  | shape           => .error (.unsupported (.operand shape))

/-! ### Binary operators -/

/-- How the operands are fed to the instruction. -/
inductive Arrangement where
  | normal
  | swapped
  /-- The left scalar becomes a vector of the size of the right operand. -/
  | splatLeft
  /-- The right scalar becomes a vector of the size of the left operand. -/
  | splatRight
deriving DecidableEq, Repr

structure BinaryOperation where
  opcode : Opcode
  arrangement : Arrangement := .normal
deriving DecidableEq, Repr

/-- The instructions of `+`, `-`, `/` and `%`. -/
def arithmeticOpcode? : BinaryOp → ScalarKind → Option Opcode
  | .add, .float              => some .fAdd
  | .add, .sint | .add, .uint => some .iAdd
  | .subtract, .float         => some .fSub
  | .subtract, .sint | .subtract, .uint => some .iSub
  | .divide, .float           => some .fDiv
  | .divide, .sint            => some .sDiv
  | .divide, .uint            => some .uDiv
  | .modulo, .float           => some .fRem
  | .modulo, .sint            => some .sRem
  | .modulo, .uint            => some .uMod
  | _, _                      => none

/-- How scalars and vectors are combined component by component. -/
def componentwise? : Rank → Rank → Option Arrangement
  | .scalar, .scalar | .vector, .vector => some .normal
  | .vector, .scalar => some .splatRight
  | .scalar, .vector => some .splatLeft
  | _, _ => none

/-- Products of floats, which have instructions of their own for mixed operands. -/
def floatProduct : Rank → Rank → BinaryOperation
  | .scalar, .scalar | .vector, .vector => ⟨.fMul, .normal⟩
  | .vector, .scalar => ⟨.vectorTimesScalar, .normal⟩
  | .scalar, .vector => ⟨.vectorTimesScalar, .swapped⟩
  | .matrix, .scalar => ⟨.matrixTimesScalar, .normal⟩
  | .scalar, .matrix => ⟨.matrixTimesScalar, .swapped⟩
  | .matrix, .vector => ⟨.matrixTimesVector, .normal⟩
  | .vector, .matrix => ⟨.vectorTimesMatrix, .normal⟩
  | .matrix, .matrix => ⟨.matrixTimesMatrix, .normal⟩

def product? (left right : Rank) : ScalarKind → Option BinaryOperation
  | .float       => some (floatProduct left right)
  | .sint | .uint => (componentwise? left right).map (⟨.iMul, ·⟩)
  | .bool        => none

def comparisonOpcode? : BinaryOp → ScalarKind → Option Opcode
  | .equal, .bool         => some .logicalEqual
  | .notEqual, .bool      => some .logicalNotEqual
  | .equal, .float        => some .fOrdEqual
  | .notEqual, .float     => some .fUnordNotEqual
  | .less, .float         => some .fOrdLessThan
  | .lessEqual, .float    => some .fOrdLessThanEqual
  | .greater, .float      => some .fOrdGreaterThan
  | .greaterEqual, .float => some .fOrdGreaterThanEqual
  | .equal, .sint | .equal, .uint       => some .iEqual
  | .notEqual, .sint | .notEqual, .uint => some .iNotEqual
  | .less, .sint          => some .sLessThan
  | .lessEqual, .sint     => some .sLessThanEqual
  | .greater, .sint       => some .sGreaterThan
  | .greaterEqual, .sint  => some .sGreaterThanEqual
  | .less, .uint          => some .uLessThan
  | .lessEqual, .uint     => some .uLessThanEqual
  | .greater, .uint       => some .uGreaterThan
  | .greaterEqual, .uint  => some .uGreaterThanEqual
  | _, _                  => none

def bitwiseOpcode? : BinaryOp → ScalarKind → Option Opcode
  | .bitwiseAnd, .bool => some .logicalAnd
  | .bitwiseOr, .bool  => some .logicalOr
  | .bitwiseXor, .bool => some .logicalNotEqual
  | .bitwiseAnd, .sint | .bitwiseAnd, .uint => some .bitwiseAnd
  | .bitwiseOr, .sint | .bitwiseOr, .uint   => some .bitwiseOr
  | .bitwiseXor, .sint | .bitwiseXor, .uint => some .bitwiseXor
  | .shiftLeft, .sint | .shiftLeft, .uint   => some .shiftLeftLogical
  | .shiftRight, .sint => some .shiftRightArithmetic
  | .shiftRight, .uint => some .shiftRightLogical
  | _, _               => none

/-- An instruction on two operands of the same rank, which are not matrices. -/
def sameRank? (left right : Rank) (opcode : Option Opcode) : Option BinaryOperation :=
  if left = right ∧ left ≠ .matrix then opcode.map (⟨·, .normal⟩) else none

/-- The table of binary operators, by the ranks of both operands and the kind of the left one. -/
def binaryOperation? (op : BinaryOp) (left right : Rank) (kind : ScalarKind) :
    Option BinaryOperation :=
  match op with
  | .add | .subtract | .divide | .modulo => do
    return ⟨← arithmeticOpcode? op kind, ← componentwise? left right⟩
  | .multiply => product? left right kind
  | .equal | .notEqual | .less | .lessEqual | .greater | .greaterEqual =>
    sameRank? left right (comparisonOpcode? op kind)
  | .bitwiseAnd | .bitwiseOr | .bitwiseXor | .shiftLeft | .shiftRight =>
    sameRank? left right (bitwiseOpcode? op kind)
  | .logicalAnd | .logicalOr => none

def binaryOperation (op : BinaryOp) (left right : TypeShape) : Except Fault BinaryOperation := do
  let (leftRank, scalar) ← operandRank left
  let (rightRank, _) ← operandRank right
  if op.isShortCircuit then
    throw (.inconsistent .shortCircuitOperator)
  match binaryOperation? op leftRank rightRank scalar.kind with
  | some operation => pure operation
  | none => throw (.unsupported (.binary op left right))

/-! ### Unary operators -/

def unaryOpcode? (rank : Rank) : UnaryOp → ScalarKind → Option Opcode
  | .negate, .float => some .fNegate
  | .negate, .sint | .negate, .uint => if rank = .matrix then none else some .sNegate
  | .logicalNot, .bool => some .logicalNot
  | .bitwiseNot, .sint | .bitwiseNot, .uint => some .not
  | _, _ => none

def unaryOpcode (op : UnaryOp) (operand : TypeShape) : Except Fault Opcode := do
  let (rank, scalar) ← operandRank operand
  match unaryOpcode? rank op scalar.kind with
  | some opcode => pure opcode
  | none => throw (.unsupported (.unary op operand))

/-! ### Mathematical functions -/

inductive MathOperation where
  /-- An instruction of the extended set. -/
  | extended (op : ExtendedOp)
  | core (op : Opcode)
  /-- A clamp to the range from zero to one. -/
  | saturate
  /-- The argument itself. -/
  | identity
deriving DecidableEq, Repr

/-- Functions of integers, given the signed and the unsigned operation. -/
def integerOperation? (signed unsigned : Option MathOperation) : ScalarKind → Option MathOperation
  | .sint => signed
  | .uint => unsigned
  | .float | .bool => none

/-- What the functions become on integers. -/
def integerMath? (kind : ScalarKind) : MathFunction → Option MathOperation
  | .abs   => integerOperation? (some (.extended .sAbs)) (some .identity) kind
  | .min   => integerOperation? (some (.extended .sMin)) (some (.extended .uMin)) kind
  | .max   => integerOperation? (some (.extended .sMax)) (some (.extended .uMax)) kind
  | .clamp => integerOperation? (some (.extended .sClamp)) (some (.extended .uClamp)) kind
  | .sign  => integerOperation? (some (.extended .sSign)) none kind
  | _      => none

/-- What the functions become on floats. -/
def floatMath : MathFunction → MathOperation
  | .abs         => .extended .fAbs
  | .min         => .extended .fMin
  | .max         => .extended .fMax
  | .clamp       => .extended .fClamp
  | .saturate    => .saturate
  | .sign        => .extended .fSign
  | .floor       => .extended .floor
  | .ceil        => .extended .ceil
  | .round       => .extended .roundEven
  | .fract       => .extended .fract
  | .trunc       => .extended .trunc
  | .sin         => .extended .sin
  | .cos         => .extended .cos
  | .tan         => .extended .tan
  | .asin        => .extended .asin
  | .acos        => .extended .acos
  | .atan        => .extended .atan
  | .atan2       => .extended .atan2
  | .sinh        => .extended .sinh
  | .cosh        => .extended .cosh
  | .tanh        => .extended .tanh
  | .radians     => .extended .radians
  | .degrees     => .extended .degrees
  | .sqrt        => .extended .sqrt
  | .inverseSqrt => .extended .inverseSqrt
  | .log         => .extended .log
  | .log2        => .extended .log2
  | .exp         => .extended .exp
  | .exp2        => .extended .exp2
  | .pow         => .extended .pow
  | .dot         => .core .dot
  | .cross       => .extended .cross
  | .normalize   => .extended .normalize
  | .length      => .extended .length
  | .distance    => .extended .distance
  | .transpose   => .core .transpose
  | .determinant => .extended .determinant
  | .reflect     => .extended .reflect
  | .mix         => .extended .fMix
  | .step        => .extended .step
  | .smoothStep  => .extended .smoothStep
  | .fma         => .extended .fma

def mathOperation? (function : MathFunction) : ScalarKind → Option MathOperation
  | .float => some (floatMath function)
  | kind   => integerMath? kind function

def mathOperation (function : MathFunction) (operand : TypeShape) :
    Except Fault MathOperation := do
  let (_, scalar) ← operandRank operand
  match mathOperation? function scalar.kind with
  | some operation => pure operation
  | none => throw (.unsupported (.math function operand))

/-! ### Conversions -/

inductive Conversion where
  /-- The operand itself. -/
  | identity
  | instruction (op : Opcode)
  /-- A choice between one and zero. -/
  | boolToNumber
  /-- A comparison with zero. -/
  | numberToBool (op : Opcode)
deriving DecidableEq, Repr

/-- A reinterpretation of the bits, which booleans do not have. -/
def reinterpretation? : ScalarKind → ScalarKind → Option Conversion
  | .bool, _ | _, .bool => none
  | source, target => some (if source = target then .identity else .instruction .bitcast)

/-- A conversion of the value to another scalar. -/
def valueConversion (source target : Scalar) : Conversion :=
  if source = target then .identity else
    match source.kind, target.kind with
    | .bool, .bool   => .identity
    | .bool, _       => .boolToNumber
    | .float, .bool  => .numberToBool .fUnordNotEqual
    | _, .bool       => .numberToBool .iNotEqual
    | .float, .float => .instruction .fConvert
    | .float, .sint  => .instruction .convertFToS
    | .float, .uint  => .instruction .convertFToU
    | .sint, .float  => .instruction .convertSToF
    | .uint, .float  => .instruction .convertUToF
    | kind, _        =>
      if source.width = target.width then .instruction .bitcast
      else if kind = .sint then .instruction .sConvert
      else .instruction .uConvert

/-- A conversion to a kind of scalar: of the value, if a width is given, else of the bits. -/
def conversion (source : Scalar) (kind : ScalarKind) (width : Option UInt8) :
    Except Fault Conversion :=
  match width with
  | some width => .ok (valueConversion source ⟨kind, width⟩)
  | none =>
    match reinterpretation? source.kind kind with
    | some conversion => .ok conversion
    | none => .error (.unsupported (.conversion source kind none))

end Shader.Emit
