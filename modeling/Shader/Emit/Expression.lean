import Shader.Emit.Constant
import Shader.Emit.Operation

/-!
# Expressions

An expression is computed where it is first needed; its value is kept and used again.  What
computes an expression is given the computation of its operands, so that only one function
follows references.
-/

namespace Shader.Emit

open Assembly (Id Instruction Opcode Operand ExtendedOp)
open IR (Expression Scalar ScalarKind TypeShape BinaryOp UnaryOp MathFunction VectorSize)

/-! ### Emitting into the open block -/

def emit (i : Instruction) : BodyM Unit := Assembly.pushInstruction i

/-- Emits an instruction with a new result. -/
def emitResult (op : Opcode) (type : Id) (operands : List Operand) : BodyM Id := do
  let id ← Assembly.freshId
  emit (.result op type id operands)
  return id

def terminate (i : Instruction) : BodyM Unit := Assembly.terminate i

def beginBlock (label : Id) : BodyM Unit := Assembly.beginBlock label

/-- The label of the open block. -/
def openLabel? : BodyM (Option Id) := do
  let draft ← Assembly.currentDraft
  return draft.label?

/-! ### Types of expressions -/

variable (env : FunctionEnv)

/-- The shape of the type of an expression. -/
def expressionShape (h : Handle .expression) : Except IR.Error TypeShape := do
  shapeAt env.toEnv (← env.function.expressions.typeOf h)

/-- The id of the type of an expression. -/
def expressionType (h : Handle .expression) : EmitM Id := do
  typeId env.toEnv (← env.function.expressions.typeOf h)

/-- Whether an expression is a pointer to an atomic. -/
def pointsToAtomic (h : Handle .expression) : Except IR.Error Bool := do
  match ← expressionShape env h with
  | .pointer base _ =>
    match ← shapeAt env.toEnv base with
    | .atomic _ => return true
    | _ => return false
  | _ => return false

/-! ### Composites -/

/-- A composite, which is a constant if all its parts are. -/
def composite (type : Id) (parts : List Id) : BodyM Id := do
  let assembly := (← get).progress.assembly
  if parts.all assembly.isConstant then
    Assembly.constant type (.composite parts)
  else
    emitResult .compositeConstruct type (Operand.ids parts)

/-- A vector with the same scalar in all its components. -/
def splat (value : Id) (scalar : Scalar) (size : VectorSize) : BodyM Id := do
  let type ← Assembly.vectorType scalar size.toWord
  composite type (List.replicate size.toNat value)

/-- A scalar operand as a vector of the size of the other operand. -/
def splatOperand (value : Id) (scalar vector : TypeShape) : BodyM Id := do
  match scalar.scalar?, vector.vectorSize? with
  | some scalar, some size => splat value scalar size
  | _, _ => throw (.inconsistent .splatOperand)

/-! ### References -/

def argumentValue (index : UInt32) : BodyM Id := do
  match (← get).arguments[index.toNat]? with
  | some id => return id
  | none => throw (.inconsistent (.missingArgument index))

/-- A pointer to the contents of a global variable. -/
def globalPointer (h : Handle .globalVariable) : BodyM Id := do
  let body ← get
  match body.contents.getD h.index none with
  | some id => return id
  | none =>
    match body.progress.globals[h.index]? with
    | some place => return place.id
    | none => throw (.inconsistent (.undeclaredGlobal h))

def localPointer (h : Handle .localVariable) : BodyM Id := do
  match (← get).locals[h.index]? with
  | some id => return id
  | none => throw (.inconsistent (.undeclaredLocal h))

/-! ### Memory and parts of composites -/

variable (operand : Handle .expression → BodyM Id)

/-- The scope and the memory semantics of atomic instructions. -/
def atomicOperands : BodyM (Id × Id) := do
  let scope ← Assembly.indexConstant Assembly.deviceScope
  let semantics ← Assembly.indexConstant 0
  return (scope, semantics)

def computeLoad (h pointer : Handle .expression) : BodyM Id := do
  let type ← expressionType env h
  let atomic ← pointsToAtomic env pointer
  let pointer ← operand pointer
  let id ← Assembly.freshId
  if atomic then
    let (scope, semantics) ← atomicOperands
    emit (.result .atomicLoad type id (Operand.ids [pointer, scope, semantics]))
  else
    emit (.load type id pointer)
  return id

/-- The value of an index that is a literal, or a constant that is one. -/
def constantIndex? (h : Handle .expression) : Option UInt32 :=
  match env.function.expressions.get? h with
  | some (.literal literal) => literal.index?
  | some (.constant value) =>
    match env.module.constants.get? value with
    | some (.literal literal) => literal.index?
    | _ => none
  | _ => none

def computeAccess (h base index : Handle .expression) : BodyM Id := do
  let shape ← expressionShape env base
  let type ← expressionType env h
  let value ← operand base
  if shape.isPointer then
    let index ← operand index
    emitResult .accessChain type (Operand.ids [value, index])
  else
    match constantIndex? env index, shape with
    | some constant, _ => emitResult .compositeExtract type [.id value, .word constant]
    | none, .vector .. =>
      let index ← operand index
      emitResult .vectorExtractDynamic type (Operand.ids [value, index])
    | none, _ => throw (.unsupported .dynamicIndex)

def computeAccessIndex (h base : Handle .expression) (index : UInt32) : BodyM Id := do
  let shape ← expressionShape env base
  let type ← expressionType env h
  let value ← operand base
  if shape.isPointer then
    let index ← Assembly.indexConstant index
    emitResult .accessChain type (Operand.ids [value, index])
  else
    emitResult .compositeExtract type [.id value, .word index]

def computeSwizzle (h : Handle .expression) (size : VectorSize) (vector : Handle .expression)
    (pattern : Vector IR.Component 4) : BodyM Id := do
  let type ← expressionType env h
  let value ← operand vector
  let picked := (Expression.picked size pattern).map fun c => UInt32.ofNat c.toNat
  emitResult .vectorShuffle type (.id value :: .id value :: Operand.words picked)

/-! ### Operators -/

def computeUnary (h : Handle .expression) (op : UnaryOp) (value : Handle .expression) :
    BodyM Id := do
  let shape ← expressionShape env value
  let opcode ← unaryOpcode op shape
  let type ← expressionType env h
  let value ← operand value
  emitResult opcode type [.id value]

def computeBinary (h : Handle .expression) (op : BinaryOp) (left right : Handle .expression) :
    BodyM Id := do
  let leftShape ← expressionShape env left
  let rightShape ← expressionShape env right
  let operation ← binaryOperation op leftShape rightShape
  let type ← expressionType env h
  let l ← operand left
  let r ← operand right
  let (first, second) ← match operation.arrangement with
    | .normal => pure (l, r)
    | .swapped => pure (r, l)
    | .splatLeft => do
      let l ← splatOperand l leftShape rightShape
      pure (l, r)
    | .splatRight => do
      let r ← splatOperand r rightShape leftShape
      pure (l, r)
  emitResult operation.opcode type (Operand.ids [first, second])

/-- The label of the open block, which there has to be. -/
def labelOr (cause : Inconsistency) : BodyM Id := do
  match ← openLabel? with
  | some label => return label
  | none => throw (.inconsistent cause)

/-- A short-circuit operator: the right operand has a block of its own, which is passed by when
the left operand decides, and a phi joins both ways. -/
def computeShortCircuit (h : Handle .expression) (op : BinaryOp)
    (left right : Handle .expression) : BodyM Id := do
  let type ← expressionType env h
  let l ← operand left
  let leftEnd ← labelOr .shortCircuitOutsideBlock
  let rightLabel ← Assembly.freshId
  let merge ← Assembly.freshId
  emit (.selectionMerge merge)
  if op = .logicalAnd then
    terminate (.branchConditional l rightLabel merge)
  else
    terminate (.branchConditional l merge rightLabel)
  beginBlock rightLabel
  let mark := (← get).values.mark
  let r ← operand right
  let rightEnd ← labelOr .shortCircuitClosedBlock
  terminate (.branch merge)
  modify fun body => { body with values := body.values.rewind mark }
  beginBlock merge
  emitResult .phi type (Operand.ids [l, leftEnd, r, rightEnd])

def computeSelect (h condition accept reject : Handle .expression) : BodyM Id := do
  let conditionShape ← expressionShape env condition
  let acceptShape ← expressionShape env accept
  let type ← expressionType env h
  let c ← operand condition
  let a ← operand accept
  let r ← operand reject
  let c ← match conditionShape, acceptShape.vectorSize? with
    | .scalar _, some size => splat c .bool size
    | _, _ => pure c
  emitResult .select type (Operand.ids [c, a, r])

/-! ### Functions and conversions -/

def emitExtended (type : Id) (op : ExtendedOp) (arguments : List Id) : BodyM Id := do
  let set ← Assembly.mathImport
  emitResult .extInst type (.id set :: .word op.word :: Operand.ids arguments)

def computeMath (h : Handle .expression) (function : MathFunction) (arg : Handle .expression)
    (others : List (Handle .expression)) : BodyM Id := do
  let shape ← expressionShape env arg
  let operation ← mathOperation function shape
  let type ← expressionType env h
  let first ← operand arg
  let rest ← others.mapM operand
  if rest.length + 1 ≠ function.arity then
    throw (.inconsistent (.arity function (rest.length + 1)))
  match operation with
  | .identity => return first
  | .core op => emitResult op type (Operand.ids (first :: rest))
  | .extended op => emitExtended type op (first :: rest)
  | .saturate =>
    let zero ← Assembly.nullConstant type
    let one ← oneConstant type shape
    emitExtended type .fClamp [first, zero, one]

def computeCast (h value : Handle .expression) (kind : ScalarKind) (width : Option UInt8) :
    BodyM Id := do
  let sourceShape ← expressionShape env value
  let some source := sourceShape.scalar? | throw (.unsupported .conversionOperand)
  let operation ← conversion source kind width
  let targetShape ← expressionShape env h
  let type ← expressionType env h
  let v ← operand value
  match operation with
  | .identity => return v
  | .instruction op => emitResult op type [.id v]
  | .boolToNumber =>
    let one ← oneConstant type targetShape
    let zero ← Assembly.nullConstant type
    emitResult .select type (Operand.ids [v, one, zero])
  | .numberToBool op =>
    let sourceType ← expressionType env value
    let zero ← Assembly.nullConstant sourceType
    emitResult op type (Operand.ids [v, zero])

/-- The buffer, and the member of it, that an array whose length is asked for is. -/
def bufferArray? (array : Handle .expression) : Option (Handle .globalVariable × Option UInt32) :=
  match env.function.expressions.get? array with
  | some (.globalVariable global) => some (global, none)
  | some (.accessIndex base index) =>
    match env.function.expressions.get? base with
    | some (.globalVariable global) => some (global, some index)
    | _ => none
  | _ => none

/-- The length of a runtime-sized array, which is the last member of a buffer: of the struct that
wraps the array, or of a struct of the program. -/
def computeArrayLength (array : Handle .expression) : BodyM Id := do
  let some (global, member) := bufferArray? env array | throw (.unsupported .arrayLength)
  let some place := (← get).progress.globals[global.index]?
    | throw (.inconsistent (.undeclaredGlobal global))
  let member ← match place.contents, member with
    | some _, none => pure 0
    | none, some index => pure index
    | _, _ => throw (.unsupported .arrayLength)
  let type ← Assembly.scalarType .u32
  emitResult .arrayLength type [.id place.id, .word member]

/-! ### All expressions -/

/-- The value of an expression, given the computation of its operands. -/
def compute (h : Handle .expression) : Expression → BodyM Id
  | .literal literal => Assembly.literalConstant literal
  | .constant value => constantId env.toEnv value
  | .override o => overrideId o
  | .zeroValue type => do
    let type ← typeId env.toEnv type
    Assembly.nullConstant type
  | .compose type components => do
    let type ← typeId env.toEnv type
    let parts ← components.mapM operand
    composite type parts
  | .argument index => argumentValue index
  | .globalVariable global => globalPointer global
  | .localVariable slot => localPointer slot
  | .load pointer => computeLoad env operand h pointer
  | .access base index => computeAccess env operand h base index
  | .accessIndex base index => computeAccessIndex env operand h base index
  | .swizzle size vector pattern => computeSwizzle env operand h size vector pattern
  | .splat size value => do
    let type ← expressionType env h
    let part ← operand value
    composite type (List.replicate size.toNat part)
  | .unary op value => computeUnary env operand h op value
  | .binary op left right =>
    if op.isShortCircuit then computeShortCircuit env operand h op left right
    else computeBinary env operand h op left right
  | .select condition accept reject => computeSelect env operand h condition accept reject
  | .math function arg arg1 arg2 =>
    computeMath env operand h function arg (arg1.toList ++ arg2.toList)
  | .cast value kind width => computeCast env operand h value kind width
  | .arrayLength array => computeArrayLength env array
  | .callResult f => throw (.inconsistent (.earlyResult h (.callResult f)))
  | .atomicResult type comparison =>
    throw (.inconsistent (.earlyResult h (.atomicResult type comparison)))

/-- Gives a value that was computed for an expression the name of the expression. -/
def nameValue (h : Handle .expression) (e : Expression) (id : Id) : EmitM Unit := do
  if let some name := env.function.nameOf? h then
    let assembly := (← get).assembly
    unless e.isReference || assembly.isConstant id do
      Assembly.nameTarget id name

def remember (h : Handle .expression) (id : Id) : BodyM Unit :=
  modify fun body => { body with values := body.values.set h id }

def expressionWithin : Nat → Handle .expression → BodyM Id
  | 0, _ => throw (.inconsistent .circular)
  | depth + 1, h => do
    match (← get).values.get? h with
    | some id => return id
    | none =>
      let e ← env.function.expressions.fetch h
      let id ← compute env (expressionWithin depth) h e
      remember h id
      nameValue env h e id
      return id

/-- The value of an expression, which is computed if it was not before. -/
def expression (h : Handle .expression) : BodyM Id := expressionWithin env env.depth h

end Shader.Emit
