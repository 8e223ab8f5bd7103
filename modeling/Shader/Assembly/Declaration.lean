import Shader.Assembly.Module
import Shader.IR.Literal

/-!
# Types and constants

Asking for a type or a constant declares it the first time and gives the same id every time
after.  What a type is made of is declared before the type itself.
-/

namespace Shader.Assembly

open IR (Scalar ScalarKind Literal)

/-! ### Types -/

/-- Decorates a struct as a block, once. -/
def decorateBlock (struct : Id) (decoration : Decoration) : DeclareM Unit := do
  unless (← get).blocks.contains struct do
    modify fun m => { m with blocks := struct :: m.blocks }
    pushTo .annotations (.decorate struct decoration [])

/-- Adds a debug instruction, where debug names are wanted. -/
def pushName (i : Instruction) : DeclareM Unit := do
  if (← get).debugNames then pushTo .debug i

/-- Gives a debug name, if there is one. -/
def nameTarget (target : Id) (name : Option String) : DeclareM Unit := do
  if let some name := name then
    pushName (.name target name)

/-- Decorates a member of a struct with its place. -/
def decorateMember (struct : Id) (index : UInt32) (member : MemberLayout) : DeclareM Unit := do
  pushTo .annotations (.memberDecorate struct index .offset [member.offset])
  if let some stride := member.matrixStride then
    pushTo .annotations (.memberDecorate struct index .colMajor [])
    pushTo .annotations (.memberDecorate struct index .matrixStride [stride])
  if let some name := member.name then
    pushName (.memberName struct index name)

/-- Decorates the members of a struct from the given index on. -/
def decorateMembers (struct : Id) (index : UInt32) : List MemberLayout → DeclareM Unit
  | [] => pure ()
  | member :: rest => do
    decorateMember struct index member
    decorateMembers struct (index + 1) rest

def decorateStruct (struct : Id) (layout : StructLayout) : DeclareM Unit := do
  if let some decoration := layout.block then
    decorateBlock struct decoration
  decorateMembers struct 0 layout.members
  nameTarget struct layout.name

def decorateStride (array : Id) (stride : UInt32) : DeclareM Unit := do
  unless stride = 0 do
    pushTo .annotations (.decorate array .arrayStride [stride])

def decorateType (id : Id) : TypeKey → DeclareM Unit
  | .array _ _ stride | .runtimeArray _ stride => decorateStride id stride
  | .struct layout => decorateStruct id layout
  | _ => pure ()

/-- What declares a type: an opcode and the operands after the result id. -/
structure Declarator where
  opcode : Opcode
  operands : List Operand := []

/-- The id of a type, which is declared if it was not before. -/
def internType (key : TypeKey) (declarator : DeclareM Declarator) : DeclareM Id := do
  match (← get).types.lookup key with
  | some id => return id
  | none =>
    let ⟨opcode, operands⟩ ← declarator
    let id ← freshId
    pushTo .globals ⟨opcode, .id id :: operands⟩
    decorateType id key
    modify fun m => { m with types := (key, id) :: m.types }
    return id

/-- The capability that a scalar of an uncommon width needs. -/
def widthCapability? (scalar : Scalar) : Option Capability :=
  match scalar.kind, scalar.width.toNat with
  | .float, 2         => some .float16
  | .float, 8         => some .float64
  | .sint, 1 | .uint, 1 => some .int8
  | .sint, 2 | .uint, 2 => some .int16
  | .sint, 8 | .uint, 8 => some .int64
  | _, _              => none

def scalarDeclarator (scalar : Scalar) : Declarator :=
  let bits := Operand.word (UInt32.ofNat scalar.bits)
  match scalar.kind with
  | .bool  => ⟨.typeBool, []⟩
  | .sint  => ⟨.typeInt, [bits, .word 1]⟩
  | .uint  => ⟨.typeInt, [bits, .word 0]⟩
  | .float => ⟨.typeFloat, [bits]⟩

def scalarType (scalar : Scalar) : DeclareM Id :=
  internType (.scalar scalar) do
    if let some capability := widthCapability? scalar then
      requireCapability capability
    return scalarDeclarator scalar

def vectorType (scalar : Scalar) (size : UInt32) : DeclareM Id :=
  internType (.vector scalar size) do
    return ⟨.typeVector, [.id (← scalarType scalar), .word size]⟩

def matrixType (columns rows : UInt32) (scalar : Scalar) : DeclareM Id :=
  internType (.matrix columns rows scalar) do
    return ⟨.typeMatrix, [.id (← vectorType scalar rows), .word columns]⟩

def voidType : DeclareM Id := internType .void (pure ⟨.typeVoid, []⟩)

def pointerType (storage : StorageClass) (pointee : Id) : DeclareM Id :=
  internType (.pointer storage pointee) (pure ⟨.typePointer, [.word storage.word, .id pointee]⟩)

/-! ### Constants -/

namespace Module

/-- Whether an id was declared as a constant. -/
def isConstant (m : Module) (id : Id) : Bool := m.constants.any (·.2 == id)

/-- Whether an id was declared as a null. -/
def isNull (m : Module) (id : Id) : Bool := m.constants.any fun c => c.2 == id && c.1.value == .null

/-- Whether an id was declared as a constant that can be specialized. -/
def isSpecialization (m : Module) (id : Id) : Bool := m.specializations.contains id

/-- Zero scalars, and composites of nulls, are the null of their type. -/
def normalize (m : Module) : ConstantValue → ConstantValue
  | .bool false | .word 0 | .wide 0 => .null
  | .composite (part :: parts) =>
    if (part :: parts).all m.isNull then .null else .composite (part :: parts)
  | value => value

end Module

/-- The words of a number of 64 bits, the low one first. -/
def wideOperands (bits : UInt64) : List Operand :=
  [.word bits.toUInt32, .word (bits >>> 32).toUInt32]

def constantInstruction (type id : Id) : ConstantValue → Instruction
  | .bool true       => .result .constantTrue type id []
  | .bool false      => .result .constantFalse type id []
  | .word bits       => .result .constant type id [.word bits]
  | .wide bits       => .result .constant type id (wideOperands bits)
  | .composite parts => .result .constantComposite type id (Operand.ids parts)
  | .null            => .result .constantNull type id []
  | .explicitZero    => .result .constant type id [.word 0]

/-- The id of a constant, which is declared if it was not before. -/
def constant (type : Id) (value : ConstantValue) : DeclareM Id := do
  let key : ConstantKey := ⟨type, (← get).normalize value⟩
  match (← get).constants.lookup key with
  | some id => return id
  | none =>
    let id ← freshId
    pushTo .globals (constantInstruction type id key.value)
    modify fun m => { m with constants := (key, id) :: m.constants }
    return id

def nullConstant (type : Id) : DeclareM Id := constant type .null

/-- The value a literal has as a constant. -/
def ConstantValue.ofLiteral : Literal → ConstantValue
  | .bool value => .bool value
  | .i32 value  => .word value.toUInt32
  | .u32 value  => .word value
  | .f32 bits   => .word bits
  | .i64 value  => .wide value.toUInt64
  | .u64 value  => .wide value
  | .f64 bits   => .wide bits

def literalConstant (literal : Literal) : DeclareM Id := do
  constant (← scalarType literal.scalar) (.ofLiteral literal)

/-- A number as an index, a length, a scope or a mask.  Zero is not the null of its type here. -/
def indexConstant (value : UInt32) : DeclareM Id := do
  constant (← scalarType .u32) (if value = 0 then .explicitZero else .word value)

def specializationInstruction (type id : Id) : ConstantValue → Instruction
  | .bool true  => .result .specConstantTrue type id []
  | .bool false => .result .specConstantFalse type id []
  | .wide bits  => .result .specConstant type id (wideOperands bits)
  | .word bits  => .result .specConstant type id [.word bits]
  | _           => .result .specConstant type id []

/-- A new constant that can be specialized, with a literal as its default. -/
def specialization (literal : Literal) : DeclareM Id := do
  let type ← scalarType literal.scalar
  let id ← freshId
  pushTo .globals (specializationInstruction type id (.ofLiteral literal))
  modify fun m => { m with specializations := id :: m.specializations }
  return id

/-! ### Types by their keys -/

def arrayType (element : Id) (length stride : UInt32) : DeclareM Id :=
  internType (.array element length stride) do
    return ⟨.typeArray, [.id element, .id (← indexConstant length)]⟩

/-- The id of the type with the given structure. -/
def typeId : TypeKey → DeclareM Id
  | .void => voidType
  | .scalar scalar => scalarType scalar
  | .vector scalar size => vectorType scalar size
  | .matrix columns rows scalar => matrixType columns rows scalar
  | .array element length stride => arrayType element length stride
  | .runtimeArray element stride =>
    internType (.runtimeArray element stride) (pure ⟨.typeRuntimeArray, [.id element]⟩)
  | .struct layout =>
    internType (.struct layout)
      (pure ⟨.typeStruct, Operand.ids (layout.members.map MemberLayout.type)⟩)
  | .pointer storage pointee => pointerType storage pointee
  | .function result parameters =>
    internType (.function result parameters)
      (pure ⟨.typeFunction, .id result :: Operand.ids parameters⟩)

end Shader.Assembly
