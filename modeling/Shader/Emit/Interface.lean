import Shader.Emit.Type

/-!
# Interfaces of entry points

The arguments of an entry point arrive in input variables and its result leaves in output
variables: one variable for a value with a binding, one for each member of a struct without one.
-/

namespace Shader.Emit

open Assembly (Id BuiltInVariable Decoration StorageClass)
open IR (Binding BuiltIn Interpolation Stage)

inductive Direction where
  | input
  | output
deriving DecidableEq, Repr

namespace Direction

def storageClass : Direction → StorageClass
  | input => .input
  | output => .output

/-- What is wrong with a value that neither has a binding nor is a struct. -/
def unbound : Direction → Unsupported
  | input => .unboundArgument
  | output => .unboundResult

end Direction

/-- The variable of the target format that a built-in value is. -/
def builtInVariable (stage : Stage) (direction : Direction) : BuiltIn → BuiltInVariable
  | .position _ => if stage = .fragment ∧ direction = .input then .fragCoord else .position
  | .vertexIndex => .vertexIndex
  | .instanceIndex => .instanceIndex
  | .frontFacing => .frontFacing
  | .fragDepth => .fragDepth
  | .sampleIndex => .sampleId
  | .sampleMask => .sampleMask
  | .globalInvocationId => .globalInvocationId
  | .localInvocationId => .localInvocationId
  | .localInvocationIndex => .localInvocationIndex
  | .workgroupId => .workgroupId
  | .numWorkgroups => .numWorkgroups

/-- Whether a value passes from the vertices to the fragments between them. -/
def isVarying : Stage → Direction → Bool
  | .vertex, .output | .fragment, .input => true
  | _, _ => false

/-- The decoration for an interpolation that is not the usual one; integers are never
interpolated. -/
def interpolationDecoration? (integer : Bool) : Option Interpolation → Option Decoration
  | some .flat => some .flat
  | some .linear => some (if integer then .flat else .noPerspective)
  | some .perspective | none => if integer then some .flat else none

def decorateBuiltIn (stage : Stage) (direction : Direction) (id : Id) (builtIn : BuiltIn) :
    Assembly.DeclareM Unit := do
  if builtIn = .sampleIndex then
    Assembly.requireCapability .sampleRateShading
  Assembly.pushTo .annotations
    (.decorate id .builtIn [(builtInVariable stage direction builtIn).word])
  if builtIn = .position true ∧ direction = .output then
    Assembly.pushTo .annotations (.decorate id .invariant [])

def decorateLocation (env : Env) (stage : Stage) (direction : Direction) (id : Id)
    (type : Handle .type) (location : UInt32) (interpolation : Option Interpolation) :
    EmitM Unit := do
  Assembly.pushTo .annotations (.decorate id .location [location])
  let shape ← shapeAt env type
  let integer := shape.scalar?.any fun scalar => scalar.kind.isInteger
  if isVarying stage direction then
    if let some decoration := interpolationDecoration? integer interpolation then
      Assembly.pushTo .annotations (.decorate id decoration [])

/-- The type an interface variable has, and the type of pointers to its value where that is the
one element of an array, as a sample mask is. -/
def interfaceType (storage : StorageClass) (type : Id) (binding : Binding) :
    Assembly.DeclareM (Id × Option Id) := do
  if binding = .builtIn .sampleMask then
    let array ← Assembly.arrayType type 1 0
    let element ← Assembly.pointerType storage type
    return (array, some element)
  else
    return (type, none)

/-- Declares an interface variable. -/
def declareInterface (env : Env) (stage : Stage) (direction : Direction) (type : Handle .type)
    (binding : Binding) (name : Option String) : EmitM (Id × Option Id) := do
  let storage := direction.storageClass
  let type_ ← typeId env type
  let (declared, element) ← interfaceType storage type_ binding
  let pointer ← Assembly.pointerType storage declared
  let id ← Assembly.freshId
  Assembly.pushTo .globals (.variable pointer id storage none)
  match binding with
  | .builtIn builtIn => decorateBuiltIn stage direction id builtIn
  | .location location interpolation =>
    decorateLocation env stage direction id type location interpolation
  Assembly.nameTarget id name
  return (id, element)

/-- Declares the variables for the members of a struct, counted from `index`. -/
def declareMembers (env : Env) (stage : Stage) (direction : Direction) (index : UInt32) :
    List IR.StructMember → EmitM (List InterfaceVariable)
  | [] => return []
  | member :: rest => do
    match member.binding with
    | none => throw (.unsupported .unboundMember)
    | some binding =>
      let (id, element) ← declareInterface env stage direction member.type binding member.name
      let type ← typeId env member.type
      let others ← declareMembers env stage direction (index + 1) rest
      return ⟨id, some (index, type), element⟩ :: others

/-- Declares the variables of an argument or a result. -/
def interfaceVariables (env : Env) (stage : Stage) (direction : Direction) (type : Handle .type)
    (binding : Option Binding) (name : Option String) : EmitM (List InterfaceVariable) := do
  match binding with
  | some binding =>
    let (id, element) ← declareInterface env stage direction type binding name
    return [⟨id, none, element⟩]
  | none =>
    match ← shapeAt env type with
    | .struct members _ => declareMembers env stage direction 0 members
    | _ => throw (.unsupported direction.unbound)

/-- Whether a result sets the depth of its fragment. -/
def writesDepth (m : IR.Module) (result : IR.Result) : Bool :=
  let depth := some (Binding.builtIn .fragDepth)
  result.binding == depth ||
    match m.types.get? result.type with
    | some { shape := .struct members _, .. } => members.any fun member => member.binding == depth
    | _ => false

end Shader.Emit
