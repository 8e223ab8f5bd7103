import Shader.Emit.Context

/-!
# Types

The type of the target format that a type of the program becomes.  Atomics become their scalars;
an address space becomes a storage class, which for storage buffers depends on the version.
-/

namespace Shader.Emit

open Assembly (Id StorageClass Decoration TypeKey MemberLayout)
open IR (AddressSpace TypeShape)

namespace Options

/-- Storage buffers have a storage class of their own. -/
def hasStorageBuffers (options : Options) : Bool := !options.version.before ⟨1, 3⟩

/-- Entry points list all global variables. -/
def listsGlobals (options : Options) : Bool := !options.version.before ⟨1, 4⟩

def storageClass (options : Options) : AddressSpace → StorageClass
  | .function => .function
  | .private => .private
  | .workgroup => .workgroup
  | .uniform => .uniform
  | .storage _ => if options.hasStorageBuffers then .storageBuffer else .uniform

/-- How the struct of a buffer is decorated. -/
def blockDecoration (options : Options) : AddressSpace → Decoration
  | .storage _ => if options.hasStorageBuffers then .block else .bufferBlock
  | _ => .block

end Options

/-- The distance of the columns of a matrix, whose columns of three take the place of four. -/
def columnStride (rows : IR.VectorSize) (scalar : IR.Scalar) : UInt32 :=
  (if rows = .two then 2 else 4) * scalar.width.toUInt32

/-- The column stride of a matrix, or of the matrices in an array. -/
def matrixStrideWithin (m : IR.Module) : Nat → Handle .type → Except Fault (Option UInt32)
  | 0, _ => .error (.inconsistent .circular)
  | depth + 1, h =>
    match m.typeAt h with
    | .error error => .error (.malformed error)
    | .ok type =>
      match type.shape with
      | .matrix _ rows scalar => .ok (some (columnStride rows scalar))
      | .array base _ _ => matrixStrideWithin m depth base
      | _ => .ok none

def matrixStride (env : Env) (h : Handle .type) : Except Fault (Option UInt32) :=
  matrixStrideWithin env.module env.depth h

/-- The structure of a type, given the ids of its components. -/
def typeKey (env : Env) (component : Handle .type → EmitM Id) (type : IR.Ty) : EmitM TypeKey := do
  match type.shape with
  | .scalar scalar | .atomic scalar => return .scalar scalar
  | .vector size scalar => return .vector scalar size.toWord
  | .matrix columns rows scalar => return .matrix columns.toWord rows.toWord scalar
  | .pointer base space => return .pointer (env.options.storageClass space) (← component base)
  | .array base (.fixed length) stride => return .array (← component base) length stride
  | .array base .runtime stride => return .runtimeArray (← component base) stride
  | .struct members _ =>
    let members ← members.mapM fun member => do
      let type ← component member.type
      let matrixStride ← matrixStride env member.type
      return { type, name := member.name, offset := member.offset, matrixStride : MemberLayout }
    return .struct { name := type.name, members, block := none }

def typeIdWithin (env : Env) : Nat → Handle .type → EmitM Id
  | 0, _ => throw (.inconsistent .circular)
  | depth + 1, h => do
    match (← get).types.get? h with
    | some id => return id
    | none =>
      let type ← env.module.typeAt h
      let key ← typeKey env (typeIdWithin env depth) type
      let id ← Assembly.typeId key
      modify fun p => { p with types := p.types.set h (some id) }
      return id

/-- The id of a type of the program. -/
def typeId (env : Env) (h : Handle .type) : EmitM Id := typeIdWithin env env.depth h

/-- The shape of a type of the program. -/
def shapeAt (env : Env) (h : Handle .type) : Except IR.Error TypeShape :=
  (env.module.typeAt h).map IR.Ty.shape

end Shader.Emit
