import Shader.Emit.Constant

/-!
# Global variables

A buffer has to be a struct decorated as a block; contents that are no struct are wrapped in one.
-/

namespace Shader.Emit

open Assembly (Id Instruction StructLayout)
open IR (AddressSpace TypeShape)

/-- The struct that wraps the contents of a buffer. -/
def wrapper (env : Env) (space : AddressSpace) (type : Handle .type) (contents : Id) :
    Except Fault StructLayout := do
  let matrixStride ← matrixStride env type
  return {
    name := none
    members := [{ type := contents, name := none, offset := 0, matrixStride }]
    block := some (env.options.blockDecoration space) }

/-- The type a global variable has in the end, and whether it wraps the contents. -/
def variableType (env : Env) (space : AddressSpace) (type : Handle .type) (contents : Id) :
    EmitM (Id × Bool) := do
  unless space.isBuffer do
    return (contents, false)
  match ← shapeAt env type with
  | .struct .. =>
    Assembly.decorateBlock contents (env.options.blockDecoration space)
    return (contents, false)
  | _ =>
    let layout ← wrapper env space type contents
    return (← Assembly.typeId (.struct layout), true)

/-- The initial value of a global variable: private ones always have one. -/
def globalInit (env : Env) (pointee : Id) (v : IR.GlobalVariable) : EmitM (Option Id) := do
  match v.space, v.init with
  | .private, some init => return some (← constantId env init)
  | .private, none => return some (← Assembly.nullConstant pointee)
  | _, _ => return none

/-- Whether a global variable is a storage buffer that grants no stores. -/
def isReadOnly : AddressSpace → Bool
  | .storage access => !access.store
  | _ => false

def decorateGlobal (id : Id) (v : IR.GlobalVariable) : Assembly.DeclareM Unit := do
  if let some binding := v.binding then
    Assembly.pushTo .annotations (.decorate id .descriptorSet [binding.group])
    Assembly.pushTo .annotations (.decorate id .binding [binding.binding])
  if isReadOnly v.space then
    Assembly.pushTo .annotations (.decorate id .nonWritable [])
  Assembly.nameTarget id v.name

def declareGlobal (env : Env) (v : IR.GlobalVariable) : EmitM Unit := do
  let storage := env.options.storageClass v.space
  let contents ← typeId env v.type
  let contentsPointer ← Assembly.pointerType storage contents
  let (pointee, wrapped) ← variableType env v.space v.type contents
  let pointer ← Assembly.pointerType storage pointee
  let init ← globalInit env pointee v
  let id ← Assembly.freshId
  Assembly.pushTo .globals (.variable pointer id storage init)
  decorateGlobal id v
  let place : GlobalPlace := ⟨id, if wrapped then some contentsPointer else none⟩
  modify fun p => { p with globals := p.globals.push place }

def declareGlobals (env : Env) : EmitM Unit := env.module.globals.toList.forM (declareGlobal env)

end Shader.Emit
