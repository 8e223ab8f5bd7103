import Shader.IR.Module
import Shader.Surface.Error

/-!
# Renaming

What the handles of a surface module stand for after elaboration.  Expressions, overrides, local
variables and functions keep their places, so that it is enough to know how many of them there
are so far.  Types and global variables may be left out, and equal types share a handle.
-/

namespace Shader.Surface

structure Renaming where
  module : Module
  types : Array (Option (Handle .type)) := #[]
  globals : Array (Option (Handle .globalVariable)) := #[]
  overrides : Nat := 0
  /-- The number of constant expressions. -/
  constants : Nat := 0
  functions : Nat := 0

/-- What the handles in a function stand for. -/
structure Scope extends Renaming where
  locals : Nat
  expressions : Nat

/-- A handle of something that keeps its place, if it is among the first `count`. -/
def kept {kind : Kind} (count : Nat) (missing : Malformed) (h : Handle kind) :
    Except Error (Handle kind) :=
  if h.index < count then .ok h else .error (.malformed missing)

namespace Renaming

variable (r : Renaming)

/-- A type that was left out is unsupported where it is used. -/
def type (h : Handle .type) : Except Error (Handle .type) :=
  match r.types.getD h.index none, r.module.types[h.index]? with
  | some type, _ => .ok type
  | none, some type => .error (.unsupported (.type type.name))
  | none, none => .error (.malformed (.type h))

def override (h : Handle .override) : Except Error (Handle .override) :=
  kept r.overrides (.override h) h

def constantExpression (h : Handle .expression) : Except Error (Handle .expression) :=
  kept r.constants (.constantExpression h) h

/-- The expression that a named constant stands for. -/
def constant (h : Handle .constant) : Except Error (Handle .expression) :=
  match r.module.constants.get? h with
  | some constant => r.constantExpression constant.init
  | none => .error (.malformed (.constant h))

/-- Global variables are left out exactly if they are textures or samplers. -/
def globalVariable (h : Handle .globalVariable) : Except Error (Handle .globalVariable) :=
  match r.globals.getD h.index none with
  | some global => .ok global
  | none => .error (.unsupported .handleGlobal)

def function (h : Handle .function) : Except Error (Handle .function) :=
  kept r.functions (.function h) h

def calledFunction (h : Handle .function) : Except Error (Handle .function) :=
  kept r.functions (.calledFunction h) h

end Renaming

namespace Scope

variable (s : Scope)

def localVariable (h : Handle .localVariable) : Except Error (Handle .localVariable) :=
  kept s.locals (.localVariable h) h

def expression (h : Handle .expression) : Except Error (Handle .expression) :=
  kept s.expressions (.expression h) h

end Scope

/-! ### Types -/

/-- Abstract numbers become numbers of 32 bits. -/
def ScalarKind.elaborate : ScalarKind → IR.ScalarKind
  | bool => .bool
  | sint | abstractInt => .sint
  | uint => .uint
  | float | abstractFloat => .float

def Scalar.elaborate (s : Scalar) : IR.Scalar :=
  match s.kind with
  | .abstractInt => .i32
  | .abstractFloat => .f32
  | kind => ⟨kind.elaborate, s.width⟩

def AddressSpace.elaborate : AddressSpace → Except Error IR.AddressSpace
  | function => .ok .function
  | «private» => .ok .private
  | workgroup => .ok .workgroup
  | uniform => .ok .uniform
  | storage access => .ok (.storage access)
  | handle => .error (.unsupported .handleSpace)
  | pushConstant => .error (.unsupported .pushConstantSpace)

def ArraySize.elaborate : ArraySize → Except Error IR.ArraySize
  | fixed length => .ok (.fixed length)
  | runtime => .ok .runtime
  | pending => .error (.unsupported .pendingArray)

def BuiltIn.elaborate : BuiltIn → Except Error IR.BuiltIn
  | known builtIn => .ok builtIn
  | other name => .error (.unsupported (.builtIn name))

def Binding.elaborate : Binding → Except Error IR.Binding
  | builtIn b => return .builtIn (← b.elaborate)
  | location n interpolation => return .location n interpolation

def StructMember.elaborate (r : Renaming) (member : StructMember) :
    Except Error IR.StructMember := do
  let type ← r.type member.type
  let binding ← member.binding.mapM Binding.elaborate
  return { name := member.name, type, binding, offset := member.offset }

/-- A step of elaboration, which may add types to the program. -/
abbrev TypesM := EStateM Error (UniqueArena .type IR.Ty)

instance : MonadLift (Except Error) TypesM where
  monadLift
    | .ok value => pure value
    | .error error => throw error

/-- The handle of a type, which is added if there is no equal one. -/
def addType (type : IR.Ty) : TypesM (Handle .type) := modifyGet fun types => types.insert type

/-- The scalar or vector behind a value pointer. -/
def pointeeShape (size : Option IR.VectorSize) (scalar : Scalar) : IR.TypeShape :=
  match size with
  | some size => .vector size scalar.elaborate
  | none => .scalar scalar.elaborate

def TypeShape.elaborate (r : Renaming) : TypeShape → TypesM IR.TypeShape
  | scalar s => return .scalar s.elaborate
  | vector size s => return .vector size s.elaborate
  | matrix columns rows s => return .matrix columns rows s.elaborate
  | atomic s => return .atomic s.elaborate
  | pointer base space => do
    let base ← r.type base
    let space ← space.elaborate
    return .pointer base space
  | valuePointer size s space => do
    let base ← addType ⟨none, pointeeShape size s⟩
    let space ← space.elaborate
    return .pointer base space
  | array base size stride => do
    let base ← r.type base
    let size ← size.elaborate
    return .array base size stride
  | struct members span => do
    let members ← members.mapM fun member => member.elaborate r
    return .struct members span
  | resource kind => throw (.unsupported (.resourceType kind))

/-- The type of an expression. -/
def Resolution.elaborate (r : Renaming) : Resolution → TypesM (Handle .type)
  | handle type => r.type type
  | shape s => do
    let s ← s.elaborate r
    addType ⟨none, s⟩

/-- Adds a type, if it is supported. -/
def Ty.elaborate (r : Renaming) (type : Ty) : TypesM (Option (Handle .type)) := fun types =>
  match type.shape.elaborate r types with
  | .ok shape types =>
    let (h, types) := types.insert ⟨type.name, shape⟩
    .ok (some h) types
  | .error (.unsupported _) types => .ok none types
  | .error (.malformed cause) types => .error (.malformed cause) types

/-- Adds types in order; each may refer to the ones before it. -/
def elaborateTypes (r : Renaming) : List Ty → TypesM Renaming
  | [] => return r
  | type :: rest => do
    let h ← type.elaborate r
    elaborateTypes { r with types := r.types.push h } rest

end Shader.Surface
