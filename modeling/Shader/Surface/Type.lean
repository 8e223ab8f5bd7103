import Shader.IR.Type

/-!
# Types of the surface language

The types that a program has before elaboration.  Numbers may still be abstract, some types are
those of resources, and some values live in address spaces that programs do not have after
elaboration.
-/

namespace Shader.Surface

inductive ScalarKind where
  | bool
  | sint
  | uint
  | float
  | abstractInt
  | abstractFloat
deriving DecidableEq, Repr

namespace ScalarKind

def all : List ScalarKind := [.bool, .sint, .uint, .float, .abstractInt, .abstractFloat]

theorem mem_all (k : ScalarKind) : k ∈ all := by cases k <;> decide

def name : ScalarKind → String
  | bool => "Bool"
  | sint => "Sint"
  | uint => "Uint"
  | float => "Float"
  | abstractInt => "AbstractInt"
  | abstractFloat => "AbstractFloat"

end ScalarKind

structure Scalar where
  kind : ScalarKind
  width : UInt8
deriving DecidableEq, Repr

inductive AddressSpace where
  | function
  | «private»
  | workgroup
  | uniform
  | storage (access : IR.StorageAccess)
  /-- The space of textures and samplers. -/
  | handle
  | pushConstant
deriving DecidableEq, Repr

/-- A built-in value: one that programs can use after elaboration, or another one by name. -/
inductive BuiltIn where
  | known (builtIn : IR.BuiltIn)
  | other (name : String)
deriving DecidableEq, Repr

inductive Binding where
  | builtIn (builtIn : BuiltIn)
  | location (location : UInt32) (interpolation : Option IR.Interpolation)
deriving DecidableEq, Repr

inductive ArraySize where
  | fixed (length : UInt32)
  | runtime
  /-- A length that an override decides. -/
  | pending
deriving DecidableEq, Repr

structure StructMember where
  name : Option String
  type : Handle .type
  binding : Option Binding
  offset : UInt32
deriving DecidableEq, Repr

/-- Types of things outside the program. -/
inductive ResourceKind where
  | image
  | sampler
  | accelerationStructure
  | rayQuery
  | bindingArray
deriving DecidableEq, Repr

namespace ResourceKind

def all : List ResourceKind := [.image, .sampler, .accelerationStructure, .rayQuery, .bindingArray]

theorem mem_all (k : ResourceKind) : k ∈ all := by cases k <;> decide

def name : ResourceKind → String
  | image => "Image"
  | sampler => "Sampler"
  | accelerationStructure => "AccelerationStructure"
  | rayQuery => "RayQuery"
  | bindingArray => "BindingArray"

end ResourceKind

inductive TypeShape where
  | scalar (scalar : Scalar)
  | vector (size : IR.VectorSize) (scalar : Scalar)
  | matrix (columns rows : IR.VectorSize) (scalar : Scalar)
  | atomic (scalar : Scalar)
  | pointer (base : Handle .type) (space : AddressSpace)
  /-- A pointer to a scalar or vector that has no handle of its own. -/
  | valuePointer (size : Option IR.VectorSize) (scalar : Scalar) (space : AddressSpace)
  | array (base : Handle .type) (size : ArraySize) (stride : UInt32)
  | struct (members : List StructMember) (span : UInt32)
  | resource (kind : ResourceKind)
deriving DecidableEq, Repr

structure Ty where
  name : Option String
  shape : TypeShape
deriving DecidableEq, Repr

/-- The type that was found for an expression. -/
inductive Resolution where
  | handle (type : Handle .type)
  | shape (shape : TypeShape)
deriving DecidableEq, Repr

end Shader.Surface
