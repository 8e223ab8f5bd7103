/-!
# Address spaces and bindings

Where a variable lives, and how the values that cross the border of an entry point are bound.
-/

namespace Shader.IR

/-- The accesses a storage buffer grants. -/
structure StorageAccess where
  load : Bool
  store : Bool
deriving DecidableEq, Repr

namespace StorageAccess

def isEmpty (a : StorageAccess) : Bool := !a.load && !a.store

def text (a : StorageAccess) : String :=
  match a.load, a.store with
  | true, true => "read_write"
  | true, false => "read"
  | false, true => "write"
  | false, false => "none"

end StorageAccess

inductive AddressSpace where
  | function
  | «private»
  | workgroup
  | uniform
  | storage (access : StorageAccess)
deriving DecidableEq, Repr

namespace AddressSpace

/-- Uniform and storage buffers, which are backed by host memory. -/
def isBuffer : AddressSpace → Bool
  | uniform | storage _ => true
  | function | «private» | workgroup => false

def text : AddressSpace → String
  | function => "function"
  | «private» => "private"
  | workgroup => "workgroup"
  | uniform => "uniform"
  | storage access => s!"storage, {access.text}"

end AddressSpace

/-- A resource slot, `@group(0) @binding(2)`. -/
structure ResourceBinding where
  group : UInt32
  binding : UInt32
deriving DecidableEq, Repr

def ResourceBinding.text (b : ResourceBinding) : String :=
  s!"@group({b.group.toNat}) @binding({b.binding.toNat})"

/-- The built-in inputs and outputs of a stage. -/
inductive BuiltIn where
  | position (invariant : Bool)
  | vertexIndex
  | instanceIndex
  | frontFacing
  | fragDepth
  | sampleIndex
  | sampleMask
  | globalInvocationId
  | localInvocationId
  | localInvocationIndex
  | workgroupId
  | numWorkgroups
deriving DecidableEq, Repr

def BuiltIn.text : BuiltIn → String
  | position _ => "position"
  | vertexIndex => "vertex_index"
  | instanceIndex => "instance_index"
  | frontFacing => "front_facing"
  | fragDepth => "frag_depth"
  | sampleIndex => "sample_index"
  | sampleMask => "sample_mask"
  | globalInvocationId => "global_invocation_id"
  | localInvocationId => "local_invocation_id"
  | localInvocationIndex => "local_invocation_index"
  | workgroupId => "workgroup_id"
  | numWorkgroups => "num_workgroups"

/-- How a value is interpolated between stages. -/
inductive Interpolation where
  | perspective
  | linear
  | flat
deriving DecidableEq, Repr

def Interpolation.text : Interpolation → String
  | perspective => "perspective"
  | linear => "linear"
  | flat => "flat"

/-- The binding of an argument, a result or a struct member. -/
inductive Binding where
  | builtIn (builtIn : BuiltIn)
  | location (location : UInt32) (interpolation : Option Interpolation)
deriving DecidableEq, Repr

def Binding.text : Binding → String
  | builtIn (.position true) => "@builtin(position) @invariant"
  | builtIn b => s!"@builtin({b.text})"
  | location n none => s!"@location({n.toNat})"
  | location n (some i) => s!"@location({n.toNat}) @interpolate({i.text})"

/-- The pipeline stage of an entry point. -/
inductive Stage where
  | vertex
  | fragment
  | compute
deriving DecidableEq, Repr

def Stage.text : Stage → String
  | vertex => "@vertex"
  | fragment => "@fragment"
  | compute => "@compute"

end Shader.IR
