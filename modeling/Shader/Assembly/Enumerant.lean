/-!
# Enumerants

Literal words with a fixed meaning in the target instruction set.
-/

namespace Shader.Assembly

/-- How an id or a member of a struct is decorated. -/
structure Decoration where
  word : UInt32
deriving DecidableEq, Repr

namespace Decoration

def specId : Decoration := ⟨1⟩
def block : Decoration := ⟨2⟩
def bufferBlock : Decoration := ⟨3⟩
def colMajor : Decoration := ⟨5⟩
def arrayStride : Decoration := ⟨6⟩
def matrixStride : Decoration := ⟨7⟩
def builtIn : Decoration := ⟨11⟩
def noPerspective : Decoration := ⟨13⟩
def flat : Decoration := ⟨14⟩
def invariant : Decoration := ⟨18⟩
def nonWritable : Decoration := ⟨24⟩
def location : Decoration := ⟨30⟩
def binding : Decoration := ⟨33⟩
def descriptorSet : Decoration := ⟨34⟩
def offset : Decoration := ⟨35⟩

end Decoration

/-- Where a pointer points. -/
structure StorageClass where
  word : UInt32
deriving DecidableEq, Repr

namespace StorageClass

def input : StorageClass := ⟨1⟩
def uniform : StorageClass := ⟨2⟩
def output : StorageClass := ⟨3⟩
def workgroup : StorageClass := ⟨4⟩
def «private» : StorageClass := ⟨6⟩
def function : StorageClass := ⟨7⟩
def storageBuffer : StorageClass := ⟨12⟩

end StorageClass

/-- What a module asks of its consumer. -/
structure Capability where
  word : UInt32
deriving DecidableEq, Repr

namespace Capability

def shader : Capability := ⟨1⟩
def float16 : Capability := ⟨9⟩
def float64 : Capability := ⟨10⟩
def int64 : Capability := ⟨11⟩
def int16 : Capability := ⟨22⟩
def sampleRateShading : Capability := ⟨35⟩
def int8 : Capability := ⟨39⟩

end Capability

/-- The pipeline stage of an entry point. -/
structure ExecutionModel where
  word : UInt32
deriving DecidableEq, Repr

namespace ExecutionModel

def vertex : ExecutionModel := ⟨0⟩
def fragment : ExecutionModel := ⟨4⟩
def compute : ExecutionModel := ⟨5⟩

end ExecutionModel

/-- How an entry point executes. -/
structure ExecutionMode where
  word : UInt32
deriving DecidableEq, Repr

namespace ExecutionMode

def originUpperLeft : ExecutionMode := ⟨7⟩
def depthReplacing : ExecutionMode := ⟨12⟩
def localSize : ExecutionMode := ⟨17⟩

end ExecutionMode

/-- The variables a stage is given or has to fill. -/
structure BuiltInVariable where
  word : UInt32
deriving DecidableEq, Repr

namespace BuiltInVariable

def position : BuiltInVariable := ⟨0⟩
def fragCoord : BuiltInVariable := ⟨15⟩
def frontFacing : BuiltInVariable := ⟨17⟩
def sampleId : BuiltInVariable := ⟨18⟩
def sampleMask : BuiltInVariable := ⟨20⟩
def fragDepth : BuiltInVariable := ⟨22⟩
def numWorkgroups : BuiltInVariable := ⟨24⟩
def workgroupId : BuiltInVariable := ⟨26⟩
def localInvocationId : BuiltInVariable := ⟨27⟩
def globalInvocationId : BuiltInVariable := ⟨28⟩
def localInvocationIndex : BuiltInVariable := ⟨29⟩
def vertexIndex : BuiltInVariable := ⟨42⟩
def instanceIndex : BuiltInVariable := ⟨43⟩

end BuiltInVariable

/-- Logical addressing: pointers are not numbers. -/
def logicalAddressing : UInt32 := 0

/-- The memory model of shading languages. -/
def shadingMemoryModel : UInt32 := 1

/-- No control hint on a selection, a loop or a function. -/
def noControl : UInt32 := 0

/-- Scopes of atomics and barriers. -/
def deviceScope : UInt32 := 1
def workgroupScope : UInt32 := 2

/-- Bits of memory semantics. -/
def acquireRelease : UInt32 := 8
def uniformMemory : UInt32 := 64
def workgroupMemory : UInt32 := 256

end Shader.Assembly
