import Shader.Arena
import Shader.IR.Binding
import Shader.IR.Scalar

/-!
# Types

A type is a shape with an optional name.  Shapes refer to their component types by handle.
-/

namespace Shader.IR

inductive ArraySize where
  | fixed (length : UInt32)
  | runtime
deriving DecidableEq, Repr

structure StructMember where
  name : Option String
  type : Handle .type
  /-- How the member crosses the border of an entry point. -/
  binding : Option Binding
  offset : UInt32
deriving DecidableEq, Repr

inductive TypeShape where
  | scalar (scalar : Scalar)
  | vector (size : VectorSize) (scalar : Scalar)
  | matrix (columns rows : VectorSize) (scalar : Scalar)
  | atomic (scalar : Scalar)
  | pointer (base : Handle .type) (space : AddressSpace)
  | array (base : Handle .type) (size : ArraySize) (stride : UInt32)
  | struct (members : List StructMember) (span : UInt32)
deriving DecidableEq, Repr

namespace TypeShape

/-- The scalar of a scalar, vector, matrix or atomic. -/
def scalar? : TypeShape → Option Scalar
  | scalar s | vector _ s | matrix _ _ s | atomic s => some s
  | pointer .. | array .. | struct .. => none

def vectorSize? : TypeShape → Option VectorSize
  | vector size _ => some size
  | _ => none

def isPointer : TypeShape → Bool
  | pointer .. => true
  | _ => false

/-- The shape in short, without the types it is built from. -/
def summary : TypeShape → String
  | scalar s => s.text
  | vector size s => s!"vec{size.text}<{s.text}>"
  | matrix columns rows s => s!"mat{columns.text}x{rows.text}<{s.text}>"
  | atomic s => s!"atomic<{s.text}>"
  | pointer .. => "pointer"
  | array .. => "array"
  | struct .. => "struct"

/-- The types the shape is built from. -/
def components : TypeShape → List (Handle .type)
  | pointer base _ | array base _ _ => [base]
  | struct members _ => members.map (·.type)
  | scalar _ | vector .. | matrix .. | atomic _ => []

end TypeShape

structure Ty where
  name : Option String
  shape : TypeShape
deriving DecidableEq, Repr

end Shader.IR
