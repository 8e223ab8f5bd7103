/-!
# Scalars and vector sizes
-/

namespace Shader.IR

inductive ScalarKind where
  | bool
  | sint
  | uint
  | float
deriving DecidableEq, Repr

namespace ScalarKind

def all : List ScalarKind := [.bool, .sint, .uint, .float]

theorem mem_all (k : ScalarKind) : k ∈ all := by cases k <;> decide

def name : ScalarKind → String
  | bool => "Bool"
  | sint => "Sint"
  | uint => "Uint"
  | float => "Float"

/-- The spelling in a listing. -/
def text : ScalarKind → String
  | bool => "bool"
  | sint => "sint"
  | uint => "uint"
  | float => "float"

def isInteger : ScalarKind → Bool
  | sint | uint => true
  | bool | float => false

end ScalarKind

/-- A scalar type: its kind and its width in bytes. -/
structure Scalar where
  kind : ScalarKind
  width : UInt8
deriving DecidableEq, Repr

namespace Scalar

def bool : Scalar := ⟨.bool, 1⟩
def i32 : Scalar := ⟨.sint, 4⟩
def u32 : Scalar := ⟨.uint, 4⟩
def i64 : Scalar := ⟨.sint, 8⟩
def u64 : Scalar := ⟨.uint, 8⟩
def f32 : Scalar := ⟨.float, 4⟩
def f64 : Scalar := ⟨.float, 8⟩

/-- The width in bits. -/
def bits (s : Scalar) : Nat := s.width.toNat * 8

/-- `bool`, `i32`, `f16`: a boolean is written without its width. -/
def text (s : Scalar) : String :=
  match s.kind with
  | .bool => "bool"
  | .sint => s!"i{s.bits}"
  | .uint => s!"u{s.bits}"
  | .float => s!"f{s.bits}"

end Scalar

/-- The number of components of a vector, or of rows or columns of a matrix. -/
inductive VectorSize where
  | two
  | three
  | four
deriving DecidableEq, Repr

namespace VectorSize

def all : List VectorSize := [.two, .three, .four]

theorem mem_all (s : VectorSize) : s ∈ all := by cases s <;> decide

def toNat : VectorSize → Nat
  | two => 2
  | three => 3
  | four => 4

def ofNat? : Nat → Option VectorSize
  | 2 => some two
  | 3 => some three
  | 4 => some four
  | _ => none

def name : VectorSize → String
  | two => "Bi"
  | three => "Tri"
  | four => "Quad"

def toWord (s : VectorSize) : UInt32 := s.toNat.toUInt32

/-- The spelling in a listing. -/
def text (s : VectorSize) : String := s!"{s.toNat}"

end VectorSize

end Shader.IR
