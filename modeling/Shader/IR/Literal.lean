import Shader.IR.Scalar
import Shader.Number.Text
import Shader.Text.Structured

/-!
# Literals

Floating-point literals are kept as bit patterns, so that two literals are equal exactly when
every bit is.
-/

namespace Shader.IR

inductive Literal where
  | bool (value : Bool)
  | i32 (value : Int32)
  | u32 (value : UInt32)
  | i64 (value : Int64)
  | u64 (value : UInt64)
  | f32 (bits : UInt32)
  | f64 (bits : UInt64)
deriving DecidableEq, Repr

namespace Literal

def scalar : Literal → Scalar
  | bool _ => .bool
  | i32 _ => .i32
  | u32 _ => .u32
  | i64 _ => .i64
  | u64 _ => .u64
  | f32 _ => .f32
  | f64 _ => .f64

/-- The integer an integer literal stands for. -/
def integer? : Literal → Option Int
  | i32 v => some v.toInt
  | u32 v => some v.toNat
  | i64 v => some v.toInt
  | u64 v => some v.toNat
  | bool _ | f32 _ | f64 _ => none

/-- The value as an index: a non-negative integer of 32 bits. -/
def index? (l : Literal) : Option UInt32 := do
  let n ← l.integer?
  if 0 ≤ n ∧ n < UInt32.size then some n.toNat.toUInt32 else none

/-- Zero of a scalar type that has literals. -/
def zero? (s : Scalar) : Option Literal :=
  match s.kind, s.width.toNat with
  | .bool, _ => some (bool false)
  | .sint, 4 => some (i32 0)
  | .uint, 4 => some (u32 0)
  | .float, 4 => some (f32 0)
  | .sint, 8 => some (i64 0)
  | .uint, 8 => some (u64 0)
  | .float, 8 => some (f64 0)
  | _, _ => none

/-- The spelling in a listing, with a suffix for the type. -/
def text : Literal → String
  | bool v => Text.bool v
  | i32 v => s!"{v.toInt}i"
  | u32 v => s!"{v.toNat}u"
  | i64 v => s!"{v.toInt}li"
  | u64 v => s!"{v.toNat}lu"
  | f32 b => Number.Format.single.text .listing b.toNat ++ "f"
  | f64 b => Number.Format.double.text .listing b.toNat ++ "lf"

/-- The literal as a structured value. -/
def valueText : Literal → String
  | bool v => Text.applied "Bool" [Text.bool v]
  | i32 v => Text.applied "I32" [s!"{v.toInt}"]
  | u32 v => Text.applied "U32" [s!"{v.toNat}"]
  | i64 v => Text.applied "I64" [s!"{v.toInt}"]
  | u64 v => Text.applied "U64" [s!"{v.toNat}"]
  | f32 b => Text.applied "F32" [Number.Format.single.text .value b.toNat]
  | f64 b => Text.applied "F64" [Number.Format.double.text .value b.toNat]

end Literal

end Shader.IR
