/-!
# Malformed modules
-/

namespace Shader.IR

/-- What can be wrong with a module itself. -/
inductive Error where
  | badHandle (index size : Nat)
  | missingType (index : Nat)
  | workgroupSize (x y z : UInt32)
deriving DecidableEq, Repr

def Error.message : Error → String
  | badHandle index size => s!"handle index {index} out of bounds (arena size: {size})"
  | missingType index => s!"expression [{index}] has no resolved type"
  | workgroupSize x y z => s!"invalid workgroup size: [{x.toNat}, {y.toNat}, {z.toNat}]"

end Shader.IR
