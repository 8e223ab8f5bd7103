import Shader.Emit.Type

/-!
# Constants and overrides

Constant expressions of the program become constants of the module; an override becomes a
constant that can be specialized, with a number to name it by from outside.
-/

namespace Shader.Emit

open Assembly (Id ConstantValue)
open IR (Expression Literal Scalar TypeShape)

/-! ### Constant expressions -/

def overrideId (h : Handle .override) : EmitM Id := do
  match (← get).overrides[h.index]? with
  | some id => return id
  | none => throw (.inconsistent (.undeclaredOverride h))

/-- The constant that an expression of the module becomes, given those of its operands. -/
def constantOf (env : Env) (operand : Handle .expression → EmitM Id) (h : Handle .expression) :
    Expression → EmitM Id
  | .literal literal => Assembly.literalConstant literal
  | .constant value => operand value
  | .override o => overrideId o
  | .zeroValue type => do
    let type ← typeId env type
    Assembly.nullConstant type
  | .compose type components => do
    let type ← typeId env type
    let parts ← components.mapM operand
    let assembly := (← get).assembly
    if parts.any assembly.isSpecialization then
      throw (.unsupported .compositeOfOverrides)
    Assembly.constant type (.composite parts)
  | .splat size value => do
    let type ← typeId env (← env.module.constants.typeOf h)
    let part ← operand value
    Assembly.constant type (.composite (List.replicate size.toNat part))
  | e => throw (.unsupported (.constantExpression e))

def constantIdWithin (env : Env) : Nat → Handle .expression → EmitM Id
  | 0, _ => throw (.inconsistent .circular)
  | depth + 1, h => do
    match (← get).constants.get? h with
    | some id => return id
    | none =>
      let e ← env.module.constants.fetch h
      let id ← constantOf env (constantIdWithin env depth) h e
      modify fun p => { p with constants := p.constants.set h (some id) }
      return id

/-- The id of a constant expression of the program. -/
def constantId (env : Env) (h : Handle .expression) : EmitM Id := constantIdWithin env env.depth h

/-! ### One -/

/-- The bits of one of a numeric scalar type. -/
def oneBits? (scalar : Scalar) : Option ConstantValue :=
  match scalar.kind, scalar.width.toNat with
  | .float, 2 => some (.word 0x3c00)
  | .float, 4 => some (.word 0x3f800000)
  | .float, 8 => some (.wide 0x3ff0000000000000)
  | .sint, 8 | .uint, 8 => some (.wide 1)
  | .sint, _ | .uint, _ => some (.word 1)
  | _, _ => none

def scalarOne (scalar : Scalar) : EmitM Id := do
  match oneBits? scalar with
  | none => throw (.unsupported (.one scalar))
  | some value =>
    let type ← Assembly.scalarType scalar
    Assembly.constant type value

/-- One of a scalar or vector type, given also by its id. -/
def oneConstant (type : Id) : TypeShape → EmitM Id
  | .scalar scalar => scalarOne scalar
  | .vector size scalar => do
    let one ← scalarOne scalar
    Assembly.constant type (.composite (List.replicate size.toNat one))
  | _ => throw (.unsupported .oneOfComposite)

/-! ### Overrides -/

/-- The literal that the initial value of an override comes down to. -/
def overrideLiteralWithin (m : IR.Module) : Nat → Handle .expression → Except Fault Literal
  | 0, _ => .error (.inconsistent .circular)
  | depth + 1, h =>
    match m.constants.fetch h with
    | .error error => .error (.malformed error)
    | .ok (.literal literal) => .ok literal
    | .ok (.constant value) => overrideLiteralWithin m depth value
    | .ok (.zeroValue type) =>
      match m.typeAt type with
      | .error error => .error (.malformed error)
      | .ok { shape := .scalar scalar, .. } =>
        match Literal.zero? scalar with
        | some literal => .ok literal
        | none => .error (.unsupported (.overrideZero scalar))
      | .ok _ => .error (.unsupported .overrideZeroShape)
    | .ok e => .error (.unsupported (.overrideInit e))

/-- The default of an override: its initial value, or zero. -/
def overrideDefault (env : Env) (name : String) (scalar : Scalar) :
    Option (Handle .expression) → Except Fault Literal
  | some init => overrideLiteralWithin env.module env.depth init
  | none =>
    match Literal.zero? scalar with
    | some literal => .ok literal
    | none => .error (.unsupported (.overrideScalar name scalar))

/-- The least number from `next` on that is not claimed. -/
def leastUnclaimed (claimed : List Nat) (next : Nat) : Nat :=
  ((List.range' next (claimed.length + 1)).find? fun n => !claimed.contains n).getD next

/-- The number of an override, and the least number that the next one may take. -/
def overrideNumber (claimed : List Nat) (next : Nat) : Option UInt16 → Nat × Nat
  | some id => (id.toNat, next)
  | none =>
    let number := leastUnclaimed claimed next
    (number, number + 1)

/-- The literal an override has unless it is specialized. -/
def checkedDefault (env : Env) (name : String) (o : IR.Override) : Except Fault Literal := do
  let shape ← match shapeAt env o.type with
    | .ok shape => .ok shape
    | .error error => .error (.malformed error)
  match shape with
  | .scalar scalar =>
    let default ← overrideDefault env name scalar o.init
    if default.scalar = scalar then
      .ok default
    else
      .error (.inconsistent (.overrideDefault name scalar default))
  | _ => .error (.unsupported (.overrideShape name))

def declareOverride (env : Env) (number : Nat) (h : Handle .override) (o : IR.Override) :
    EmitM Unit := do
  let name := o.name.getD s!"override{h.index}"
  let default ← checkedDefault env name o
  let id ← Assembly.specialization default
  Assembly.pushTo .annotations (.decorate id .specId [UInt32.ofNat number])
  Assembly.nameTarget id name
  modify fun p => { p with overrides := p.overrides.push id }

/-- Declares overrides.  Those without a number of their own take the least ones that no override
claims, in order. -/
def declareOverridesFrom (env : Env) (claimed : List Nat) (next : Nat) :
    List (Handle .override × IR.Override) → EmitM Unit
  | [] => pure ()
  | (h, o) :: rest => do
    let (number, next) := overrideNumber claimed next o.id
    declareOverride env number h o
    declareOverridesFrom env claimed next rest

def declareOverrides (env : Env) : EmitM Unit :=
  let overrides := env.module.overrides
  let claimed := overrides.toList.filterMap fun o => o.id.map UInt16.toNat
  declareOverridesFrom env claimed 0 overrides.entries

end Shader.Emit
