import Shader.Json.Value
import Shader.Surface.Program

/-!
# The form of surface modules

Surface modules are exchanged as JSON values.  A record is an object, a variant an object with its
name for the only key, or a text if it has no contents.  The types of the expressions stand apart
from the module, in the order of the expressions.
-/

namespace Shader.Surface

open Json (Value FormError Form readName)

/-- Something that is read from a value. -/
abbrev Read (α : Type) := Except FormError α

/-! ### Names -/

def builtInNames : List (String × IR.BuiltIn) :=
  [("VertexIndex", .vertexIndex), ("InstanceIndex", .instanceIndex), ("FrontFacing", .frontFacing),
    ("FragDepth", .fragDepth), ("SampleIndex", .sampleIndex), ("SampleMask", .sampleMask),
    ("GlobalInvocationId", .globalInvocationId), ("LocalInvocationId", .localInvocationId),
    ("LocalInvocationIndex", .localInvocationIndex), ("WorkGroupId", .workgroupId),
    ("NumWorkGroups", .numWorkgroups)]

def interpolationNames : List (String × IR.Interpolation) :=
  [("Perspective", .perspective), ("Linear", .linear), ("Flat", .flat)]

def spaceNames : List (String × AddressSpace) :=
  [("Function", .function), ("Private", .private), ("WorkGroup", .workgroup),
    ("Uniform", .uniform), ("Handle", .handle), ("PushConstant", .pushConstant)]

def stageNames : List (String × IR.Stage) :=
  [("Vertex", .vertex), ("Fragment", .fragment), ("Compute", .compute)]

def atomicNames : List (String × IR.AtomicFunction) :=
  [("Add", .add), ("Subtract", .subtract), ("And", .and), ("ExclusiveOr", .exclusiveOr),
    ("InclusiveOr", .inclusiveOr), ("Min", .min), ("Max", .max)]

/-- What a name stands for. -/
def readNamed {α : Type} (names : List (String × α)) (name : String) : Read α :=
  match names.lookup name with
  | some a => .ok a
  | none => .error (.unknown name)

/-- The names of flags, with bars between them. -/
def readFlags (v : Value) : Read (List String) := return (← Json.read v : String).splitOn " | "

/-! ### Types -/

instance {k : Kind} : Form (Handle k) := ⟨fun v => Handle.mk <$> Json.read v⟩

instance : Form IR.VectorSize := .ofName IR.VectorSize.name IR.VectorSize.all

instance : Form ScalarKind := .ofName ScalarKind.name ScalarKind.all

instance : Form Scalar where
  read v := return ⟨← v.field "kind", ← v.field "width"⟩

instance : Form AddressSpace := .ofVariant fun name v => match name with
  | "Storage" => do
    let access ← readFlags (v.get "access")
    return .storage ⟨access.contains "LOAD", access.contains "STORE"⟩
  | name => readNamed spaceNames name

instance : Form BuiltIn := .ofVariant fun name v => match name with
  | "Position" => return .known (.position (← v.fieldD "invariant" false))
  | name => return ((builtInNames.lookup name).map BuiltIn.known).getD (.other name)

instance : Form IR.Interpolation where
  read v := do readNamed interpolationNames (← Json.read v)

instance : Form Binding := .ofVariant fun name v => match name with
  | "BuiltIn" => .builtIn <$> Json.read v
  | "Location" => return .location (← v.field "location") (← v.field "interpolation")
  | name => throw (.unknown name)

instance : Form StructMember where
  read v := return ⟨← v.field "name", ← v.field "ty", ← v.field "binding", ← v.field "offset"⟩

instance : Form ArraySize := .ofVariant fun name v => match name with
  | "Constant" => .fixed <$> Json.read v
  | "Dynamic" => return .runtime
  | "Pending" => return .pending
  | name => throw (.unknown name)

instance : Form TypeShape := .ofVariant fun name v => match name with
  | "Scalar" => .scalar <$> Json.read v
  | "Vector" => return .vector (← v.field "size") (← v.field "scalar")
  | "Matrix" => return .matrix (← v.field "columns") (← v.field "rows") (← v.field "scalar")
  | "Atomic" => .atomic <$> Json.read v
  | "Pointer" => return .pointer (← v.field "base") (← v.field "space")
  | "ValuePointer" =>
    return .valuePointer (← v.field "size") (← v.field "scalar") (← v.field "space")
  | "Array" => return .array (← v.field "base") (← v.field "size") (← v.field "stride")
  | "Struct" => return .struct (← v.field "members") (← v.field "span")
  | name => .resource <$> readName ResourceKind.name ResourceKind.all name

instance : Form Ty where
  read v := return ⟨← v.field "name", ← v.field "inner"⟩

instance : Form Resolution := .ofVariant fun name v => match name with
  | "Handle" => .handle <$> Json.read v
  | "Value" => .shape <$> Json.read v
  | name => throw (.unknown name)

/-! ### Expressions -/

instance : Form Literal := .ofVariant fun name v => match name with
  | "Bool" => return .concrete (.bool (← Json.read v))
  | "I32" => return .concrete (.i32 (← Json.read v))
  | "U32" => return .concrete (.u32 (← Json.read v))
  | "F32" => return .concrete (.f32 (← Json.read v))
  | "I64" => return .concrete (.i64 (← Json.read v))
  | "U64" => return .concrete (.u64 (← Json.read v))
  | "F64" => return .concrete (.f64 (← Json.read v))
  | "F16" => .f16 <$> Json.read v
  | "AbstractInt" => .abstractInt <$> Json.read v
  | "AbstractFloat" => .abstractFloat <$> Json.read v
  | name => throw (.unknown name)

instance : Form IR.UnaryOp := .ofName IR.UnaryOp.name IR.UnaryOp.all

instance : Form IR.BinaryOp := .ofName operatorName IR.BinaryOp.all

instance : Form IR.Component := .ofName IR.Component.name IR.Component.all

instance : Form (Vector IR.Component 4) where
  read v := do
    match ← v.items.mapM Json.read with
    | [a, b, c, d] => return #v[a, b, c, d]
    | _ => throw (.expected "four components")

instance : Form MathFunction where
  read v := do
    let name ← Json.read v
    return ((IR.MathFunction.ofName? name).map MathFunction.known).getD (.other name)

instance : Form DerivativeAxis := .ofName DerivativeAxis.name DerivativeAxis.all

instance : Form DerivativeControl := .ofName DerivativeControl.name DerivativeControl.all

instance : Form RelationalFunction := .ofName RelationalFunction.name RelationalFunction.values

instance : Form SampleLevel := .ofVariant fun name v => match name with
  | "Auto" => return .auto
  | "Zero" => return .zero
  | "Exact" => .exact <$> Json.read v
  | "Bias" => .bias <$> Json.read v
  | "Gradient" => return .gradient (← v.field "x") (← v.field "y")
  | name => throw (.unknown name)

instance : Form ImageQuery := .ofVariant fun name v => match name with
  | "Size" => return .size (← v.field "level")
  | "NumLevels" => return .levels
  | "NumLayers" => return .layers
  | "NumSamples" => return .samples
  | name => throw (.unknown name)

instance : Form ImageSample where
  read v :=
    return {
      image := ← v.field "image"
      sampler := ← v.field "sampler"
      gather := ← v.field "gather"
      coordinate := ← v.field "coordinate"
      arrayIndex := ← v.field "array_index"
      offset := ← v.field "offset"
      level := ← v.field "level"
      depthReference := ← v.field "depth_ref"
      clampToEdge := ← v.fieldD "clamp_to_edge" false }

def readUnsupported (name : String) (v : Value) : Read UnsupportedExpression :=
  match name with
  | "ImageSample" => .imageSample <$> Json.read v
  | "ImageLoad" =>
    return .imageLoad (← v.field "image") (← v.field "coordinate")
      (← v.field "array_index") (← v.field "sample") (← v.field "level")
  | "ImageQuery" => return .imageQuery (← v.field "image") (← v.field "query")
  | "Derivative" => return .derivative (← v.field "axis") (← v.field "ctrl") (← v.field "expr")
  | "Relational" => return .relational (← v.field "fun") (← v.field "argument")
  | "RayQueryProceedResult" => return .rayQueryProceedResult
  | "RayQueryGetIntersection" =>
    return .rayQueryIntersection (← v.field "query") (← v.field "committed")
  | "RayQueryVertexPositions" =>
    return .rayQueryVertexPositions (← v.field "query") (← v.field "committed")
  | "SubgroupBallotResult" => return .subgroupBallotResult
  | "SubgroupOperationResult" => return .subgroupOperationResult (← v.field "ty")
  | "WorkGroupUniformLoadResult" => return .workgroupUniformLoadResult (← v.field "ty")
  | name => throw (.unknown name)

instance : Form Expression := .ofVariant fun name v => match name with
  | "Literal" => .literal <$> Json.read v
  | "Constant" => .constant <$> Json.read v
  | "Override" => .override <$> Json.read v
  | "ZeroValue" => .zeroValue <$> Json.read v
  | "Compose" => return .compose (← v.field "ty") (← v.field "components")
  | "Access" => return .access (← v.field "base") (← v.field "index")
  | "AccessIndex" => return .accessIndex (← v.field "base") (← v.field "index")
  | "Splat" => return .splat (← v.field "size") (← v.field "value")
  | "Swizzle" => return .swizzle (← v.field "size") (← v.field "vector") (← v.field "pattern")
  | "FunctionArgument" => .argument <$> Json.read v
  | "GlobalVariable" => .globalVariable <$> Json.read v
  | "LocalVariable" => .localVariable <$> Json.read v
  | "Load" => return .load (← v.field "pointer")
  | "Unary" => return .unary (← v.field "op") (← v.field "expr")
  | "Binary" => return .binary (← v.field "op") (← v.field "left") (← v.field "right")
  | "Select" => return .select (← v.field "condition") (← v.field "accept") (← v.field "reject")
  | "Math" =>
    return .math (← v.field "fun") (← v.field "arg") (← v.field "arg1")
      (← v.field "arg2") (← v.field "arg3")
  | "As" => return .cast (← v.field "expr") (← v.field "kind") (← v.field "convert")
  | "CallResult" => .callResult <$> Json.read v
  | "AtomicResult" => return .atomicResult (← v.field "ty") (← v.field "comparison")
  | "ArrayLength" => .arrayLength <$> Json.read v
  | name => .unsupported <$> readUnsupported name v

/-- Expressions, each with the type that stands in its place in another list. -/
def readTyped (expressions types : Value) : Read (List TypedExpression) := do
  let expressions : List Expression ← Json.read expressions
  let types : List Resolution ← Json.read types
  return expressions.zipWith TypedExpression.mk types

/-! ### Statements -/

instance : Form IR.SwitchValue := .ofVariant fun name v => match name with
  | "Default" => return .default
  | "I32" => .i32 <$> Json.read v
  | "U32" => .u32 <$> Json.read v
  | name => throw (.unknown name)

instance : Form IR.AtomicFunction := .ofVariant fun name v => match name with
  | "Exchange" => return .exchange (← v.field "compare")
  | name => readNamed atomicNames name

def readBarrier (v : Value) : Read IR.Barrier := do
  let memory ← readFlags v
  return ⟨memory.contains "STORAGE", memory.contains "WORK_GROUP"⟩

/-- Reads a statement from a value that nests no further than a bound. -/
def readStatement : Nat → Value → Read Statement
  | 0, _ => throw (.expected "a statement")
  | bound + 1, v => do
    let body (v : Value) : Read (List Statement) := v.items.mapM (readStatement bound)
    let switchCase (v : Value) : Read SwitchCase :=
      return ⟨← v.field "value", ← body (v.get "body"), ← v.fieldD "fall_through" false⟩
    let (name, v) ← v.variant
    match name with
    | "Emit" => return .emit ⟨← v.field "start", ← v.field "end"⟩
    | "Block" => .block <$> body v
    | "If" =>
      return .ifElse (← v.field "condition") (← body (v.get "accept")) (← body (v.get "reject"))
    | "Switch" => return .switch (← v.field "selector") (← (v.get "cases").items.mapM switchCase)
    | "Loop" =>
      return .loop (← body (v.get "body")) (← body (v.get "continuing")) (← v.field "break_if")
    | "Break" => return .break
    | "Continue" => return .continue
    | "Kill" => return .kill
    | "Return" => return .return (← v.field "value")
    | "Store" => return .store (← v.field "pointer") (← v.field "value")
    | "Call" => return .call (← v.field "function") (← v.field "arguments") (← v.field "result")
    | "Atomic" =>
      return .atomic (← v.field "pointer") (← v.field "fun") (← v.field "value")
        (← v.field "result")
    | "ControlBarrier" | "MemoryBarrier" => .barrier <$> readBarrier v
    | name => return .other name

instance : Form Statement := ⟨fun v => readStatement v.depth v⟩

/-! ### Functions and modules -/

instance : Form Argument where
  read v := return ⟨← v.field "name", ← v.field "ty", ← v.field "binding"⟩

instance : Form Result where
  read v := return ⟨← v.field "ty", ← v.field "binding"⟩

instance : Form LocalVariable where
  read v := return ⟨← v.field "name", ← v.field "ty", ← v.field "init"⟩

/-- The names of expressions, an object with the digits of handles for its keys. -/
def readNames (v : Value) : Read (List (Handle .expression × String)) :=
  v.fields.mapM fun (key, name) => do
    return (⟨(← Json.readDigits (.text key)).toNat⟩, ← Json.read name)

def readFunction (v types : Value) : Read Function :=
  return {
    name := ← v.field "name"
    arguments := ← v.field "arguments"
    result := ← v.field "result"
    locals := ← v.field "local_variables"
    expressions := ← readTyped (v.get "expressions") types
    named := ← readNames (v.get "named_expressions")
    body := ← v.field "body" }

def readStage (v : Value) : Read Stage := do
  let name ← Json.read v
  return ((stageNames.lookup name).map Stage.known).getD (.other name)

/-- The three sizes of a workgroup; one that is missing is zero. -/
def readSize (v : Value) : Read (UInt32 × UInt32 × UInt32) := do
  let sizes : List UInt32 ← Json.read v
  return (sizes.getD 0 0, sizes.getD 1 0, sizes.getD 2 0)

def readEntryPoint (v types : Value) : Read EntryPoint :=
  return {
    name := ← v.field "name"
    stage := ← readStage (v.get "stage")
    workgroupSize := ← readSize (v.get "workgroup_size")
    overridesSize := !(v.get "workgroup_size_overrides").isNull
    function := ← readFunction (v.get "function") types }

instance : Form Constant where
  read v := return ⟨← v.field "init"⟩

instance : Form Override where
  read v := return ⟨← v.field "name", ← v.field "id", ← v.field "ty", ← v.field "init"⟩

instance : Form IR.ResourceBinding where
  read v := return ⟨← v.field "group", ← v.field "binding"⟩

instance : Form GlobalVariable where
  read v :=
    return ⟨← v.field "name", ← v.field "space", ← v.field "binding", ← v.field "ty",
      ← v.field "init"⟩

/-- Reads the items of a list, each with the types of its expressions. -/
def readEach {α : Type} (one : Value → Value → Read α) (v types : Value) : Read (List α) :=
  v.items.zipIdx.mapM fun (item, index) => one item (types.item index)

/-- Reads a module, given the types of its expressions. -/
def Module.ofForm (v types : Value) : Read Module :=
  return {
    types := ← v.field "types"
    constants := .ofList (← v.field "constants")
    overrides := ← v.field "overrides"
    globals := ← v.field "global_variables"
    expressions := ← readTyped (v.get "global_expressions") (types.get "global")
    functions := ← readEach readFunction (v.get "functions") (types.get "functions")
    entryPoints := ← readEach readEntryPoint (v.get "entry_points") (types.get "entry_points") }

end Shader.Surface
