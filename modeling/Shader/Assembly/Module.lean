import Shader.Assembly.Encoding
import Shader.Assembly.Function
import Shader.IR.Scalar

/-!
# The module under construction

A module has nine sections of instructions, the functions that are finished, and at most one
draft.  Ids are issued from one upwards, so that the next one is also the bound of those in use.
Types and constants are declared at most once: the module remembers what it declared and under
which id.
-/

namespace Shader.Assembly

/-- The sections in front of the functions. -/
inductive Section where
  | capabilities
  | extensions
  | imports
  | memoryModel
  | entryPoints
  | executionModes
  | debug
  | annotations
  | globals
deriving DecidableEq, Repr

structure Sections where
  capabilities : Array Instruction := #[]
  extensions : Array Instruction := #[]
  imports : Array Instruction := #[]
  memoryModel : Array Instruction := #[]
  entryPoints : Array Instruction := #[]
  executionModes : Array Instruction := #[]
  debug : Array Instruction := #[]
  annotations : Array Instruction := #[]
  globals : Array Instruction := #[]
deriving DecidableEq, Repr

namespace Section

/-- The sections in the order they are written. -/
def all : List Section :=
  [.capabilities, .extensions, .imports, .memoryModel, .entryPoints, .executionModes, .debug,
    .annotations, .globals]

theorem mem_all (s : Section) : s ∈ all := by cases s <;> decide

end Section

namespace Sections

def get (s : Sections) : Section → Array Instruction
  | .capabilities   => s.capabilities
  | .extensions     => s.extensions
  | .imports        => s.imports
  | .memoryModel    => s.memoryModel
  | .entryPoints    => s.entryPoints
  | .executionModes => s.executionModes
  | .debug          => s.debug
  | .annotations    => s.annotations
  | .globals        => s.globals

def push (s : Sections) (i : Instruction) : Section → Sections
  | .capabilities   => { s with capabilities := s.capabilities.push i }
  | .extensions     => { s with extensions := s.extensions.push i }
  | .imports        => { s with imports := s.imports.push i }
  | .memoryModel    => { s with memoryModel := s.memoryModel.push i }
  | .entryPoints    => { s with entryPoints := s.entryPoints.push i }
  | .executionModes => { s with executionModes := s.executionModes.push i }
  | .debug          => { s with debug := s.debug.push i }
  | .annotations    => { s with annotations := s.annotations.push i }
  | .globals        => { s with globals := s.globals.push i }

@[simp] theorem get_push (s : Sections) (i : Instruction) (a b : Section) :
    (s.push i a).get b = if a = b then (s.get b).push i else s.get b := by
  cases a <;> cases b <;> rfl

/-- The instructions of all sections, in the order they are written. -/
def instructions (s : Sections) : List Instruction :=
  Section.all.flatMap fun section_ => (s.get section_).toList

end Sections

/-! ### What types and constants are known by -/

structure MemberLayout where
  type : Id
  name : Option String
  offset : UInt32
  /-- The distance of the columns of a matrix, or of an array of matrices. -/
  matrixStride : Option UInt32
deriving DecidableEq, Repr

/-- A struct, known by its name and those of its members as well. -/
structure StructLayout where
  name : Option String
  members : List MemberLayout
  /-- How the struct is decorated when it wraps a buffer. -/
  block : Option Decoration
deriving DecidableEq, Repr

/-- The structure of a type.  Components other than scalars and vectors are given by their ids. -/
inductive TypeKey where
  | void
  | scalar (scalar : IR.Scalar)
  | vector (scalar : IR.Scalar) (size : UInt32)
  | matrix (columns rows : UInt32) (scalar : IR.Scalar)
  /-- A stride of zero is no stride. -/
  | array (element : Id) (length stride : UInt32)
  | runtimeArray (element : Id) (stride : UInt32)
  | struct (layout : StructLayout)
  | pointer (storage : StorageClass) (pointee : Id)
  | function (result : Id) (parameters : List Id)
deriving DecidableEq, Repr

inductive ConstantValue where
  | bool (value : Bool)
  /-- A scalar of at most 32 bits. -/
  | word (bits : UInt32)
  | wide (bits : UInt64)
  | composite (parts : List Id)
  | null
  /-- A zero that is not the null of its type. -/
  | explicitZero
deriving DecidableEq, Repr

structure ConstantKey where
  type : Id
  value : ConstantValue
deriving DecidableEq, Repr

/-! ### Modules -/

structure Module where
  /-- The next id. -/
  bound : Nat := 1
  sections : Sections := {}
  functions : Array Function := #[]
  draft : Option Draft := none
  /-- The id of the extended set of mathematical functions. -/
  mathImport : Option Id := none
  types : List (TypeKey × Id) := []
  constants : List (ConstantKey × Id) := []
  specializations : List Id := []
  /-- The structs that are decorated as blocks. -/
  blocks : List Id := []
  debugNames : Bool := true
deriving DecidableEq, Repr

/-- A declaration, which cannot fail. -/
abbrev DeclareM := StateM Module

/-- A step of construction; the module survives its failure. -/
abbrev BuildM := EStateM Fault Module

instance : MonadLift DeclareM BuildM where
  monadLift act m :=
    match act m with
    | (value, m) => .ok value m

/-- Issues the next id. -/
def freshId : DeclareM Id :=
  modifyGet fun m => (⟨m.bound⟩, { m with bound := m.bound + 1 })

/-- Appends to a section; a capability that is there already is not repeated. -/
def pushTo (section_ : Section) (i : Instruction) : DeclareM Unit :=
  modify fun m =>
    if section_ = .capabilities ∧ m.sections.capabilities.contains i then m
    else { m with sections := m.sections.push i section_ }

def requireCapability (capability : Capability) : DeclareM Unit :=
  pushTo .capabilities ⟨.capability, [.word capability.word]⟩

/-- The extended set of mathematical functions, imported on first use. -/
def mathImport : DeclareM Id := do
  match (← get).mathImport with
  | some id => return id
  | none =>
    let id ← freshId
    pushTo .imports ⟨.extInstImport, [.id id, .text "GLSL.std.450"]⟩
    modify fun m => { m with mathImport := some id }
    return id

/-! ### Functions -/

/-- Makes a draft with the given head the current one, if there is none. -/
def openFunction (head : FunctionHead) : BuildM Unit := fun m =>
  match m.draft with
  | some draft => .error (.inconsistent (.functionOpen head.id draft.id)) m
  | none       => .ok () { m with draft := some { toFunctionHead := head } }

/-- Changes the current draft; one that cannot be changed stays as it is. -/
def onDraft (change : Draft → Except Inconsistency Draft) : BuildM Unit := fun m =>
  match m.draft with
  | none => .error .noFunction m
  | some draft =>
    match change draft with
    | .ok draft    => .ok () { m with draft := some draft }
    | .error cause => .error (.inconsistent cause) m

def currentDraft : BuildM Draft := fun m =>
  match m.draft with
  | some draft => .ok draft m
  | none       => .error .noFunction m

/-- Checks that the current draft can be finished. -/
def checkDraft : BuildM Unit := do
  let draft ← currentDraft
  match draft.finish with
  | .ok _        => pure ()
  | .error cause => throw (.inconsistent cause)

def beginBlock (label : Id) : BuildM Unit := onDraft (Draft.beginBlock label)

def pushInstruction (i : Instruction) : BuildM Unit := onDraft (Draft.push i)

def terminate (i : Instruction) : BuildM Unit := onDraft (Draft.terminate i)

def addParameter (type id : Id) : BuildM Unit := onDraft fun d => .ok (d.addParameter type id)

def addVariable (i : Instruction) : BuildM Unit := onDraft fun d => .ok (d.addVariable i)

/-- Finishes the current draft.  One that cannot be finished is dropped. -/
def closeFunction : BuildM Unit := fun m =>
  match m.draft with
  | none => .error .noFunction m
  | some draft =>
    match draft.finish with
    | .ok function => .ok () { m with draft := none, functions := m.functions.push function }
    | .error cause => .error (.inconsistent cause) { m with draft := none }

/-- Drops the current draft. -/
def abandonFunction : DeclareM Unit := modify fun m => { m with draft := none }

/-! ### Encoding -/

namespace Module

/-- All instructions: the sections in order, then the functions that are finished. -/
def instructions (m : Module) : List Instruction :=
  m.sections.instructions ++
    m.functions.toList.flatMap fun f => f.instructions ++ [⟨.functionEnd, []⟩]

def header (m : Module) (version : Version) (generator : UInt32) : Header :=
  ⟨version, generator, UInt32.ofNat m.bound⟩

def encode (m : Module) (version : Version) (generator : UInt32) : List UInt32 :=
  (m.header version generator).encode ++ m.instructions.flatMap Instruction.encode

end Module

end Shader.Assembly
