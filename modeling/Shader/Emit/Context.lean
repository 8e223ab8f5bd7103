import Shader.Assembly.ControlStack
import Shader.Assembly.Declaration
import Shader.Emit.Deferral
import Shader.Emit.Fault
import Shader.IR.Module

/-!
# What emission works with

Emission reads an environment, the program and the options, and keeps its progress: the module
under construction and the ids that handles of the program stand for so far.  Inside a function
it also keeps the values of expressions, and a trail of the order they were found in, so that
those of a block that ends can be forgotten.
-/

namespace Shader.Emit

open Assembly (Id Version ControlStack)

structure Options where
  version : Version := ⟨1, 3⟩
  generator : UInt32 := 0
  /-- Whether debug names are written. -/
  debugNames : Bool := true
deriving DecidableEq, Repr

structure Env where
  module : IR.Module
  options : Options
  /-- How far references between handles are followed. -/
  depth : Nat

namespace Env

/-- A depth that no chain of types, or of constant expressions, without a circle exceeds. -/
def depthOf (m : IR.Module) : Nat := m.types.size + m.constants.size + 1

def of (module : IR.Module) (options : Options) : Env := ⟨module, options, depthOf module⟩

/-- The environment inside a function, whose expressions refer to each other as well. -/
def within (env : Env) (f : IR.Function) : Env :=
  { env with depth := env.depth + f.expressions.size }

end Env

/-! ### Ids of handles -/

/-- The ids that some of the handles of an arena stand for. -/
structure Slots (kind : Kind) where
  ids : Array (Option Id) := #[]
deriving DecidableEq, Repr

namespace Slots

variable {kind : Kind}

def empty (size : Nat) : Slots kind := ⟨Array.replicate size none⟩

def get? (s : Slots kind) (h : Handle kind) : Option Id := s.ids.getD h.index none

def set (s : Slots kind) (h : Handle kind) (id : Option Id) : Slots kind :=
  ⟨s.ids.setIfInBounds h.index id⟩

end Slots

/-- The values of expressions, and the expressions in the order they got them, latest first. -/
structure Valuation where
  slots : Slots .expression
  trail : List (Handle .expression) := []
deriving DecidableEq, Repr

namespace Valuation

def get? (v : Valuation) (h : Handle .expression) : Option Id := v.slots.get? h

/-- Gives an expression of the arena its value. -/
def set (v : Valuation) (h : Handle .expression) (id : Id) : Valuation :=
  if h.index < v.slots.ids.size then ⟨v.slots.set h (some id), h :: v.trail⟩ else v

/-- A point in time to return to. -/
def mark (v : Valuation) : Nat := v.trail.length

/-- Forgets the values found since a point in time. -/
def rewind (v : Valuation) (mark : Nat) : Valuation :=
  let count := v.trail.length - mark
  ⟨(v.trail.take count).foldl (fun slots h => slots.set h none) v.slots, v.trail.drop count⟩

end Valuation

/-! ### Progress -/

/-- How a global variable is reached. -/
structure GlobalPlace where
  id : Id
  /-- The type of pointers to the contents, where these are the first member of a struct that
  wraps them. -/
  contents : Option Id
deriving DecidableEq, Repr

structure Progress where
  assembly : Assembly.Module
  types : Slots .type
  constants : Slots .expression
  overrides : Array Id := #[]
  globals : Array GlobalPlace := #[]
  functions : Array Id := #[]
  /-- The functions that failed. -/
  faults : Array FunctionFault := #[]

def Progress.initial (env : Env) : Progress where
  assembly := { debugNames := env.options.debugNames }
  types := .empty env.module.types.size
  constants := .empty env.module.constants.size

/-- A step of emission; its progress survives its failure. -/
abbrev EmitM := EStateM Fault Progress

instance : MonadLift Assembly.BuildM EmitM where
  monadLift act := fun ⟨assembly, types, constants, overrides, globals, functions, faults⟩ =>
    match act assembly with
    | .ok value assembly =>
      .ok value ⟨assembly, types, constants, overrides, globals, functions, faults⟩
    | .error fault assembly =>
      .error (.construction fault)
        ⟨assembly, types, constants, overrides, globals, functions, faults⟩

instance : MonadLift (Except Fault) EmitM where
  monadLift
    | .ok value => pure value
    | .error fault => throw fault

instance : MonadLift (Except IR.Error) EmitM where
  monadLift
    | .ok value => pure value
    | .error error => throw (.malformed error)

/-! ### Inside a function -/

/-- A variable through which a value enters or leaves an entry point. -/
structure InterfaceVariable where
  id : Id
  /-- The member of a struct that the variable holds, and its type. -/
  member : Option (UInt32 × Id)
  /-- The type of pointers to the value, where it is the one element of an array. -/
  element : Option Id
deriving DecidableEq, Repr

/-- A function, as its statements see it. -/
structure FunctionEnv extends Env where
  function : IR.Function
  name : String
  /-- The type of the result. -/
  result : Option Id
  /-- The variables that the result of an entry point goes to. -/
  outputs : List InterfaceVariable
  /-- Which expressions are computed only when they are needed. -/
  deferred : Array Bool

structure Body where
  progress : Progress
  values : Valuation
  arguments : Array Id := #[]
  locals : Array Id := #[]
  /-- Pointers to the contents of global variables that are wrapped. -/
  contents : Array (Option Id) := #[]
  flow : ControlStack := {}

abbrev BodyM := EStateM Fault Body

instance : MonadLift EmitM BodyM where
  monadLift act := fun ⟨progress, values, arguments, locals, contents, flow⟩ =>
    match act progress with
    | .ok value progress => .ok value ⟨progress, values, arguments, locals, contents, flow⟩
    | .error fault progress => .error fault ⟨progress, values, arguments, locals, contents, flow⟩

/-- Runs the emission of a body. -/
def inBody {α : Type} (f : IR.Function) (arguments : Array Id) (act : BodyM α) : EmitM α :=
  fun progress =>
    match act { progress, values := { slots := .empty f.expressions.size }, arguments } with
    | .ok value body => .ok value body.progress
    | .error fault body => .error fault body.progress

end Shader.Emit
