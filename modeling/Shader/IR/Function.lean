import Shader.IR.Error
import Shader.IR.Statement

/-!
# Functions and entry points

A function owns an arena of expressions, each with its resolved type, and a body of statements
over them.
-/

namespace Shader.IR

/-- Expressions with their resolved types.  Types may be missing for a tail of the arena. -/
structure ExpressionArena extends Arena .expression Expression where
  types : Array (Handle .type) := #[]

namespace ExpressionArena

instance : Inhabited ExpressionArena := ⟨{}⟩

def add (a : ExpressionArena) (e : Expression) (type : Handle .type) :
    Handle .expression × ExpressionArena :=
  (a.nextHandle, { items := a.items.push e, types := a.types.push type })

/-- The expression behind a handle. -/
def fetch (a : ExpressionArena) (h : Handle .expression) : Except Error Expression :=
  match a.get? h with
  | some e => .ok e
  | none => .error (.badHandle h.index a.size)

/-- The resolved type of an expression. -/
def typeOf (a : ExpressionArena) (h : Handle .expression) : Except Error (Handle .type) :=
  if a.size ≤ h.index then .error (.badHandle h.index a.size)
  else match a.types[h.index]? with
    | some type => .ok type
    | none => .error (.missingType h.index)

end ExpressionArena

structure Argument where
  name : Option String
  type : Handle .type
  binding : Option Binding
deriving DecidableEq, Repr

structure Result where
  type : Handle .type
  binding : Option Binding
deriving DecidableEq, Repr

structure LocalVariable where
  name : Option String
  type : Handle .type
  init : Option (Handle .expression)
deriving DecidableEq, Repr

structure Function where
  name : Option String := none
  arguments : List Argument := []
  result : Option Result := none
  locals : Arena .localVariable LocalVariable := {}
  expressions : ExpressionArena := {}
  /-- Names of expressions, by increasing handle. -/
  named : List (Handle .expression × String) := []
  body : List Statement := []
deriving Inhabited

namespace Function

/-- The name of an expression. -/
def nameOf? (f : Function) (h : Handle .expression) : Option String := f.named.lookup h

/-- Gives an expression a name in a list of names; a later name replaces an earlier one. -/
def insertName (h : Handle .expression) (name : String) :
    List (Handle .expression × String) → List (Handle .expression × String)
  | [] => [(h, name)]
  | (g, other) :: rest =>
    if h.index < g.index then (h, name) :: (g, other) :: rest
    else if h = g then (h, name) :: rest
    else (g, other) :: insertName h name rest

end Function

structure EntryPoint where
  name : String
  stage : Stage
  workgroupSize : UInt32 × UInt32 × UInt32
  function : Function

/-- A compute entry point needs a workgroup without a zero dimension. -/
def EntryPoint.validate (e : EntryPoint) : Except Error Unit :=
  let (x, y, z) := e.workgroupSize
  if e.stage = .compute ∧ (x = 0 ∨ y = 0 ∨ z = 0) then .error (.workgroupSize x y z) else .ok ()

end Shader.IR
