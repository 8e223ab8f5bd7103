import Shader.IR.Expression

/-!
# Statements

A function body is a list of statements: side effects and structured control flow.  Expressions
are computed where an `emit` covers them.
-/

namespace Shader.IR

/-- The memory a barrier synchronises. -/
structure Barrier where
  storage : Bool
  workgroup : Bool
deriving DecidableEq, Repr

namespace Barrier

def isEmpty (b : Barrier) : Bool := !b.storage && !b.workgroup

def text (b : Barrier) : String :=
  match b.storage, b.workgroup with
  | true, true => "storageBarrier | workgroupBarrier"
  | true, false => "storageBarrier"
  | false, true => "workgroupBarrier"
  | false, false => "<no barrier>"

end Barrier

/-- One selector of a case. -/
inductive SwitchValue where
  | i32 (value : Int32)
  | u32 (value : UInt32)
  | default
deriving DecidableEq, Repr

namespace SwitchValue

/-- The word a selector is compared with; the default has none. -/
def word? : SwitchValue → Option UInt32
  | i32 v => some v.toUInt32
  | u32 v => some v
  | default => none

def text : SwitchValue → String
  | i32 v => s!"{v.toInt}i"
  | u32 v => s!"{v.toNat}u"
  | default => "default"

end SwitchValue

mutual

inductive Statement where
  /-- Computes a run of expressions here. -/
  | emit (range : HandleRange .expression)
  | block (body : List Statement)
  | store (pointer value : Handle .expression)
  | ifElse (condition : Handle .expression) (accept reject : List Statement)
  | switch (selector : Handle .expression) (cases : List SwitchCase)
  /-- Runs `body`, then `continuing`, until left; `breakIf` leaves after `continuing`. -/
  | loop (body continuing : List Statement) (breakIf : Option (Handle .expression))
  | call (function : Handle .function) (arguments : List (Handle .expression))
      (result : Option (Handle .expression))
  | atomic (pointer : Handle .expression) (function : AtomicFunction)
      (value : Handle .expression) (result : Option (Handle .expression))
  | «break»
  | «continue»
  | «return» (value : Option (Handle .expression))
  | kill
  | barrier (barrier : Barrier)

/-- A case of a switch: any of `values` runs `body`. -/
structure SwitchCase where
  values : List SwitchValue
  body : List Statement

end

instance : Inhabited Statement := ⟨.kill⟩

/-- The case takes the selectors no case lists. -/
def SwitchCase.isDefault (c : SwitchCase) : Bool := c.values.contains .default

/-- Control does not go on behind the statement. -/
def Statement.isTerminator : Statement → Bool
  | «break» | «continue» | «return» _ | kill => true
  | _ => false

end Shader.IR
