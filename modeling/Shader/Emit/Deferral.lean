import Shader.IR.Preorder

/-!
# Deferral

The right operand of a short-circuit operator is computed in a block of its own, so that it is
computed only when it matters.  An expression is deferred to that block when nothing else needs
it: no statement reads it, and each of its users is a short-circuit operator that has it on the
right only, or is deferred itself.  It has to stand in the same epoch as its users, so that it
has the same value in the place it is deferred to.
-/

namespace Shader.Emit

open IR (Expression)

/-- The expression stands on the right of a short-circuit operator and not on its left. -/
def onRightOnly (h : Handle .expression) : Expression → Bool
  | .binary op left right => op.isShortCircuit && right == h && left != h
  | _ => false

/-- An expression has its value where its user is computed: either is emitted in the same epoch,
or the operand is not emitted at all. -/
def sameEpoch (operand user : Option Nat) : Bool :=
  match operand, user with
  | none, _ => true
  | some a, some b => a == b
  | some _, none => false

/-- Whether an expression is deferred, given what it needs to know about a function: the
expressions its statements read, the epochs, and which of the later expressions are deferred. -/
def isDeferred (f : IR.Function) (reads : List (Handle .expression))
    (epoch : Handle .expression → Option Nat) (h : Handle .expression) (later : List Bool) : Bool :=
  let users := f.users h
  !users.isEmpty && !reads.contains h && users.all fun (user, e) =>
    sameEpoch (epoch h) (epoch user) &&
      (onRightOnly h e || (h.index < user.index && later.getD (user.index - h.index - 1) false))

/-- Which of the last `count` expressions of a function are deferred. -/
def deferredOfLast (f : IR.Function) (reads : List (Handle .expression))
    (epoch : Handle .expression → Option Nat) : Nat → List Bool
  | 0 => []
  | count + 1 =>
    let later := deferredOfLast f reads epoch count
    isDeferred f reads epoch ⟨f.expressions.size - (count + 1)⟩ later :: later

/-- Which expressions of a function are deferred. -/
def deferred (f : IR.Function) : Array Bool :=
  let marks := IR.bodyMarks f.body
  let epochs := (f.expressions.entries.map fun (h, _) => IR.epoch? marks h).toArray
  (deferredOfLast f (IR.bodyReads f.body) (fun h => epochs.getD h.index none)
    f.expressions.size).toArray

end Shader.Emit
