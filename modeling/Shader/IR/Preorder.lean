import Shader.IR.Function

/-!
# Reads and the preorder of a body

Two views of a body.  Its reads are the expressions its statements use directly.  Its marks are
its emits in preorder, with a boundary for every side effect and for every place where a nested
construct begins, changes from one part to the next, or ends.  Between two emits without a
boundary nothing happens that the value of an expression could depend on; the number of
boundaries before an emit is its epoch.
-/

namespace Shader.IR

/-! ### Reads -/

def AtomicFunction.reads : AtomicFunction → List (Handle .expression)
  | exchange (some compare) => [compare]
  | _ => []

mutual

/-- The expressions a statement, or a statement inside it, uses directly. -/
def Statement.reads : Statement → List (Handle .expression)
  | .emit _ | .break | .continue | .kill | .barrier _ => []
  | .block body => bodyReads body
  | .store pointer value => [pointer, value]
  | .ifElse condition accept reject => condition :: (bodyReads accept ++ bodyReads reject)
  | .switch selector cases => selector :: casesReads cases
  | .loop body continuing breakIf => bodyReads body ++ bodyReads continuing ++ breakIf.toList
  | .call _ arguments _ => arguments
  | .atomic pointer function value _ => pointer :: value :: function.reads
  | .return value => value.toList
termination_by structural s => s

def bodyReads : List Statement → List (Handle .expression)
  | [] => []
  | s :: rest => s.reads ++ bodyReads rest
termination_by structural body => body

def casesReads : List SwitchCase → List (Handle .expression)
  | [] => []
  | c :: rest => caseReads c ++ casesReads rest
termination_by structural cases => cases

def caseReads : SwitchCase → List (Handle .expression)
  | ⟨_, body⟩ => bodyReads body
termination_by structural c => c

end

/-! ### Marks and epochs -/

inductive Mark where
  | emit (range : HandleRange .expression)
  | boundary
deriving DecidableEq, Repr

mutual

def Statement.marks : Statement → List Mark
  | .emit range => [.emit range]
  | .store .. | .call .. | .atomic .. | .barrier _ => [.boundary]
  | .block body => .boundary :: (bodyMarks body ++ [.boundary])
  | .ifElse _ accept reject =>
    .boundary :: (bodyMarks accept ++ .boundary :: (bodyMarks reject ++ [.boundary]))
  | .switch _ cases => casesMarks cases ++ [.boundary]
  | .loop body continuing _ =>
    .boundary :: (bodyMarks body ++ .boundary :: (bodyMarks continuing ++ [.boundary]))
  | .break | .continue | .return _ | .kill => []
termination_by structural s => s

def bodyMarks : List Statement → List Mark
  | [] => []
  | s :: rest => s.marks ++ bodyMarks rest
termination_by structural body => body

def casesMarks : List SwitchCase → List Mark
  | [] => []
  | c :: rest => .boundary :: (caseMarks c ++ casesMarks rest)
termination_by structural cases => cases

def caseMarks : SwitchCase → List Mark
  | ⟨_, body⟩ => bodyMarks body
termination_by structural c => c

end

/-- The epoch of the last emit that covers an expression, counting from `epoch`; `found` if none
does. -/
def epochFrom (h : Handle .expression) (epoch : Nat) (found : Option Nat) :
    List Mark → Option Nat
  | [] => found
  | .boundary :: rest => epochFrom h (epoch + 1) found rest
  | .emit range :: rest => epochFrom h epoch (if range.covers h then some epoch else found) rest

/-- The epoch of the last emit that covers an expression. -/
def epoch? (marks : List Mark) (h : Handle .expression) : Option Nat := epochFrom h 0 none marks

namespace Function

/-- The expressions that use an expression as an operand. -/
def users (f : Function) (h : Handle .expression) : List (Handle .expression × Expression) :=
  f.expressions.entries.filter fun (_, e) => e.operands.contains h

end Function

end Shader.IR
