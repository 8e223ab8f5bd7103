import Shader.Assembly.Instruction
import Shader.Assembly.Opcode.Name

/-!
# Faults of construction

What can be wrong with a request to the module under construction.
-/

namespace Shader.Assembly

/-- A step that the state of the construction does not allow. -/
inductive Inconsistency where
  /-- A function was opened inside another one. -/
  | functionOpen (new current : Id)
  /-- A block was begun inside another one. -/
  | blockOpen (new current : Id)
  /-- An instruction was emitted where no block is open. -/
  | outsideBlock (op : Opcode)
  /-- A terminator was emitted where no block is open. -/
  | nothingToTerminate (op : Opcode)
  /-- A function without blocks was closed. -/
  | noBlocks (function : Id)
  /-- A function was closed inside a block. -/
  | unterminated (block function : Id)
  /-- A construct was left that was never entered. -/
  | emptyControlStack
deriving DecidableEq, Repr

def Inconsistency.message : Inconsistency → String
  | .functionOpen new current =>
    s!"function {new.text} opened while {current.text} is still open"
  | .blockOpen new current    => s!"block {new.text} started while {current.text} is still open"
  | .outsideBlock op          => s!"{op.text} emitted outside an open block"
  | .nothingToTerminate op    => s!"{op.text} has no open block to terminate"
  | .noBlocks function        => s!"function {function.text} has no blocks"
  | .unterminated block function =>
    s!"block {block.text} in function {function.text} has no terminator"
  | .emptyControlStack        => "control-flow stack underflow"

inductive Fault where
  /-- No function is open. -/
  | noFunction
  /-- No construct to break out of, or to continue, is open. -/
  | noTarget
  | inconsistent (cause : Inconsistency)
deriving DecidableEq, Repr

def Fault.message : Fault → String
  | .noFunction         => "no function is being built"
  | .noTarget           => "`break` or `continue` outside of a loop or switch"
  | .inconsistent cause => s!"internal consistency: {cause.message}"

end Shader.Assembly
