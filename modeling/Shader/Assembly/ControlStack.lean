import Shader.Assembly.Fault

/-!
# The stack of open constructs

The constructs around the point of emission, innermost first, with the blocks that leaving or
continuing them leads to.
-/

namespace Shader.Assembly

inductive Construct where
  | selection
  | loop
  | switch
deriving DecidableEq, Repr

/-- A construct that is open. -/
structure Frame where
  /-- The block after the construct. -/
  merge : Id
  /-- The block that starts the next round. -/
  continuing : Option Id
  construct : Construct
deriving DecidableEq, Repr

structure ControlStack where
  frames : List Frame := []
deriving DecidableEq, Repr

namespace ControlStack

def depth (s : ControlStack) : Nat := s.frames.length

/-- The innermost loop. -/
def loop? (s : ControlStack) : Option Frame := s.frames.find? (·.construct = .loop)

/-- The innermost construct that can be broken out of. -/
def breakable? (s : ControlStack) : Option Frame := s.frames.find? (·.construct ≠ .selection)

def pushSelection (s : ControlStack) (merge : Id) : ControlStack :=
  ⟨⟨merge, none, .selection⟩ :: s.frames⟩

def pushLoop (s : ControlStack) (merge continuing : Id) : ControlStack :=
  ⟨⟨merge, some continuing, .loop⟩ :: s.frames⟩

/-- Enters a switch, in which continuing leads where it leads in the loop around it. -/
def pushSwitch (s : ControlStack) (merge : Id) : ControlStack :=
  ⟨⟨merge, s.loop?.bind Frame.continuing, .switch⟩ :: s.frames⟩

/-- Leaves the innermost construct. -/
def pop (s : ControlStack) : Except Fault (Frame × ControlStack) :=
  match s.frames with
  | []             => .error (.inconsistent .emptyControlStack)
  | frame :: outer => .ok (frame, ⟨outer⟩)

def breakTarget (s : ControlStack) : Except Fault Id :=
  match s.breakable? with
  | some frame => .ok frame.merge
  | none       => .error .noTarget

def continueTarget (s : ControlStack) : Except Fault Id :=
  match s.loop?.bind Frame.continuing with
  | some id => .ok id
  | none    => .error .noTarget

end ControlStack

end Shader.Assembly
