import Shader.Assembly.Fault

/-!
# Functions

A block is a label, a body and a terminator.  A draft is a function under construction: blocks
that are closed and at most one that is open.  A draft with blocks, all of them closed, can be
finished to a function.
-/

namespace Shader.Assembly

/-- A block whose terminator is known. -/
structure Block where
  label : Id
  body : Array Instruction
  terminator : Instruction
deriving DecidableEq, Repr

/-- A block that still takes instructions. -/
structure OpenBlock where
  label : Id
  body : Array Instruction := #[]
deriving DecidableEq, Repr

/-- The instructions of a block, its label first. -/
def Block.instructions (b : Block) : List Instruction :=
  .label b.label :: (b.body.toList ++ [b.terminator])

def OpenBlock.instructions (b : OpenBlock) : List Instruction := .label b.label :: b.body.toList

def OpenBlock.close (b : OpenBlock) (terminator : Instruction) : Block :=
  ⟨b.label, b.body, terminator⟩

structure Parameter where
  type : Id
  id : Id
deriving DecidableEq, Repr

/-- What a function has besides its blocks. -/
structure FunctionHead where
  id : Id
  typeId : Id
  returnType : Id
  parameters : Array Parameter := #[]
  /-- The variables of the function, which lead its first block. -/
  locals : Array Instruction := #[]
deriving DecidableEq, Repr

namespace FunctionHead

def declaration (h : FunctionHead) : Instruction :=
  .result .function h.returnType h.id [.word noControl, .id h.typeId]

def parameterInstructions (h : FunctionHead) : List Instruction :=
  h.parameters.toList.map fun p => .result .functionParameter p.type p.id []

/-- The instructions of a function with the given blocks: the declaration, the parameters, and
block after block, the variables after the label of the first. -/
def instructions (h : FunctionHead) (blocks : List (List Instruction)) : List Instruction :=
  h.declaration :: h.parameterInstructions ++
    match blocks with
    | (label :: code) :: rest => label :: h.locals.toList ++ code ++ rest.flatten
    | _                       => blocks.flatten

end FunctionHead

/-- A function under construction. -/
structure Draft extends FunctionHead where
  closed : Array Block := #[]
  current : Option OpenBlock := none
deriving DecidableEq, Repr

/-- A finished function. -/
structure Function extends FunctionHead where
  blocks : Array Block
  nonempty : blocks ≠ #[]
deriving DecidableEq, Repr

namespace Draft

def addParameter (d : Draft) (type id : Id) : Draft :=
  { d with parameters := d.parameters.push ⟨type, id⟩ }

def addVariable (d : Draft) (i : Instruction) : Draft :=
  { d with locals := d.locals.push i }

/-- Starts a block, if none is open. -/
def beginBlock (label : Id) (d : Draft) : Except Inconsistency Draft :=
  match d.current with
  | some open_ => .error (.blockOpen label open_.label)
  | none       => .ok { d with current := some { label } }

/-- Closes the open block. -/
def terminate (i : Instruction) (d : Draft) : Except Inconsistency Draft :=
  match d.current with
  | some block => .ok { d with closed := d.closed.push (block.close i), current := none }
  | none       => .error (.nothingToTerminate i.opcode)

/-- Adds an instruction to the open block, which a terminator closes. -/
def push (i : Instruction) (d : Draft) : Except Inconsistency Draft :=
  if i.isTerminator then d.terminate i else
    match d with
    | { current := some block, .. } =>
      .ok { d with current := some { block with body := block.body.push i } }
    | { current := none, .. } => .error (.outsideBlock i.opcode)

/-- The label of the open block. -/
def label? (d : Draft) : Option Id := d.current.map OpenBlock.label

/-- The function a draft is when it has blocks and all of them are closed. -/
def finish (d : Draft) : Except Inconsistency Function :=
  match d.current with
  | some block => .error (.unterminated block.label d.id)
  | none =>
    if h : d.closed = #[] then .error (.noBlocks d.id)
    else .ok { toFunctionHead := d.toFunctionHead, blocks := d.closed, nonempty := h }

def instructions (d : Draft) : List Instruction :=
  d.toFunctionHead.instructions <|
    d.closed.toList.map Block.instructions ++ d.current.toList.map OpenBlock.instructions

end Draft

def Function.instructions (f : Function) : List Instruction :=
  f.toFunctionHead.instructions (f.blocks.toList.map Block.instructions)

end Shader.Assembly
