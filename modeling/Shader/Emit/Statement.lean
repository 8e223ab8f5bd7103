import Shader.Emit.Expression

/-!
# Statements

Statements become structured control flow: every construct has a header block with a merge
instruction, blocks for its parts, and a merge block in which emission goes on.
-/

namespace Shader.Emit

open Assembly (Id Instruction Opcode Operand ControlStack)
open IR (Statement SwitchCase AtomicFunction Barrier)

/-! ### Blocks -/

/-- What follows a terminator goes to a new block, which nothing branches to. -/
def ensureOpenBlock : BodyM Unit := do
  match ← openLabel? with
  | some _ => pure ()
  | none =>
    let label ← Assembly.freshId
    beginBlock label

/-- Goes on to another block, unless the open one has ended already. -/
def closeTo (target : Id) : BodyM Unit := do
  match ← openLabel? with
  | some _ => terminate (.branch target)
  | none => pure ()

/-! ### Constructs around the point of emission -/

def enter (push : ControlStack → ControlStack) : BodyM Unit :=
  modify fun body => { body with flow := push body.flow }

def leave : BodyM Unit := do
  match (← get).flow.pop with
  | .ok (_, flow) => modify fun body => { body with flow }
  | .error fault => throw (.construction fault)

/-- Branches to where the constructs around the point of emission lead. -/
def branchOut (target : ControlStack → Except Assembly.Fault Id) : BodyM Unit := do
  match target (← get).flow with
  | .ok label => terminate (.branch label)
  | .error fault => throw (.construction fault)

/-! ### Side effects -/

variable (env : FunctionEnv)

/-- Computes the expressions of a run that are not deferred: `count` of them, from `start`. -/
def emitRun (start : Nat) : Nat → BodyM Unit
  | 0 => pure ()
  | count + 1 => do
    unless env.deferred.getD start false do
      discard (expression env ⟨start⟩)
    emitRun (start + 1) count

def emitStore (pointer value : Handle .expression) : BodyM Unit := do
  let atomic ← pointsToAtomic env pointer
  let pointer ← expression env pointer
  let value ← expression env value
  if atomic then
    let (scope, semantics) ← atomicOperands
    emit ⟨.atomicStore, Operand.ids [pointer, scope, semantics, value]⟩
  else
    emit (.store pointer value)

/-- Gives the result of a statement its value. -/
def rememberResult (result : Option (Handle .expression)) (id : Id) : BodyM Unit :=
  match result with
  | some h => remember h id
  | none => pure ()

def functionId (h : Handle .function) : EmitM Id := do
  match (← get).functions[h.index]? with
  | some id => return id
  | none => throw (.inconsistent (.unknownFunction h))

def emitCall (function : Handle .function) (arguments : List (Handle .expression))
    (result : Option (Handle .expression)) : BodyM Unit := do
  let target ← functionId function
  let arguments ← arguments.mapM (expression env)
  let type ← match result with
    | some h => expressionType env h
    | none => Assembly.voidType
  let id ← emitResult .functionCall type (.id target :: Operand.ids arguments)
  rememberResult result id

/-- The instruction of an atomic operation that is not a comparing exchange. -/
def atomicOpcode (signed : Bool) : AtomicFunction → Opcode
  | .add => .atomicIAdd
  | .subtract => .atomicISub
  | .and => .atomicAnd
  | .inclusiveOr => .atomicOr
  | .exclusiveOr => .atomicXor
  | .min => if signed then .atomicSMin else .atomicUMin
  | .max => if signed then .atomicSMax else .atomicUMax
  | .exchange _ => .atomicExchange

/-- The result of a comparing exchange: the old value, and whether it was the one compared
with. -/
def exchangeResult (old compare : Id) (result : Handle .expression) : BodyM Unit := do
  let bool ← Assembly.scalarType .bool
  let exchanged ← emitResult .iEqual bool (Operand.ids [old, compare])
  let type ← expressionType env result
  let pair ← emitResult .compositeConstruct type (Operand.ids [old, exchanged])
  remember result pair

def emitAtomic (pointer : Handle .expression) (function : AtomicFunction)
    (value : Handle .expression) (result : Option (Handle .expression)) : BodyM Unit := do
  let shape ← expressionShape env value
  let signed := shape.scalar?.any fun scalar => scalar.kind == .sint
  let type ← expressionType env value
  let pointer ← expression env pointer
  let value ← expression env value
  let (scope, semantics) ← atomicOperands
  let id ← Assembly.freshId
  match function with
  | .exchange (some compare) =>
    let compare ← expression env compare
    emit (.result .atomicCompareExchange type id
      (Operand.ids [pointer, scope, semantics, semantics, value, compare]))
    match result with
    | some h => exchangeResult env id compare h
    | none => pure ()
  | _ =>
    emit (.result (atomicOpcode signed function) type id
      (Operand.ids [pointer, scope, semantics, value]))
    rememberResult result id

/-- The memory semantics of a barrier. -/
def barrierSemantics (b : Barrier) : UInt32 :=
  Assembly.acquireRelease ||| (if b.storage then Assembly.uniformMemory else 0) |||
    (if b.workgroup then Assembly.workgroupMemory else 0)

def emitBarrier (b : Barrier) : BodyM Unit := do
  unless b.isEmpty do
    let scope ← Assembly.indexConstant Assembly.workgroupScope
    let semantics ← Assembly.indexConstant (barrierSemantics b)
    emit ⟨.controlBarrier, Operand.ids [scope, scope, semantics]⟩

/-! ### Returning -/

/-- A pointer to the value of an interface variable. -/
def interfacePointer (v : InterfaceVariable) : BodyM Id := do
  match v.element with
  | none => return v.id
  | some element =>
    let zero ← Assembly.indexConstant 0
    emitResult .accessChain element (Operand.ids [v.id, zero])

/-- Stores the part of a result that an output variable is for. -/
def storeOutput (value : Id) (v : InterfaceVariable) : BodyM Unit := do
  let pointer ← interfacePointer v
  let part ← match v.member with
    | none => pure value
    | some (index, type) => emitResult .compositeExtract type [.id value, .word index]
  emit (.store pointer part)

def emitReturn (value : Option (Handle .expression)) : BodyM Unit := do
  match value with
  | none => terminate .ret
  | some value =>
    let value ← expression env value
    if env.outputs.isEmpty then
      match env.result with
      | some _ => terminate (.returnValue value)
      | none => throw (.inconsistent (.returnedValue env.name))
    else
      env.outputs.forM (storeOutput value)
      terminate .ret

/-! ### Constructs

The parts of a construct are given as what emits them. -/

/-- A part in a block of its own, from which control goes on to `target`. -/
def emitPart (label target : Id) (part : BodyM Unit) : BodyM Unit := do
  beginBlock label
  part
  closeTo target

/-- A selection; one without a part for the case that the condition fails goes on after it. -/
def emitSelection (condition : Handle .expression) (accept : BodyM Unit)
    (reject : Option (BodyM Unit)) : BodyM Unit := do
  let condition ← expression env condition
  let merge ← Assembly.freshId
  let acceptLabel ← Assembly.freshId
  let rejectLabel ← if reject.isSome then Assembly.freshId else pure merge
  emit (.selectionMerge merge)
  terminate (.branchConditional condition acceptLabel rejectLabel)
  enter (·.pushSelection merge)
  emitPart acceptLabel merge accept
  if let some reject := reject then
    emitPart rejectLabel merge reject
  leave
  beginBlock merge

/-- The branch back to the header of a loop, or out of the loop if the condition holds. -/
def emitBackEdge (header merge : Id) (breakIf : Option (Handle .expression)) : BodyM Unit := do
  if (← openLabel?).isSome then
    match breakIf with
    | some condition =>
      let condition ← expression env condition
      terminate (.branchConditional condition merge header)
    | none => terminate (.branch header)

def emitLoop (body continuing : BodyM Unit) (breakIf : Option (Handle .expression)) :
    BodyM Unit := do
  let header ← Assembly.freshId
  let bodyLabel ← Assembly.freshId
  let continueLabel ← Assembly.freshId
  let merge ← Assembly.freshId
  terminate (.branch header)
  beginBlock header
  emit (.loopMerge merge continueLabel)
  terminate (.branch bodyLabel)
  enter (·.pushLoop merge continueLabel)
  emitPart bodyLabel continueLabel body
  beginBlock continueLabel
  continuing
  emitBackEdge env header merge breakIf
  leave
  beginBlock merge

/-- The value a switch looks at, loaded if it is behind a pointer. -/
def switchValue (selector : Handle .expression) : BodyM Id := do
  let shape ← expressionShape env selector
  let value ← expression env selector
  match shape with
  | .pointer base _ =>
    let type ← typeId env.toEnv base
    emitResult .load type [.id value]
  | _ => return value

/-- The selectors of a case, each followed by the label of the case. -/
def caseTargets (c : SwitchCase) (label : Id) : List Operand :=
  (c.values.filterMap fun v => v.word?).flatMap fun word => [.word word, .id label]

/-- The label of the first default case. -/
def defaultLabel? (cases : List SwitchCase) (labels : List Id) : Option Id :=
  ((cases.zip labels).find? fun (c, _) => c.isDefault).map Prod.snd

/-- The block a switch without a default case goes to, which does nothing. -/
def emitFallback (merge : Id) (fallback : Option Id) : BodyM Unit := do
  if let some label := fallback then
    beginBlock label
    terminate (.branch merge)

/-- A switch; `parts` emits the blocks of its cases, given the merge block and their labels. -/
def emitSwitch (selector : Handle .expression) (cases : List SwitchCase)
    (parts : Id → List Id → BodyM Unit) : BodyM Unit := do
  let value ← switchValue env selector
  let merge ← Assembly.freshId
  let labels ← cases.mapM fun _ => Assembly.freshId
  let (default, fallback) ← match defaultLabel? cases labels with
    | some label => pure (label, none)
    | none => do
      let label ← Assembly.freshId
      pure (label, some label)
  emit (.selectionMerge merge)
  terminate ⟨.switch, .id value :: .id default ::
    (cases.zip labels).flatMap fun (c, label) => caseTargets c label⟩
  enter (·.pushSwitch merge)
  parts merge labels
  emitFallback merge fallback
  leave
  beginBlock merge

/-! ### All statements -/

mutual

def statement (s : Statement) : BodyM Unit := do
  ensureOpenBlock
  match s with
  | .emit range => emitRun env range.start (range.stop - range.start)
  | .block body => statements body
  | .store pointer value => emitStore env pointer value
  | .ifElse condition accept reject =>
    emitSelection env condition (statements accept)
      (if reject.isEmpty then none else some (statements reject))
  | .switch selector cases =>
    emitSwitch env selector cases fun merge labels => switchCases merge cases labels
  | .loop body continuing breakIf =>
    emitLoop env (statements body) (statements continuing) breakIf
  | .call function arguments result => emitCall env function arguments result
  | .atomic pointer function value result => emitAtomic env pointer function value result
  | .break => branchOut ControlStack.breakTarget
  | .continue => branchOut ControlStack.continueTarget
  | .return value => emitReturn env value
  | .kill => terminate .kill
  | .barrier b => emitBarrier b
termination_by structural s

def statements : List Statement → BodyM Unit
  | [] => pure ()
  | s :: rest => do
    statement s
    statements rest
termination_by structural body => body

/-- The blocks of the cases of a switch, which go on to its merge block. -/
def switchCases (merge : Id) : List SwitchCase → List Id → BodyM Unit
  | c :: rest, label :: labels => do
    emitPart label merge (switchCase c)
    switchCases merge rest labels
  | _, _ => pure ()
termination_by structural cases => cases

def switchCase : SwitchCase → BodyM Unit
  | ⟨_, body⟩ => statements body
termination_by structural c => c

end

end Shader.Emit
