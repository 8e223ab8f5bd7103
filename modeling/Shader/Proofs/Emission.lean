import Shader.Proofs.Record

/-!
# The record of the emission of statements

What the statements of a body emit is told as a relation between the state before, the record and
the state after.  It is built like the statements themselves: a construct is given what its parts
emit.  The constructs around a statement are a parameter, and so is the rank of its first side
effect, the number of side effects that come before it in the preorder of the body.
-/

namespace Shader.IR

/-! ### Side effects in preorder -/

mutual

/-- How many statements with a side effect a statement is or contains. -/
def Statement.effectCount : Statement → Nat
  | .store .. | .call .. | .atomic .. => 1
  | .barrier b => if b.isEmpty then 0 else 1
  | .emit _ | .break | .continue | .return _ | .kill => 0
  | .block body => bodyEffectCount body
  | .ifElse _ accept reject => bodyEffectCount accept + bodyEffectCount reject
  | .switch _ cases => casesEffectCount cases
  | .loop body continuing _ => bodyEffectCount body + bodyEffectCount continuing
termination_by structural s => s

def bodyEffectCount : List Statement → Nat
  | [] => 0
  | s :: rest => s.effectCount + bodyEffectCount rest
termination_by structural body => body

def casesEffectCount : List SwitchCase → Nat
  | [] => 0
  | c :: rest => caseEffectCount c + casesEffectCount rest
termination_by structural cases => cases

def caseEffectCount : SwitchCase → Nat
  | ⟨_, body⟩ => bodyEffectCount body
termination_by structural c => c

end

end Shader.IR

namespace Shader.Emit

open Assembly
open IR (Statement SwitchCase AtomicFunction bodyEffectCount caseEffectCount)

/-- What a run that emits code does: the state before, the record, the state after. -/
abbrev Emission := Body → Record → Body → Prop

namespace Emission

def skip : Emission := fun σ r σ' => r = [] ∧ σ' = σ

/-- One emission, then another. -/
inductive Then (first second : Emission) (σ : Body) : Record → Body → Prop where
  | intro {σ₁ σ' : Body} {r₁ r₂ : Record} : first σ r₁ σ₁ → second σ₁ r₂ σ' →
      Then first second σ (r₁ ++ r₂) σ'

end Emission

open Emission

/-! ### Blocks -/

/-- There is an open block, or one is opened that nothing branches to. -/
inductive Ready (σ : Body) : Record → Body → Prop where
  | already {label : Id} : σ.label? = some label → Ready σ [] σ
  | fresh {σ' : Body} : σ.label? = none → σ.issue.Opens σ.nextId σ' →
      Ready σ (.of .frame [.label σ.nextId]) σ'

/-- Control goes on to another block, unless the open one has ended already. -/
inductive ClosesTo (target : Id) (σ : Body) : Record → Body → Prop where
  | ended : σ.label? = none → ClosesTo target σ [] σ
  | branch {σ' : Body} : σ.Closes (.branch target) σ' →
      ClosesTo target σ (.of .frame [.branch target]) σ'

/-- A part in a block of its own, from which control goes on to `target`. -/
inductive Part (label target : Id) (inner : Emission) (σ : Body) : Record → Body → Prop where
  | intro {σ₁ σ₂ σ' : Body} {r₁ r₂ : Record} : σ.Opens label σ₁ → inner σ₁ r₁ σ₂ →
      ClosesTo target σ₂ r₂ σ' →
      Part label target inner σ (.of .frame [.label label] ++ r₁ ++ r₂) σ'

/-! ### Side effects -/

variable (env : FunctionEnv)

/-- The expressions of a run that are not deferred are evaluated. -/
def Emitted : Nat → Nat → Emission
  | _, 0 => skip
  | start, count + 1 =>
    if env.deferred.getD start false then Emitted (start + 1) count
    else Then (fun σ r σ' => ∃ id, Evaluated env env.depth ⟨start⟩ σ r id σ')
      (Emitted (start + 1) count)

/-- The result of a statement gets a value that is known. -/
def Remembers (result : Option (Handle .expression)) (p : Point) (σ' : Body) : Prop :=
  match result with
  | none => σ' = p.body
  | some h => ∃ id ∈ p.known, σ' = p.body.withValues (p.body.values.set h id)

/-- A side effect: what it needs, one instruction with an effect, and what its result needs. -/
inductive Affects (rank : Nat) (reads : Handles)
    (result : Option (Handle .expression)) (σ : Body) : Record → Body → Prop where
  | intro {p q q' : Point} {σ' : Body} {r₁ r₂ r₃ : Record} :
      Chain env .frame Opcode.isPlain reads ⟨σ, [], []⟩ r₁ p →
      Emits (.effect rank) Opcode.isEffect p r₂ q →
      Chain env .frame Opcode.isPlain [] q r₃ q' → q'.pending = [] →
      Remembers result q' σ' → Affects rank reads result σ (r₁ ++ r₂ ++ r₃) σ'

/-! ### Leaving -/

/-- Control leaves for where the constructs around lead. -/
inductive Branches (target : Except Assembly.Fault Id) (σ : Body) : Record → Body → Prop where
  | intro {label : Id} {σ' : Body} : target = .ok label → σ.Closes (.branch label) σ' →
      Branches target σ (.of .frame [.branch label]) σ'

/-- What prepares the outputs of an entry point. -/
def isOutput (op : Opcode) : Bool := op.isPlain || op == .store

/-- The function returns. -/
inductive Returns (σ : Body) : Option (Handle .expression) → Record → Body → Prop where
  | nothing {σ' : Body} : σ.Closes .ret σ' → Returns σ none (.of .frame [.ret]) σ'
  | value {h : Handle .expression} {id : Id} {r : Record} {σ₁ σ' : Body} :
      env.outputs = [] → Evaluated env env.depth h σ r id σ₁ → σ₁.Closes (.returnValue id) σ' →
      Returns σ (some h) (r ++ .of .frame [.returnValue id]) σ'
  | outputs {h : Handle .expression} {id : Id} {r r' : Record} {σ₁ σ' : Body} {q : Point} :
      env.outputs ≠ [] → Evaluated env env.depth h σ r id σ₁ →
      Chain env .frame isOutput [] ⟨σ₁, [id], []⟩ r' q →
      q.pending = [] → q.body.Closes .ret σ' →
      Returns σ (some h) (r ++ r' ++ .of .frame [.ret]) σ'

/-! ### Constructs -/

/-- A selection with two parts, or with one that is passed by. -/
inductive Selects (flow : ControlStack) (condition : Handle .expression)
    (accept : ControlStack → Emission) : Option (ControlStack → Emission) → Emission where
  | both {reject : ControlStack → Emission} {c merge first second : Id} {r r₁ r₂ : Record}
      {σ σ₁ σ₂ σ₃ σ₄ σ₅ σ' : Body} :
      Evaluated env env.depth condition σ r c σ₁ → merge = σ₁.nextId → first = σ₁.issue.nextId →
      second = σ₁.issue.issue.nextId → σ₁.issue.issue.issue.Pushes (.selectionMerge merge) σ₂ →
      σ₂.Closes (.branchConditional c first second) σ₃ →
      Part first merge (accept (flow.pushSelection merge)) (σ₃.withFlow (flow.pushSelection merge))
      r₁ σ₄ → Part second merge (reject (flow.pushSelection merge)) σ₄ r₂ σ₅ →
      (σ₅.withFlow flow).Opens merge σ' → Selects flow condition accept (some reject) σ
        (r ++ .of .frame [.selectionMerge merge, .branchConditional c first second] ++ r₁ ++ r₂ ++
          .of .frame [.label merge]) σ'
  | one {c merge first : Id} {r r₁ : Record} {σ σ₁ σ₂ σ₃ σ₄ σ' : Body} :
      Evaluated env env.depth condition σ r c σ₁ → merge = σ₁.nextId → first = σ₁.issue.nextId →
      σ₁.issue.issue.Pushes (.selectionMerge merge) σ₂ →
      σ₂.Closes (.branchConditional c first merge) σ₃ →
      Part first merge (accept (flow.pushSelection merge)) (σ₃.withFlow (flow.pushSelection merge))
      r₁ σ₄ → (σ₄.withFlow flow).Opens merge σ' →
      Selects flow condition accept none σ
        (r ++ .of .frame [.selectionMerge merge, .branchConditional c first merge] ++ r₁ ++
          .of .frame [.label merge]) σ'

/-- The branch back to the header of a loop, or out of it. -/
inductive Repeats (header merge : Id) (σ : Body) :
    Option (Handle .expression) → Record → Body → Prop where
  | ended {breakIf : Option (Handle .expression)} : σ.label? = none → Repeats header
    merge σ breakIf [] σ
  | always {σ' : Body} : σ.Closes (.branch header) σ' →
      Repeats header merge σ none (.of .frame [.branch header]) σ'
  | unless {condition : Handle .expression} {c : Id} {r : Record} {label : Id} {σ₁ σ' : Body} :
      σ.label? = some label → Evaluated env env.depth condition σ r c σ₁ →
      σ₁.Closes (.branchConditional c merge header) σ' →
      Repeats header merge σ (some condition) (r ++ .of .frame [.branchConditional c merge header])
      σ'

/-- A loop: a header, the body, and the part that starts the next round. -/
inductive Loops (flow : ControlStack) (body continuing : ControlStack → Emission)
    (breakIf : Option (Handle .expression)) (σ : Body) : Record → Body → Prop where
  | intro {header first next merge : Id} {r₁ r₂ r₃ : Record}
      {σ₁ σ₂ σ₃ σ₄ σ₅ σ₆ σ₇ σ₈ σ' : Body} :
      header = σ.nextId → first = σ.issue.nextId → next = σ.issue.issue.nextId →
      merge = σ.issue.issue.issue.nextId →
      σ.issue.issue.issue.issue.Closes (.branch header) σ₁ → σ₁.Opens header σ₂ →
      σ₂.Pushes (.loopMerge merge next) σ₃ → σ₃.Closes (.branch first) σ₄ →
      Part first next (body (flow.pushLoop merge next)) (σ₄.withFlow (flow.pushLoop merge next))
        r₁ σ₅ → σ₅.Opens next σ₆ → continuing (flow.pushLoop merge next) σ₆ r₂ σ₇ →
      Repeats env header merge σ₇ breakIf r₃ σ₈ →
      (σ₈.withFlow flow).Opens merge σ' →
      Loops flow body continuing breakIf σ
        (.of .frame [.branch header, .label header, .loopMerge merge next, .branch first] ++ r₁ ++
          .of .frame [.label next] ++ r₂ ++ r₃ ++ .of .frame [.label merge]) σ'

/-- As many new ids as a list has entries. -/
inductive Issues {α : Type} : List α → Body → List Id → Body → Prop where
  | nil {σ : Body} : Issues [] σ [] σ
  | cons {a : α} {as : List α} {σ σ' : Body} {ids : List Id} : Issues as σ.issue ids σ' →
      Issues (a :: as) σ (σ.nextId :: ids) σ'

/-- The block of a switch without a default case. -/
inductive FallsBack (merge : Id) (σ : Body) : Option Id → Record → Body → Prop where
  | none : FallsBack merge σ none [] σ
  | some {label : Id} {σ₁ σ' : Body} : σ.Opens label σ₁ → σ₁.Closes (.branch merge) σ' →
      FallsBack merge σ (some label) (.of .frame [.label label, .branch merge]) σ'

/-- Where a switch goes by default: to a case, or to a block of its own. -/
inductive Defaults (cases : List SwitchCase) (labels : List Id) (σ : Body) :
    Id → Option Id → Body → Prop where
  | case {label : Id} : defaultLabel? cases labels = some label →
      Defaults cases labels σ label none σ
  | block : defaultLabel? cases labels = none → Defaults cases labels σ σ.nextId
    (some σ.nextId) σ.issue

/-- The instruction of a switch. -/
def switchInstruction (value default : Id) (cases : List SwitchCase) (labels : List Id) :
    Instruction :=
  ⟨.switch, .id value :: .id default :: (cases.zip labels).flatMap fun (c, label) =>
    caseTargets c label⟩

/-- A switch, on the value of its selector or on what it points to. -/
inductive Switches (flow : ControlStack) (selector : Handle .expression) (cases : List SwitchCase)
    (parts : ControlStack → Id → List Id → Emission) (σ : Body) : Record → Body → Prop where
  | intro {value merge default : Id} {labels known : List Id} {fallback : Option Id}
      {r₁ r₂ r₃ : Record} {σ₁ σ₂ σ₃ σ₄ σ₅ σ₆ σ₇ σ' : Body} :
      Chain env .frame Opcode.isValue [selector]
        ⟨σ, [], []⟩ r₁ ⟨σ₁, known, []⟩ → value ∈ known → merge = σ₁.nextId →
      Issues cases σ₁.issue labels σ₂ → Defaults cases labels σ₂ default fallback σ₃ →
      σ₃.Pushes (.selectionMerge merge) σ₄ →
      σ₄.Closes (switchInstruction value default cases labels) σ₅ →
      parts (flow.pushSwitch merge) merge labels (σ₅.withFlow (flow.pushSwitch merge)) r₂ σ₆ →
      FallsBack merge σ₆ fallback r₃ σ₇ → (σ₇.withFlow flow).Opens merge σ' →
      Switches flow selector cases parts σ
        (r₁ ++ .of .frame [.selectionMerge merge, switchInstruction value default cases labels] ++
          r₂ ++ r₃ ++ .of .frame [.label merge]) σ'

/-! ### All statements -/

mutual

def Stated (flow : ControlStack) (rank : Nat) (s : Statement) : Emission :=
  Then Ready <| match s with
    | .emit range => Emitted env range.start (range.stop - range.start)
    | .block body => StatedAll flow rank body
    | .store pointer value => Affects env rank [pointer, value] none
    | .ifElse condition accept reject =>
      Selects env flow condition (fun inner => StatedAll inner rank accept)
          (if reject.isEmpty then none else some fun inner => StatedAll inner
          (rank + bodyEffectCount accept) reject)
    | .switch selector cases =>
      Switches env flow selector cases fun inner merge labels => StatedCases inner rank
        merge cases labels
    | .loop body continuing breakIf =>
      Loops env flow (fun inner => StatedAll inner rank body)
        (fun inner => StatedAll inner (rank + bodyEffectCount body) continuing) breakIf
    | .call _ arguments result => Affects env rank arguments result
    | .atomic pointer function value result =>
      Affects env rank (pointer :: value :: function.reads) result
    | .break => Branches flow.breakTarget
    | .continue => Branches flow.continueTarget
    | .return value => fun σ r σ' => Returns env σ value r σ'
    | .kill => fun σ r σ' => σ.Closes .kill σ' ∧ r = .of .frame [.kill]
    | .barrier b => if b.isEmpty then skip else Affects env rank [] none
termination_by structural s

def StatedAll (flow : ControlStack) (rank : Nat) : List Statement → Emission
  | [] => skip
  | s :: rest => Then (Stated flow rank s) (StatedAll flow (rank + s.effectCount) rest)
termination_by structural body => body

/-- The blocks of the cases of a switch. -/
def StatedCases (flow : ControlStack) (rank : Nat) (merge : Id) :
    List SwitchCase → List Id → Emission
  | c :: rest, label :: labels =>
    Then (Part label merge (StatedCase flow rank c))
      (StatedCases flow (rank + caseEffectCount c) merge rest labels)
  | _, _ => skip
termination_by structural cases => cases

def StatedCase (flow : ControlStack) (rank : Nat) : SwitchCase → Emission
  | ⟨_, body⟩ => StatedAll flow rank body
termination_by structural c => c

end

end Shader.Emit
