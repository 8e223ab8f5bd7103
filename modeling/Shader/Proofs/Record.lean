import Shader.Proofs.Body

/-!
# The record of the emission of expressions

The record of a run of emission lists the instructions it emitted, each with what it was emitted
for.  A run is told in three layers.

* A `Step` declares something, issues an id, evaluates an operand, or emits one instruction; it
  uses only ids that are known from earlier steps.  `Straight` is a chain of steps.
* A computation (`Computed`) is what happens for an expression that has no value yet: a chain of
  steps, for a load one that ends with the read, or a short circuit.
* An evaluation (`Evaluated`) looks the value up, or computes it and keeps it.
-/

namespace Shader.IR

/-- The expression computes its right operand only when the left one does not decide. -/
def Expression.isShortCircuit : Expression → Bool
  | .binary op _ _ => op.isShortCircuit
  | _ => false

end Shader.IR

namespace Shader.Emit

open List Assembly
open IR (Expression BinaryOp)

variable {σ σ' : Body} {known pending ids : List Id} {operands gs : Handles}
    {h g : Handle .expression} {allowed last : Opcode → Bool}

/-! ### Records -/

/-- What an instruction is emitted for. -/
inductive Source where
  | expression (h : Handle .expression)
  /-- The statement with a side effect that comes after `rank` others in the preorder of the
  body. -/
  | effect (rank : Nat)
  /-- The control flow of statements, or what prepares a statement. -/
  | frame
deriving DecidableEq, Repr

/-- An instruction and what it was emitted for. -/
structure Entry where
  source : Source
  instruction : Instruction
deriving DecidableEq, Repr

abbrev Record := List Entry

variable {r r' before : Record}

namespace Record

/-- The instructions of a record. -/
def code (r : Record) : List Instruction := r.map Entry.instruction

/-- Instructions that are all emitted for the same. -/
def of (source : Source) (code : List Instruction) : Record := code.map (⟨source, ·⟩)

lemma split_append {e : Entry} {after : Record} (h : r ++ r' = before ++ e :: after) :
    (∃ rest, r = before ++ e :: rest ∧ after = rest ++ r') ∨
      ∃ rest, before = r ++ rest ∧ r' = rest ++ e :: after := by
  rcases append_eq_append_iff.1 h with ⟨rest, hbefore, hr'⟩ | ⟨rest, hr, hafter⟩
  · exact .inr ⟨rest, hbefore, hr'⟩
  · cases rest with
    | nil => exact .inr ⟨[], by simpa using hr.symm, hafter.symm⟩
    | cons e' rest =>
      obtain ⟨rfl, hrest⟩ := cons.inj hafter
      exact .inl ⟨rest, hr, hrest⟩

@[simp] lemma code_nil : code [] = [] := rfl

@[simp] lemma code_cons (e : Entry) (r : Record) : code (e :: r) = e.instruction :: r.code := rfl

@[simp] lemma code_append (r r' : Record) : (r ++ r').code = r.code ++ r'.code :=
  map_append

@[simp] lemma code_of (source : Source) (is : List Instruction) : (of source is).code = is := by
  simp only [code, of, map_map]
  exact map_id is

end Record

/-- What a run that answers with an id does: the state before, the record, the id, the state
after. -/
abbrev Evaluation := Handle .expression → Body → Record → Id → Body → Prop

/-! ### Steps -/

/-- The id stands for something that the statements of a function only refer to. -/
def FunctionEnv.Held (env : FunctionEnv) (id : Id) : Prop :=
  env.result = some id ∨
    ∃ v ∈ env.outputs, v.id = id ∨ v.element = some id ∨ ∃ index, v.member = some (index, id)

/-- The id is known without any code of the statements. -/
def Known (env : FunctionEnv) (σ : Body) (id : Id) :
    Prop := σ.progress.Declared id ∨ σ.Held id ∨ env.Held id

/-- A state between two steps, with the ids that may be used and those that are issued and not
defined yet. -/
structure Point where
  body : Body
  known : List Id := []
  pending : List Id := []

variable {p q q' : Point} {env : FunctionEnv}

/-- One instruction is emitted, of one of the allowed opcodes. -/
inductive Emits (source : Source) (allowed : Opcode → Bool) : Point → Record → Point → Prop where
  | result {σ σ' : Body} {known pending : List Id} {op : Opcode} {type id : Id}
      {operands : List Operand} : allowed op → op.isTyped → type ∈ known →
      (∀ u ∈ operands.filterMap Operand.id?, u ∈ known) →
      σ.Pushes (.result op type id operands) σ' →
      Emits source allowed ⟨σ, known, id :: pending⟩ [⟨source, .result op type id operands⟩]
        ⟨σ', id :: known, pending⟩
  | bare {σ σ' : Body} {known pending : List Id} {i : Instruction} : allowed i.opcode →
      Opcode.resultless.contains i.opcode → (∀ u ∈ i.operands.filterMap Operand.id?, u ∈ known) →
      σ.Pushes i σ' → Emits source allowed ⟨σ, known, pending⟩ [⟨source, i⟩] ⟨σ', known, pending⟩

/-- One step of a computation, which may evaluate the given expressions. -/
inductive Step (env : FunctionEnv) (evaluate : Evaluation) (source : Source)
    (allowed : Opcode → Bool) (operands : Handles) :
    Point → Record → Point → Prop where
  | declare {σ σ' : Body} {known pending ids : List Id} : σ.Extends σ' →
      (∀ id ∈ ids, Known env σ' id) →
      Step env evaluate source allowed operands ⟨σ, known, pending⟩ [] ⟨σ', ids ++ known, pending⟩
  | issue {σ : Body} {known pending : List Id} :
      Step env evaluate source allowed operands ⟨σ, known, pending⟩ [] ⟨σ.issue, known,
      σ.nextId :: pending⟩
  | evaluate {σ σ' : Body} {known pending : List Id} {h : Handle .expression} {r : Record}
      {id : Id} : h ∈ operands → evaluate h σ r id σ' →
      Step env evaluate source allowed operands ⟨σ, known, pending⟩ r ⟨σ', id :: known, pending⟩
  | emit {p q : Point} {r : Record} : Emits source allowed p r q →
      Step env evaluate source allowed operands p r q

/-- A chain of steps. -/
inductive Straight (env : FunctionEnv) (evaluate : Evaluation) (source : Source)
    (allowed : Opcode → Bool) (operands : Handles) :
    Point → Record → Point → Prop where
  | nil {p : Point} : Straight env evaluate source allowed operands p [] p
  | cons {p q q' : Point} {r r' : Record} : Step env evaluate source allowed operands p r q →
      Straight env evaluate source allowed operands q r' q' →
      Straight env evaluate source allowed operands p (r ++ r') q'

namespace Straight

variable {evaluate : Evaluation} {source : Source} {allowed' : Opcode → Bool}

lemma trans (h : Straight env evaluate source allowed operands p r q)
    (h' : Straight env evaluate source allowed operands q r' q') :
    Straight env evaluate source allowed operands p (r ++ r') q' := by
  induction h with
  | nil => exact h'
  | cons hstep _ ih =>
    rw [append_assoc]
    exact .cons hstep (ih h')

lemma one (h : Step env evaluate source allowed operands p r q) :
    Straight env evaluate source allowed operands p r q := by
  have := Straight.cons h .nil
  rwa [append_nil] at this

lemma weaken (hallowed : ∀ op, allowed op → allowed' op)
    (h : Straight env evaluate source allowed operands p r q) :
    Straight env evaluate source allowed' operands p r q := by
  induction h with
  | nil => exact .nil
  | cons hstep _ ih =>
    refine .cons ?_ ih
    cases hstep with
    | declare hext hids => exact .declare hext hids
    | issue => exact .issue
    | evaluate hh he => exact .evaluate hh he
    | emit hemits =>
      cases hemits with
      | result hop htyped htype huses hpush =>
        exact .emit (.result (hallowed _ hop) htyped htype huses hpush)
      | bare hop hi huses hpush => exact .emit (.bare (hallowed _ hop) hi huses hpush)

lemma declare (ids : List Id) (h : σ.Extends σ') (hids : ∀ id ∈ ids, Known env σ' id) :
    Straight env evaluate source allowed operands ⟨σ, known, pending⟩ []
      ⟨σ', ids ++ known, pending⟩ := .one (.declare h hids)

lemma evaluation {id : Id} (hh : h ∈ operands) (he : evaluate h σ r id σ') :
    Straight env evaluate source allowed operands ⟨σ, known, pending⟩ r
      ⟨σ', id :: known, pending⟩ := .one (.evaluate hh he)

lemma emitResult {op : Opcode} {type : Id} {rest : List Operand} (hop : allowed op)
    (htyped : op.isTyped) (htype : type ∈ known)
    (huses : ∀ u ∈ rest.filterMap Operand.id?, u ∈ known)
    (hpush : σ.issue.Pushes (.result op type σ.nextId rest) σ') :
    Straight env evaluate source allowed operands ⟨σ, known, []⟩
      [⟨source, .result op type σ.nextId rest⟩] ⟨σ', σ.nextId :: known, []⟩ :=
  .cons .issue (.one (.emit (.result hop htyped htype huses hpush)))

end Straight

/-- A list of expressions is evaluated, one after the other. -/
inductive EvaluatesAll (evaluate : Evaluation) :
    Handles → Body → Record → List Id → Body → Prop where
  | nil {σ : Body} : EvaluatesAll evaluate [] σ [] [] σ
  | cons {g : Handle .expression} {gs : Handles} {σ σ₁ σ' : Body} {r r' : Record}
      {id : Id} {ids : List Id} : evaluate g σ r id σ₁ → EvaluatesAll evaluate gs σ₁ r' ids σ' →
      EvaluatesAll evaluate (g :: gs) σ (r ++ r') (id :: ids) σ'

lemma EvaluatesAll.straight {evaluate : Evaluation} {source : Source}
    (h : EvaluatesAll evaluate gs σ r ids σ') (hgs : ∀ g ∈ gs, g ∈ operands)
    (known pending : List Id) : Straight env evaluate source allowed operands ⟨σ, known, pending⟩ r
      ⟨σ', ids.reverse ++ known, pending⟩ := by
  induction h generalizing known with
  | nil => exact .nil
  | @cons g gs σ σ₁ σ' r r' id ids hg _ ih =>
    rw [reverse_cons, append_assoc]
    exact .cons (.evaluate (hgs g mem_cons_self) hg)
      (ih (fun g hg => hgs g (mem_cons_of_mem _ hg)) (id :: known))

/-! ### Computations -/

/-- A reference stands for what is known already, or is declared on the spot. -/
def Refers (env : FunctionEnv) (σ : Body) (r : Record) (id : Id) (σ' : Body) : Prop :=
  r = [] ∧ σ.Extends σ' ∧ Known env σ' id

/-- A value of which the last instruction of the chain is the result, from the ids `known` on. -/
def Makes (env : FunctionEnv) (evaluate : Evaluation) (source : Source) (last : Opcode → Bool)
    (operands : Handles) (known : List Id) (σ : Body) (r : Record) (id : Id)
    (σ' : Body) : Prop :=
  ∃ p r₁ r₂ known', Straight env evaluate source Opcode.isPlain operands ⟨σ, known, []⟩ r₁ p ∧
    Emits source last p r₂ ⟨σ', id :: known', []⟩ ∧ r = r₁ ++ r₂

/-- A value without an instruction of its own: that of an operand, or a constant made of
constants. -/
inductive Passes (evaluate : Evaluation) (operands : Handles) (σ : Body) :
    Record → Id → Body → Prop where
  | operand {g : Handle .expression} {σ₁ σ' : Body} {r : Record} {id : Id} : g ∈ operands →
      σ.Extends σ₁ → evaluate g σ₁ r id σ' → Passes evaluate operands σ r id σ'
  | constant {gs : Handles} {σ₁ σ₂ σ' : Body} {r : Record} {parts : List Id}
      {id : Id} : (∀ g ∈ gs, g ∈ operands) → σ.Extends σ₁ → EvaluatesAll evaluate gs σ₁ r parts σ₂ →
      (∀ part ∈ parts, σ₂.progress.Declared part) → σ₂.Extends σ' → σ'.progress.Declared id →
      Passes evaluate operands σ r id σ'

/-- The branch of a short circuit, past the right operand if the left one decides. -/
def shortCircuitBranch (op : BinaryOp) (left right merge : Id) : Instruction :=
  if op = .logicalAnd then .branchConditional left right merge
  else .branchConditional left merge right

/-- A short circuit.  The right operand has a block of its own, and what was computed in it is
forgotten afterwards. -/
inductive ShortCircuits (env : FunctionEnv) (evaluate : Evaluation) (h : Handle .expression)
    (op : BinaryOp) (left right : Handle .expression) (σ : Body) : Record → Id → Body → Prop where
  | intro {σ₁ σ₂ σ₃ σ₄ σ₅ σ₆ σ₇ σ₈ σ₉ : Body} {r₁ r₂ : Record}
      {type l r leftEnd rightEnd rightLabel merge : Id} :
      σ.Extends σ₁ → Known env σ₁ type → evaluate left σ₁ r₁ l σ₂ → σ₂.label? = some leftEnd →
      rightLabel = σ₂.nextId → merge = σ₂.issue.nextId →
      σ₂.issue.issue.Pushes (.selectionMerge merge) σ₃ →
      σ₃.Closes (shortCircuitBranch op l rightLabel merge) σ₄ → σ₄.Opens rightLabel σ₅ →
      evaluate right σ₅ r₂ r σ₆ → σ₆.label? = some rightEnd → σ₆.Closes (.branch merge) σ₇ →
      (σ₇.withValues (σ₇.values.rewind σ₅.values.mark)).Opens merge σ₈ →
      σ₈.issue.Pushes (.result .phi type σ₈.nextId (Operand.ids [l, leftEnd, r, rightEnd])) σ₉ →
      ShortCircuits env evaluate h op left right σ
        (r₁ ++ .of (.expression h) [.selectionMerge merge, shortCircuitBranch op l rightLabel merge,
          .label rightLabel] ++ r₂ ++ .of (.expression h) [.branch merge, .label merge,
          .result .phi type σ₈.nextId (Operand.ids [l, leftEnd, r, rightEnd])]) σ₈.nextId σ₉

/-- The value of an expression is computed. -/
def Computed (env : FunctionEnv) (evaluate : Evaluation) (h : Handle .expression) (e : Expression)
    (σ : Body) (r : Record) (id : Id) (σ' : Body) : Prop :=
  match e with
  | .callResult _ | .atomicResult .. => False
  | .load pointer => Makes env evaluate (.expression h) Opcode.isRead [pointer] [] σ r id σ'
  | .binary op left right =>
    if op.isShortCircuit then ShortCircuits env evaluate h op left right σ r id σ'
    else Makes env evaluate (.expression h) Opcode.isPlain [left, right] [] σ r id σ'
  | e =>
    if e.isReference then Refers env σ r id σ'
    else Makes env evaluate (.expression h) Opcode.isPlain e.operands [] σ r id σ' ∨
      Passes evaluate e.operands σ r id σ'

lemma isValue_of_isPlain (op : Opcode) (hop : op.isPlain) :
    op.isValue := by simp [Opcode.isValue, hop]

namespace Computed

variable {evaluate : Evaluation} {id : Id}

lemma straight_of_makes (hlast : ∀ op, last op → op.isValue)
    (hmakes : Makes env evaluate (.expression h) last operands [] σ r id σ') :
    ∃ known, Straight env evaluate (.expression h) Opcode.isValue operands ⟨σ, [], []⟩ r
      ⟨σ', id :: known, []⟩ := by
  obtain ⟨p, r₁, r₂, known, hchain, hemits, rfl⟩ := hmakes
  exact ⟨known, .trans (hchain.weaken isValue_of_isPlain) (.weaken hlast (.one (.emit hemits)))⟩

lemma straight_of_passes (hpasses : Passes evaluate operands σ r id σ') :
    ∃ known, Straight env evaluate (.expression h) Opcode.isValue operands ⟨σ, [], []⟩ r
      ⟨σ', id :: known, []⟩ := by
  cases hpasses with
  | operand hg hext hvalue => exact ⟨[], .trans (.declare [] hext nofun) (.evaluation hg hvalue)⟩
  | @constant _ _ _ _ _ parts _ hgs hext hparts _ hext' hdeclared =>
    have hfirst : Straight env evaluate (.expression h) Opcode.isValue operands
        ⟨σ, [], []⟩ ([] ++ r) ⟨_, parts.reverse ++ [], []⟩ :=
      .trans (.declare [] hext nofun) (hparts.straight hgs [] [])
    have hlast := hfirst.trans (.declare [id] hext' (by simpa using .inl hdeclared))
    exact ⟨_, append_nil r ▸ hlast⟩

/-- A computed expression refers, is straight code, or is a short circuit. -/
lemma forms {e : Expression} (hcomputed : Computed env evaluate h e σ r id σ') :
      (e.isReference ∧ Refers env σ r id σ') ∨
      (e.isReference = false ∧ e.isShortCircuit = false ∧ ∃ known,
        Straight env evaluate (.expression h) Opcode.isValue e.operands ⟨σ, [], []⟩ r
          ⟨σ', id :: known, []⟩) ∨
      ∃ op left right, e = .binary op left right ∧ op.isShortCircuit ∧
        ShortCircuits env evaluate h op left right σ r id σ' := by
  have hread : ∀ op : Opcode, op.isRead → op.isValue := fun op hop => by simp [Opcode.isValue, hop]
  unfold Computed at hcomputed
  split at hcomputed
  · exact hcomputed.elim
  · exact hcomputed.elim
  · exact .inr (.inl ⟨rfl, rfl, straight_of_makes hread hcomputed⟩)
  · split at hcomputed
    · exact .inr (.inr ⟨_, _, _, rfl, ‹_›, hcomputed⟩)
    · exact .inr (.inl ⟨rfl, Bool.eq_false_iff.2 ‹_›,
        straight_of_makes isValue_of_isPlain hcomputed⟩)
  · split at hcomputed
    · exact .inl ⟨‹_›, hcomputed⟩
    · rename_i hbinary hreference
      refine .inr (.inl ⟨Bool.eq_false_iff.2 hreference, ?_, ?_⟩)
      · cases e <;> first | rfl | exact (hbinary _ _ _ rfl).elim
      rcases hcomputed with hmakes | hpasses
      · exact straight_of_makes isValue_of_isPlain hmakes
      · exact straight_of_passes hpasses

end Computed

/-- The value of an expression is looked up, or computed and kept. -/
def Evaluated (env : FunctionEnv) : Nat → Evaluation
  | 0, _, _, _, _, _ => False
  | depth + 1, h, σ, r, id, σ' =>
    (σ.values.get? h = some id ∧ r = [] ∧ σ' = σ) ∨
      (σ.values.get? h = none ∧ ∃ e σ₁, env.function.expressions.get? h = some e ∧
        Computed env (Evaluated env depth) h e σ r id σ₁ ∧
        (σ₁.withValues (σ₁.values.set h id)).Extends σ')

lemma Evaluated.inv {depth : Nat} {id : Id} (h : Evaluated env depth g σ r id σ') :
    (σ.values.get? g = some id ∧ r = [] ∧ σ' = σ) ∨
    (σ.values.get? g = none ∧ ∃ d e σ₁, env.function.expressions.get? g = some e ∧
      Computed env (Evaluated env d) g e σ r id σ₁ ∧
      (σ₁.withValues (σ₁.values.set g id)).Extends σ') := by
  cases depth with
  | zero => exact h.elim
  | succ depth => exact h.imp_right fun ⟨hnone, h⟩ => ⟨hnone, depth, h⟩

/-- A straight chain in which the expressions of the function are evaluated. -/
abbrev Chain (env : FunctionEnv) := Straight env (Evaluated env env.depth)

end Shader.Emit
