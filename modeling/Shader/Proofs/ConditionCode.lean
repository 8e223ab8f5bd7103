import Shader.Emit.Module
import Shader.Proofs.Body
import Shader.Proofs.Condition
import Shader.Proofs.Valuation

/-!
# The code of conditions

A condition becomes a load for each flag, a negation for each `!`, and for each short circuit a
branch around the block of its right operand and a phi where the two ways meet.
-/

namespace Shader.Emit

open List Assembly
open IR (Condition Expression)

variable {base i : Nat} {id type a l r id' : Id} {v v' v₂ : Valuation}
    {operand : Handle .expression → BodyM Id} {new : Handles} {h : Handle .expression}

/-! ### Code -/

/-- A place in the code of a function: the next id, the blocks before it, and the open one. -/
structure Spot where
  bound : Nat
  closed : Array Block
  block : OpenBlock

namespace Spot

def issue (s : Spot) : Spot := { s with bound := s.bound + 1 }

def nextId (s : Spot) : Id := ⟨s.bound⟩

def push (i : Instruction) (s : Spot) : Spot :=
  { s with block := { s.block with body := s.block.body.push i } }

/-- Closes the block and opens another. -/
def next (terminator : Instruction) (label : Id) (s : Spot) : Spot :=
  ⟨s.bound, s.closed.push (s.block.close terminator), { label }⟩

/-- An instruction with a new result. -/
def result (op : Opcode) (type : Id) (operands : List Operand) (s : Spot) : Id × Spot :=
  (s.nextId, s.issue.push (.result op type s.nextId operands))

end Spot

variable (flag : Id) (place : Handle .globalVariable → Id)

/-- The branch of a short circuit. -/
def circuitBranch (conjunction : Bool) (left right merge : Id) : Instruction :=
  if conjunction then .branchConditional left right merge else .branchConditional left merge right

/-- The start of the block for the right operand of a short circuit. -/
def Spot.fork (conjunction : Bool) (left : Id) (s : Spot) : Spot :=
  (s.issue.issue.push (.selectionMerge s.issue.nextId)).next
    (circuitBranch conjunction left s.nextId s.issue.nextId) s.nextId

/-- The code of a condition, whose value is the result. -/
def code : Condition → Spot → Id × Spot
  | .read g, s => s.result .load flag [.id (place g)]
  | .not c, s => (code c s).2.result .logicalNot flag [.id (code c s).1]
  | .shortCircuit conjunction left right, s =>
    let l := code left s
    let r := code right (l.2.fork conjunction l.1)
    (r.2.next (.branch l.2.issue.nextId) l.2.issue.nextId).result .phi flag
      (Operand.ids [l.1, l.2.block.label, r.1, r.2.block.label])

/-! ### The run that emits it -/

/-- The state of a body at a place. -/
def Spot.body (σ : Body) (head : FunctionHead) (s : Spot) (v : Valuation) : Body :=
  { σ with
    values := v
    progress := { σ.progress with
      assembly := { σ.progress.assembly with
        bound := s.bound
        draft := some { toFunctionHead := head, closed := s.closed, current := some s.block } } } }

/-- The same, between two blocks. -/
def Spot.between (σ : Body) (head : FunctionHead) (s : Spot) (terminator : Instruction)
    (v : Valuation) : Body :=
  { σ with
    values := v
    progress := { σ.progress with
      assembly := { σ.progress.assembly with
        bound := s.bound
        draft := some { toFunctionHead := head, closed := s.closed.push (s.block.close terminator) }
          } } }

section

variable {σ : Body} {head : FunctionHead} {s : Spot}

lemma freshId_body : (liftM freshId : BodyM Id) (s.body σ head v) =
    .ok s.nextId (s.issue.body σ head v) := rfl

lemma emit_body {i : Instruction} (h : i.isTerminator = false) :
    emit i (s.body σ head v) = .ok () ((s.push i).body σ head v) := by
  refine build_eq_ok.2 ⟨((s.push i).body σ head v).progress.assembly, ?_, rfl⟩
  simp only [pushInstruction, onDraft, Spot.body, Draft.push, h]
  rfl

lemma terminate_body (i : Instruction) :
    terminate i (s.body σ head v) = .ok () (s.between σ head i v) := rfl

lemma beginBlock_between (i : Instruction) (label : Id) :
    beginBlock label (s.between σ head i v) = .ok () ((s.next i label).body σ head v) := rfl

end

/-! ### What a run depends on -/

/-- What the emission of a condition finds: the type of flags, and where they are. -/
structure Furnished (env : FunctionEnv) (σ : Body) (count : Nat) : Prop where
  depth : 0 < env.depth
  named : env.function.named = []
  types : env.module.types.get? ⟨0⟩ = some ⟨none, .scalar .bool⟩ ∧
    env.module.types.get? ⟨1⟩ = some ⟨none, .pointer ⟨0⟩ .private⟩
  flag : σ.progress.types.get? ⟨0⟩ = some flag
  contents : ∀ index, σ.contents.getD index none = none
  places : ∀ g : Handle .globalVariable, g.index < count →
    ∃ contents, σ.progress.globals[g.index]? = some ⟨place g, contents⟩

section

variable {flag place} {env : FunctionEnv} {σ σ₁ σ₂ σ' : Body} {head : FunctionHead} {s : Spot}
    {count : Nat} {e e' : Expression} {g : Handle .globalVariable} {es : List Expression}
    {conjunction : Bool} {c : Condition}

lemma typeId_body (h : Furnished flag place env σ count) :
    (liftM (typeId env.toEnv ⟨0⟩) : BodyM Id) (s.body σ head v) = .ok flag (s.body σ head v) := by
  obtain ⟨depth, hdepth⟩ := Nat.exists_eq_succ_of_ne_zero (Nat.pos_iff_ne_zero.1 h.depth)
  refine lift_eq_ok.2 ⟨_, ?_, rfl⟩
  unfold typeId
  rw [hdepth]
  simp only [typeIdWithin, bind_eq_ok, get_eq_ok]
  refine ⟨_, _, ⟨rfl, rfl⟩, ?_⟩
  have hflag : (s.body σ head v).progress.types.get? ⟨0⟩ = some flag := h.flag
  rw [hflag]
  rfl

/-- The types of the expressions of a condition. -/
structure Typed (es : List Expression) (env : FunctionEnv) : Prop where
  items : env.function.expressions.items.toList = es
  types : env.function.expressions.types.toList = es.map Condition.typeOf

lemma Typed.typeOf (h : Typed es env) (he : es[i]? = some e) :
    env.function.expressions.typeOf ⟨i⟩ = .ok (Condition.typeOf e) := by
  have hlt : i < es.length := (List.getElem?_eq_some_iff.1 he).1
  have hsize : ¬ env.function.expressions.size ≤ i := by
    rw [Arena.size, ← Array.length_toList, h.items]
    omega
  have htype : env.function.expressions.types[i]? = some (Condition.typeOf e) := by
    rw [← Array.getElem?_toList, h.types, getElem?_map, he]
    rfl
  simp only [IR.ExpressionArena.typeOf, hsize, htype, if_false]

lemma Typed.fetch (h : Typed es env) (he : es[i]? = some e) :
    env.function.expressions.fetch ⟨i⟩ = .ok e := by
  have hget : env.function.expressions.get? ⟨i⟩ = some e := by
    rw [Arena.get?, ← Array.getElem?_toList, h.items, he]
  simp only [IR.ExpressionArena.fetch, hget]

/-! ### Steps of the run -/

lemma emitResult_body (hop : op.isTerminator = false) :
      emitResult op type operands (s.body σ head v) =
      .ok s.nextId ((s.result op type operands).2.body σ head v) :=
  bind_eq_ok.2 ⟨_, _, freshId_body, bind_eq_ok.2 ⟨(), _, emit_body hop, rfl⟩⟩

lemma except_body {x : Except IR.Error α} {a : α} (h : x = .ok a) :
    (liftM (liftM x : EmitM α) : BodyM α) (s.body σ head v) = .ok a (s.body σ head v) := by
  subst h
  rfl

variable {depth start n j root part m : Nat}

section

variable (hfurnished : Furnished flag place env σ count) (htyped : Typed es env)
    (he : es[i]? = some e)
include hfurnished htyped he

lemma expressionType_body (hflag : Condition.typeOf e = ⟨0⟩) :
    (liftM (expressionType env ⟨i⟩) : BodyM Id) (s.body σ head v) = .ok flag (s.body σ head v) := by
  have htype := htyped.typeOf he
  rw [hflag] at htype
  have htypeId : (liftM (typeId env.toEnv ⟨0⟩) : BodyM Id) (s.body σ head v) = .ok flag
    (s.body σ head v) :=
    typeId_body hfurnished
  obtain ⟨p, hp, hbody⟩ := lift_eq_ok.1 htypeId
  refine lift_eq_ok.2 ⟨p, bind_eq_ok.2 ⟨⟨0⟩, _, ?_, hp⟩, hbody⟩
  rw [htype]
  rfl

lemma expressionShape_eq : expressionShape env ⟨i⟩ =
      .ok (if Condition.typeOf e = ⟨1⟩ then .pointer ⟨0⟩ .private else .scalar .bool) := by
  simp only [expressionShape, htyped.typeOf he]
  change shapeAt env.toEnv (Condition.typeOf e) = _
  simp only [shapeAt, IR.Module.typeAt]
  cases e with
  | globalVariable g =>
    simp only [Condition.typeOf, hfurnished.types.2]
    rfl
  | _ =>
    simp only [Condition.typeOf, hfurnished.types.1]
    rfl

end

lemma expressionWithin_known (hv : v.get? h = some id) :
    expressionWithin env (depth + 1) h (s.body σ head v) = .ok id (s.body σ head v) := by
  simp only [expressionWithin, bind_eq_ok, get_eq_ok]
  refine ⟨_, _, ⟨rfl, rfl⟩, ?_⟩
  have hget : (s.body σ head v).values.get? h = some id := hv
  rw [hget]
  rfl

section

variable (hfurnished : Furnished flag place env σ count) {left right : Handle .expression}
include hfurnished

lemma expressionWithin_new (htyped : Typed es env) (he : es[i]? = some e)
    (hv : v.get? ⟨i⟩ = none) {s' : Spot}
    (hcompute : compute env (expressionWithin env depth) ⟨i⟩ e (s.body σ head v) =
      .ok id (s'.body σ head v')) :
    expressionWithin env (depth + 1) ⟨i⟩ (s.body σ head v) = .ok id
      (s'.body σ head (v'.set ⟨i⟩ id)) := by
  simp only [expressionWithin, bind_eq_ok, get_eq_ok]
  refine ⟨_, _, ⟨rfl, rfl⟩, ?_⟩
  have hget : (s.body σ head v).values.get? ⟨i⟩ = none := hv
  rw [hget]
  simp only [bind_eq_ok]
  refine ⟨e, _, except_body (htyped.fetch he), id, _, hcompute, (), _, rfl, (), _, ?_, rfl⟩
  have hname : env.function.nameOf? ⟨i⟩ = none := by
    rw [IR.Function.nameOf?, hfurnished.named]
    rfl
  refine lift_eq_ok.2 ⟨_, ?_, rfl⟩
  simp only [nameValue, hname]
  rfl

lemma compute_pointer (hg : g.index < count) (operand : Handle .expression → BodyM Id) :
    compute env operand ⟨i⟩ (.globalVariable g) (s.body σ head v) = .ok (place g)
      (s.body σ head v) := by
  obtain ⟨contents, hplace⟩ := hfurnished.places g hg
  simp only [compute, globalPointer, bind_eq_ok, get_eq_ok]
  refine ⟨_, _, ⟨rfl, rfl⟩, ?_⟩
  have hnone : (s.body σ head v).contents.getD g.index none = none := hfurnished.contents g.index
  have hplace' : (s.body σ head v).progress.globals[g.index]? = some ⟨place g, contents⟩ := hplace
  rw [hnone]
  simp only [hplace']
  rfl

lemma computeLoad_body (htyped : Typed es env)
    {g : Handle .globalVariable} {p : Id} (he : es[i]? = some (.load ⟨j⟩))
    (hj : es[j]? = some (.globalVariable g))
    (hoperand : operand ⟨j⟩ (s.body σ head v) = .ok p (s.body σ head v')) :
    computeLoad env operand ⟨i⟩ ⟨j⟩ (s.body σ head v) =
      .ok s.nextId ((s.result .load flag [.id p]).2.body σ head v') := by
  have hatomic : pointsToAtomic env ⟨j⟩ = .ok false := by
    simp only [pointsToAtomic, expressionShape_eq hfurnished htyped hj, Condition.typeOf, if_true]
    change (shapeAt env.toEnv ⟨0⟩ >>= _) = _
    simp only [shapeAt, IR.Module.typeAt, hfurnished.types.1]
    rfl
  simp only [computeLoad, bind_eq_ok]
  refine ⟨flag, _, expressionType_body hfurnished htyped he rfl, false, _,
    except_body hatomic, p, _, hoperand, _, _, freshId_body, ?_⟩
  exact bind_eq_ok.2 ⟨(), _, emit_body rfl, rfl⟩

lemma computeUnary_body (htyped : Typed es env) {s' : Spot}
    (he : es[i]? = some (.unary .logicalNot ⟨j⟩)) (hj : es[j]? = some e')
    (hflag : Condition.typeOf e' = ⟨0⟩)
    (hoperand : operand ⟨j⟩ (s.body σ head v) = .ok a (s'.body σ head v')) :
    computeUnary env operand ⟨i⟩ .logicalNot ⟨j⟩ (s.body σ head v) =
      .ok s'.nextId ((s'.result .logicalNot flag [.id a]).2.body σ head v') := by
  have hshape := expressionShape_eq hfurnished htyped hj
  rw [hflag] at hshape
  simp only [computeUnary, bind_eq_ok]
  exact ⟨_, _, except_body hshape, .logicalNot, _, rfl, flag, _,
    expressionType_body hfurnished htyped he rfl, a, _, hoperand, emitResult_body rfl⟩

lemma computeShortCircuit_body (htyped : Typed es env)
    {s₁ s₂ : Spot} {v₁ : Valuation}
    (he : es[i]? = some (.binary (Condition.junction conjunction) left right))
    (hleft : operand left (s.body σ head v) = .ok l (s₁.body σ head v₁))
    (hright : operand right ((s₁.fork conjunction l).body σ head v₁) = .ok r (s₂.body σ head v₂))
    (hgrows : v₁.Grows v₂ new) :
    computeShortCircuit env operand ⟨i⟩ (Condition.junction conjunction) left right
      (s.body σ head v) =
      .ok (s₂.next (.branch s₁.issue.nextId) s₁.issue.nextId).nextId
        (((s₂.next (.branch s₁.issue.nextId) s₁.issue.nextId).result .phi flag
          (Operand.ids [l, s₁.block.label, r, s₂.block.label])).2.body σ head v₁) := by
  have hlabel : ∀ {cause : Inconsistency} {s : Spot} {v : Valuation},
      labelOr cause (s.body σ head v) = .ok s.block.label (s.body σ head v) := rfl
  -- values of the right block are forgotten after it, as it need not have been executed
  have hback : ∀ i, (modify fun body => { body with values := body.values.rewind v₁.mark } :
      BodyM Unit) (s₂.between σ head i v₂) = .ok () (s₂.between σ head i v₁) := fun i =>
    congrArg (fun v => EStateM.Result.ok () (s₂.between σ head i v)) (Valuation.rewind_eq hgrows)
  simp only [computeShortCircuit, bind_eq_ok]
  refine ⟨flag, _, expressionType_body hfurnished htyped he rfl, l, _, hleft, _, _, hlabel, _, _,
    freshId_body, _, _, freshId_body, (), _, emit_body rfl, ?_⟩
  cases conjunction
  all_goals
    refine bind_eq_ok.2 ⟨(), _, terminate_body _, ?_⟩
    simp only [bind_eq_ok]
    exact ⟨(), _, beginBlock_between _ _, _, _, rfl, r, _, hright, _, _, hlabel, (), _,
    terminate_body _,
      (), _, hback _, (), _, beginBlock_between _ _, emitResult_body rfl⟩

end

lemma exists_root (h : Condition.Laid es base c) :
    ∃ e, es[c.root base]? = some e ∧ Condition.typeOf e = ⟨0⟩ := by
  cases c with
  | read g => exact ⟨_, h.pointer.2, rfl⟩
  | not c => exact ⟨_, h.negation.2, rfl⟩
  | shortCircuit conjunction left right => exact ⟨_, h.circuit.2.2, rfl⟩

/-- What an evaluation leaves: the parts of the condition may have got values, and it has one. -/
structure Leaves (base root : Nat) (id : Id) (v v' : Valuation) (new : Handles) : Prop where
  grows : v.Grows v' new
  within : ∀ h ∈ new, base ≤ h.index ∧ h.index ≤ root
  value : v'.get? ⟨root⟩ = some id

lemma Leaves.first (hnone : v.get? ⟨base⟩ = none) (hlt : base < v.size) (id : Id) :
    Leaves base base id v (v.set ⟨base⟩ id) [⟨base⟩] where
  grows := (Valuation.Grows.refl v).cons hnone hlt id
  within := by simp
  value := Valuation.get?_set_self hlt

lemma Leaves.next (h : Leaves base part id v v' new) (hbase : base ≤ part) (hpart : part < root)
    (hnone : v.get? ⟨root⟩ = none) (hlt : root < v.size) :
    Leaves base root id' v (v'.set ⟨root⟩ id') (⟨root⟩ :: new) where
  grows := h.grows.cons hnone hlt id'
  within g hg := by
    rcases mem_cons.1 hg with rfl | hg
    · exact ⟨Nat.le_trans hbase (Nat.le_of_lt hpart), Nat.le_refl _⟩
    · exact ⟨(h.within g hg).1, Nat.le_trans (h.within g hg).2 (Nat.le_of_lt hpart)⟩
  value := Valuation.get?_set_self (Nat.lt_of_lt_of_eq hlt h.grows.size.symm)

lemma Leaves.none (h : Leaves base root id v v' new) (hi : i < base ∨ root < i) :
    v'.get? ⟨i⟩ = v.get? ⟨i⟩ := by
  refine h.grows.old _ fun hmem => ?_
  have hwithin : base ≤ i ∧ i ≤ root := h.within _ hmem
  omega

variable (flag place) in
/-- The outcome of a computation of a condition: its value, behind its code. -/
abbrev answer (σ : Body) (head : FunctionHead) (c : Condition) (s : Spot) (v : Valuation) :
    EStateM.Result Fault Body Id :=
  .ok (code flag place c s).1 ((code flag place c s).2.body σ head v)

section

variable (hfurnished : Furnished flag place env σ count) (htyped : Typed es env)
    {left right : Condition}
include hfurnished htyped

/-! The value of the last expression of a condition, once its operands have theirs: they may be
computed for it, or have been computed before. -/

lemma expressionWithin_pointer (hlaid : Condition.Laid es base (.read g)) (hg : g.index < count)
    (hnone : v.get? ⟨base⟩ = none) : expressionWithin env (depth + 1) ⟨base⟩ (s.body σ head v) =
      .ok (place g) (s.body σ head (v.set ⟨base⟩ (place g))) :=
  expressionWithin_new hfurnished htyped hlaid.pointer.1 hnone (compute_pointer hfurnished hg _)

lemma expressionWithin_read (hlaid : Condition.Laid es base (.read g))
    (hnone : v.get? ⟨base + 1⟩ = none)
    (hpointer : expressionWithin env depth ⟨base⟩ (s.body σ head v) = .ok (place g)
      (s.body σ head v')) :
    expressionWithin env (depth + 1) ⟨base + 1⟩ (s.body σ head v) =
      answer flag place σ head (.read g) s (v'.set ⟨base + 1⟩ (code flag place (.read g) s).1) :=
  expressionWithin_new hfurnished htyped hlaid.pointer.2 hnone
    (computeLoad_body hfurnished htyped hlaid.pointer.2 hlaid.pointer.1 hpointer)

lemma expressionWithin_not {s₀ : Spot} (hlaid : Condition.Laid es base (.not c))
    (hnone : v.get? ⟨c.root base + 1⟩ = none)
    (hpart : expressionWithin env depth ⟨c.root base⟩ (s₀.body σ head v) = answer flag place
      σ head c s v') :
    expressionWithin env (depth + 1) ⟨c.root base + 1⟩ (s₀.body σ head v) =
      answer flag place σ head (.not c) s
        (v'.set ⟨c.root base + 1⟩ (code flag place (.not c) s).1) := by
  obtain ⟨hlaid', hnode⟩ := hlaid.negation
  obtain ⟨e, he, hflag⟩ := exists_root hlaid'
  exact expressionWithin_new hfurnished htyped hnode hnone
    (computeUnary_body hfurnished htyped hnode he hflag hpart)

lemma expressionWithin_circuit {s₀ : Spot} {v₁ : Valuation}
    (hlaid : Condition.Laid es base (.shortCircuit conjunction left right))
    (hnone : v.get? ⟨right.root (left.root base + 1) + 1⟩ = none)
    (hleft : expressionWithin env depth ⟨left.root base⟩ (s₀.body σ head v) =
      answer flag place σ head left s v₁)
    (hright : expressionWithin env depth ⟨right.root (left.root base + 1)⟩
        (((code flag place left s).2.fork conjunction (code flag place left s).1).body σ head v₁) =
      answer flag place σ head right
        ((code flag place left s).2.fork conjunction (code flag place left s).1) v₂)
    (hgrows : v₁.Grows v₂ new) :
    expressionWithin env (depth + 1) ⟨right.root (left.root base + 1) + 1⟩ (s₀.body σ head v) =
      answer flag place σ head (.shortCircuit conjunction left right) s
        (v₁.set ⟨right.root (left.root base + 1) + 1⟩
          (code flag place (.shortCircuit conjunction left right) s).1) := by
  obtain ⟨-, -, hnode⟩ := hlaid.circuit
  exact expressionWithin_new hfurnished htyped hnode hnone
    (by
      cases conjunction <;>
        exact computeShortCircuit_body hfurnished htyped hnode hleft hright hgrows)

/-- The value of a condition that has none yet is computed, and its parts get values on the way. -/
lemma expressionWithin_root (c : Condition) : ∀ depth base s {v}, Condition.Laid es base c →
      (∀ g ∈ c.flags, g.index < count) → c.root base < base + depth →
      (∀ i, base ≤ i → i ≤ c.root base → v.get? ⟨i⟩ = none) → c.root base < v.size →
      ∃ v' new, expressionWithin env depth ⟨c.root base⟩ (s.body σ head v) = answer flag place
        σ head c s v' ∧
        Leaves base (c.root base) (code flag place c s).1 v v' new := by
  -- only parts of the condition get values, so that the right operand has none when its turn comes
  induction c with
  | read g =>
    intro depth base s v hlaid hflags hdepth hnone hsize
    obtain ⟨depth, rfl⟩ : ∃ d, depth = d + 2 :=
      ⟨depth - 2, by simp only [Condition.root] at hdepth; omega⟩
    have hbase := hnone base (Nat.le_refl _) (Nat.le_succ _)
    have hroot := hnone (base + 1) (Nat.le_succ _) (Nat.le_refl _)
    exact ⟨_, _, expressionWithin_read hfurnished htyped hlaid hroot
      (expressionWithin_pointer hfurnished htyped hlaid (hflags g mem_cons_self) hbase),
      (Leaves.first hbase (Nat.lt_of_succ_lt hsize) _).next (Nat.le_refl _)
      (Nat.lt_succ_self _) hroot hsize⟩
  | not c ih =>
    intro depth base s v hlaid hflags hdepth hnone hsize
    have hbase := c.base_lt_root base
    simp only [Condition.root] at hnone hsize hdepth
    obtain ⟨depth, rfl⟩ : ∃ d, depth = d + 1 := ⟨depth - 1, by omega⟩
    obtain ⟨v₁, new, hrun, hleaves⟩ := ih depth base s hlaid.negation.1 hflags (by omega)
      (fun i h h' => hnone i h (by omega)) (by omega)
    have hroot := hnone (c.root base + 1) (by omega) (Nat.le_refl _)
    exact ⟨_, _, expressionWithin_not hfurnished htyped hlaid hroot hrun,
      hleaves.next (Nat.le_of_lt hbase) (Nat.lt_succ_self _) hroot hsize⟩
  | shortCircuit conjunction left right ihl ihr =>
    intro depth base s v hlaid hflags hdepth hnone hsize
    have hl := left.base_lt_root base
    have hr := right.base_lt_root (left.root base + 1)
    simp only [Condition.root] at hnone hsize hdepth
    obtain ⟨depth, rfl⟩ : ∃ d, depth = d + 1 := ⟨depth - 1, by omega⟩
    obtain ⟨hlaidl, hlaidr, -⟩ := hlaid.circuit
    simp only [Condition.flags, forall_mem_append] at hflags
    obtain ⟨v₁, new, hrunl, hleavesl⟩ := ihl depth base s hlaidl hflags.1 (by omega)
      (fun i h h' => hnone i h (by omega)) (by omega)
    obtain ⟨v₂, new', hrunr, hleavesr⟩ := ihr depth _
      ((code flag place left s).2.fork conjunction (code flag place left s).1) hlaidr
      hflags.2 (by omega)
      (fun i h h' => (hleavesl.none (by omega)).trans (hnone i (by omega) (by omega)))
      (by rw [hleavesl.grows.size]; omega)
    have hroot := hnone (right.root (left.root base + 1) + 1) (by omega) (Nat.le_refl _)
    exact ⟨_, _, expressionWithin_circuit hfurnished htyped hlaid hroot hrunl hrunr hleavesr.grows,
      hleavesl.next (Nat.le_of_lt hl) (Nat.lt_succ_of_lt (Nat.lt_of_succ_lt hr)) hroot hsize⟩

end

/-! ### Emits -/

lemma emitRun_skip (h : env.deferred.getD start false = true) :
    emitRun env start (n + 1) = emitRun env (start + 1) n := by
  simp only [emitRun, h, if_true]

lemma emitRun_compute (h : env.deferred.getD start false = false) : emitRun env start (n + 1) = (do
      discard (expression env ⟨start⟩)
      emitRun env (start + 1) n) := by
  simp only [emitRun, h, Bool.false_eq_true, if_false]

lemma emitRun_add (h : emitRun env start m σ = .ok () σ₁)
    (h' : emitRun env (start + m) n σ₁ = .ok () σ₂) :
    emitRun env start (m + n) σ = .ok () σ₂ := by
  induction m generalizing start σ with
  | zero =>
    obtain ⟨-, rfl⟩ := pure_eq_ok.1 h
    rw [Nat.zero_add]
    exact h'
  | succ m ih =>
    rw [← Nat.add_assoc, Nat.add_right_comm] at h'
    rw [Nat.succ_add]
    cases hdeferred : env.deferred.getD start false with
    | true =>
      rw [emitRun_skip hdeferred] at h ⊢
      exact ih h h'
    | false =>
      rw [emitRun_compute hdeferred] at h ⊢
      obtain ⟨_, σ', hfirst, hrest⟩ := bind_eq_ok.1 h
      exact bind_eq_ok.2 ⟨_, σ', hfirst, ih hrest h'⟩

lemma emitRun_deferred (h : ∀ i, start ≤ i → i < start + n → env.deferred.getD i false) (σ : Body) :
    emitRun env start n σ = .ok () σ := by
  induction n generalizing start with
  | zero => rfl
  | succ n ih =>
    rw [emitRun_skip (h start (Nat.le_refl _) (by omega))]
    exact ih fun i hi hi' => h i (by omega) (by omega)

lemma emitRun_one (h : env.deferred.getD start false = false) (hdepth : env.depth = depth)
    (hrun : expressionWithin env depth ⟨start⟩ σ = .ok id σ') :
    emitRun env start 1 σ = .ok () σ' := by
  subst hdepth
  rw [emitRun_compute h]
  exact bind_eq_ok.2 ⟨(), σ', map_eq_ok.2 ⟨id, hrun, rfl⟩, rfl⟩

/-- An emit of a condition computes it from left to right, and leaves the right of short circuits to
their blocks. -/
lemma emitRun_root (head : FunctionHead) (hfurnished : Furnished flag place env σ count)
    (htyped : Typed es env) (c : Condition) :
    ∀ base s {v}, Condition.Laid es base c →
      (∀ g ∈ c.flags, g.index < count) → c.root base < base + env.depth →
      Eager env.deferred base c →
      (∀ i, base ≤ i → i ≤ c.root base → v.get? ⟨i⟩ = none) → c.root base < v.size →
      ∃ v' new, emitRun env base (c.root base + 1 - base) (s.body σ head v) =
          .ok () ((code flag place c s).2.body σ head v') ∧
        Leaves base (c.root base) (code flag place c s).1 v v' new := by
  induction c with
  | read g =>
    intro base s v hlaid hflags hdepth heager hnone hsize
    simp only [Condition.root] at hnone hsize hdepth
    obtain ⟨depth, hdepth'⟩ : ∃ d, env.depth = d + 2 := ⟨env.depth - 2, by omega⟩
    have hbase := hnone base (Nat.le_refl _) (Nat.le_succ _)
    have hroot := hnone (base + 1) (Nat.le_succ _) (Nat.le_refl _)
    have hfirst := Leaves.first hbase (Nat.lt_of_succ_lt hsize) (place g)
    have hroot' := (hfirst.none (.inr (Nat.lt_succ_self _))).trans hroot
    refine ⟨_, _, ?_, hfirst.next (Nat.le_refl _) (Nat.lt_succ_self _) hroot hsize⟩
    rw [show (Condition.read g).root base + 1 - base = 1 + 1 by simp only [Condition.root]; omega]
    exact emitRun_add (emitRun_one heager.1 hdepth'
        (expressionWithin_pointer hfurnished htyped hlaid (hflags g mem_cons_self) hbase))
      (emitRun_one heager.2 hdepth'
        (expressionWithin_read hfurnished htyped hlaid hroot'
        (expressionWithin_known hfirst.value)))
  | not c ih =>
    intro base s v hlaid hflags hdepth heager hnone hsize
    have hbase := c.base_lt_root base
    simp only [Condition.root] at hnone hsize hdepth
    obtain ⟨depth, hdepth'⟩ : ∃ d, env.depth = d + 2 := ⟨env.depth - 2, by omega⟩
    obtain ⟨v₁, new, hrun, hleaves⟩ := ih base s hlaid.negation.1 hflags (by omega) heager.1
      (fun i h h' => hnone i h (by omega)) (by omega)
    have hroot := hnone (c.root base + 1) (by omega) (Nat.le_refl _)
    have hroot' := (hleaves.none (.inr (Nat.lt_succ_self _))).trans hroot
    refine ⟨_, _, ?_, hleaves.next (Nat.le_of_lt hbase) (Nat.lt_succ_self _) hroot hsize⟩
    rw [show (Condition.not c).root base + 1 - base = (c.root base + 1 - base) + 1 by
      simp only [Condition.root]; omega]
    refine emitRun_add hrun ?_
    rw [show base + (c.root base + 1 - base) = c.root base + 1 by omega]
    exact emitRun_one heager.2 hdepth'
      (expressionWithin_not hfurnished htyped hlaid hroot' (expressionWithin_known hleaves.value))
  | shortCircuit conjunction left right ihl _ =>
    intro base s v hlaid hflags hdepth heager hnone hsize
    have hl := left.base_lt_root base
    have hr := right.base_lt_root (left.root base + 1)
    simp only [Condition.root] at hnone hsize hdepth
    obtain ⟨depth, hdepth'⟩ : ∃ d, env.depth = d + 2 := ⟨env.depth - 2, by omega⟩
    obtain ⟨hlaidl, hlaidr, -⟩ := hlaid.circuit
    obtain ⟨heagerl, hdeferred, hcomputed⟩ := heager
    simp only [Condition.flags, forall_mem_append] at hflags
    obtain ⟨v₁, new, hrunl, hleavesl⟩ := ihl base s hlaidl hflags.1 (by omega) heagerl
      (fun i h h' => hnone i h (by omega)) (by omega)
    -- the right operand is computed where the short circuit is
    obtain ⟨v₂, new', hrunr, hleavesr⟩ := expressionWithin_root hfurnished htyped
      right (depth + 1) _ ((code flag place left s).2.fork conjunction (code flag place left s).1)
      hlaidr hflags.2 (by omega)
      (fun i h h' => (hleavesl.none (by omega)).trans (hnone i (by omega) (by omega)))
      (by rw [hleavesl.grows.size]; omega)
    have hroot := hnone (right.root (left.root base + 1) + 1) (by omega) (Nat.le_refl _)
    have hroot' := (hleavesl.none (.inr (by omega))).trans hroot
    refine ⟨_, _, ?_, hleavesl.next (Nat.le_of_lt hl) (Nat.lt_succ_of_lt (Nat.lt_of_succ_lt hr))
      hroot hsize⟩
    rw [show (Condition.shortCircuit conjunction left right).root base + 1 - base =
        (left.root base + 1 - base) +
        ((right.root (left.root base + 1) + 1 - (left.root base + 1)) + 1) by
      simp only [Condition.root]; omega]
    refine emitRun_add hrunl (emitRun_add (emitRun_deferred (fun i hi hi' => hdeferred i ?_ ?_) _)
      ?_)
    · omega
    · omega
    · rw [show base + (left.root base + 1 - base) +
          (right.root (left.root base + 1) + 1 - (left.root base + 1)) =
        right.root (left.root base + 1) + 1 by omega]
      exact emitRun_one hcomputed hdepth' (expressionWithin_circuit hfurnished htyped hlaid hroot'
        (expressionWithin_known hleavesl.value) hrunr hleavesr.grows)

end

/-- The code of the function that returns a condition, from its first block on. -/
def returning (c : Condition) (s : Spot) : Array Block :=
  let result := code flag place c s
  result.2.closed.push (result.2.block.close (.returnValue result.1))

section

variable {flag place} {env : FunctionEnv} {σ : Body} {head : FunctionHead} {s : Spot} {count : Nat}

lemma statements_function (head : FunctionHead) (s : Spot) (v : Valuation)
    (hfurnished : Furnished flag place env σ count) (c : Condition)
    (hfunction : env.function = c.function)
    (hdeferred : env.deferred = deferred c.function) (hflags : ∀ g ∈ c.flags, g.index < count)
    (hdepth : c.root 0 < env.depth) (houtputs : env.outputs = []) (hresult : env.result = some flag)
    (hnone : ∀ i, v.get? ⟨i⟩ = none) (hsize : c.root 0 < v.size) :
    ∃ v', statements env c.function.body (s.body σ head v) =
      .ok () ((code flag place c s).2.between σ head (.returnValue (code flag place c s).1)
        v') := by
  have htyped : Typed (c.layout 0)
    env := by refine ⟨?_, ?_⟩ <;> rw [hfunction] <;> exact toList_toArray ..
  have hready : ∀ (s : Spot) (v : Valuation), ensureOpenBlock (s.body σ head v) =
      .ok () (s.body σ head v) := fun _ _ => rfl
  obtain ⟨v', new, hrun, hleaves⟩ := emitRun_root head hfurnished htyped c 0 s (.whole c) hflags
    (by omega) (hdeferred ▸ eager_function c) (fun i _ _ => hnone i) hsize
  obtain ⟨depth, hdepth'⟩ : ∃ d, env.depth = d + 1 := ⟨env.depth - 1, by omega⟩
  have hvalue : expression env ⟨c.root 0⟩ ((code flag place c s).2.body σ head v') =
      .ok (code flag place c s).1 ((code flag place c s).2.body σ head v') := by
    rw [expression, hdepth']
    exact expressionWithin_known hleaves.value
  have hreturn : emitReturn env (some ⟨c.root 0⟩) ((code flag place c s).2.body σ head v') =
      .ok () ((code flag place c s).2.between σ head (.returnValue (code flag place c s).1)
      v') := by
    simp only [emitReturn, bind_eq_ok, houtputs, hresult]
    exact ⟨_, _, hvalue, terminate_body _⟩
  refine ⟨v', ?_⟩
  change statements env [.emit ⟨0, c.root 0 + 1⟩, .return (some ⟨c.root 0⟩)] _ = _
  simp only [statements, statement, bind_eq_ok]
  exact ⟨(), _, ⟨(), _, hready _ _, hrun⟩, (), _, ⟨(), _, hready _ _, hreturn⟩, rfl⟩

end

end Shader.Emit
