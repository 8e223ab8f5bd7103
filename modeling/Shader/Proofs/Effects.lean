import Shader.Proofs.Move

/-!
# Effects are emitted in preorder

The evaluation of an expression emits no instruction with an effect, and neither does the control
flow of statements.  A statement with a side effect emits one.  So the effects in the code of a
helper function stand in the preorder of the statements they are emitted for.
-/

namespace Shader.Emit

open List Assembly
open IR (Statement SwitchCase)

variable {p q : Point} {r r' : Record} {σ σ' : Body} {n n' : Nat} {env : FunctionEnv}
    {allowed : Opcode → Bool} {Readable : Handle .expression → Prop} {P : Nat → Nat → Record → Prop}
    {operands reads : Handles} {label target header : Id} {condition selector : Handle .expression}

namespace Record

/-- What the effects of a record are emitted for. -/
def effects (r : Record) :
    List Source := (r.filter fun e => e.instruction.isEffect).map Entry.source

@[simp] lemma effects_append (r r' : Record) : (r ++ r').effects = r.effects ++ r'.effects := by
  simp only [effects, filter_append, map_append]

lemma effects_cons (e : Entry) (r : Record) :
    effects (e :: r) = if e.instruction.isEffect then e.source :: r.effects else r.effects := by
  unfold effects
  rw [filter_cons]
  split <;> rfl

lemma effectCount_code (r : Record) : effectCount r.code = r.effects.length := by
  rw [effectCount, code, countP_map, effects, length_map, countP_eq_length_filter]
  rfl

end Record

/-! ### Expressions -/

/-- An evaluation has no effects. -/
def Evaluation.Calm (evaluate : Evaluation) :
    Prop := ∀ ⦃h σ r id σ'⦄, evaluate h σ r id σ' → r.effects = []

section

variable {evaluate : Evaluation} {source : Source}

lemma effects_of_emits (hcalm : ∀ op, allowed op → op.isEffect = false)
    (h : Emits source allowed p r q) :
    r.effects = [] := by
  cases h with
  | result hop _ _ _ _ | bare hop _ _ _ =>
    rw [Record.effects_cons, if_neg]
    · rfl
    · exact Bool.eq_false_iff.1 (hcalm _ hop)

lemma effects_of_straight (hcalm : ∀ op, allowed op → op.isEffect = false) (heval : evaluate.Calm)
    (h : Straight env evaluate source allowed operands p r q) : r.effects = [] := by
  induction h with
  | nil => rfl
  | cons hstep _ ih =>
    rw [Record.effects_append, ih, append_nil]
    cases hstep with
    | declare _ _ => rfl
    | issue => rfl
    | evaluate _ hevaluate => exact heval hevaluate
    | emit hemits => exact effects_of_emits hcalm hemits

lemma not_isEffect_of_isPlain {op : Opcode} (h : op.isPlain) : op.isEffect = false := by
  simp only [Opcode.isPlain, Bool.and_eq_true, Bool.not_eq_true'] at h
  exact h.1.1.2

lemma not_isEffect_of_isValue {op : Opcode} (h : op.isValue) : op.isEffect = false := by
  rcases Bool.or_eq_true_iff.1 h with h | h
  · exact not_isEffect_of_isPlain h
  · simp only [Opcode.isRead, Opcode.reads, contains_eq_mem, mem_cons, not_mem_nil,
      or_false, decide_eq_true_eq] at h
    rcases h with rfl | rfl <;> rfl

lemma calm_evaluated (env : FunctionEnv) : ∀ depth, (Evaluated env depth).Calm := by
  intro depth
  induction depth with
  | zero => exact fun _ _ _ _ _ h => h.elim
  | succ depth ih =>
    intro h σ r id σ' heval
    rcases heval with ⟨-, rfl, -⟩ | ⟨-, e, σ₁, -, hcomputed, -⟩
    · rfl
    · rcases hcomputed.forms with ⟨-, rfl, -⟩ | ⟨-, -, known, hchain⟩ | ⟨_, _, _, -, -, hshort⟩
      · rfl
      · exact effects_of_straight (fun _ => not_isEffect_of_isValue) ih hchain
      · obtain ⟨-, -, hl, -, -, -, -, -, -, hr, -⟩ := hshort
        rw [Record.effects_append, Record.effects_append, Record.effects_append, ih hl, ih hr]
        unfold shortCircuitBranch
        split <;> rfl

end

/-! ### Statements -/

/-- A property of records with some effects from a rank on, which a record has if its parts have
it. -/
structure Piecewise (P : Nat → Nat → Record → Prop) : Prop where
  append : ∀ {rank n n' r r'}, P rank n r → P (rank + n) n' r' → P rank (n + n') (r ++ r')
  frame : ∀ {rank is}, (Record.of .frame is).effects = [] → P rank 0 (.of .frame is)

/-- The records of statements that read only what is readable have the property. -/
structure Additive (env : FunctionEnv) (Readable : Handle .expression → Prop)
    (P : Nat → Nat → Record → Prop) : Prop extends Piecewise P where
  effect : ∀ {rank p r q}, Emits (.effect rank) Opcode.isEffect p r q → P rank 1 r
  evaluated : ∀ {rank h σ r id σ'}, Readable h → Evaluated env env.depth h σ r id σ' → P rank 0 r
  emitted : ∀ {h}, env.deferred.getD h.index false = false → Readable h
  outputs : ∀ {rank p r q}, env.outputs ≠ [] → Chain env .frame isOutput [] p r q → P rank 0 r

/-- The records of an emission have the property, from the rank on and with as many effects. -/
def Emission.Yields (P : Nat → Nat → Record → Prop) (rank count : Nat) (emission : Emission) :
    Prop :=
  ∀ ⦃σ r σ'⦄, emission σ r σ' → P rank count r

open Emission

namespace Piecewise

variable {emission first second : Emission} {rank count : Nat} (hP : Piecewise P)
include hP

lemma nil : P rank 0 [] := by
  show P rank 0 (.of .frame [])
  exact hP.frame rfl

lemma lead (h : P rank 0 r) (h' : P rank n r') :
    P rank n (r ++ r') := Nat.zero_add n ▸ hP.append h h'

lemma trail (h : P rank n r) (h' : P (rank + n) 0 r') : P rank n (r ++ r') := hP.append h h'

lemma skip : Yields P rank 0 skip := fun _ _ _ h => h.1 ▸ hP.nil

lemma andThen (h : Yields P rank n first) (h' : Yields P (rank + n) n' second) :
    Yields P rank (n + n') (Then first second) := by
  rintro σ r σ' ⟨hfirst, hsecond⟩
  exact hP.append (h hfirst) (h' hsecond)

lemma afterReady (h : Yields P rank count emission) :
    Yields P rank count (Then Ready emission) := by
  rintro σ r σ' ⟨hready, hrest⟩
  refine hP.lead ?_ (h hrest)
  cases hready with
  | already _ => exact hP.nil
  | fresh _ _ => exact hP.frame rfl

lemma part (h : Yields P rank count emission) :
    Yields P rank count (Part label target emission) := by
  rintro σ r σ' ⟨-, hinner, hcloses⟩
  refine hP.trail (hP.lead (hP.frame rfl) (h hinner)) ?_
  cases hcloses with
  | ended _ => exact hP.nil
  | branch _ => exact hP.frame rfl

lemma branches (target : Except Assembly.Fault Id) : Yields P rank 0 (Branches target) := by
  rintro σ r σ' ⟨-, -⟩
  exact hP.frame rfl

end Piecewise

namespace Additive

variable 
 {emission : Emission} {rank count : Nat} (hP : Additive env Readable P) {flow : ControlStack}
 {breakIf value : Option (Handle .expression)} {accept body continuing : ControlStack → Emission}
include hP

lemma straight (hcalm : ∀ op, allowed op → op.isEffect = false)
    (hreads : ∀ h ∈ operands, Readable h)
    (h : Chain env .frame allowed operands p r q) : P rank 0 r := by
  induction h with
  | nil => exact hP.nil
  | cons hstep _ ih =>
    refine hP.trail ?_ ih
    cases hstep with
    | declare _ _ | issue => exact hP.nil
    | evaluate hg heval => exact hP.evaluated (hreads _ hg) heval
    | emit hemits =>
      have heffects := effects_of_emits hcalm hemits
      cases hemits with
      | result _ _ _ _ _ | bare _ _ _ _ =>
        show P rank 0 (.of .frame [_])
        exact hP.frame heffects

lemma emits (count : Nat) : ∀ start, Yields P rank 0 (Emitted env start count) := by
  induction count with
  | zero => exact fun _ => hP.skip
  | succ count ih =>
    intro start σ r σ' h
    unfold Emitted at h
    split at h
    · exact ih (start + 1) h
    · rename_i hnot
      obtain ⟨⟨id, heval⟩, hrest⟩ := h
      exact hP.trail (hP.evaluated (hP.emitted (Bool.eq_false_iff.2 hnot)) heval)
        (ih (start + 1) hrest)

lemma affects (result : Option (Handle .expression)) (hreads : ∀ h ∈ reads, Readable h) :
    Yields P rank 1 (Affects env rank reads result) := by
  rintro σ r σ' ⟨hbefore, hemits, hafter, -, -⟩
  exact hP.trail (hP.lead (hP.straight (fun _ => not_isEffect_of_isPlain) hreads hbefore)
    (hP.effect hemits)) (hP.straight (fun _ => not_isEffect_of_isPlain) (forall_mem_nil _) hafter)

lemma returns (hreads : ∀ h ∈ value.toList, Readable h) :
    Yields P rank 0 fun σ r σ' => Returns env σ value r σ' := by
  intro σ r σ' hreturns
  cases hreturns with
  | nothing _ => exact hP.frame rfl
  | value _ heval _ => exact hP.trail (hP.evaluated (hreads _ mem_cons_self) heval) (hP.frame rfl)
  | outputs hne heval hchain _ _ =>
    exact hP.trail (hP.trail (hP.evaluated (hreads _ mem_cons_self) heval) (hP.outputs hne hchain))
      (hP.frame rfl)

lemma selects (hread : Readable condition) (haccept : ∀ inner, Yields P rank n (accept inner))
    (hreject : ∀ part ∈ reject, ∀ inner, Yields P (rank + n) n' (part inner))
    (hnone : reject = none → n' = 0) :
    Yields P rank (n + n') (Selects env flow condition accept reject) := by
  intro σ r σ' hselects
  cases hselects with
  | both heval _ _ _ _ _ hpart hpart' _ =>
    exact hP.trail (hP.append (hP.lead (hP.trail (hP.evaluated hread heval) (hP.frame rfl))
      (hP.part (haccept _) hpart)) (hP.part (hreject _ rfl _) hpart')) (hP.frame rfl)
  | one heval _ _ _ _ hpart _ =>
    obtain rfl := hnone rfl
    exact hP.trail (hP.lead (hP.trail (hP.evaluated hread heval) (hP.frame rfl))
      (hP.part (haccept _) hpart)) (hP.frame rfl)

lemma repeats {merge : Id} (hreads : ∀ h ∈ breakIf.toList, Readable h)
    (h : Repeats env header merge σ breakIf r σ') : P rank 0 r := by
  cases h with
  | ended _ => exact hP.nil
  | always _ => exact hP.frame rfl
  | «unless» _ heval _ =>
    exact hP.trail (hP.evaluated (hreads _ mem_cons_self) heval) (hP.frame rfl)

lemma loops (hreads : ∀ h ∈ breakIf.toList, Readable h)
    (hbody : ∀ inner, Yields P rank n (body inner))
    (hcontinuing : ∀ inner, Yields P (rank + n) n' (continuing inner)) :
    Yields P rank (n + n') (Loops env flow body continuing breakIf) := by
  rintro σ r σ' ⟨-, -, -, -, -, -, -, -, hpart, -, hinner, hrepeats, -⟩
  exact hP.trail (hP.trail (hP.append (hP.trail (hP.lead (hP.frame rfl) (hP.part (hbody _) hpart))
    (hP.frame rfl)) (hcontinuing _ hinner)) (hP.repeats hreads hrepeats)) (hP.frame rfl)

lemma switches (hread : Readable selector)
      (hparts : ∀ inner merge labels, labels.length = cases.length →
      Yields P rank count (parts inner merge labels)) :
    Yields P rank count (Switches env flow selector cases parts) := by
  rintro σ r σ' ⟨hselector, -, -, hissues, -, -, -, hinner, hfallsBack, -⟩
  have hhead : P rank 0 _ := hP.straight (fun _ => not_isEffect_of_isValue)
    (forall_mem_singleton.2 hread) hselector
  refine hP.trail (hP.trail (hP.lead (hP.trail hhead (hP.frame rfl))
    (hparts _ _ _ (Moving.length_of_issues hissues) hinner)) ?_) (hP.frame rfl)
  cases hfallsBack with
  | none => exact hP.nil
  | some _ _ => exact hP.frame rfl

end Additive

mutual

/-- The record of a statement has the property, with as many effects as there are side effects in
the statement. -/
lemma yields_stated (hP : Additive env Readable P) (s : Statement)
    (hreads : ∀ h ∈ s.reads, Readable h) :
    ∀ flow rank, Yields P rank s.effectCount (Stated env flow rank s) := by
  intro flow rank
  unfold Stated
  refine hP.afterReady ?_
  match s with
  | .emit range => exact hP.emits _ _
  | .block body => exact yields_statedAll hP body hreads flow rank
  | .store .. | .call .. | .atomic .. => exact hP.affects _ hreads
  | .ifElse condition accept reject =>
    obtain ⟨hcondition, hparts⟩ := forall_mem_cons.1 hreads
    obtain ⟨haccept, hreject⟩ := forall_mem_append.1 hparts
    refine hP.selects hcondition (fun inner => yields_statedAll hP accept haccept inner rank) ?_ ?_
    · intro part hpart inner
      split at hpart
      · cases hpart
      · cases hpart
        exact yields_statedAll hP reject hreject inner _
    · intro hnone
      split at hnone
      · rename_i hempty
        rw [isEmpty_iff.1 hempty]
        rfl
      · cases hnone
  | .switch selector cases =>
    obtain ⟨hselector, hcases⟩ := forall_mem_cons.1 hreads
    exact hP.switches hselector fun inner merge labels hlength =>
      yields_statedCases hP cases hcases inner rank merge labels hlength
  | .loop body continuing breakIf =>
    obtain ⟨hparts, hbreakIf⟩ := forall_mem_append.1 hreads
    obtain ⟨hbody, hcontinuing⟩ := forall_mem_append.1 hparts
    exact hP.loops hbreakIf (fun inner => yields_statedAll hP body hbody inner rank)
      fun inner => yields_statedAll hP continuing hcontinuing inner _
  | .break | .continue => exact hP.branches _
  | .return value => exact hP.returns hreads
  | .kill =>
    rintro σ r σ' ⟨-, rfl⟩
    exact hP.frame rfl
  | .barrier b =>
    simp only [Statement.effectCount]
    split
    · exact hP.skip
    · exact hP.affects _ nofun

lemma yields_statedAll (hP : Additive env Readable P) (body : List Statement)
    (hreads : ∀ h ∈ IR.bodyReads body, Readable h) :
    ∀ flow rank, Yields P rank (IR.bodyEffectCount body) (StatedAll env flow rank body) := by
  intro flow rank
  match body with
  | [] => exact hP.skip
  | s :: rest =>
    obtain ⟨hs, hrest⟩ := forall_mem_append.1 hreads
    exact hP.andThen (yields_stated hP s hs flow rank) (yields_statedAll hP rest hrest flow _)

lemma yields_statedCases (hP : Additive env Readable P) (cases : List SwitchCase)
    (hreads : ∀ h ∈ IR.casesReads cases, Readable h) :
    ∀ flow rank merge labels, labels.length = cases.length →
      Yields P rank (IR.casesEffectCount cases) (StatedCases env flow rank merge cases labels) := by
  intro flow rank merge labels hlength
  match cases, labels with
  | [], _ => exact hP.skip
  | c :: rest, label :: labels =>
    obtain ⟨hc, hrest⟩ := forall_mem_append.1 hreads
    exact hP.andThen (hP.part (yields_statedCase hP c hc flow rank))
      (yields_statedCases hP rest hrest flow _ merge labels (Nat.succ.inj hlength))

lemma yields_statedCase (hP : Additive env Readable P) (c : SwitchCase)
    (hreads : ∀ h ∈ IR.caseReads c, Readable h) :
    ∀ flow rank, Yields P rank (IR.caseEffectCount c) (StatedCase env flow rank c) := by
  intro flow rank
  match c with
  | ⟨_, body⟩ => exact yields_statedAll hP body hreads flow rank

end

/-! ### The effects of a helper function -/

/-- An emission has `count` effects, for the statements from `rank` on. -/
def Emission.Ordered (rank count : Nat) (emission : Emission) : Prop :=
  ∀ ⦃σ r σ'⦄, emission σ r σ' → r.effects = (range' rank count).map Source.effect

lemma piecewise_effects : Piecewise fun rank count r => r.effects = (range' rank count).map
    Source.effect where
  append h h' := by rw [Record.effects_append, h, h', ← map_append, range'_append_1]
  frame h := h

lemma additive_effects (houtputs : env.outputs = []) : Additive env (fun _ => True)
    fun rank count r => r.effects = (range' rank count).map Source.effect where
  toPiecewise := piecewise_effects
  effect hemits := by
    cases hemits with
    | result hop _ _ _ _ | bare hop _ _ _ => exact (Record.effects_cons _ _).trans (if_pos hop)
  evaluated _ heval := calm_evaluated env _ heval
  emitted _ := trivial
  outputs hne := absurd houtputs hne

namespace Emission.Ordered

variable {rank count : Nat} {emission : Emission}

lemma part (h : Ordered rank count emission) : Ordered rank count (Part label target emission) :=
  piecewise_effects.part h

lemma straight (hcalm : ∀ op, allowed op → op.isEffect = false)
    (h : Chain env source allowed operands p r q) : r.effects = [] :=
  effects_of_straight hcalm (calm_evaluated env _) h

lemma effectCount_code (h : Ordered rank count emission) (hemission : emission σ r σ') :
    effectCount r.code = count := by
  rw [Record.effectCount_code, h hemission, length_map, length_range']

end Emission.Ordered

section

variable (houtputs : env.outputs = [])
include houtputs

/-- In a helper function, the effects of a statement are those of the side effects in it, in
preorder. -/
lemma ordered_stated (s : Statement) :
    ∀ flow rank, Ordered rank s.effectCount (Stated env flow rank s) :=
  yields_stated (additive_effects houtputs) s fun _ _ => trivial

lemma ordered_statedAll (body : List Statement) :
    ∀ flow rank, Ordered rank (IR.bodyEffectCount body) (StatedAll env flow rank body) :=
  yields_statedAll (additive_effects houtputs) body fun _ _ => trivial

lemma ordered_statedCase (c : SwitchCase) :
    ∀ flow rank, Ordered rank (IR.caseEffectCount c) (StatedCase env flow rank c) :=
  yields_statedCase (additive_effects houtputs) c fun _ _ => trivial

end

end Shader.Emit
