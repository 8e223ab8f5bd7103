import Shader.Proofs.Certification
import Shader.Proofs.Graph
import Shader.Proofs.Module

/-!
# The shape of emitted control flow

The blocks of every emitted function are structured, whatever the program is.  A construct issues
the labels of its blocks before its header, so what the header announces is new.  The blocks that
break and continue lead to wait while the parts of the construct are emitted, with one exception:
the block that starts the next round of a loop is open already in the continuing block itself.  If
that never continues its own loop, control goes forward.
-/

namespace Shader.IR

open List

/-! ### Continuing -/

mutual

/-- The statement may continue the loop around it. -/
def Statement.continues : Statement → Bool
  | .continue => true
  | .block body => bodyContinues body
  | .ifElse _ accept reject => bodyContinues accept || bodyContinues reject
  | .switch _ cases => casesContinue cases
  | .emit _ | .store .. | .loop .. | .call .. | .atomic .. | .break | .return _ | .kill
  | .barrier _ => false
termination_by structural s => s

def bodyContinues : List Statement → Bool
  | [] => false
  | s :: rest => s.continues || bodyContinues rest
termination_by structural body => body

def casesContinue : List SwitchCase → Bool
  | [] => false
  | c :: rest => caseContinues c || casesContinue rest
termination_by structural cases => cases

def caseContinues : SwitchCase → Bool
  | ⟨_, body⟩ => bodyContinues body
termination_by structural c => c

end

mutual

/-- No loop in the statement is continued in its own continuing block. -/
def Statement.isOrderly : Statement → Bool
  | .block body => bodyOrderly body
  | .ifElse _ accept reject => bodyOrderly accept && bodyOrderly reject
  | .switch _ cases => casesOrderly cases
  | .loop body continuing _ =>
    bodyOrderly body && (bodyOrderly continuing && !bodyContinues continuing)
  | .emit _ | .store .. | .call .. | .atomic .. | .break | .continue | .return _ | .kill
  | .barrier _ => true
termination_by structural s => s

def bodyOrderly : List Statement → Bool
  | [] => true
  | s :: rest => s.isOrderly && bodyOrderly rest
termination_by structural body => body

def casesOrderly : List SwitchCase → Bool
  | [] => true
  | c :: rest => caseOrderly c && casesOrderly rest
termination_by structural cases => cases

def caseOrderly : SwitchCase → Bool
  | ⟨_, body⟩ => bodyOrderly body
termination_by structural c => c

end

end Shader.IR

namespace Shader.Emit

open List Assembly
open IR (Statement SwitchCase bodyContinues casesContinue caseContinues bodyOrderly casesOrderly
  caseOrderly)

variable {p q : Point} {r : Record} {σ σ' σ₁ σ₂ σ₃ σ₄ : Body} {P labels P' Q Q' : List Id}
    {merge next target type l x accept reject label : Id} {flow : ControlStack}
  {continues restack continues' continues₁ continues₂ : Bool} {cases : List SwitchCase}
  {inputs : List EntryArgument} {allowed : Opcode → Bool} {source : Source} {operands : Handles}
  {h left right condition selector : Handle .expression} {breakIf init : Option
  (Handle .expression)} {fallback : Option Id} {b A B : Block} {base : Nat} {i t : Instruction}

variable {anything : Prop} {env : FunctionEnv}

/-! ### Expressions -/

/-- The blocks that are added lead to labels from `base` on. -/
structure Adds (base : Nat) (σ σ' : Body) : Prop where
  bound : σ.bound ≤ σ'.bound
  closed : σ.closed ⊆ σ'.closed
  targets : ∀ b ∈ σ'.closed, b ∈ σ.closed ∨ ∀ l ∈ b.terminator.targets, base ≤ l.number

namespace Adds

variable {base' : Nat}

lemma of_same (hbound : σ.bound ≤ σ'.bound) (hclosed : σ'.closed = σ.closed) : Adds base σ σ' :=
  ⟨hbound, hclosed ▸ Subset.refl _, fun _ hb => .inl (hclosed ▸ hb)⟩

lemma trans (h : Adds base σ σ₁) (h' : Adds base' σ₁ σ') (hbase : base ≤ base') :
    Adds base σ σ' where
  bound := Nat.le_trans h.bound h'.bound
  closed := Subset.trans h.closed h'.closed
  targets b hb := (h'.targets b hb).elim (h.targets b) fun hl => .inr fun l hmem =>
    Nat.le_trans hbase (hl l hmem)

lemma concat (hclosed : σ'.closed = σ.closed ++ [b]) (hbound : σ.bound ≤ σ'.bound)
    (htargets : ∀ l ∈ b.terminator.targets, base ≤ l.number) : Adds base σ σ' where
  bound := hbound
  closed := hclosed ▸ subset_append_left _ _
  targets c hc := by
    rw [hclosed] at hc
    rcases mem_append.1 hc with hc | hc
    · exact .inl hc
    · exact .inr (mem_singleton.1 hc ▸ htargets)

end Adds

/-- The step keeps graphs good, and the blocks that it closes lead to labels that it issues. -/
structure Draws (anything : Prop) (σ σ' : Body) : Prop extends Adds σ.bound σ σ' where
  graph : ∀ ⦃P⦄, Graph anything P σ → Graph anything P σ'

namespace Draws

lemma trans (h : Draws anything σ σ₁) (h' : Draws anything σ₁ σ') : Draws anything σ σ' :=
  ⟨h.toAdds.trans h'.toAdds h.bound, fun _ hgraph => h'.graph (h.graph hgraph)⟩

lemma of_same (hgraph : ∀ ⦃P⦄, Graph anything P σ → Graph anything P σ')
    (hbound : σ.bound ≤ σ'.bound) (hclosed : σ'.closed = σ.closed) : Draws anything σ σ' :=
  ⟨.of_same hbound hclosed, hgraph⟩

lemma refl (anything : Prop) (σ : Body) :
    Draws anything σ σ := .of_same (fun _ => id) (Nat.le_refl _) rfl

lemma extend (h : σ.Extends σ') : Draws anything σ σ' :=
  .of_same (fun _ hgraph => hgraph.extend h) h.bound h.closed

end Draws

/-- An evaluation keeps graphs good. -/
def Evaluation.Drawing (anything : Prop) (evaluate : Evaluation) : Prop :=
  ∀ ⦃h σ r id σ'⦄, evaluate h σ r id σ' → Draws anything σ σ'

section

variable {evaluate : Evaluation}

lemma draws_of_emits (hallowed : ∀ i : Instruction, allowed i.opcode → i.isInner ∧ i.opcode ≠ .phi)
    (h : Emits source allowed p r q) : Draws anything p.body q.body := by
  have hpushes : ∀ {i : Instruction}, allowed i.opcode → p.body.Pushes i q.body →
      Draws anything p.body q.body := by
    intro i hop hpush
    obtain ⟨_, -, -, hclosed⟩ := hpush.current
    exact .of_same (fun _ hgraph => hgraph.push (hallowed i hop).1 hpush
      fun hphi => absurd hphi (hallowed i hop).2)
      (Nat.le_of_eq hpush.same.bound.symm) hclosed
  cases h with
  | result hop _ _ _ hpush | bare hop _ _ hpush => exact hpushes hop hpush

lemma draws_of_straight (hallowed : ∀ i : Instruction, allowed i.opcode → i.isInner ∧
    i.opcode ≠ .phi)
    (heval : evaluate.Drawing anything) (h : Straight env evaluate source allowed operands p r q) :
    Draws anything p.body q.body := by
  induction h with
  | nil => exact .refl _ _
  | cons hstep _ ih =>
    refine .trans ?_ ih
    cases hstep with
    | declare hext _ => exact .extend hext
    | issue => exact .extend (Body.extends_issue _)
    | evaluate _ hevaluate => exact heval hevaluate
    | emit hemits => exact draws_of_emits hallowed hemits

lemma isInner_of_isPlain (i : Instruction) (h : i.opcode.isPlain) :
    i.isInner ∧ i.opcode ≠ .phi := by
  refine ⟨Instruction.isInner_of_isTyped (Opcode.isTyped_of_isPlain h), fun hphi => ?_⟩
  rw [hphi] at h
  cases h

lemma isInner_of_isValue (i : Instruction) (h : i.opcode.isValue) :
    i.isInner ∧ i.opcode ≠ .phi := by
  rcases Bool.or_eq_true_iff.1 h with h | h
  · exact isInner_of_isPlain i h
  · have hall : ∀ op ∈ Opcode.reads, op.isTyped ∧ op ≠ .phi := by decide
    exact (hall _ (contains_iff_mem.1 h)).imp_left Instruction.isInner_of_isTyped

lemma isInner_of_isEffect (i : Instruction) (h : i.opcode.isEffect) :
    i.isInner ∧ i.opcode ≠ .phi := by
  have hall : ∀ op ∈ Opcode.effects, op ≠ .phi := by decide
  exact ⟨Instruction.isInner_of_isEffect h, hall _ (contains_iff_mem.1 h)⟩

lemma isInner_of_isOutput (i : Instruction) (h : isOutput i.opcode) :
    i.isInner ∧ i.opcode ≠ .phi := by
  rcases Bool.or_eq_true_iff.1 h with h | h
  · exact isInner_of_isPlain i h
  · refine isInner_of_isEffect i ?_
    rw [eq_of_beq h]
    rfl

/-- The blocks at the ends of two operands are those that lead to where the values are joined: what
was closed before them is older, and what the right operand closes leads to labels of its own. -/
lemma joins_of_adds {id : Id} (hbefore : σ₁.closed = σ.closed ++ [A]) (hadds : Adds base σ₁ σ₂)
    (hmerge : .selectionMerge merge ∈ A.body)
    (hA : A.terminator = .branchConditional l accept reject)
    (htarget : merge ∈ A.terminator.targets) (hB : B.terminator = .branch merge)
    (hold : ∀ c ∈ σ.closed, merge ∉ c.terminator.targets) (hnew : merge.number < base) :
    Instruction.Joins (σ₂.closed ++ [B]) merge
      (.result .phi type id (Operand.ids [l, A.label, x, B.label])) := by
  have hmem : A ∈ σ₁.closed := hbefore ▸ mem_append_right _ mem_cons_self
  refine .intro A B type id accept reject (mem_append_left _ (hadds.closed hmem)) hmerge hA htarget
    (mem_append_right _ mem_cons_self) hB (forall_mem_append.2 ⟨fun c hc hmem => ?_, ?_⟩)
  · rcases hadds.targets c hc with holder | hnewer
    · rw [hbefore] at holder
      rcases mem_append.1 holder with holder | holder
      · exact absurd hmem (hold c holder)
      · exact .inl (mem_singleton.1 holder)
    · exact absurd (hnewer _ hmem) (Nat.not_le.2 hnew)
  · exact forall_mem_singleton.2 fun _ => .inr rfl

/-- A short circuit keeps graphs good: its two blocks join where it ends. -/
lemma draws_of_shortCircuits (heval : evaluate.Drawing anything) {id : Id}
    (hshort : ShortCircuits env evaluate h op left right σ r id σ') : Draws anything σ σ' := by
  obtain ⟨hext, -, hl, hleft, rfl, rfl, hpush, hclose, hopen, hr, hright, hclose', hopen', hphi⟩ :=
    hshort
  rename_i σ₁ σ₂ σ₃ σ₄ σ₅ σ₆ σ₇ σ₈ r₁ r₂ type l x leftEnd rightEnd
  set merge := σ₂.issue.nextId with hmerge
  obtain ⟨accept, reject, hbranch, htargets⟩ : ∃ accept reject,
      shortCircuitBranch op l σ₂.nextId merge = .branchConditional l accept reject ∧
      [accept, reject].Perm [σ₂.nextId, merge] := by
    unfold shortCircuitBranch
    split
    · exact ⟨_, _, rfl, .refl _⟩
    · exact ⟨_, _, rfl, .swap ..⟩
  rw [hbranch] at hclose
  have h₂ := (Draws.extend hext).trans (heval hl)
  have h₆ := heval hr
  -- the two blocks, and the blocks before, between and after them
  obtain ⟨a, ha, ha₃, hclosed₃⟩ := hpush.current
  obtain ⟨a', ha₃', -, hclosed₄⟩ := hclose.current
  cases ha₃.symm.trans ha₃'
  obtain ⟨-, -, hclosed₅⟩ := hopen.current
  obtain ⟨b, hb, -, hclosed₇⟩ := hclose'.current
  obtain ⟨-, hcurrent₈, hclosed₈⟩ := hopen'.current
  obtain ⟨_, -, -, hclosed₉⟩ := hphi.current
  obtain rfl : leftEnd = a.label := Option.some.inj (hleft.symm.trans (congrArg (Option.map _) ha))
  obtain rfl : rightEnd = b.label :=
    Option.some.inj (hright.symm.trans (congrArg (Option.map _) hb))
  have hbefore : σ₅.closed = σ₂.closed ++ [OpenBlock.close
      { a with body := a.body.push (.selectionMerge merge) }
      (.branchConditional l accept reject)] := by
    rw [hclosed₅, hclosed₄, hclosed₃]
    rfl
  have hafter : σ₈.closed = σ₆.closed ++ [b.close (.branch merge)] := hclosed₈.trans hclosed₇
  have hbound₅ : σ₅.bound = σ₂.bound + 2 :=
    hopen.same.bound.trans (hclose.same.bound.trans hpush.same.bound)
  have hbound₈ : σ₈.bound = σ₆.bound := hopen'.same.bound.trans hclose'.same.bound
  refine ⟨?_, fun P hgraph => ?_⟩
  · have hissued : ∀ label ∈ [σ₂.nextId, merge], σ.bound ≤ label.number :=
      forall_mem_cons.2 ⟨h₂.bound, forall_mem_singleton.2 (Nat.le_succ_of_le h₂.bound)⟩
    have hadds₅ : Adds σ.bound σ₂ σ₅ := .concat hbefore (by omega)
      fun label hlabel => hissued label (htargets.subset hlabel)
    have hadds₈ : Adds σ.bound σ₆ σ₈ := .concat hafter (Nat.le_of_eq hbound₈.symm)
      (forall_mem_singleton.2 (hissued merge (by simp)))
    have hadds₉ : Adds σ.bound σ₈ _ := .of_same (hphi.same.bound ▸ Nat.le_succ _) hclosed₉
    have hadds₆ := (h₂.toAdds.trans hadds₅ (Nat.le_refl _)).trans h₆.toAdds
      (Nat.le_trans h₂.bound hadds₅.bound)
    exact (hadds₆.trans hadds₈ (Nat.le_refl _)).trans hadds₉ (Nat.le_refl _)
  · have hgraph₂ := h₂.graph hgraph
    have hgraph₄ := hgraph₂.issueLabel.issueLabel.select hpush hclose (.inl rfl)
      (Subset.trans htargets.subset (by simp [hmerge])) mem_cons_self fun c hc l hl =>
        Nat.lt_succ_of_lt (hgraph₂.announced_issued c hc l hl)
    have hgraph₇ := (h₆.graph (hgraph₄.open hopen (.swap ..))).goTo hclose' mem_cons_self
    have hgraph₈ := (hgraph₇.withValues _).open hopen' (.refl _)
    have hnew : ¬merge.number < σ₂.bound := Nat.not_lt.2 (Nat.le_succ _)
    refine hgraph₈.issue.push (Instruction.isInner_of_isTyped rfl) hphi fun _ c hc => ?_
    cases hcurrent₈.symm.trans hc
    refine ⟨rfl, fun hmem => hnew (hgraph₂.issued _ (mem_append_left _ hmem)), ?_⟩
    show Instruction.Joins σ₈.closed merge _
    rw [hafter]
    exact joins_of_adds hbefore h₆.toAdds Array.mem_push_self rfl
      (htargets.symm.subset (by simp)) rfl (fun c hc hmem => hnew (hgraph₂.references_issued hc
      (mem_append_left _ hmem))) (hbound₅ ▸ Nat.lt_succ_self _)

end

lemma drawing_evaluated (anything : Prop) (env : FunctionEnv) :
    ∀ depth, Evaluation.Drawing anything (Evaluated env depth) := by
  intro depth
  induction depth with
  | zero => exact fun _ _ _ _ _ h => h.elim
  | succ depth ih =>
    intro h σ r id σ' heval
    rcases heval with ⟨-, -, rfl⟩ | ⟨-, e, σ₁, -, hcomputed, hext⟩
    · exact .refl _ _
    · have hdraws : Draws anything σ σ₁ := by
        rcases hcomputed.forms with ⟨-, -, hrefers, -⟩ | ⟨-, -, known, hchain⟩ | ⟨_, _,
          _, -, -, hshort⟩
        · exact .extend hrefers
        · exact draws_of_straight isInner_of_isValue ih hchain
        · exact draws_of_shortCircuits ih hshort
      have hset : Draws anything σ₁ (σ₁.withValues (σ₁.values.set h id)) :=
        .of_same (fun _ hgraph => hgraph.withValues _) (Nat.le_refl _) rfl
      exact hdraws.trans (hset.trans (.extend hext))

lemma graph_of_straight (hallowed : ∀ i : Instruction, allowed i.opcode → i.isInner ∧
    i.opcode ≠ .phi) (h : Chain env source allowed operands p r q)
    (hgraph : Graph anything P p.body) : Graph anything P q.body :=
  (draws_of_straight hallowed (drawing_evaluated anything env env.depth) h).graph hgraph

/-! ### Aims -/

/-- The blocks that can be broken out to wait, and so does the block that can be continued with, or
anything goes and it is one after the first. -/
structure Aims (anything : Prop) (flow : ControlStack) (continues : Bool) (P : List Id) (σ : Body) :
    Prop where
  merges : ∀ frame ∈ flow.frames, frame.merge ∈ P
  continues : continues → ∀ l, flow.continueTarget = .ok l →
    l ∈ P ∨ (anything ∧ l ∈ σ.labels.tail ∧ ∃ header ∈ σ.closed, ∃ merge, .loopMerge merge
    l ∈ header.body)

namespace Aims

variable {P₁ Q₁ P₂ Q₂ : List Id} (haims : Aims anything flow continues P σ)
include haims

lemma «break» (h : flow.breakTarget = .ok l) : l ∈ P := by
  unfold ControlStack.breakTarget ControlStack.breakable? at h
  split at h
  · cases h
    exact haims.merges _ (mem_of_find?_eq_some ‹_›)
  · cases h

lemma grow (h : σ.labels.tail ⊆ σ'.labels.tail) (hclosed : σ.closed ⊆ σ'.closed) :
    Aims anything flow continues P σ' where
  merges := haims.merges
  continues hc l hl := (haims.continues hc l hl).imp_right
    fun ⟨hany, hmem, header, hheader, hloop⟩ => ⟨hany, h hmem, header, hclosed hheader, hloop⟩

lemma moves (h : Moves restack ⟨σ, P₁, Q₁⟩ r ⟨σ', P₂, Q₂⟩) : Aims anything flow continues P σ' :=
  haims.grow (fun _ => h.mem_tail_labels) h.closed_subset

lemma issue : Aims anything flow continues P σ.issue := haims.grow (Subset.refl _) (Subset.refl _)

lemma header (hpush : σ.Pushes i σ₁) (hclose : σ₁.Closes t σ') :
    Aims anything flow continues P σ' := by
  obtain ⟨_, -, -, hclosed⟩ := hpush.current
  obtain ⟨_, -, -, hclosed'⟩ := hclose.current
  refine haims.grow ?_ (hclosed ▸ hclosed' ▸ subset_append_left _ _)
  rw [hclose.labels, hpush.labels]
  exact Subset.refl _

lemma withFlow (flow' : ControlStack) : Aims anything flow continues P (σ.withFlow flow') :=
  haims.grow (Subset.refl _) (Subset.refl _)

lemma pushSelection (hmerge : merge ∈ P') (hP : P ⊆ P') (hcontinues : continues' → continues) :
    Aims anything (flow.pushSelection merge) continues' P' σ where
  merges := forall_mem_cons.2 ⟨hmerge, fun frame hframe => hP (haims.merges frame hframe)⟩
  continues hc l hl := (haims.continues (hcontinues hc) l hl).imp_left (@hP l)

lemma pushSwitch (hmerge : merge ∈ P') (hP : P ⊆ P') :
    Aims anything (flow.pushSwitch merge) continues P' σ where
  merges := forall_mem_cons.2 ⟨hmerge, fun frame hframe => hP (haims.merges frame hframe)⟩
  continues hc l hl := (haims.continues hc l hl).imp_left (@hP l)

lemma pushLoop (hmerge : merge ∈ P') (hP : P ⊆ P')
    (hnext : continues' → next ∈ P' ∨ (anything ∧ next ∈ σ.labels.tail ∧
      ∃ header ∈ σ.closed, ∃ merge, .loopMerge merge next ∈ header.body)) :
    Aims anything (flow.pushLoop merge next) continues' P' σ where
  merges := forall_mem_cons.2 ⟨hmerge, fun frame hframe => hP (haims.merges frame hframe)⟩
  continues hc l hl := by
    cases hl
    exact hnext hc

end Aims

/-! ### Statements -/

/-- An emission keeps graphs good, if what it may leave for waits. -/
def Emission.Drawing (anything : Prop) (flow : ControlStack) (continues : Bool)
    (emission : Emission) : Prop :=
  ∀ ⦃σ r σ'⦄, emission σ r σ' → ∀ ⦃P⦄, Aims anything flow continues P σ → Graph anything P σ →
    Graph anything P σ'

lemma graph_of_evaluated {id : Id} (heval : Evaluated env env.depth h σ r id σ')
    (hgraph : Graph anything P σ) :
    Graph anything P σ' := (drawing_evaluated anything env env.depth heval).graph hgraph

lemma graph_of_ready (h : Ready σ r σ') (hgraph : Graph anything P σ) : Graph anything P σ' := by
  cases h with
  | already _ => exact hgraph
  | fresh _ hopen => exact hgraph.issueLabel.open hopen (.refl _)

lemma graph_of_closesTo (h : ClosesTo target σ r σ') (htarget : target ∈ P)
    (hgraph : Graph anything P σ) :
    Graph anything P σ' := by
  cases h with
  | ended _ => exact hgraph
  | branch hclose => exact hgraph.goTo hclose htarget

lemma graph_of_part {inner : Emission} (hinner : inner.Drawing anything flow continues)
    (h : Part label target inner σ r σ') (hP : P.Perm (label :: P')) (htarget : target ∈ P')
    (haims : Aims anything flow continues P' σ) (hgraph : Graph anything P σ) :
    Graph anything P' σ' := by
  obtain ⟨hopen, hin, hcloses⟩ := h
  have hmoves : Moves false ⟨σ, [label], []⟩ (.of .frame [.label label]) ⟨_, [], []⟩ :=
    .one (.open (.refl _) hopen)
  exact graph_of_closesTo hcloses htarget (hinner hin (haims.moves hmoves) (hgraph.open hopen hP))

namespace Emission.Drawing

lemma of_graph (h : ∀ ⦃σ r σ'⦄, emission σ r σ' → ∀ ⦃P⦄, Graph anything P σ → Graph anything P σ') :
    Drawing anything flow continues emission := fun _ _ _ hemission _ _ hgraph => h hemission hgraph

lemma weaken {continues' : Bool} {emission : Emission}
    (h : Drawing anything flow continues emission)
    (hcontinues : continues → continues') : Drawing anything flow continues' emission :=
  fun _ _ _ hemission _ haims hgraph => h hemission
    ⟨haims.merges, fun hc => haims.continues (hcontinues hc)⟩ hgraph

lemma skip : Drawing anything flow continues skip := by
  rintro σ r σ' ⟨-, rfl⟩ P haims hgraph
  exact hgraph

lemma andThen (h : Drawing anything flow continues first) (hmoving : Moving first)
    (h' : Drawing anything flow continues second) :
    Drawing anything flow continues (Then first second) := by
  rintro σ r σ' ⟨hfirst, hsecond⟩ P haims hgraph
  exact h' hsecond (haims.moves (hmoving hfirst [] [])) (h hfirst haims hgraph)

lemma emitted (count : Nat) :
    ∀ start, Drawing anything flow continues (Emitted env start count) := by
  induction count with
  | zero => exact fun _ => skip
  | succ count ih =>
    intro start
    unfold Emitted
    split
    · exact ih (start + 1)
    · refine andThen (of_graph ?_) ?_ (ih (start + 1))
      · rintro σ r σ' ⟨id, heval⟩ P
        exact graph_of_evaluated heval
      · rintro σ r σ' ⟨id, heval⟩ P Q
        exact Moving.evaluated heval P Q

lemma affects (rank : Nat) (reads : Handles) (result : Option (Handle .expression)) :
    Drawing anything flow continues (Affects env rank reads result) := by
  rintro σ r σ' ⟨hreads, hemits, hresult, -, hremembers⟩ P - hgraph
  have hgraph₂ := (draws_of_emits isInner_of_isEffect hemits).graph
    (graph_of_straight isInner_of_isPlain hreads hgraph)
  have hgraph₃ := graph_of_straight isInner_of_isPlain hresult hgraph₂
  unfold Remembers at hremembers
  split at hremembers
  · exact hremembers ▸ hgraph₃
  · obtain ⟨id, -, rfl⟩ := hremembers
    exact hgraph₃.withValues _

lemma breaks : Drawing anything flow continues (Branches flow.breakTarget) := by
  rintro σ r σ' ⟨htarget, hclose⟩ P haims hgraph
  exact hgraph.goTo hclose (haims.break htarget)

lemma goesOn : Drawing anything flow true (Branches flow.continueTarget) := by
  rintro σ r σ' ⟨htarget, hclose⟩ P haims hgraph
  rcases haims.continues rfl _ htarget with hmem | ⟨hany, hmem, hnext⟩
  · exact hgraph.goTo hclose hmem
  · exact hgraph.leave hclose rfl nofun nofun (forall_mem_singleton.2 (.inr hmem))
      (forall_mem_singleton.2 (.inr (.inl ⟨hany, hnext⟩)))

lemma returns (value : Option (Handle .expression)) :
    Drawing anything flow continues fun σ r σ' => Returns env σ value r σ' := by
  intro σ r σ' hreturns P _ hgraph
  cases hreturns with
  | nothing hclose => exact hgraph.quit hclose rfl rfl nofun nofun
  | value _ heval hclose => exact (graph_of_evaluated heval hgraph).quit hclose rfl rfl nofun nofun
  | outputs _ heval hchain _ hclose =>
    exact (graph_of_straight isInner_of_isOutput hchain
      (graph_of_evaluated heval hgraph)).quit hclose rfl rfl nofun nofun

lemma selects {accept : ControlStack → Emission} {reject : Option (ControlStack → Emission)}
    (haccept : ∀ inner, Drawing anything inner continues (accept inner))
    (hmoving : ∀ inner, Moving (accept inner))
    (hreject : ∀ part ∈ reject, ∀ inner, Drawing anything inner continues' (part inner)) :
    Drawing anything flow (continues || continues') (Selects env flow condition accept reject) := by
  intro σ r σ' hselects P haims hgraph
  cases hselects with
  | @both _ c merge first second r r₁ r₂ _ σ₁ σ₂ σ₃ σ₄ σ₅ _ heval hmerge hfirst hsecond hpush hclose
      hpart hpart' hopen =>
    have hgraph₁ := graph_of_evaluated heval hgraph
    have hgraph₃ : Graph anything (second :: first :: merge :: P) σ₃ := by
      subst hmerge hfirst hsecond
      exact hgraph₁.issueLabel.issueLabel.issueLabel.select hpush hclose (.inl rfl)
        (by simp) (by simp) hgraph₁.announced_issued
    have haims₁ := haims.moves (Moving.evaluated heval [] [])
    have haims₃ := haims₁.issue.issue.issue.header hpush hclose
    have hgraph₄ : Graph anything (second :: merge :: P) σ₄ :=
      graph_of_part (haccept _) hpart (.swap ..) (by simp)
        ((haims₃.withFlow _).pushSelection (by simp) (by simp) (by simp +contextual))
        (hgraph₃.withFlow _)
    have haims₄ := (haims₃.withFlow _).moves (Moving.part (hmoving _) hpart (.refl [first]) [])
    have hgraph₅ : Graph anything (merge :: P) σ₅ :=
      graph_of_part (hreject _ rfl _) hpart' (.refl _) (by simp)
        (haims₄.pushSelection (by simp) (by simp) (by simp +contextual)) hgraph₄
    exact (hgraph₅.withFlow _).open hopen (.refl _)
  | @one c merge first r r₁ _ σ₁ σ₂ σ₃ σ₄ _ heval hmerge hfirst hpush hclose hpart hopen =>
    have hgraph₁ := graph_of_evaluated heval hgraph
    have hgraph₃ : Graph anything (first :: merge :: P) σ₃ := by
      subst hmerge hfirst
      exact hgraph₁.issueLabel.issueLabel.select hpush hclose (.inl rfl) (by simp) (by simp)
        hgraph₁.announced_issued
    have haims₁ := haims.moves (Moving.evaluated heval [] [])
    have haims₃ := haims₁.issue.issue.header hpush hclose
    have hgraph₄ : Graph anything (merge :: P) σ₄ :=
      graph_of_part (haccept _) hpart (.refl _) (by simp)
        ((haims₃.withFlow _).pushSelection (by simp) (by simp) (by simp +contextual))
        (hgraph₃.withFlow _)
    exact (hgraph₄.withFlow _).open hopen (.refl _)

end Emission.Drawing

/-! ### Loops -/

/-- The header of a loop is closed, and is a block after the first one. -/
structure Headed (header merge next : Id) (σ : Body) : Prop where
  block : ∃ b ∈ σ.closed, b.label = header ∧ .loopMerge merge next ∈ b.body
  later : header ∈ σ.labels.tail

lemma Headed.moves (hheaded : Headed header merge next σ)
    (h : Moves restack ⟨σ, P, Q⟩ r ⟨σ', P', Q'⟩) :
    Headed header merge next σ' := by
  obtain ⟨b, hb, hblock⟩ := hheaded.block
  exact ⟨⟨b, h.closed_subset hb, hblock⟩, h.mem_tail_labels hheaded.later⟩

lemma graph_of_header (hgraph : Graph anything P σ) (hheader : header = σ.nextId)
    (hfirst : first = σ.issue.nextId) (hnext : next = σ.issue.issue.nextId)
    (hmerge : merge = σ.issue.issue.issue.nextId)
    (hclose : σ.issue.issue.issue.issue.Closes (.branch header) σ₁) (hopen : σ₁.Opens header σ₂)
    (hpush : σ₂.Pushes (.loopMerge merge next) σ₃) (hclose' : σ₃.Closes (.branch first) σ₄) :
    Graph anything (merge :: next :: first :: P) σ₄ ∧ Headed header merge next σ₄ := by
  have hissued : Graph anything (merge :: next :: first :: header :: P)
    σ.issue.issue.issue.issue := by
    subst hheader hfirst hnext hmerge
    exact hgraph.issueLabel.issueLabel.issueLabel.issueLabel
  have hgraph₁ := hissued.goTo hclose (by simp)
  have hgraph₂ : Graph anything (merge :: next :: first :: P) σ₂ :=
    hgraph₁.open hopen (@perm_middle _ header [merge, next, first] P)
  -- what was announced before is older than the labels of the loop
  have hnew : ∀ c ∈ σ₂.closed, ∀ l ∈ c.announced, l.number < σ.bound := by
    intro c hc l hl
    obtain ⟨-, -, hclosed⟩ := hopen.current
    obtain ⟨c', hc', hl'⟩ := hissued.announced_of_closes hclose (hclosed ▸ hc) hl
    exact hgraph.announced_issued c' hc' l hl'
  refine ⟨hgraph₂.announce hpush hclose' (fun b inner hbody hinner hterminator => ?_) ?_ ?_
    nofun ?_ ?_, ?_, ?_⟩
  · exact .loops hbody hinner (hterminator ▸ rfl)
  · simp
  · subst hnext hmerge
    simp [Body.nextId]
  · subst hnext hmerge
    exact forall_mem_cons.2 ⟨fun c hc l hl => Nat.lt_add_right 3 (hnew c hc l hl),
      forall_mem_singleton.2 fun c hc l hl => Nat.lt_add_right 2 (hnew c hc l hl)⟩
  · intro _ label hlabel
    cases hopen.label?.symm.trans hlabel
    subst hheader hnext hmerge
    exact ⟨forall_mem_cons.2 ⟨Nat.lt_add_of_pos_right (by decide : 0 < 3), forall_mem_singleton.2
      (Nat.lt_add_of_pos_right (by decide : 0 < 2))⟩, hnew⟩
  · obtain ⟨-, hb₂, -⟩ := hopen.current
    obtain ⟨b, hb, hb₃, -⟩ := hpush.current
    obtain ⟨b', hb', -, hclosed⟩ := hclose'.current
    cases hb₂.symm.trans hb
    cases hb₃.symm.trans hb'
    exact ⟨_, hclosed ▸ mem_append_right _ (mem_singleton_self _), rfl, Array.mem_push_self⟩
  · rw [hclose'.labels, hpush.labels, hgraph₁.tail_labels hopen]
    exact mem_append_right _ (mem_singleton_self _)

lemma graph_of_repeats (h : Repeats env header merge σ breakIf r σ') (hmerge : merge ∈ P)
    (hheaded : Headed header merge next σ) (hgraph : Graph anything P σ) : Graph anything P σ' := by
  cases h with
  | ended _ => exact hgraph
  | always hclose =>
    obtain ⟨b, hb, hlabel, hloop⟩ := hheaded.block
    exact hgraph.leave hclose rfl nofun nofun (forall_mem_singleton.2 (.inr hheaded.later))
      (forall_mem_singleton.2 (.inr (.inr ⟨b, hb, hlabel, merge, next, hloop⟩)))
  | «unless» _ heval hclose =>
    obtain ⟨⟨b, hb, rfl, hloop⟩, hlater⟩ := hheaded.moves (Emission.Moving.evaluated heval [] [])
    exact (graph_of_evaluated heval hgraph).again hclose hmerge hb hloop hlater

lemma Emission.Drawing.loops (hbody : ∀ inner, Drawing anything inner continues₁ (body inner))
    (hmoving : ∀ inner, Moving (body inner))
    (hcontinuing : ∀ inner, Drawing anything inner continues₂ (continuing inner))
    (hmoving' : ∀ inner, Moving (continuing inner)) (horderly : anything ∨ continues₂ = false) :
    Drawing anything flow continues (Loops env flow body continuing breakIf) := by
  rintro σ r σ' ⟨hheader, hfirst, hnext, hmerge, hclose, hopen, hpush, hclose', hpart,
    hopen', hinner, hrepeats, hopen''⟩ P haims hgraph
  rename_i header first next merge r₁ r₂ r₃ σ₁ σ₂ σ₃ σ₄ σ₅ σ₆ σ₇ σ₈
  obtain ⟨hgraph₄, hheaded⟩ := graph_of_header hgraph hheader hfirst hnext hmerge hclose
    hopen hpush hclose'
  have hheaderMoves : Moves true ⟨σ.issue.issue.issue.issue, [header], []⟩
      (.of .frame [.branch header, .label header, .loopMerge merge next, .branch first])
      ⟨σ₄.withFlow (flow.pushLoop merge next), [], []⟩ :=
    .cons (.close rfl hclose) (.cons (.open (.refl _) hopen) (.cons (.push rfl hpush)
      (.cons (.close rfl hclose') (.one (.stack _ rfl)))))
  have haims₄ := haims.issue.issue.issue.issue.moves hheaderMoves
  have hgraph₅ : Graph anything (merge :: next :: P) σ₅ :=
    graph_of_part (hbody _) hpart (@perm_middle _ first [merge, next] P) (by simp)
      (haims₄.pushLoop (by simp) (by simp) fun _ => .inl (by simp)) (hgraph₄.withFlow _)
  have hgraph₆ : Graph anything (merge :: P) σ₆ := hgraph₅.open hopen' (.swap ..)
  have hbodyMoves : Moves true ⟨σ₄.withFlow (flow.pushLoop merge next), [next, first], []⟩
      (r₁ ++ .of .frame [.label next]) ⟨σ₆, [], []⟩ :=
    (Moving.part (hmoving _) hpart (.swap ..) []).trans (.one (.open (.refl _) hopen'))
  have hnextLater : next ∈ σ₆.labels.tail := by
    rw [hgraph₅.tail_labels hopen']
    exact mem_append_right _ (mem_singleton_self _)
  have hheaded₄ : Headed header merge next (σ₄.withFlow (flow.pushLoop merge next)) :=
    ⟨hheaded.block, hheaded.later⟩
  have hheaded₆ := hheaded₄.moves hbodyMoves
  obtain ⟨b, hb, -, hloop⟩ := hheaded₆.block
  have hgraph₇ := hcontinuing _ hinner ((haims₄.moves hbodyMoves).pushLoop mem_cons_self
    (subset_cons_self _ _) fun hc => .inr ⟨horderly.resolve_right (by simp [hc]),
    hnextLater, b, hb, merge,
      hloop⟩) hgraph₆
  have hheaded₇ := hheaded₆.moves (hmoving' _ hinner [] [])
  exact ((graph_of_repeats hrepeats mem_cons_self hheaded₇ hgraph₇).withFlow _).open
    hopen'' (.refl _)

/-! ### Switches -/

lemma graph_of_issues (h : Issues as σ labels σ') (hgraph : Graph anything P σ) :
    Graph anything (labels ++ P) σ' := by
  induction h generalizing P with
  | nil => exact hgraph
  | cons _ ih => exact (ih hgraph.issueLabel).perm perm_middle

lemma closed_of_issues (h : Issues as σ labels σ') : σ'.closed = σ.closed := by
  induction h with
  | nil => rfl
  | cons _ ih => exact ih

lemma graph_of_defaults {default : Id} (h : Defaults cases labels σ default fallback σ')
    (hgraph : Graph anything P σ) : Graph anything (fallback.toList ++ P) σ' := by
  cases h with
  | case _ => exact hgraph
  | block _ => exact hgraph.issueLabel

lemma graph_of_fallsBack (h : FallsBack merge σ fallback r σ') (hmerge : merge ∈ P)
    (hgraph : Graph anything (fallback.toList ++ P) σ) : Graph anything P σ' := by
  cases h with
  | none => exact hgraph
  | some hopen hclose => exact (hgraph.open hopen (.refl _)).goTo hclose hmerge

lemma Emission.Drawing.switches
      (hparts : ∀ inner merge labels, labels.length = cases.length → ∀ ⦃σ r σ'⦄,
      parts inner merge labels σ r σ' → ∀ ⦃P⦄, merge ∈ P → Aims anything inner continues P σ →
        Graph anything (labels ++ P) σ → Graph anything P σ') :
    Drawing anything flow continues (Switches env flow selector cases parts) := by
  rintro σ r σ' ⟨hselector, -, rfl, hissues, hdefaults, hpush, hclose, hinner, hfallsBack, hopen⟩ P
    haims hgraph
  rename_i value default labels known fallback r₁ r₂ r₃ σ₁ σ₂ σ₃ σ₄ σ₅ σ₆ σ₇
  have hgraph₁ := graph_of_straight isInner_of_isValue hselector hgraph
  have hgraph₃ := (graph_of_defaults hdefaults (graph_of_issues hissues hgraph₁.issueLabel)).perm
    (perm_append_comm_assoc ..)
  have hissueMoves := (Moving.issues hissues [] []).trans (Moving.defaults hdefaults _ [])
  have hclosed : σ₃.closed = σ₁.issue.closed :=
    (show _ = σ₂.closed by cases hdefaults <;> rfl).trans (closed_of_issues hissues)
  have htargets : (switchInstruction value default cases labels).targets ⊆
      labels ++ (fallback.toList ++ σ₁.nextId :: P) := by
    intro l hl
    rcases mem_of_mem_switchInstruction l hl with rfl | hl
    · rcases mem_of_defaults hdefaults with hl | rfl
      · exact mem_append_left _ hl
      · simp
    · exact mem_append_left _ hl
  have hgraph₅ := hgraph₃.select hpush hclose (.inr rfl) htargets (by simp)
    (hclosed ▸ hgraph₁.announced_issued)
  have haims₁ := haims.moves (Moving.straight hselector [] [])
  have haims₅ := ((haims₁.issue.moves hissueMoves).header hpush hclose).withFlow
    (flow.pushSwitch σ₁.nextId)
  have hgraph₆ := hparts _ _ _ (Moving.length_of_issues hissues) hinner (by simp)
    (haims₅.pushSwitch (by simp) (by simp)) (hgraph₅.withFlow _)
  have hgraph₇ := graph_of_fallsBack hfallsBack mem_cons_self hgraph₆
  exact (hgraph₇.withFlow _).open hopen (.refl _)

/-! ### All statements -/

open Emission (Drawing Moving)

section

variable (env : FunctionEnv)

mutual

/-- A statement keeps graphs good: one case per statement. -/
lemma drawing_stated (s : Statement) (horderly : anything ∨ s.isOrderly) :
    ∀ flow rank, Drawing anything flow s.continues (Stated env flow rank s) := by
  intro flow rank
  unfold Stated
  refine .andThen (.of_graph fun _ _ _ h _ => graph_of_ready h) .ready ?_
  match s, horderly with
  | .emit range, _ => exact .emitted _ _
  | .block body, horderly => exact drawing_statedAll body horderly flow rank
  | .store .., _ | .call .., _ | .atomic .., _ => exact .affects ..
  | .ifElse condition accept reject, horderly =>
    have hboth : (anything ∨ bodyOrderly accept) ∧ (anything ∨ bodyOrderly reject) := by
      rw [← or_and_left, ← Bool.and_eq_true_iff]
      exact horderly
    refine .selects (fun inner => drawing_statedAll accept hboth.1 inner _)
      (fun inner => moving_statedAll env accept inner _) ?_
    intro part hpart inner
    split at hpart
    · cases hpart
    · cases hpart
      exact drawing_statedAll reject hboth.2 inner _
  | .switch selector cases, horderly =>
    exact .switches fun inner merge labels hlength =>
      graph_of_statedCases cases horderly inner rank merge labels hlength
  | .loop body continuing breakIf, horderly =>
    have hparts : (anything ∨ bodyOrderly body) ∧ (anything ∨ bodyOrderly continuing) ∧
        (anything ∨ bodyContinues continuing = false) := by
      rw [← or_and_left, ← or_and_left, ← Bool.not_eq_true', ← Bool.and_eq_true_iff,
        ← Bool.and_eq_true_iff]
      exact horderly
    exact .loops (fun inner => drawing_statedAll body hparts.1 inner _)
      (fun inner => moving_statedAll env body inner _)
      (fun inner => drawing_statedAll continuing hparts.2.1 inner _)
      (fun inner => moving_statedAll env continuing inner _) hparts.2.2
  | .break, _ => exact .breaks
  | .continue, _ => exact .goesOn
  | .return value, _ => exact .returns value
  | .kill, _ =>
    rintro σ r σ' ⟨hclose, -⟩ P - hgraph
    exact hgraph.quit hclose rfl rfl nofun nofun
  | .barrier b, _ =>
    dsimp only
    split
    · exact .skip
    · exact .affects ..

lemma drawing_statedAll (body : List Statement) (horderly : anything ∨ bodyOrderly body) :
    ∀ flow rank, Drawing anything flow (bodyContinues body) (StatedAll env flow rank body) := by
  intro flow rank
  match body, horderly with
  | [], _ => exact .skip
  | s :: rest, horderly =>
    have hboth : (anything ∨ s.isOrderly) ∧ (anything ∨ bodyOrderly rest) := by
      rw [← or_and_left, ← Bool.and_eq_true_iff]
      exact horderly
    exact .andThen (.weaken (drawing_stated s hboth.1 flow rank)
      (by simp +contextual [bodyContinues])) (moving_stated env s flow rank)
      (.weaken (drawing_statedAll rest hboth.2 flow _) (by simp +contextual [bodyContinues]))

lemma graph_of_statedCases (cases : List SwitchCase) (horderly : anything ∨ casesOrderly cases) :
    ∀ flow rank merge labels, labels.length = cases.length → ∀ ⦃σ r σ'⦄,
      StatedCases env flow rank merge cases labels σ r σ' → ∀ ⦃P⦄, merge ∈ P →
        Aims anything flow (casesContinue cases) P σ → Graph anything (labels ++ P) σ →
        Graph anything P σ' := by
  intro flow rank merge labels hlength σ r σ' hcases P hmerge haims hgraph
  match cases, labels, hcases, horderly with
  | [], [], hcases, _ =>
    obtain ⟨-, rfl⟩ := hcases
    exact hgraph
  | c :: rest, label :: labels, hcases, horderly =>
    obtain ⟨hpart, hrest⟩ := hcases
    have hboth : (anything ∨ caseOrderly c) ∧ (anything ∨ casesOrderly rest) := by
      rw [← or_and_left, ← Bool.and_eq_true_iff]
      exact horderly
    have hgraph₁ := graph_of_part (drawing_statedCase c hboth.1 flow rank) hpart
      (.refl _) (mem_append_right labels hmerge)
      ⟨fun frame hframe => mem_append_right _ (haims.merges frame hframe), fun hc l hl =>
        (haims.continues (by simp [casesContinue, hc]) l hl).imp_left (mem_append_right _)⟩ hgraph
    have haims₁ := haims.moves (Moving.part (moving_statedCase env c flow rank) hpart
      (.refl [label]) [])
    exact graph_of_statedCases rest hboth.2 flow _ merge labels (Nat.succ.inj hlength) hrest hmerge
      ⟨haims₁.merges, fun hc => haims₁.continues (by simp [casesContinue, hc])⟩ hgraph₁

lemma drawing_statedCase (c : SwitchCase) (horderly : anything ∨ caseOrderly c) :
    ∀ flow rank, Drawing anything flow (caseContinues c) (StatedCase env flow rank c) := by
  intro flow rank
  match c, horderly with
  | ⟨_, body⟩, horderly => exact drawing_statedAll body horderly flow rank

end

end

/-! ### Functions -/

lemma graph_of_blank (hblank : Blank env σ) (h : σ.issue.Opens σ.nextId σ') :
    Graph anything [] σ' := by
  obtain ⟨-, hb', hclosed⟩ := h.current
  have hnil : σ'.closed = [] := hclosed.trans hblank.closed
  refine ⟨fun hnone => ?_, fun b hb => ?_, ?_, ?_, ?_, ?_, ?_, ?_, ?_⟩
  · cases hb'.symm.trans hnone
  · cases hb'.symm.trans hb
    exact nofun
  · simp [hnil]
  · simp [hnil]
  · simp [hnil]
  · rw [h.same.bound]
    simp [Body.labels, hnil, h.label?, Body.nextId]
  · simp [hnil]
  · simp [Body.parts, hnil, hb', PhisJoin]
  · simp [hnil]

lemma graph_of_initializes {id : Option Id} (h : Initializes env σ init r id σ')
    (hgraph : Graph anything P σ) : Graph anything P σ' := by
  cases h with
  | none => exact hgraph
  | some heval _ => exact graph_of_evaluated heval hgraph

lemma graph_of_declares (h : Declares env v σ r σ') (hgraph : Graph anything P σ) :
    Graph anything P σ' := by
  obtain ⟨hext, -, hinit, hlead, hext'⟩ := h
  have hgraph₂ := graph_of_initializes hinit (hgraph.extend hext)
  exact ((hgraph₂.issue.sameCode hlead.same).extend hext').sameCode (Body.sameCode_withLocals _ _)

lemma graph_of_declaresAll (h : DeclaresAll env vs σ r σ') (hgraph : Graph anything P σ) :
    Graph anything P σ' := by
  induction vs generalizing σ r with
  | nil =>
    obtain ⟨-, rfl⟩ := h
    exact hgraph
  | cons v rest ih =>
    obtain ⟨hfirst, hrest⟩ := h
    exact ih hrest (graph_of_declares hfirst hgraph)

lemma graph_of_begins (hblank : Blank env σ) (h : Begins env σ r σ') : Graph anything [] σ' := by
  obtain ⟨hopen, hlocals, hchain, -⟩ := h
  exact (graph_of_straight isInner_of_isPlain hchain
    (graph_of_declaresAll hlocals (graph_of_blank hblank hopen))).sameCode
    (Body.sameCode_withContents _ _)

lemma graph_of_loadsAll (h : LoadsAll env inputs σ r σ') (hgraph : Graph anything P σ) :
    Graph anything P σ' := by
  induction inputs generalizing σ r with
  | nil =>
    obtain ⟨-, rfl⟩ := h
    exact hgraph
  | cons argument rest ih =>
    obtain ⟨⟨hchain, -⟩, hrest⟩ := h
    exact ih hrest ((graph_of_straight isInner_of_isValue hchain hgraph).sameCode
      (Body.sameCode_withArguments _ _))

lemma graph_of_fallsOff (h : FallsOff env σ r σ') (hgraph : Graph anything P σ) :
    Graph anything P σ' := by
  cases h with
  | ended _ => exact hgraph
  | nothing _ hclose => exact hgraph.quit hclose rfl rfl nofun nofun
  | null _ hext _ hclose => exact (hgraph.extend hext).quit hclose rfl rfl nofun nofun

lemma graph_of_written (hblank : Blank env σ) (horderly : anything ∨ bodyOrderly env.function.body)
    (h : Written env inputs σ r σ') : Graph anything [] σ' := by
  obtain ⟨hbegins, hloads, hbody, hend⟩ := h
  have hgraph : Graph anything [] _ := graph_of_loadsAll hloads (graph_of_begins hblank hbegins)
  exact graph_of_fallsOff hend (drawing_statedAll env env.function.body horderly {} 0 hbody
    ⟨nofun, fun _ _ h => by cases h⟩ hgraph)

lemma sublist_definitions (blocks : List Block) : (blocks.map Block.label).Sublist
    (definitions (blocks.flatMap Block.instructions)) := by
  induction blocks with
  | nil => exact .slnil
  | cons b rest ih =>
    rw [map_cons, flatMap_cons, definitions_append, Block.instructions,
      definitions_cons, append_assoc]
    exact .cons_cons _ (ih.trans (sublist_append_right _ _))

lemma blocks_of_lowers {p p' : Progress} {fn : Function} (h : Lowers env inputs p r fn p') :
    ∃ first rest, fn.layout = first.lead fn.locals :: rest ∧
      (∀ i ∈ fn.locals.toList, i.opcode = .variable) ∧ ((first :: rest).map Block.label).Nodup ∧
      ∃ σ, σ.closed = first :: rest ∧ σ.current? = none ∧
        ∀ {anything}, anything ∨ bodyOrderly env.function.body → Graph anything [] σ := by
  obtain ⟨hblank, -, -, hwritten, hfinishes, -⟩ := h
  rename_i σ σ' p₁
  have hcarries := carries_written hwritten
  have hgraph : Graph True [] σ' := graph_of_written hblank (.inl trivial) hwritten
  obtain ⟨first, rest, hblocks⟩ := exists_cons_of_ne_nil (hgraph.begun hfinishes.current)
  refine ⟨first, rest, ?_, fun i hi => ?_, ?_, σ', hblocks, hfinishes.current,
    fun h => graph_of_written hblank h hwritten⟩
  · rw [Function.layout, hfinishes.blocks, hblocks]
  · rw [hfinishes.lead] at hi
    refine (hcarries.lead i hi).resolve_left fun hi => ?_
    rw [hblank.lead] at hi
    exact absurd hi not_mem_nil
  · have hdistinct := (hcarries.numbered hblank.numbered).distinct
    simp only [Site.taken, Body.code, hfinishes.current, Option.elim_none, append_nil] at hdistinct
    exact hblocks ▸ (sublist_definitions σ'.closed).nodup hdistinct

/-- The blocks of an emitted function are structured, and control goes forward in them if it does
not go back in the function without a loop.  Phis have the blocks as parents that control comes
from. -/
lemma structured_of_lowers {p p' : Progress} {fn : Function} (h : Lowers env inputs p r fn p') :
    Structured fn.layout ∧ (bodyOrderly env.function.body → Forward fn.layout) ∧
      PhisNameParents fn.layout := by
  obtain ⟨first, rest, hlayout, hlocals, hdistinct, σ, hblocks, hcurrent, hall⟩ :=
    blocks_of_lowers h
  have hgraph : Graph True [] σ := hall (.inl trivial)
  have hnone : σ.label? = none := by simp only [Body.label?, hcurrent, Option.map_none]
  have hreferred : ∀ b ∈ first :: rest, ∀ l ∈ b.references, l ∈ rest.map Block.label := by
    intro b hb l hl
    have := (hgraph.referred b (hblocks ▸ hb) l hl).resolve_left not_mem_nil
    simpa [Body.labels, hnone, hblocks] using this
  rw [hlayout]
  refine ⟨structured_lead (fun i hi => Instruction.isInner_of_isTyped (hlocals i hi ▸ rfl))
    hdistinct (hblocks ▸ hgraph.shape) hreferred (hblocks ▸ hgraph.once), fun horderly =>
    Forward.lead ?_, phisNameParents_lead (fun i hi => hlocals i hi ▸ by decide) hdistinct hreferred
    fun b hb => ?_⟩
  · rw [← hblocks]
    intro before b after hsplit l hl
    have := (hall (.inr horderly) : Graph False [] σ).forward before b after hsplit l hl
    simpa [hnone] using this
  · rw [← hblocks] at hb ⊢
    exact hgraph.phis _ (mem_append_left _ (mem_map_of_mem hb))

/-! ### Modules -/

/-- Every function of an emitted module is structured.  If no loop of the function it was emitted
for is continued in its own continuing block, control goes forward in it. -/
theorem control_flow_structured {m : IR.Module} {options : Options} {ws : List UInt32}
    (hrun : words m options = .ok ws) :
    ∃ assembly, assemble m options = .ok assembly ∧
      ws = assembly.encode options.version options.generator ∧
      List.Forall₂ (fun f fn => Structured fn.layout ∧
        (bodyOrderly f.body → Forward fn.layout) ∧
        fn.instructions = fn.declaration :: fn.parameterInstructions ++
          fn.layout.flatMap Block.instructions) m.bodies assembly.functions.toList := by
  obtain ⟨assembly, hassembly, hws⟩ := words_eq_ok.1 hrun
  refine ⟨assembly, hassembly, hws, (emitted_of_assemble hassembly).imp ?_⟩
  rintro f fn ⟨p, p', -, env, inputs, r, hlowers, -, rfl⟩
  obtain ⟨hstructured, hforward, -⟩ := structured_of_lowers hlowers
  exact ⟨hstructured, hforward, fn.instructions_eq⟩

/-- A loop that a short circuit continues or breaks out of, and that ends after a store. -/
def continuedLoop : IR.Module where
  types := IR.flagTypes
  globals := ⟨#[⟨none, .private, none, ⟨0⟩, none⟩, ⟨none, .private, none, ⟨0⟩, none⟩]⟩
  functions := ⟨#[{
    expressions := ⟨⟨#[.globalVariable ⟨0⟩, .load ⟨0⟩, .globalVariable ⟨1⟩, .load ⟨2⟩,
      .binary .logicalAnd ⟨1⟩ ⟨3⟩]⟩, #[⟨1⟩, ⟨0⟩, ⟨1⟩, ⟨0⟩, ⟨0⟩]⟩
    body := [.emit ⟨0, 5⟩, .loop [.ifElse ⟨4⟩ [.continue] [.break]] [.store ⟨0⟩ ⟨1⟩] (some ⟨1⟩)] }]⟩

theorem control_flow_structured_continuedLoop : (∀ f ∈ continuedLoop.bodies, bodyOrderly f.body) ∧
    ∃ ws, words continuedLoop {} = .ok ws ∧
    ∃ assembly, assemble continuedLoop {} = .ok assembly ∧ ws = assembly.encode ⟨1, 3⟩ 0 ∧
      List.Forall₂ (fun f fn => Structured fn.layout ∧
        (bodyOrderly f.body → Forward fn.layout) ∧
        fn.instructions = fn.declaration :: fn.parameterInstructions ++
          fn.layout.flatMap Block.instructions) continuedLoop.bodies assembly.functions.toList := by
  have hsome : (words continuedLoop {}).toOption.isSome = true := by decide +kernel
  refine ⟨by decide, ?_⟩
  cases hrun : words continuedLoop {} with
  | error failure =>
    rw [hrun] at hsome
    cases hsome
  | ok ws => exact ⟨ws, rfl, control_flow_structured hrun⟩

/-- Every phi of an emitted module has the two blocks as parents that control comes from.  Labels
tell the blocks of a function apart. -/
theorem phi_parents_are_predecessors {m : IR.Module} {options : Options} {ws : List UInt32}
    (hrun : words m options = .ok ws) :
    ∃ assembly, assemble m options = .ok assembly ∧
      ws = assembly.encode options.version options.generator ∧
      ∀ fn ∈ assembly.functions.toList, (fn.layout.map Block.label).Nodup ∧
        PhisNameParents fn.layout ∧
        fn.instructions = fn.declaration :: fn.parameterInstructions ++
          fn.layout.flatMap Block.instructions := by
  obtain ⟨assembly, hassembly, hws⟩ := words_eq_ok.1 hrun
  refine ⟨assembly, hassembly, hws, ?_⟩
  refine ((List.forall₂_and_left (R := fun _ _ => True) _ _).1
    ((emitted_of_assemble hassembly).imp ?_).flip).1
  rintro f fn ⟨p, p', -, env, inputs, r, hlowers, -, rfl⟩
  obtain ⟨hstructured, -, hphis⟩ := structured_of_lowers hlowers
  exact ⟨⟨hstructured.distinct, hphis, fn.instructions_eq⟩, trivial⟩

theorem phi_parents_are_predecessors_continuedLoop :
    ((assemble continuedLoop {}).toOption.any fun assembly =>
      assembly.functions.any fun fn => fn.layout.any fun b => b.body.any (·.opcode == .phi)) ∧
    ∃ ws, words continuedLoop {} = .ok ws ∧
    ∃ assembly, assemble continuedLoop {} = .ok assembly ∧ ws = assembly.encode ⟨1, 3⟩ 0 ∧
      ∀ fn ∈ assembly.functions.toList, (fn.layout.map Block.label).Nodup ∧
        PhisNameParents fn.layout ∧
        fn.instructions = fn.declaration :: fn.parameterInstructions ++
          fn.layout.flatMap Block.instructions := by
  have hsome : (words continuedLoop {}).toOption.isSome = true := by decide +kernel
  refine ⟨by decide +kernel, ?_⟩
  cases hrun : words continuedLoop {} with
  | error failure =>
    rw [hrun] at hsome
    cases hsome
  | ok ws => exact ⟨ws, rfl, phi_parents_are_predecessors hrun⟩

end Shader.Emit
