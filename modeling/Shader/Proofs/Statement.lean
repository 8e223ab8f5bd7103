import Shader.Proofs.Computation
import Shader.Proofs.Move

/-!
# Every run of the emission of statements has a record

As for expressions, the emission of each statement is taken apart into steps.  What emits a part
of a construct has a record by induction and leaves the constructs around it as they were.
-/

namespace Shader.Emit

open List Assembly
open IR (Statement SwitchCase AtomicFunction Barrier bodyEffectCount)
open Emission

variable {r : Record} {operands reads : Handles}

/-- The runs of `act` have records that `told` describes, and leave the control stack alone. -/
def Told (told : ControlStack → Emission) (act : BodyM Unit) : Prop :=
  ∀ ⦃σ a σ'⦄, act σ = .ok a σ' → (∃ r, told σ.flow σ r σ') ∧ σ'.flow = σ.flow

section

variable {env : FunctionEnv} {σ σ' : Body} {a : Unit} {rank : Nat}
    {result breakIf : Option (Handle .expression)} {known ls : List Id}
    {value target label old header : Id} {told accept body continuing : ControlStack → Emission}
    {act acceptAct bodyAct continuingAct : BodyM Unit} {h pointer selector condition :
    Handle .expression} {allowed : Opcode → Bool} {p q : Point} {v : InterfaceVariable}

/-! ### Blocks -/

lemma ready_of_ensureOpenBlock (hrun : ensureOpenBlock σ = .ok a σ') :
    (∃ r, Ready σ r σ') ∧ σ'.flow = σ.flow := by
  simp only [ensureOpenBlock, bind_eq_ok] at hrun
  obtain ⟨label, _, hlabel, hrun⟩ := hrun
  obtain ⟨hlabel, rfl⟩ := openLabel?_eq_ok hlabel
  cases label with
  | some label =>
    obtain ⟨-, rfl⟩ := pure_eq_ok.1 hrun
    exact ⟨⟨[], .already hlabel.symm⟩, rfl⟩
  | none =>
    have hopens := opens_of_beginBlock hrun
    exact ⟨⟨_, .fresh hlabel.symm hopens⟩, hopens.same.flow⟩

lemma closesTo_of_closeTo (hrun : closeTo target σ = .ok a σ') :
    (∃ r, ClosesTo target σ r σ') ∧ σ'.flow = σ.flow := by
  simp only [closeTo, bind_eq_ok] at hrun
  obtain ⟨label, _, hlabel, hrun⟩ := hrun
  obtain ⟨hlabel, rfl⟩ := openLabel?_eq_ok hlabel
  cases label with
  | some label =>
    have hcloses := closes_of_terminate hrun
    exact ⟨⟨_, .branch hcloses⟩, hcloses.same.flow⟩
  | none =>
    obtain ⟨-, rfl⟩ := pure_eq_ok.1 hrun
    exact ⟨⟨[], .ended hlabel.symm⟩, rfl⟩

lemma part_of_emitPart (hact : Told told act) (hrun : emitPart label target act σ = .ok a σ') :
    (∃ r, Part label target (told σ.flow) σ r σ') ∧ σ'.flow = σ.flow := by
  simp only [emitPart, bind_eq_ok] at hrun
  obtain ⟨_, σ₁, hopen, _, σ₂, hinner, hclose⟩ := hrun
  have hopens := opens_of_beginBlock hopen
  obtain ⟨⟨r₁, hinner⟩, hflow⟩ := hact hinner
  obtain ⟨⟨r₂, hcloses⟩, hflow'⟩ := closesTo_of_closeTo hclose
  rw [hopens.same.flow] at hinner hflow
  exact ⟨⟨_, .intro hopens hinner hcloses⟩, hflow'.trans hflow⟩

/-! ### Side effects -/

lemma flow_of_evaluated {id : Id} (heval : Evaluated env env.depth h σ r id σ') :
    σ'.flow = σ.flow :=
  (moving_evaluated env env.depth heval [] []).flow

lemma flow_of_straight (h : Chain env source allowed operands p r q) : q.body.flow = p.body.flow :=
  (moves_of_straight (moving_evaluated env env.depth) h [] []).flow

lemma ok_of_discard {act : BodyM α} (hrun : discard act σ = .ok a σ') :
    ∃ value, act σ = .ok value σ' := by
  change EStateM.map (fun _ => ()) act σ = _ at hrun
  unfold EStateM.map at hrun
  cases hact : act σ with
  | ok value σ₁ =>
    rw [hact] at hrun
    cases hrun
    exact ⟨value, rfl⟩
  | error fault σ₁ =>
    rw [hact] at hrun
    cases hrun

lemma emitted_of_emitRun (start count : Nat) (hrun : emitRun env start count σ = .ok a σ') :
    (∃ r, Emitted env start count σ r σ') ∧ σ'.flow = σ.flow := by
  induction count generalizing start σ with
  | zero =>
    obtain ⟨-, rfl⟩ := pure_eq_ok.1 hrun
    exact ⟨⟨[], rfl, rfl⟩, rfl⟩
  | succ count ih =>
    simp only [emitRun] at hrun
    simp only [Emitted]
    cases hdeferred : env.deferred.getD start false with
    | true =>
      rw [hdeferred] at hrun
      exact ih (start + 1) hrun
    | false =>
      rw [hdeferred] at hrun
      obtain ⟨_, σ₁, hvalue, hrun⟩ := bind_eq_ok.1 hrun
      obtain ⟨id, hvalue⟩ := ok_of_discard hvalue
      obtain ⟨r, hvalue⟩ := evaluated_of_expression hvalue
      obtain ⟨⟨r', hrest⟩, hflow⟩ := ih (start + 1) hrun
      exact ⟨⟨r ++ r', .intro ⟨id, hvalue⟩ hrest⟩, hflow.trans (flow_of_evaluated hvalue)⟩

lemma flow_of_affects (h : Affects env rank reads result σ r σ') : σ'.flow = σ.flow := by
  obtain ⟨hreads, hemits, hresult, -, hremembers⟩ := h
  have hflow := ((flow_of_straight hresult).trans (moves_of_emits hemits [] []).flow).trans
    (flow_of_straight hreads)
  unfold Remembers at hremembers
  split at hremembers
  · exact hremembers ▸ hflow
  · obtain ⟨id, -, rfl⟩ := hremembers
    exact hflow

lemma affects_of_emitStore {value : Handle .expression}
    (hrun : emitStore env pointer value σ = .ok a σ') :
    ∃ r, Affects env rank [pointer, value] none σ r σ' := by
  simp only [emitStore, bind_eq_ok, exceptIR_eq_ok] at hrun
  obtain ⟨atomic, _, ⟨-, rfl⟩, p, σ₁, hp, v, σ₂, hv, hrun⟩ := hrun
  obtain ⟨r₁, hp⟩ := evaluated_of_expression hp
  obtain ⟨r₂, hv⟩ := evaluated_of_expression hv
  have hreads : Chain env .frame Opcode.isPlain [pointer, value] ⟨σ, [], []⟩ (r₁ ++ r₂)
    ⟨σ₂, [v, p], []⟩ :=
    .trans (.evaluation (by simp) hp) (.evaluation (by simp) hv)
  split at hrun
  · obtain ⟨⟨scope, semantics⟩, σ₃, hatomic, hpush⟩ := bind_eq_ok.1 hrun
    exact ⟨_, .intro (hreads.trans (straight_atomicOperands hatomic))
      (.bare rfl rfl (by simp [Operand.filterMap_id?_ids]) (pushes_of_emit rfl hpush)) .nil rfl rfl⟩
  · exact ⟨_, .intro hreads (.bare rfl rfl (by simp [Operand.filterMap_id?_ids, Instruction.store])
      (pushes_of_emit rfl hrun)) .nil rfl rfl⟩

lemma remembers_of_rememberResult {id : Id} (hid : id ∈ p.known)
    (hrun : rememberResult result id p.body = .ok a σ') : Remembers result p σ' := by
  cases result with
  | none => exact (pure_eq_ok.1 hrun).2.symm
  | some h => exact ⟨id, hid, modify_eq_ok.1 hrun⟩

lemma affects_of_emitCall (hrun : emitCall env function arguments result σ = .ok a σ') :
    ∃ r, Affects env rank arguments result σ r σ' := by
  simp only [emitCall, bind_eq_ok] at hrun
  obtain ⟨target, σ₁, htarget, values, σ₂, hvalues, hrun⟩ := hrun
  obtain ⟨r, hvalues⟩ := evaluatesAll_of_mapM evaluated_of_expression hvalues
  -- the type comes from the result, or is void
  have htype : ∃ type σ₃, (σ₂.Extends σ₃ ∧ σ₃.progress.Declared type) ∧ ∃ id σ₄,
      emitResult .functionCall type (.id target :: Operand.ids values) σ₃ = .ok id σ₄ ∧
        rememberResult result id σ₄ = .ok a σ' := by
    cases result with
    | none =>
      obtain ⟨type, σ₃, htype, hrun⟩ := bind_eq_ok.1 hrun
      obtain ⟨id, σ₄, hcall, hrun⟩ := bind_eq_ok.1 hrun
      exact ⟨type, σ₃, declared_of_declare declaring_voidType htype, id, σ₄, hcall, hrun⟩
    | some h =>
      obtain ⟨type, σ₃, htype, hrun⟩ := bind_eq_ok.1 hrun
      obtain ⟨id, σ₄, hcall, hrun⟩ := bind_eq_ok.1 hrun
      exact ⟨type, σ₃, declared_of_emit (declaring_expressionType env h) htype, id, σ₄, hcall, hrun⟩
  obtain ⟨type, σ₃, htype, id, σ₄, hcall, hresult⟩ := htype
  obtain ⟨rfl, hpush⟩ := emitResult_eq_ok rfl hcall
  refine ⟨_, .intro (.trans (.declared (declared_of_emit (declaring_functionId function) htarget))
    (.trans (hvalues.straight (fun _ h => h) [target] []) (.trans (.declared htype) (.one .issue))))
    (.result rfl rfl mem_cons_self ?_ hpush) .nil rfl
    (remembers_of_rememberResult mem_cons_self hresult)⟩
  show ∀ u ∈ target :: (Operand.ids values).filterMap Operand.id?, _
  rw [Operand.filterMap_id?_ids]
  simp +contextual

lemma isEffect_atomicOpcode (signed : Bool) (function : AtomicFunction) :
    (atomicOpcode signed function).isEffect ∧ (atomicOpcode signed function).isTyped := by
  cases function <;> cases signed <;> exact ⟨rfl, rfl⟩

lemma straight_of_exchangeResult {compare : Id} (hold : old ∈ known) (hcompare : compare ∈ known)
    (hrun : exchangeResult env old compare h σ = .ok a σ') :
    ∃ r q, Chain env .frame Opcode.isPlain [] ⟨σ, known, []⟩ r q ∧
      q.pending = [] ∧ Remembers (some h) q σ' := by
  simp only [exchangeResult, bind_eq_ok] at hrun
  obtain ⟨bool, σ₁, hbool, exchanged, σ₂, hexchanged, type, σ₃, htype, pair, σ₄, hpair, hrun⟩ :=
    hrun
  obtain ⟨rfl, hequal⟩ := emitResult_eq_ok rfl hexchanged
  obtain ⟨rfl, hconstruct⟩ := emitResult_eq_ok rfl hpair
  refine ⟨_, ⟨σ₄, σ₃.nextId :: type :: σ₁.nextId :: bool :: known, []⟩,
    .trans (.declared (declared_of_declare (declaring_scalarType _) hbool))
      (.trans (.emitResult rfl rfl mem_cons_self ?_ hequal)
        (.trans (.declared (declared_of_emit (declaring_expressionType env h) htype))
          (.emitResult rfl rfl mem_cons_self ?_ hconstruct))),
    rfl, σ₃.nextId, mem_cons_self, modify_eq_ok.1 hrun⟩
  · simp [Operand.filterMap_id?_ids, hold, hcompare]
  · simp [Operand.filterMap_id?_ids, hold]

lemma affects_of_emitAtomic {value : Handle .expression}
    (hrun : emitAtomic env pointer function value result σ = .ok a σ') :
    ∃ r, Affects env rank (pointer :: value :: function.reads) result σ r σ' := by
  simp only [emitAtomic, bind_eq_ok, exceptIR_eq_ok] at hrun
  obtain ⟨shape, _, ⟨-, rfl⟩, type, σ₁, htype, p, σ₂, hp, v, σ₃, hv,
    ⟨scope, semantics⟩, σ₄, hatomic,
    _, _, hid, hrun⟩ := hrun
  obtain ⟨rfl, rfl⟩ := freshId_eq_ok.1 hid
  obtain ⟨r₁, hp⟩ := evaluated_of_expression hp
  obtain ⟨r₂, hv⟩ := evaluated_of_expression hv
  have hreads : Chain env .frame Opcode.isPlain
      (pointer :: value :: function.reads) ⟨σ, [], []⟩ ([] ++ (r₁ ++ (r₂ ++ ([] ++ []))))
      ⟨σ₄.issue, [semantics, scope, v, p, type], [σ₄.nextId]⟩ :=
    .trans (.declared (declared_of_emit (declaring_expressionType env value) htype))
      (.trans (.evaluation (by simp) hp) (.trans (.evaluation (by simp) hv)
        (.trans (straight_atomicOperands hatomic) (.one .issue))))
  -- only a comparing exchange evaluates something after the id of its result is issued
  have hplain : ∀ {op}, op.isEffect → op.isTyped →
      (do emit (.result op type σ₄.nextId (Operand.ids [p, scope, semantics, v]))
          rememberResult result σ₄.nextId : BodyM Unit) σ₄.issue = .ok a σ' →
      ∃ r, Affects env rank (pointer :: value :: function.reads) result σ r σ' := by
    intro op heffect htyped hrun
    obtain ⟨_, σ₅, hpush, hrun⟩ := bind_eq_ok.1 hrun
    have hpush := pushes_of_emit (Opcode.not_isTerminator_of_isTyped htyped) hpush
    exact ⟨_, .intro hreads
      (.result heffect htyped (by simp) (by simp [Operand.filterMap_id?_ids]) hpush) .nil rfl
      (remembers_of_rememberResult mem_cons_self hrun)⟩
  cases function with
  | exchange compare =>
    cases compare with
    | none => exact hplain (isEffect_atomicOpcode _ _).1 (isEffect_atomicOpcode _ _).2 hrun
    | some compare =>
      simp only [bind_eq_ok] at hrun
      obtain ⟨c, σ₅, hc, _, σ₆, hpush, hrun⟩ := hrun
      obtain ⟨r₃, hc⟩ := evaluated_of_expression hc
      have hreads := hreads.trans (.evaluation (by simp [AtomicFunction.reads]) hc)
      have hemits : Emits (.effect rank) Opcode.isEffect
          ⟨σ₅, [c, semantics, scope, v, p, type], [σ₄.nextId]⟩ _
          ⟨σ₆, σ₄.nextId :: [c, semantics, scope, v, p, type], []⟩ :=
        .result rfl rfl (by simp) (by simp [Operand.filterMap_id?_ids]) (pushes_of_emit rfl hpush)
      cases result with
      | none =>
        obtain ⟨-, rfl⟩ := pure_eq_ok.1 hrun
        exact ⟨_, .intro hreads hemits .nil rfl rfl⟩
      | some h =>
        obtain ⟨r, q, hresult, hpending, hremembers⟩ := straight_of_exchangeResult
          (mem_cons_self (l := [c, semantics, scope, v, p, type])) (by simp) hrun
        exact ⟨_, .intro hreads hemits hresult hpending hremembers⟩
  | _ => exact hplain (isEffect_atomicOpcode _ _).1 (isEffect_atomicOpcode _ _).2 hrun

lemma affects_of_emitBarrier (hb : b.isEmpty = false) (hrun : emitBarrier b σ = .ok a σ') :
    ∃ r, Affects env rank [] none σ r σ' := by
  simp only [emitBarrier, hb, Bool.false_eq_true, if_false, bind_eq_ok] at hrun
  obtain ⟨scope, σ₁, hscope, semantics, σ₂, hsemantics, hpush⟩ := hrun
  exact ⟨_, .intro (.trans (.declared (declared_of_declare (declaring_indexConstant _) hscope))
      (.declared (declared_of_declare (declaring_indexConstant _) hsemantics)))
    (.bare rfl rfl (by simp [Operand.filterMap_id?_ids]) (pushes_of_emit rfl hpush)) .nil rfl rfl⟩

/-! ### Returning -/

lemma straight_of_interfacePointer {pointer : Id} (env : FunctionEnv)
    (hallowed : ∀ op, op.isPlain → allowed op)
    (hv : v.id ∈ known) (helement : ∀ id, v.element = some id → id ∈ known)
    (hrun : interfacePointer v σ = .ok pointer σ') :
    ∃ r new, Chain env .frame allowed [] ⟨σ, known, []⟩ r
      ⟨σ', new ++ known, []⟩ ∧ pointer ∈ new ++ known := by
  simp only [interfacePointer] at hrun
  cases hslot : v.element with
  | none =>
    rw [hslot] at hrun
    obtain ⟨rfl, rfl⟩ := pure_eq_ok.1 hrun
    exact ⟨_, [], .nil, hv⟩
  | some element =>
    simp only [hslot, bind_eq_ok] at hrun
    obtain ⟨zero, σ₁, hzero, hrun⟩ := hrun
    obtain ⟨rfl, hpush⟩ := emitResult_eq_ok rfl hrun
    refine ⟨_, [σ₁.nextId, zero],
      .trans (.declared (declared_of_declare (declaring_indexConstant _) hzero))
      (.emitResult (hallowed _ rfl) rfl ?_ ?_ hpush), mem_cons_self⟩
    · exact mem_cons_of_mem _ (helement element hslot)
    · simp [Operand.filterMap_id?_ids, hv]

lemma straight_of_storeOutput (hv : v ∈ env.outputs) (hvalue : value ∈ known)
    (hrun : storeOutput value v σ = .ok a σ') :
    ∃ r new, Chain env .frame isOutput [] ⟨σ, known, []⟩ r ⟨σ', new ++ known, []⟩ := by
  have hplain : ∀ op, op.isPlain → isOutput op := fun op hop => by simp [isOutput, hop]
  simp only [storeOutput, bind_eq_ok] at hrun
  obtain ⟨pointer, σ₁, hpointer, hrun⟩ := hrun
  have hpart : ∀ id ∈ v.id :: v.element.toList, Known env σ id := by
    intro id hid
    rcases mem_cons.1 hid with rfl | hid
    · exact .inr (.inr (.inr ⟨v, hv, .inl rfl⟩))
    · exact .inr (.inr (.inr ⟨v, hv, .inr (.inl (Option.mem_toList.1 hid))⟩))
  obtain ⟨r, new, hchain, hmem⟩ : ∃ r new, Chain env .frame isOutput []
      ⟨σ, known, []⟩ r ⟨σ₁, new ++ known, []⟩ ∧ pointer ∈ new ++ known := by
    obtain ⟨r, new, hchain, hmem⟩ := straight_of_interfacePointer env hplain mem_cons_self
      (fun id hid => mem_cons_of_mem _ (mem_append_left known (Option.mem_toList.2 hid)))
      hpointer
    have hall := (Straight.declare _ (.refl σ) hpart).trans hchain
    exact ⟨_, new ++ v.id :: v.element.toList, by rwa [append_assoc], by rwa [append_assoc]⟩
  have hstore : ∀ {σ₂} {part} more, part ∈ more ++ (new ++ known) → emit (.store pointer part)
      σ₂ = .ok a σ' → Chain env .frame isOutput [] ⟨σ₂, more ++ (new ++ known), []⟩
        [⟨.frame, .store pointer part⟩] ⟨σ', more ++ (new ++ known), []⟩ := by
    intro σ₂ part more hpart hpush
    refine .one (.emit (.bare rfl rfl ?_ (pushes_of_emit rfl hpush)))
    simp only [Instruction.store, Operand.filterMap_id?_ids, mem_cons, not_mem_nil,
      or_false, forall_eq_or_imp, forall_eq]
    exact ⟨mem_append_right _ hmem, hpart⟩
  cases hmember : v.member with
  | none =>
    simp only [hmember, bind_eq_ok, pure_eq_ok] at hrun
    obtain ⟨_, _, ⟨rfl, rfl⟩, hpush⟩ := hrun
    exact ⟨_, new, hchain.trans (hstore [] (by simp [hvalue]) hpush)⟩
  | some member =>
    obtain ⟨index, type⟩ := member
    simp only [hmember, bind_eq_ok] at hrun
    obtain ⟨part, σ₂, hpart, hpush⟩ := hrun
    obtain ⟨rfl, hextract⟩ := emitResult_eq_ok rfl hpart
    have htype : Known env σ₁ type := .inr (.inr (.inr ⟨v, hv, .inr (.inr ⟨index, hmember⟩)⟩))
    refine ⟨_, [σ₁.nextId, type] ++ new, (hchain.trans (.trans
      (.declare [type] (.refl σ₁) (by simpa using htype))
      (.emitResult (hplain _ rfl) rfl mem_cons_self ?_ hextract))).trans
        (hstore [σ₁.nextId, type] (by simp) hpush)⟩
    simp [Operand.id?, hvalue]

lemma straight_of_storeOutputs {outputs : List InterfaceVariable}
    (houtputs : ∀ v ∈ outputs, v ∈ env.outputs) (hvalue : value ∈ known)
    (hrun : outputs.forM (storeOutput value) σ = .ok a σ') :
    ∃ r new, Chain env .frame isOutput [] ⟨σ, known, []⟩ r ⟨σ', new ++ known, []⟩ := by
  induction outputs generalizing σ known with
  | nil =>
    obtain ⟨-, rfl⟩ := pure_eq_ok.1 hrun
    exact ⟨[], [], .nil⟩
  | cons v rest ih =>
    obtain ⟨_, σ₁, hfirst, hrest⟩ := bind_eq_ok.1 hrun
    obtain ⟨r, new, hfirst⟩ := straight_of_storeOutput (houtputs v mem_cons_self) hvalue hfirst
    obtain ⟨r', new', hrest⟩ := ih (fun v hv => houtputs v (mem_cons_of_mem _ hv))
      (mem_append_right new hvalue) hrest
    rw [← append_assoc] at hrest
    exact ⟨r ++ r', new' ++ new, hfirst.trans hrest⟩

lemma returns_of_emitReturn {value : Option (Handle .expression)}
    (hrun : emitReturn env value σ = .ok a σ') :
    (∃ r, Returns env σ value r σ') ∧ σ'.flow = σ.flow := by
  cases value with
  | none =>
    have hcloses := closes_of_terminate hrun
    exact ⟨⟨_, .nothing hcloses⟩, hcloses.same.flow⟩
  | some h =>
    simp only [emitReturn, bind_eq_ok] at hrun
    obtain ⟨id, σ₁, hid, hrun⟩ := hrun
    obtain ⟨r, hid⟩ := evaluated_of_expression hid
    split at hrun
    · rename_i houtputs
      cases hresult : env.result with
      | none =>
        rw [hresult] at hrun
        exact absurd hrun throw_ne_ok
      | some type =>
        rw [hresult] at hrun
        have hcloses := closes_of_terminate hrun
        exact ⟨⟨_, .value (isEmpty_iff.1 houtputs) hid hcloses⟩,
          hcloses.same.flow.trans (flow_of_evaluated hid)⟩
    · rename_i houtputs
      obtain ⟨_, σ₂, hstores, hrun⟩ := bind_eq_ok.1 hrun
      obtain ⟨r', new, hstores⟩ := straight_of_storeOutputs (fun _ h => h) (mem_cons_self) hstores
      have hcloses := closes_of_terminate hrun
      exact ⟨⟨_, .outputs (fun h => houtputs (isEmpty_iff.2 h)) hid hstores rfl hcloses⟩,
        (hcloses.same.flow.trans (flow_of_straight hstores)).trans (flow_of_evaluated hid)⟩

/-! ### Constructs -/

lemma enter_eq_ok : enter push σ = .ok a σ' ↔ σ' = σ.withFlow (push σ.flow) := modify_eq_ok

lemma leave_eq_ok (hflow : σ.flow = ⟨frame :: flow.frames⟩) (hrun : leave σ = .ok a σ') :
    σ' = σ.withFlow flow := by
  simp only [leave, bind_eq_ok, get_eq_ok] at hrun
  obtain ⟨_, _, ⟨rfl, rfl⟩, hrun⟩ := hrun
  simp only [hflow, ControlStack.pop] at hrun
  exact modify_eq_ok.1 hrun

lemma selects_of_emitSelection (haccept : Told accept acceptAct)
    (hreject : Option.Rel Told reject rejectAct)
    (hrun : emitSelection env condition acceptAct rejectAct σ = .ok a σ') :
    (∃ r, Selects env σ.flow condition accept reject σ r σ') ∧ σ'.flow = σ.flow := by
  simp only [emitSelection, bind_eq_ok] at hrun
  obtain ⟨c, σ₁, hc, merge, _, hmerge, first, _, hfirst, hrun⟩ := hrun
  obtain ⟨rfl, rfl⟩ := freshId_eq_ok.1 hmerge
  obtain ⟨rfl, rfl⟩ := freshId_eq_ok.1 hfirst
  obtain ⟨r, hc⟩ := evaluated_of_expression hc
  have hflow := flow_of_evaluated hc
  cases hreject with
  | none =>
    simp only [Option.isSome_none, Bool.false_eq_true, if_false, bind_eq_ok, pure_eq_ok,
      enter_eq_ok] at hrun
    obtain ⟨_, _, ⟨rfl, rfl⟩, _, σ₂, hpush, _, σ₃, hclose, _, _, rfl, _, σ₄, hpart, _, _, hleave,
      hopen⟩ := hrun
    have hpush := pushes_of_emit rfl hpush
    have hclose := closes_of_terminate hclose
    have hflow₃ : σ₃.flow = σ.flow := (hclose.same.flow.trans hpush.same.flow).trans hflow
    rw [hflow₃] at hpart
    obtain ⟨⟨r₁, hpart⟩, hflow₄⟩ := part_of_emitPart haccept hpart
    obtain rfl := leave_eq_ok hflow₄ hleave
    have hopen := opens_of_beginBlock hopen
    exact ⟨⟨_, .one hc rfl rfl hpush hclose hpart hopen⟩, hopen.same.flow⟩
  | some hreject =>
    simp only [Option.isSome_some, if_true, bind_eq_ok, enter_eq_ok] at hrun
    obtain ⟨_, _, hsecond, _, σ₂, hpush, _, σ₃, hclose, _, _, rfl, _, σ₄, hpart, _,
      σ₅, hpart', _, _, hleave, hopen⟩ := hrun
    obtain ⟨rfl, rfl⟩ := freshId_eq_ok.1 hsecond
    have hpush := pushes_of_emit rfl hpush
    have hclose := closes_of_terminate hclose
    have hflow₃ : σ₃.flow = σ.flow := (hclose.same.flow.trans hpush.same.flow).trans hflow
    rw [hflow₃] at hpart
    obtain ⟨⟨r₁, hpart⟩, hflow₄⟩ := part_of_emitPart haccept hpart
    obtain ⟨⟨r₂, hpart'⟩, hflow₅⟩ := part_of_emitPart hreject hpart'
    rw [hflow₄] at hpart'
    obtain rfl := leave_eq_ok (hflow₅.trans hflow₄) hleave
    have hopen := opens_of_beginBlock hopen
    exact ⟨⟨_, .both hc rfl rfl rfl hpush hclose hpart hpart' hopen⟩, hopen.same.flow⟩

lemma repeats_of_emitBackEdge {merge : Id}
    (hrun : emitBackEdge env header merge breakIf σ = .ok a σ') :
    (∃ r, Repeats env header merge σ breakIf r σ') ∧ σ'.flow = σ.flow := by
  simp only [emitBackEdge, bind_eq_ok] at hrun
  obtain ⟨label, _, hlabel, hrun⟩ := hrun
  obtain ⟨hlabel, rfl⟩ := openLabel?_eq_ok hlabel
  cases label with
  | none =>
    obtain ⟨-, rfl⟩ := pure_eq_ok.1 hrun
    exact ⟨⟨[], .ended hlabel.symm⟩, rfl⟩
  | some label =>
    cases breakIf with
    | none =>
      have hcloses := closes_of_terminate hrun
      exact ⟨⟨_, .always hcloses⟩, hcloses.same.flow⟩
    | some condition =>
      simp only [Option.isSome_some, if_true, bind_eq_ok] at hrun
      obtain ⟨c, σ₁, hc, hrun⟩ := hrun
      obtain ⟨r, hc⟩ := evaluated_of_expression hc
      have hcloses := closes_of_terminate hrun
      exact ⟨⟨_, .unless hlabel.symm hc hcloses⟩, hcloses.same.flow.trans (flow_of_evaluated hc)⟩

lemma loops_of_emitLoop (hbody : Told body bodyAct) (hcontinuing : Told continuing continuingAct)
    (hrun : emitLoop env bodyAct continuingAct breakIf σ = .ok a σ') :
    (∃ r, Loops env σ.flow body continuing breakIf σ r σ') ∧ σ'.flow = σ.flow := by
  simp only [emitLoop, bind_eq_ok, enter_eq_ok] at hrun
  obtain ⟨header, _, hheader, first, _, hfirst, next, _, hnext, merge, _, hmerge, _,
    σ₁, hclose, _, σ₂, hopen, _, σ₃, hpush, _, σ₄, hclose', _, _, rfl, _, σ₅, hpart, _, σ₆, hopen',
    _, σ₇, hinner, _, σ₈, hback, _, _, hleave, hopen''⟩ := hrun
  obtain ⟨rfl, rfl⟩ := freshId_eq_ok.1 hheader
  obtain ⟨rfl, rfl⟩ := freshId_eq_ok.1 hfirst
  obtain ⟨rfl, rfl⟩ := freshId_eq_ok.1 hnext
  obtain ⟨rfl, rfl⟩ := freshId_eq_ok.1 hmerge
  have hclose := closes_of_terminate hclose
  have hopen := opens_of_beginBlock hopen
  have hpush := pushes_of_emit rfl hpush
  have hclose' := closes_of_terminate hclose'
  have hopen' := opens_of_beginBlock hopen'
  have hflow₄ : σ₄.flow = σ.flow := by
    rw [hclose'.same.flow, hpush.same.flow, hopen.same.flow, hclose.same.flow]
    rfl
  rw [hflow₄] at hpart
  obtain ⟨⟨r₁, hpart⟩, hflow₅⟩ := part_of_emitPart hbody hpart
  obtain ⟨⟨r₂, hinner⟩, hflow₇⟩ := hcontinuing hinner
  obtain ⟨⟨r₃, hback⟩, hflow₈⟩ := repeats_of_emitBackEdge hback
  rw [hopen'.same.flow.trans hflow₅] at hinner hflow₇
  obtain rfl := leave_eq_ok (hflow₈.trans hflow₇) hleave
  have hopen'' := opens_of_beginBlock hopen''
  exact ⟨⟨_, .intro rfl rfl rfl rfl hclose hopen hpush hclose' hpart hopen' hinner hback hopen''⟩,
    hopen''.same.flow⟩

lemma straight_of_switchValue (hrun : switchValue env selector σ = .ok value σ') :
    ∃ r known, Chain env .frame Opcode.isValue [selector] ⟨σ, [], []⟩ r ⟨σ', known, []⟩ ∧
    value ∈ known := by
  simp only [switchValue, bind_eq_ok, exceptIR_eq_ok] at hrun
  obtain ⟨shape, _, ⟨-, rfl⟩, v, σ₁, hv, hrun⟩ := hrun
  obtain ⟨r, hv⟩ := evaluated_of_expression hv
  cases shape with
  | pointer base space =>
    obtain ⟨type, σ₂, htype, hrun⟩ := bind_eq_ok.1 hrun
    obtain ⟨rfl, hpush⟩ := emitResult_eq_ok rfl hrun
    exact ⟨_, [σ₂.nextId, type, v], .trans (.evaluation mem_cons_self hv)
      (.trans (.declared (declared_of_emit (declaring_typeId _ _) htype))
        (.emitResult rfl rfl (by simp) (by simp [Operand.id?]) hpush)), mem_cons_self⟩
  | _ =>
    obtain ⟨rfl, rfl⟩ := pure_eq_ok.1 hrun
    exact ⟨_, [v], .evaluation mem_cons_self hv, mem_cons_self⟩

lemma issues_of_mapM (hrun : as.mapM (fun _ => (freshId : BodyM Id)) σ = .ok ls σ') :
    Issues as σ ls σ' ∧ σ'.flow = σ.flow := by
  induction as generalizing σ ls with
  | nil =>
    obtain ⟨rfl, rfl⟩ := pure_eq_ok.1 hrun
    exact ⟨.nil, rfl⟩
  | cons _ as ih =>
    simp only [mapM_cons, bind_eq_ok, pure_eq_ok] at hrun
    obtain ⟨label, _, hlabel, rest, σ₁, hrest, rfl, rfl⟩ := hrun
    obtain ⟨rfl, rfl⟩ := freshId_eq_ok.1 hlabel
    obtain ⟨hissues, hflow⟩ := ih hrest
    exact ⟨.cons hissues, hflow⟩

lemma fallsBack_of_emitFallback {merge : Id} (hrun : emitFallback merge fallback σ = .ok a σ') :
    (∃ r, FallsBack merge σ fallback r σ') ∧ σ'.flow = σ.flow := by
  cases fallback with
  | none =>
    obtain ⟨-, rfl⟩ := pure_eq_ok.1 hrun
    exact ⟨⟨[], .none⟩, rfl⟩
  | some label =>
    obtain ⟨_, σ₁, hopen, hclose⟩ := bind_eq_ok.1 hrun
    have hopen := opens_of_beginBlock hopen
    have hclose := closes_of_terminate hclose
    exact ⟨⟨_, .some hopen hclose⟩, hclose.same.flow.trans hopen.same.flow⟩

lemma switches_of_emitSwitch
    (hparts : ∀ merge labels, Told (fun inner => parts inner merge labels) (partsAct merge labels))
    (hrun : emitSwitch env selector cases partsAct σ = .ok a σ') :
    (∃ r, Switches env σ.flow selector cases parts σ r σ') ∧ σ'.flow = σ.flow := by
  simp only [emitSwitch, bind_eq_ok] at hrun
  obtain ⟨value, σ₁, hvalue, merge, _, hmerge, labels, σ₂, hlabels, hrun⟩ := hrun
  obtain ⟨rfl, rfl⟩ := freshId_eq_ok.1 hmerge
  obtain ⟨r₁, known, hvalue, hmem⟩ := straight_of_switchValue hvalue
  obtain ⟨hlabels, hflow₂⟩ := issues_of_mapM hlabels
  have hflow₂ : σ₂.flow = σ.flow := hflow₂.trans (flow_of_straight hvalue)
  have hdefaults : ∃ default fallback σ₃, Defaults cases labels σ₂ default fallback σ₃ ∧
      σ₃.flow = σ₂.flow ∧ (do
        emit (.selectionMerge σ₁.nextId)
        terminate (switchInstruction value default cases labels)
        enter (·.pushSwitch σ₁.nextId)
        partsAct σ₁.nextId labels
        emitFallback σ₁.nextId fallback
        leave
        beginBlock σ₁.nextId : BodyM Unit) σ₃ = .ok a σ' := by
    cases hdefault : defaultLabel? cases labels with
    | some label =>
      rw [hdefault] at hrun
      exact ⟨label, none, σ₂, .case hdefault, rfl, hrun⟩
    | none =>
      rw [hdefault] at hrun
      obtain ⟨label, _, hlabel, hrun⟩ := bind_eq_ok.1 hrun
      obtain ⟨rfl, rfl⟩ := freshId_eq_ok.1 hlabel
      exact ⟨σ₂.nextId, some σ₂.nextId, σ₂.issue, .block hdefault, rfl, hrun⟩
  obtain ⟨default, fallback, σ₃, hdefaults, hflow₃, hrun⟩ := hdefaults
  simp only [bind_eq_ok, enter_eq_ok] at hrun
  obtain ⟨_, σ₄, hpush, _, σ₅, hclose, _, _, rfl, _, σ₆, hinner, _, σ₇, hfallback, _, _, hleave,
    hopen⟩ := hrun
  have hpush := pushes_of_emit rfl hpush
  have hclose := closes_of_terminate hclose
  have hflow₅ : σ₅.flow = σ.flow := by rw [hclose.same.flow, hpush.same.flow, hflow₃, hflow₂]
  rw [hflow₅] at hinner
  obtain ⟨⟨r₂, hinner⟩, hflow₆⟩ := hparts _ _ hinner
  obtain ⟨⟨r₃, hfallback⟩, hflow₇⟩ := fallsBack_of_emitFallback hfallback
  obtain rfl := leave_eq_ok (hflow₇.trans hflow₆) hleave
  have hopen := opens_of_beginBlock hopen
  exact ⟨⟨_, .intro hvalue hmem rfl hlabels hdefaults hpush hclose hinner hfallback hopen⟩,
    hopen.same.flow⟩

/-! ### All statements -/

lemma branches_of_branchOut {target : ControlStack → Except Assembly.Fault Id}
    (hrun : branchOut target σ = .ok a σ') :
    (∃ r, Branches (target σ.flow) σ r σ') ∧ σ'.flow = σ.flow := by
  simp only [branchOut, bind_eq_ok, get_eq_ok] at hrun
  obtain ⟨_, _, ⟨rfl, rfl⟩, hrun⟩ := hrun
  cases htarget : target σ.flow with
  | error fault =>
    rw [htarget] at hrun
    exact absurd hrun throw_ne_ok
  | ok label =>
    rw [htarget] at hrun
    have hclose := closes_of_terminate hrun
    exact ⟨⟨_, .intro rfl hclose⟩, hclose.same.flow⟩

lemma Told.afterReady (h : Told told act) :
    Told (fun flow => Then Ready (told flow)) (do ensureOpenBlock; act) := by
  intro σ a σ' hrun
  obtain ⟨_, σ₁, hready, hact⟩ := bind_eq_ok.1 hrun
  obtain ⟨⟨r, hready⟩, hflow⟩ := ready_of_ensureOpenBlock hready
  obtain ⟨⟨r', hact⟩, hflow'⟩ := h hact
  rw [hflow] at hact hflow'
  exact ⟨⟨r ++ r', .intro hready hact⟩, hflow'⟩

end

section

variable (env : FunctionEnv)

mutual

/-- Whatever the code of a statement does, `Stated` describes it: one case per statement. -/
lemma told_statement (s : Statement) :
    ∀ rank, Told (fun flow => Stated env flow rank s) (statement env s) := by
  intro rank
  unfold Stated statement
  refine .afterReady ?_
  match s with
  | .emit range => exact fun _ _ _ hrun => emitted_of_emitRun _ _ hrun
  | .block body => exact told_statements body rank
  | .store pointer value =>
    intro σ a σ' hrun
    obtain ⟨r, haffects⟩ := affects_of_emitStore hrun
    exact ⟨⟨r, haffects⟩, flow_of_affects haffects⟩
  | .ifElse condition accept reject =>
    intro σ a σ' hrun
    refine selects_of_emitSelection (told_statements accept rank) ?_ hrun
    split
    · exact .none
    · exact .some (told_statements reject _)
  | .switch selector cases =>
    exact fun _ _ _ hrun => switches_of_emitSwitch
      (fun merge labels => told_switchCases cases rank merge labels) hrun
  | .loop body continuing breakIf =>
    exact fun _ _ _ hrun => loops_of_emitLoop (told_statements body rank)
      (told_statements continuing _) hrun
  | .call function arguments result =>
    intro σ a σ' hrun
    obtain ⟨r, haffects⟩ := affects_of_emitCall hrun
    exact ⟨⟨r, haffects⟩, flow_of_affects haffects⟩
  | .atomic pointer function value result =>
    intro σ a σ' hrun
    obtain ⟨r, haffects⟩ := affects_of_emitAtomic hrun
    exact ⟨⟨r, haffects⟩, flow_of_affects haffects⟩
  | .break | .continue => exact fun _ _ _ hrun => branches_of_branchOut hrun
  | .return value => exact fun _ _ _ hrun => returns_of_emitReturn hrun
  | .kill =>
    intro σ a σ' hrun
    have hclose := closes_of_terminate hrun
    exact ⟨⟨_, hclose, rfl⟩, hclose.same.flow⟩
  | .barrier b =>
    intro σ a σ' hrun
    cases hb : b.isEmpty with
    | true =>
      simp only [emitBarrier, hb, if_true, pure_eq_ok] at hrun
      obtain ⟨-, rfl⟩ := hrun
      refine ⟨⟨[], ?_⟩, rfl⟩
      simp only [hb, if_true]
      exact ⟨rfl, rfl⟩
    | false =>
      obtain ⟨r, haffects⟩ := affects_of_emitBarrier hb hrun
      refine ⟨⟨r, ?_⟩, flow_of_affects haffects⟩
      simpa only [hb, Bool.false_eq_true, if_false] using haffects

lemma told_statements (body : List Statement) :
    ∀ rank, Told (fun flow => StatedAll env flow rank body) (statements env body) := by
  intro rank σ a σ' hrun
  match body, hrun with
  | [], hrun =>
    obtain ⟨-, rfl⟩ := pure_eq_ok.1 hrun
    exact ⟨⟨[], rfl, rfl⟩, rfl⟩
  | s :: rest, hrun =>
    obtain ⟨_, σ₁, hfirst, hrest⟩ := bind_eq_ok.1 hrun
    obtain ⟨⟨r, hfirst⟩, hflow⟩ := told_statement s rank hfirst
    obtain ⟨⟨r', hrest⟩, hflow'⟩ := told_statements rest (rank + s.effectCount) hrest
    rw [hflow] at hrest hflow'
    exact ⟨⟨r ++ r', .intro hfirst hrest⟩, hflow'⟩

lemma told_switchCases (cases : List SwitchCase) :
    ∀ rank merge labels, Told (fun flow => StatedCases env flow rank merge cases labels)
      (switchCases env merge cases labels) := by
  intro rank merge labels σ a σ' hrun
  match cases, labels, hrun with
  | [], _, hrun | _ :: _, [], hrun =>
    obtain ⟨-, rfl⟩ := pure_eq_ok.1 hrun
    exact ⟨⟨[], rfl, rfl⟩, rfl⟩
  | c :: rest, label :: labels, hrun =>
    obtain ⟨_, σ₁, hfirst, hrest⟩ := bind_eq_ok.1 hrun
    obtain ⟨⟨r, hfirst⟩, hflow⟩ := part_of_emitPart (told_switchCase c rank) hfirst
    obtain ⟨⟨r', hrest⟩, hflow'⟩ := told_switchCases rest (rank + IR.caseEffectCount c)
      merge labels hrest
    rw [hflow] at hrest hflow'
    exact ⟨⟨r ++ r', .intro hfirst hrest⟩, hflow'⟩

lemma told_switchCase (c : SwitchCase) :
    ∀ rank, Told (fun flow => StatedCase env flow rank c) (switchCase env c) := by
  intro rank
  match c with
  | ⟨_, body⟩ => exact told_statements body rank

end

end

end Shader.Emit
