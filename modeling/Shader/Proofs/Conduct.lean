import Shader.Proofs.Lockstep

/-!
# Statements

Emissions that correspond go through the statements of a function alike
(`Correspondence.steady_statements`).  A statement is emitted where there are blocks, and leaves
blocks behind; the constructs around it are the same in the end, and all labels it issued are begun.
-/

namespace Shader.Emit

open List Assembly Link
open IR (Statement SwitchCase AtomicFunction Barrier)

variable {ι β : Type} [Inhabited ι] {m : IR.Module} {options : Options} {R : Regime m options}

namespace Correspondence

variable {C : Correspondence ι R} {g : List (Fact (Ids ι))}
    {act part accept continuing : ι → BodyM Unit} {g' : List (Assembly.Fact (Ids ι))}

/-- The step is taken in an open block; whether one is open in the end is not known. -/
def Goes (C : Correspondence ι R) (g : List (Fact (Ids ι))) (act : ι → BodyM Unit) : Prop :=
  ∀ owed flow, C.Moves g ⟨owed, flow, some .opened⟩ ⟨owed, flow, some .begun⟩ act

/-- The step is taken where there are blocks, whether one of them is open or not. -/
def Steady (C : Correspondence ι R) (g : List (Fact (Ids ι))) (act : ι → BodyM Unit) : Prop :=
  ∀ owed flow, C.Moves g ⟨owed, flow, some .begun⟩ ⟨owed, flow, some .begun⟩ act

/-- The step stays in an open block. -/
def Works (C : Correspondence ι R) (g : List (Fact (Ids ι))) (act : ι → BodyM Unit) : Prop :=
  ∀ owed flow, C.Moves g ⟨owed, flow, some .opened⟩ ⟨owed, flow, some .opened⟩ act

lemma Works.goes (h : C.Works g act) :
    C.Goes g act := fun owed flow => (h owed flow).begun (by simp)

lemma Steady.goes (h : C.Steady g act) : C.Goes g act := fun owed flow _ hx hg =>
  h owed flow _ (C.body.begun (o := .opened) (by simp) hx) hg

lemma Steady.mono (h : C.Steady g act) (hg : ∀ x ∈ g, x ∈ g') : C.Steady g' act :=
  fun owed flow => (h owed flow).mono hg

section

variable {owed : List (Ids ι)} {flow : List (Around ι)} {a label merge type : Ids ι}
    {o : Option Openness}

/-! ### Blocks -/

lemma ensureOpenBlock :
    C.Moves g ⟨owed, flow, some .begun⟩ ⟨owed, flow, some .opened⟩ fun _ =>
    Emit.ensureOpenBlock := by
  refine .bind C.openLabel fun r => ?_
  cases r with
  | some label => exact .pure (r := ()) (forall_mem_nil _)
  | none => exact .bind newId fun label => startBlock (.inr rfl) (by simp)

lemma Goes.steady (h : C.Goes g act) : C.Steady g (fun i => do Emit.ensureOpenBlock; act i) :=
  fun owed flow => .bind ensureOpenBlock fun _ => h owed flow

lemma branchTo {target : Ids ι} (h : Attested g target) :
    C.Moves g ⟨owed, flow, some .opened⟩ ⟨owed, flow, some .closed⟩ fun i =>
    Emit.terminate (.branch (target i)) :=
  terminateBlock .branch [.id target] rfl (by simp [h]) fun _ => .short rfl

lemma closeTo {target : Ids ι} (h : Attested g target) :
    C.Moves g ⟨owed, flow, some .begun⟩ ⟨owed, flow, some .closed⟩ fun i =>
    Emit.closeTo (target i) := by
  refine .bind C.openLabel fun r => ?_
  cases r with
  | some label => exact branchTo (by simp [h])
  | none => exact .pure (r := ()) (forall_mem_nil _)

/-! ### Constructs around the point of emission -/

/-- Where continuing leads. -/
def continuingOf (flow : List (Around ι)) : Option (Ids ι) :=
  (flow.find? (·.construct = .loop)).bind Around.continuing

omit [Inhabited ι] in
lemma continuing_on (flow : List (Around ι)) (i : ι) :
    (⟨flow.map (·.on i)⟩ : ControlStack).loop?.bind Frame.continuing =
      (continuingOf flow).map (· i) := by
  unfold ControlStack.loop? continuingOf
  rw [find?_map]
  show ((flow.find? (·.construct = .loop)).map _).bind _ = _
  cases flow.find? (·.construct = .loop) <;> rfl

omit [Inhabited ι] in
lemma mem_of_continuingOf (h : continuingOf flow = some a) : ∃ f ∈ flow, f.continuing = some a := by
  obtain ⟨f, hf, ha⟩ := Option.bind_eq_some_iff.1 h
  exact ⟨f, mem_of_find?_eq_some hf, ha⟩

lemma enter {push : ι → ControlStack → ControlStack} {f : Around ι} (hmerge : Attested g f.merge)
    (hcontinuing : ∀ a, f.continuing = some a → Attested g a ∨ ∃ f' ∈ flow, f'.continuing = some a)
    (hpush : ∀ i, push i ⟨flow.map (·.on i)⟩ = ⟨(f :: flow).map (·.on i)⟩) :
    C.Moves g ⟨owed, flow, o⟩ ⟨owed, f :: flow, o⟩ fun i => Emit.enter (push i) := by
  refine .modify (fun _ _ => rfl) fun σ hσ hg => { hσ with flow := fun i => ?_, frames := ?_ }
  · exact (congrArg (push i) (hσ.flow i)).trans (hpush i)
  · refine forall_mem_cons.2 ⟨forall_mem_cons.2 ⟨hg.attested hσ.rel hmerge, fun x hx => ?_⟩,
      hσ.frames⟩
    obtain ⟨a, ha, rfl⟩ := mem_map.1 hx
    rcases hcontinuing a (Option.mem_toList.1 ha) with ha | ⟨f', hf', ha⟩
    · exact hg.attested hσ.rel ha
    · exact hσ.frames f' hf' _ (mem_cons_of_mem _ (mem_map.2 ⟨a, Option.mem_toList.2 ha, rfl⟩))

lemma leave : C.Moves g ⟨owed, f :: flow, o⟩ ⟨owed, flow, o⟩ fun _ => Emit.leave := by
  refine .read fun σ hσ _ => ⟨[], .nil, ?_⟩
  simp only [BodiesAgree.flow hσ]
  exact .modify (fun _ _ => rfl) fun σ hσ _ => { hσ with
    flow := fun _ => rfl
    frames := (forall_mem_cons.1 hσ.frames).2 }

lemma branchOut (r : Option (Ids ι))
    (hr : ∀ a, r = some a → ∃ f ∈ flow, a = f.merge ∨ f.continuing = some a)
    (htarget : ∀ i, target (⟨flow.map (·.on i)⟩ : ControlStack) = (r.map (· i)).elim
      (.error .noTarget) .ok) :
    C.Moves g ⟨owed, flow, some .opened⟩ ⟨owed, flow, some .closed⟩ fun _ =>
    Emit.branchOut target := by
  refine .read fun σ hσ _ => ?_
  simp only [BodiesAgree.flow hσ, htarget]
  cases r with
  | none => exact ⟨[], .nil, .fail rfl (by rintro ⟨⟩)⟩
  | some a =>
    refine ⟨[.issued a], forall_mem_singleton.2 ?_, branchTo (by simp)⟩
    obtain ⟨f, hf, ha⟩ := hr a rfl
    refine BodiesAgree.frames hσ f hf _ (mem_cons.2 (ha.imp (congrArg _) fun ha => ?_))
    exact mem_map.2 ⟨a, Option.mem_toList.2 ha, rfl⟩

lemma goes_break : C.Goes g fun _ => Emit.branchOut ControlStack.breakTarget := by
  refine fun owed flow => (branchOut ((flow.find? (·.construct ≠ .selection)).map Around.merge)
    (fun a ha => ?_) fun i => ?_).begun (by simp)
  · obtain ⟨f, hf, rfl⟩ := Option.map_eq_some_iff.1 ha
    exact ⟨f, mem_of_find?_eq_some hf, .inl rfl⟩
  · unfold ControlStack.breakTarget ControlStack.breakable?
    have htest : (fun frame : Frame => decide (frame.construct ≠ .selection)) ∘ (·.on i) =
        fun f : Around ι => decide (f.construct ≠ .selection) := rfl
    rw [find?_map, htest]
    cases flow.find? (·.construct ≠ .selection) <;> rfl

lemma goes_continue : C.Goes g fun _ => Emit.branchOut ControlStack.continueTarget := by
  refine fun owed flow => (branchOut (continuingOf flow) (fun a ha => ?_) fun i =>
    ?_).begun (by simp)
  · obtain ⟨f, hf, ha⟩ := mem_of_continuingOf ha
    exact ⟨f, hf, .inr ha⟩
  · unfold ControlStack.continueTarget
    rw [continuing_on]
    cases continuingOf flow <;> rfl

/-! ### Side effects -/

lemma rememberResult (result : Option (Handle .expression)) (h : Attested g a) :
    C.Works g fun i => Emit.rememberResult result (a i) := by
  intro owed flow
  cases result with
  | none => exact .pure (r := ()) (forall_mem_nil _)
  | some e => exact remember e h

lemma works_emitBarrier (b : Barrier) : C.Works g fun _ => Emit.emitBarrier b := by
  intro owed flow
  refine .ite (fun _ => .pure (r := ()) (forall_mem_nil _)) fun _ => ?_
  refine .bind (.lift (indexConstant _)) fun scope => .bind (.lift (indexConstant _))
    fun semantics => ?_
  exact emit .controlBarrier [.id scope, .id scope, .id semantics] rfl rfl (by simp)
    fun _ => .short rfl

lemma isTyped_atomicOpcode (signed : Bool) (function : AtomicFunction) :
    (atomicOpcode signed function).isTyped := by
  cases function <;> cases signed <;> rfl

variable {E : Locale ι} (hE : E.Runs C)
include hE

lemma works_emitRun (start count : Nat) : C.Works g fun i => Emit.emitRun (E.on i) start count := by
  induction count generalizing g start with
  | zero => exact fun _ _ => .pure (r := ()) (forall_mem_nil _)
  | succ count ih =>
    intro owed flow
    have hdeferred : ∀ i, (E.on i).deferred = E.deferred := fun _ => rfl
    simp only [Emit.emitRun, hdeferred]
    refine .ite (fun _ => ih _ owed flow) fun _ => ?_
    have hvalue : C.Moves g ⟨owed, flow, some .opened⟩ ⟨owed, flow, some .opened⟩ fun i =>
        discard (Emit.expression (E.on i) ⟨start⟩) :=
      .bind (expression hE _) fun _ => .pure (r := ()) (forall_mem_nil _)
    exact .bind hvalue fun _ => ih _ owed flow

lemma works_emitStore (pointer value : Handle .expression) :
    C.Works g fun i => Emit.emitStore (E.on i) pointer value := by
  intro owed flow
  refine .askInside (pointsToAtomic_congr hE.akin · pointer) fun atomic _ =>
    .bind (expression hE _) fun p => .bind (expression hE _) fun v => ?_
  cases atomic with
  | true =>
    exact .bind atomicOperands fun ⟨scope, semantics⟩ =>
      emit .atomicStore [.id p, .id scope, .id semantics, .id v] rfl rfl (by simp)
        fun _ => .short rfl
  | false => exact emit .store [.id p, .id v] rfl rfl (by simp) fun _ => .short rfl

lemma works_emitCall (function : Handle .function) (arguments : Handles)
    (result : Option (Handle .expression)) :
    C.Works g fun i => Emit.emitCall (E.on i) function arguments result := by
  intro owed flow
  refine .bind (.lift (C.functionId function)) fun f => .bind (.mapM fun a _ => expression hE
    a) fun ids => ?_
  have hlast : ∀ type, C.Moves ([Fact.global type] ++ (ids.flatMap ([Fact.issued ·]) ++
      ([Fact.issued f] ++ g))) ⟨owed, flow, some .opened⟩ ⟨owed, flow, some .opened⟩ (fun i => do
        let id ← Emit.emitResult .functionCall (type i) (.id (f i) :: Operand.ids (ids.map (· i)))
        Emit.rememberResult result id) := by
    intro type
    simp only [ids_on]
    refine .bind (emitResult (.id f :: _) rfl (by simp) ?_ fun _ => .inl rfl) fun id =>
      rememberResult result (by simp) owed flow
    exact covered_id_cons.2 ⟨by simp, covered_map_id.2 fun a ha => by simp [ha]⟩
  cases result with
  | some h => exact .bind (expressionType hE.akin) hlast
  | none => exact .bind (.lift C.voidType) hlast

lemma works_exchangeResult {old compare : Ids ι} (hold : Attested g old)
    (hcompare : Attested g compare) (result : Handle .expression) :
    C.Works g fun i => Emit.exchangeResult (E.on i) (old i) (compare i) result := by
  intro owed flow
  refine .bind (.lift (C.scalarType fun _ => .inr rfl)) fun bool => ?_
  refine .bind (emitOnIds [old, compare] rfl (by simp) (by simp [hold, hcompare]) (.inr (by simp)))
    fun e => ?_
  refine .bind (expressionType hE.akin) fun type => ?_
  exact .bind (emitOnIds [old, e] rfl (by simp) (by simp [hold]) (.inl rfl)) fun pair =>
    remember result (by simp)

lemma works_emitAtomic (pointer : Handle .expression) (function : IR.AtomicFunction)
    (value : Handle .expression) (result : Option (Handle .expression)) :
    C.Works g fun i => Emit.emitAtomic (E.on i) pointer function value result := by
  intro owed flow
  refine expressionShape hE.akin fun shape _ => .bind (expressionType hE.akin) fun type => ?_
  refine .bind (expression hE _) fun p => .bind (expression hE _) fun v => ?_
  refine .bind atomicOperands fun ⟨scope, semantics⟩ => .bind newId fun id => ?_
  have hplain : ∀ op, op.isTyped →
      C.Moves ([Fact.issued id] ++ ([Fact.issued scope, Fact.issued semantics] ++ ([Fact.issued
      v] ++ ([Fact.issued p] ++ ([Fact.global type] ++ g))))) ⟨id :: owed, flow, some .opened⟩
      ⟨owed, flow, some .opened⟩ (fun i => do
        Emit.emit (.result op (type i) (id i) (Operand.ids [p i, scope i, semantics i, v i]))
        Emit.rememberResult result (id i)) := fun op hop =>
    .bind (emitFor op [.id p, .id scope, .id semantics, .id v] hop (by simp) (by simp) (by simp)
      fun _ => .short rfl) fun _ => rememberResult result (by simp) owed flow
  cases function with
  | exchange compare =>
    cases compare with
    | none => exact hplain _ rfl
    | some compare =>
      refine .bind (expression hE _) fun c => ?_
      refine .bind (emitFor .atomicCompareExchange [.id p, .id scope, .id semantics,
        .id semantics, .id v, .id c] rfl (by simp) (by simp) (by simp) fun _ => .short rfl) fun _ =>
        ?_
      cases result with
      | none => exact .pure (r := ()) (forall_mem_nil _)
      | some h => exact works_exchangeResult hE (by simp) (by simp) h owed flow
  | _ => exact hplain _ (isTyped_atomicOpcode _ _)

/-! ### Returning -/

omit hE in
lemma interfacePointer {v : Port ι} (h : ∀ x ∈ v.facts, x ∈ g) :
    C.Computes g owed flow fun i => Emit.interfacePointer (v.on i) := by
  have hid : .global v.id ∈ g := h _ mem_cons_self
  obtain ⟨id, member, element⟩ := v
  cases element with
  | none =>
    exact .issued (k := ([.global ·])) (.pure (r := id) (forall_mem_singleton.2 hid)) (by simp)
  | some element =>
    have helement : Attested g element := .inr (h _ (mem_append_right _ mem_cons_self))
    exact .bind (.lift (indexConstant 0)) fun zero =>
      emitOnIds [id, zero] rfl (by simp [helement]) (by simp [Attested, hid]) (.inr (by simp))

omit hE [Inhabited ι] in
lemma attested_member {v : Port ι} (h : ∀ x ∈ v.facts, x ∈ g)
    (hmember : v.member = some (index, type)) :
    Attested g type := by
  refine .inr (h _ (mem_cons_of_mem _ (mem_append_left _ ?_)))
  rw [hmember]
  exact mem_cons_self

omit hE in
lemma storeOutput {v : Port ι} (ha : Attested g a) (h : ∀ x ∈ v.facts, x ∈ g) :
    C.Works g fun i => Emit.storeOutput (a i) (v.on i) := by
  intro owed flow
  refine .bind (interfacePointer h) fun pointer => ?_
  have hmember : ∀ index type, v.member = some (index, type) → Attested g type :=
    fun _ _ => attested_member h
  obtain ⟨id, member, element⟩ := v
  cases member with
  | none => exact emit .store [.id pointer, .id a] rfl rfl (by simp [ha]) fun _ => .short rfl
  | some member =>
    obtain ⟨index, type⟩ := member
    refine .bind (emitResult [.id a, .word index] rfl ((hmember index type rfl).append
      _) (by simp [ha]) fun _ => .inr (Nat.le_of_ble_eq_true rfl)) fun part => ?_
    exact emit .store [.id pointer, .id part] rfl rfl (by simp) fun _ => .short rfl

lemma goes_emitReturn (hfacts : ∀ x ∈ E.facts, x ∈ g) (value : Option (Handle .expression)) :
    C.Goes g fun i => Emit.emitReturn (E.on i) value := by
  intro owed flow
  have hreturn : ∀ {g}, C.Moves g ⟨owed, flow, some .opened⟩ ⟨owed, flow, some .closed⟩ fun _ =>
      Emit.terminate .ret := terminateBlock .return [] rfl (by simp) fun _ => .short rfl
  refine .begun (o := fun _ => .closed) ?_ (by simp)
  cases value with
  | none => exact hreturn
  | some value =>
    refine .bind (expression hE _) fun v => ?_
    have hempty : ∀ i, (E.on i).outputs.isEmpty = E.outputs.isEmpty := fun i => isEmpty_map ..
    simp only [hempty]
    refine .ite (fun _ => ?_) fun _ => ?_
    · have hresult : ∀ i, (E.on i).result = E.result.map (· i) := fun _ => rfl
      have hname : ∀ i, (E.on i).name = E.name := fun _ => rfl
      simp only [hresult, hname]
      cases E.result with
      | some _ => exact terminateBlock .returnValue [.id v] rfl (by simp) fun _ => .short rfl
      | none => exact .fail rfl (by rintro ⟨⟩)
    · have houtputs : ∀ i f, (E.on i).outputs.forM f = E.outputs.forM fun v =>
        (f (v.on i) : BodyM Unit) :=
        fun i f => forM_map ..
      simp only [houtputs]
      have hstore : C.Moves ([Fact.issued v] ++ g) ⟨owed, flow, some .opened⟩
        ⟨owed, flow, some .opened⟩ fun i =>
          E.outputs.forM fun output => Emit.storeOutput (v i) (output.on i) :=
        .forM fun output houtput => storeOutput (by simp) (fun x hx => mem_append_right _
          (hfacts x (mem_append_left _ (mem_flatMap.2 ⟨output, houtput, hx⟩)))) owed flow
      exact .bind hstore fun _ => hreturn

/-! ### Constructs -/

omit hE in
lemma emitPart {target : Ids ι} (hlabel : Attested g label) (htarget : Attested g target)
    (hpart : C.Steady g part) :
    C.Moves g ⟨label :: owed, flow, some .closed⟩ ⟨owed, flow, some .closed⟩ fun i =>
      Emit.emitPart (label i) (target i) (part i) :=
  .bind (startBlock (.inr rfl) hlabel) fun _ => .bind (hpart.goes _ _) fun _ => closeTo htarget

/-- Selections are emitted alike if their branches are. -/
lemma goes_emitSelection (condition : Handle .expression) (reject : Option (ι → BodyM Unit))
    (haccept : C.Steady g accept) (hreject : ∀ part, reject = some part → C.Steady g part) :
    C.Goes g fun i => Emit.emitSelection (E.on i) condition (accept i) (reject.map (· i)) := by
  intro owed flow
  refine .begun (o := fun _ => .opened) ?_ (by simp)
  refine .bind (expression hE _) fun c => .bind newId fun merge => .bind newId fun acceptLabel => ?_
  have henter : ∀ {g owed o}, Attested g merge → C.Moves g ⟨owed, flow, o⟩
      ⟨owed, ⟨merge, none, .selection⟩ :: flow, o⟩ fun i =>
      Emit.enter (·.pushSelection (merge i)) := fun hmerge =>
    enter hmerge (by rintro _ ⟨⟩) fun _ => rfl
  cases reject with
  | none =>
    -- without a second part, control goes on to the merge block
    have hmerge : C.Computes ([Fact.issued acceptLabel] ++
        ([Fact.issued merge] ++ ([Fact.issued c] ++ g))) (acceptLabel :: merge :: owed) flow
        fun i => pure (merge i) := .pure (r := merge) (by simp)
    refine .bind hmerge fun rejectLabel => ?_
    refine .bind (emit .selectionMerge [.id merge, .word 0] rfl rfl (by simp) fun _ => .short rfl)
      fun _ => ?_
    refine .bind (terminateBlock .branchConditional [.id c, .id acceptLabel,
      .id rejectLabel] rfl (by simp) fun _ => .short rfl) fun _ =>
      .bind (henter (by simp)) fun _ => ?_
    refine .bind (emitPart (by simp) (by simp) (haccept.mono fun x hx => by simp [hx])) fun _ => ?_
    exact .bind leave fun _ => startBlock (.inr rfl) (by simp)
  | some part =>
    refine .bind newId fun rejectLabel => ?_
    refine .bind (emit .selectionMerge [.id merge, .word 0] rfl rfl (by simp) fun _ => .short rfl)
      fun _ => ?_
    refine .bind (terminateBlock .branchConditional [.id c, .id acceptLabel,
      .id rejectLabel] rfl (by simp) fun _ => .short rfl) fun _ =>
      .bind (henter (by simp)) fun _ => ?_
    refine .perm (acceptLabel :: rejectLabel :: merge :: owed) ?_ (.swap _ _ _)
    refine .bind (emitPart (by simp) (by simp) (haccept.mono fun x hx => by simp [hx])) fun _ => ?_
    refine .bind (emitPart (by simp) (by simp) ((hreject part rfl).mono fun x hx => by simp [hx]))
      fun _ => ?_
    exact .bind leave fun _ => startBlock (.inr rfl) (by simp)

lemma emitBackEdge {header : Ids ι} (hheader : Attested g header) (hmerge : Attested g merge)
    (breakIf : Option (Handle .expression)) :
    C.Moves g ⟨owed, flow, some .begun⟩ ⟨owed, flow, some .closed⟩ fun i =>
      Emit.emitBackEdge (E.on i) (header i) (merge i) breakIf := by
  refine .bind C.openLabel fun r => ?_
  cases r with
  | none => exact .pure (r := ()) (forall_mem_nil _)
  | some label =>
    cases breakIf with
    | none => exact branchTo (by simp [hheader])
    | some condition =>
      exact .bind (expression hE _) fun c =>
        terminateBlock .branchConditional [.id c, .id merge, .id header] rfl
          (by simp [hheader, hmerge]) fun _ => .short rfl

lemma goes_emitLoop {inner : ι → BodyM Unit} (hbody : C.Steady g inner)
    (hcontinuing : C.Steady g continuing) (breakIf : Option (Handle .expression)) :
    C.Goes g fun i => Emit.emitLoop (E.on i) (inner i) (continuing i) breakIf := by
  intro owed flow
  refine .begun (o := fun _ => .opened) ?_ (by simp)
  refine .bind newId fun header => .bind newId fun bodyLabel => .bind newId fun continueLabel =>
    .bind newId fun merge => .bind (branchTo (by simp)) fun _ => ?_
  refine .perm (header :: bodyLabel :: continueLabel :: merge :: owed) ?_ ?_
  · refine .bind (startBlock (.inr rfl) (by simp)) fun _ => ?_
    refine .bind (emit .loopMerge [.id merge, .id continueLabel, .word 0] rfl rfl (by simp)
      fun _ => .short rfl) fun _ => .bind (branchTo (by simp)) fun _ => ?_
    refine .bind (enter (f := ⟨merge, some continueLabel, .loop⟩) (by simp)
      (fun a ha => .inl ?_) fun _ => rfl) fun _ => ?_
    · cases ha
      simp
    · refine .bind (emitPart (by simp) (by simp) (hbody.mono fun x hx => by simp [hx])) fun _ => ?_
      refine .bind (startBlock (.inr rfl) (by simp)) fun _ => ?_
      refine .bind ((hcontinuing.goes _ _).mono fun x hx => by simp [hx]) fun _ => ?_
      refine .bind (emitBackEdge hE (by simp) (by simp) breakIf) fun _ => ?_
      exact .bind leave fun _ => startBlock (.inr rfl) (by simp)
  · exact (reverse_perm [header, bodyLabel, continueLabel, merge]).append_right owed

omit hE in
lemma newLabels (xs : List α) {next : ι → List Id → BodyM β}
      (h : ∀ labels : List (Ids ι), labels.length = xs.length →
      Sim C.body (labels.map .issued ++ g) on ⟨labels ++ owed, flow, o⟩ t k fun i => next i
      (labels.map (· i))) :
    Sim C.body g on ⟨owed, flow, o⟩ t k fun i =>
      (xs.mapM fun _ => (liftM Assembly.freshId : BodyM Id)) >>= next i := by
  induction xs generalizing g owed next with
  | nil => exact h [] rfl
  | cons x xs ih =>
    simp only [mapM_cons, bind_assoc, pure_bind]
    refine .bind newId fun label => ih fun labels hlength => ?_
    refine .perm (label :: labels ++ owed) ?_ perm_middle
    refine (h (label :: labels) (congrArg (· + 1) hlength)).mono fun x hx => ?_
    simp only [map_cons, cons_append, mem_cons, mem_append, not_mem_nil] at hx ⊢
    tauto

lemma switchValue (selector : Handle .expression) :
    C.Computes g owed flow fun i => Emit.switchValue (E.on i) selector := by
  refine expressionShape hE.akin fun shape _ => .bind (expression hE _) fun value => ?_
  cases shape with
  | pointer base space =>
    exact .bind (.lift (C.typeId hE.akin)) fun type => emitResult [.id value] rfl
      (by simp) (by simp) fun _ => .inr (Nat.le_of_ble_eq_true rfl)
  | _ => exact .pure (by simp)

/-- The selectors of the cases of a switch, each followed by the label of its case. -/
def switchTerms (cases : List SwitchCase) (labels : List (Ids ι)) : List (Term ι) :=
  (cases.zip labels).flatMap fun (c, label) =>
    (c.values.filterMap fun v => v.word?).flatMap fun word => [.word word, .id label]

omit [Inhabited ι] hE in
lemma switchTerms_on (cases : List SwitchCase) (labels : List (Ids ι)) (i : ι) :
    ((cases.zip (labels.map (· i))).flatMap fun (c, label) => caseTargets c label) =
      (switchTerms cases labels).map (Term.on i) := by
  rw [switchTerms, zip_map_right, flatMap_map, map_flatMap]
  refine flatMap_congr fun ⟨c, label⟩ _ => ?_
  show caseTargets c (label i) = _
  unfold caseTargets
  rw [map_flatMap]
  rfl

omit [Inhabited ι] hE in
lemma covered_switchTerms {labels : List (Ids ι)} (h : ∀ a ∈ labels, Attested g a)
    (cases : List SwitchCase) :
    Covered g (switchTerms cases labels) := by
  intro a ha
  obtain ⟨⟨c, label⟩, hmem, ha⟩ := mem_flatMap.1 ha
  obtain ⟨word, -, ha⟩ := mem_flatMap.1 ha
  simp only [mem_cons, reduceCtorEq, Term.id.injEq, not_mem_nil, or_false, false_or] at ha
  exact ha ▸ h label (of_mem_zip hmem).2

/-- The label of the first default case. -/
def defaultOf (cases : List SwitchCase) (labels : List (Ids ι)) : Option (Ids ι) :=
  ((cases.zip labels).find? fun (c, _) => c.isDefault).map Prod.snd

omit [Inhabited ι] hE in
lemma defaultLabel?_on (cases : List SwitchCase) (labels : List (Ids ι)) (i : ι) :
    defaultLabel? cases (labels.map (· i)) = (defaultOf cases labels).map (· i) := by
  unfold defaultLabel? defaultOf
  rw [zip_map_right, find?_map, Option.map_map, Option.map_map]
  rfl

omit [Inhabited ι] hE in
lemma mem_of_defaultOf {labels : List (Ids ι)} (h : defaultOf cases labels = some label) :
    label ∈ labels := by
  obtain ⟨⟨c, l⟩, hfind, rfl⟩ := Option.map_eq_some_iff.1 h
  exact (of_mem_zip (mem_of_find?_eq_some hfind)).2

omit hE in
lemma emitFallback (hmerge : Attested g merge) (fallback : Option (Ids ι))
    (hfallback : ∀ label, fallback = some label → Attested g label) :
    C.Moves g ⟨fallback.toList ++ owed, flow, some .closed⟩ ⟨owed, flow, some .closed⟩ fun i =>
      Emit.emitFallback (merge i) (fallback.map (· i)) := by
  cases fallback with
  | none => exact .pure (r := ()) (forall_mem_nil _)
  | some label =>
    exact .bind (startBlock (.inr rfl) (hfallback label rfl)) fun _ => branchTo (by simp [hmerge])

/-- Switches are emitted alike if their cases are. -/
lemma goes_emitSwitch (selector : Handle .expression)
    (cases : List SwitchCase) {parts : ι → Id → List Id → BodyM Unit}
    (hparts : ∀ (g' : List (Fact (Ids ι))) merge labels owed flow, (∀ x ∈ g, x ∈ g') →
      labels.length = cases.length → Attested g' merge → (∀ a ∈ labels, Attested g' a) →
      C.Moves g' ⟨labels ++ owed, flow, some .closed⟩ ⟨owed, flow, some .closed⟩ fun i =>
        parts i (merge i) (labels.map (· i))) : C.Goes g fun i => Emit.emitSwitch (E.on i) selector
          cases (parts i) := by
  intro owed flow
  refine .begun (o := fun _ => .opened) ?_ (by simp)
  refine .bind (switchValue hE selector) fun value => .bind newId fun merge =>
    newLabels cases fun labels hlength => ?_
  -- where no case is the default, a block is added for it
  have hrest : ∀ g' (default : Ids ι) fallback, (∀ x ∈ g, x ∈ g') → Attested g' value →
      Attested g' merge → Attested g' default → (∀ a, fallback = some a → Attested g' a) →
      (∀ a ∈ labels, Attested g' a) → C.Moves g' ⟨fallback.toList ++ (labels ++ merge :: owed),
      flow, some .opened⟩ ⟨owed, flow, some .opened⟩ (fun i => do
        Emit.emit (.selectionMerge (merge i))
        Emit.terminate ⟨.switch, .id (value i) :: .id (default i) ::
          (cases.zip (labels.map (· i))).flatMap fun (c, label) => caseTargets c label⟩
        Emit.enter (·.pushSwitch (merge i))
        parts i (merge i) (labels.map (· i))
        Emit.emitFallback (merge i) (fallback.map (· i))
        Emit.leave
        Emit.beginBlock (merge i)) := by
    intro g' default fallback hg hvalue hmerge hdefault hfallback hlabels
    simp only [switchTerms_on]
    refine .bind (emit .selectionMerge [.id merge, .word 0] rfl rfl (by simp [hmerge]) fun _ =>
      .short rfl) fun _ => ?_
    refine .bind (terminateBlock .switch (.id value :: .id default :: switchTerms cases labels) rfl
      ?_ fun _ => .inl rfl) fun _ => ?_
    · simp only [covered_id_cons]
      exact ⟨hvalue, hdefault, covered_switchTerms hlabels cases⟩
    · refine .bind (enter (f := ⟨merge, continuingOf flow, .switch⟩) hmerge
        (fun a ha => .inr (mem_of_continuingOf ha)) fun i => ?_) fun _ => ?_
      · unfold ControlStack.pushSwitch
        rw [continuing_on]
        rfl
      · refine .perm (labels ++ (fallback.toList ++ merge :: owed)) ?_ ?_
        · refine .bind (hparts _ _ _ _ _ hg hlength hmerge hlabels) fun _ => ?_
          refine .bind (emitFallback hmerge fallback hfallback) fun _ => ?_
          exact .bind leave fun _ => startBlock (.inr rfl) hmerge
        · rw [← append_assoc, ← append_assoc]
          exact perm_append_comm.append_right _
  simp only [defaultLabel?_on]
  cases hdefault : defaultOf cases labels with
  | some label =>
    refine hrest _ label none (fun x hx => by simp [hx]) (by simp) (by simp) ?_ (by rintro _ ⟨⟩)
      fun u hu => by simp [hu]
    simp [mem_of_defaultOf hdefault]
  | none =>
    refine .bind newId fun label => hrest _ label (some label) (fun x hx => by simp [hx]) (by simp)
      (by simp) (by simp) ?_ fun u hu => by simp [hu]
    rintro _ ⟨⟩
    simp

/-! ### All statements -/

omit hE

mutual

/-- Statements are emitted alike: one case per statement. -/
lemma steady_statement (hE : E.Runs C) (hfacts : ∀ x ∈ E.facts, x ∈ g) :
    ∀ s, C.Steady g fun i => Emit.statement (E.on i) s
  | .emit _ => (works_emitRun hE _ _).goes.steady
  | .block body => (steady_statements hE hfacts body).goes.steady
  | .store pointer value => (works_emitStore hE pointer value).goes.steady
  | .ifElse condition accept [] =>
    (goes_emitSelection hE condition none (steady_statements hE hfacts accept)
      (by rintro _ ⟨⟩)).steady
  | .ifElse condition accept (s :: reject) =>
    (goes_emitSelection hE condition (some fun i => Emit.statements (E.on i) (s :: reject))
      (steady_statements hE hfacts accept) fun _ hpart => Option.some.inj hpart ▸
        steady_statements hE hfacts (s :: reject)).steady
  | .switch selector cases =>
    (goes_emitSwitch hE selector cases fun _ _ labels _ _ hg hlength hmerge hlabels =>
      switchCases hE hfacts cases hg hmerge labels hlabels hlength).steady
  | .loop body continuing breakIf =>
    (goes_emitLoop hE (steady_statements hE hfacts body) (steady_statements hE hfacts continuing)
      breakIf).steady
  | .call function arguments result => (works_emitCall hE function arguments result).goes.steady
  | .atomic pointer function value result =>
    (works_emitAtomic hE pointer function value result).goes.steady
  | .break => goes_break.steady
  | .continue => goes_continue.steady
  | .return value => (goes_emitReturn hE hfacts value).steady
  | .kill => Goes.steady fun _ _ =>
    .begun (o := fun _ => .closed) (terminateBlock .kill [] rfl (by simp) fun _ =>
      .short rfl) (by simp)
  | .barrier b => (works_emitBarrier b).goes.steady

lemma steady_statements (hE : E.Runs C) (hfacts : ∀ x ∈ E.facts, x ∈ g) :
    ∀ body, C.Steady g fun i => Emit.statements (E.on i) body
  | [] => fun _ _ => .pure (r := ()) (forall_mem_nil _)
  | s :: rest => fun owed flow =>
    .bind (steady_statement hE hfacts s owed flow) fun _ => steady_statements hE
      hfacts rest owed flow

lemma switchCases (hE : E.Runs C) (hfacts : ∀ x ∈ E.facts, x ∈ g) :
    ∀ cases {g'} {merge : Ids ι} {owed flow}, (∀ x ∈ g, x ∈ g') → Attested g' merge →
    ∀ labels : List (Ids ι), (∀ a ∈ labels, Attested g' a) → labels.length = cases.length →
    C.Moves g' ⟨labels ++ owed, flow, some .closed⟩ ⟨owed, flow, some .closed⟩ fun i =>
      Emit.switchCases (E.on i) (merge i) cases (labels.map (· i))
  | [], _, _, _, _, _, _, [], _, _ => .pure (r := ()) (forall_mem_nil _)
  | c :: rest, _, _, _, _, hg, hmerge, _ :: labels, hlabels, hlength =>
    .bind (emitPart (forall_mem_cons.1 hlabels).1 hmerge ((steady_switchCase hE hfacts c).mono hg))
      fun _ => switchCases hE hfacts rest hg hmerge labels (forall_mem_cons.1 hlabels).2
        (Nat.succ.inj hlength)

lemma steady_switchCase (hE : E.Runs C) (hfacts : ∀ x ∈ E.facts, x ∈ g) :
    ∀ c, C.Steady g fun i => Emit.switchCase (E.on i) c
  | ⟨_, body⟩ => steady_statements hE hfacts body

end

end

end Correspondence

end Shader.Emit
