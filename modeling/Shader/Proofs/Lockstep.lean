import Shader.Proofs.Correspondence

/-!
# Expressions

Emissions that correspond compute expressions alike (`Correspondence.expression`).  Every step is
taken in a phase that allows it: an expression is computed in an open block, and leaves one open.
-/

namespace Shader.Emit

open List Assembly Link
open IR (Expression Literal Scalar ScalarKind TypeShape BinaryOp UnaryOp MathFunction VectorSize)

variable {shape : TypeShape} {left right rank : Rank} {operation : BinaryOperation} {op : BinaryOp}
    {scalar : Scalar}

/-! ### Tables of operations -/

/-- A scalar is made a vector only where the other operand is one. -/
def Arrangement.Fits (left right : TypeShape) : Arrangement → Prop
  | splatLeft => left.scalar?.isSome ∧ right.vectorSize?.isSome
  | splatRight => right.scalar?.isSome ∧ left.vectorSize?.isSome
  | normal | swapped => True

lemma componentwise?_eq_some (h : componentwise? left right = some a) :
    (a = .splatLeft → left = .scalar ∧ right = .vector) ∧
      (a = .splatRight → left = .vector ∧ right = .scalar) := by
  cases left <;> cases right <;> cases h <;> simp

lemma arrangement_sameRank? (h : sameRank? left right opcode = some operation) :
    operation.arrangement = .normal := by
  unfold sameRank? at h
  split at h
  · obtain ⟨_, -, rfl⟩ := Option.map_eq_some_iff.1 h
    rfl
  · cases h

lemma arrangement_binaryOperation? (h : binaryOperation? op left right kind = some operation) :
    operation.arrangement = .normal ∨ operation.arrangement = .swapped ∨
      componentwise? left right = some operation.arrangement := by
  cases op with
  | add | subtract | divide | modulo =>
    obtain ⟨opcode, -, h⟩ := Option.bind_eq_some_iff.1 h
    obtain ⟨arrangement, harrangement, h⟩ := Option.bind_eq_some_iff.1 h
    cases h
    exact .inr (.inr harrangement)
  | multiply =>
    cases kind with
    | float =>
      cases h
      cases left <;> cases right <;> simp [floatProduct]
    | sint | uint =>
      obtain ⟨arrangement, harrangement, rfl⟩ := Option.map_eq_some_iff.1 h
      exact .inr (.inr harrangement)
    | bool => cases h
  | equal | notEqual | less | lessEqual | greater | greaterEqual | bitwiseAnd | bitwiseOr |
    bitwiseXor | shiftLeft | shiftRight =>
    exact .inl (arrangement_sameRank? h)
  | logicalAnd | logicalOr => cases h

lemma operandRank_eq_ok (h : operandRank shape = .ok (rank, scalar)) :
    shape.scalar?.isSome ∧ (rank = .vector → shape.vectorSize?.isSome) := by
  cases shape <;> cases h <;> simp [TypeShape.scalar?, TypeShape.vectorSize?]

lemma fits_binaryOperation {left right : TypeShape}
    (h : binaryOperation op left right = .ok operation) :
    operation.arrangement.Fits left right := by
  obtain ⟨⟨leftRank, scalar⟩, hleft, h⟩ := except_bind_eq_ok.1 h
  obtain ⟨⟨rightRank, _⟩, hright, h⟩ := except_bind_eq_ok.1 h
  have hl := operandRank_eq_ok hleft
  have hr := operandRank_eq_ok hright
  dsimp only at h
  split at h
  · cases h
  · split at h
    case h_1 found hfound =>
      obtain rfl := Except.ok.inj h
      rcases arrangement_binaryOperation? hfound with ha | ha | ha
      · rw [ha]
        trivial
      · rw [ha]
        trivial
      · obtain ⟨hsl, hsr⟩ := componentwise?_eq_some ha
        cases harrangement : found.arrangement with
        | normal => trivial
        | swapped => trivial
        | splatLeft => exact ⟨hl.1, hr.2 (hsl harrangement).2⟩
        | splatRight => exact ⟨hr.1, hl.2 (hsr harrangement).1⟩
    case h_2 => cases h

variable {ι α ρ β ρ' : Type} [Inhabited ι] {m : IR.Module} {options : Options}
    {R : Regime m options}

/-! ### What can be read without asking for ids -/

namespace Link.Sim

variable {L : Link ι R} {g : List (Fact (Ids ι))} {on : ρ → ι → β} {s : Phase ι} {t : ρ → Phase ι}
  {k : ρ → List (Fact (Ids ι))}

lemma ask {x : ι → Except IR.Error α} {next : ι → α → EmitM β} (hx : ∀ i, x i = x default)
    (h : ∀ a, x default = .ok a → Sim L.emission g on s t k fun i => next i a) :
    Sim L.emission g on s t k fun i => liftM (x i) >>= next i := by
  cases hrun : x default with
  | ok a =>
    simp only [fun i => (hx i).trans hrun]
    exact h a hrun
  | error error =>
    simp only [fun i => (hx i).trans hrun]
    have hfault : (Fault.malformed error).isStructural = false := rfl
    exact fun _ => Sim.throw (L.alike hfault (by rintro ⟨⟩)) _

lemma askInside {x : ι → Except IR.Error α} {next : ι → α → BodyM β} (hx : ∀ i, x i = x default)
    (h : ∀ a, x default = .ok a → Sim L.body g on s t k fun i => next i a) :
    Sim L.body g on s t k fun i => liftM (x i) >>= next i := by
  cases hrun : x default with
  | ok a =>
    simp only [fun i => (hx i).trans hrun]
    exact h a hrun
  | error error =>
    simp only [fun i => (hx i).trans hrun]
    have hfault : (Fault.malformed error).isStructural = false := rfl
    exact fun _ => Sim.throw (L.alike hfault (by rintro ⟨⟩)) _

omit [Inhabited ι] in
lemma consult {x : Except Fault α} {next : ι → α → BodyM β} (hx : Supported x)
    (h : ∀ a, x = .ok a → Sim L.body g on s t k fun i => next i a) :
    Sim L.body g on s t k fun i => liftM x >>= next i := by
  cases hx with
  | ok a => exact h a rfl
  | unsupported what =>
    have hfail : Sim L.body g on s t k fun _ => throw (.unsupported what) :=
      .fail rfl (by rintro ⟨⟩)
    exact fun p => hfail p

omit [Inhabited ι] in
lemma lift_bind {act : ι → DeclareM α} {next : ι → α → DeclareM β} {on : ρ → ι → α}
    {on' : ρ' → ι → β}
    {t : ρ → Phase ι} {t' : ρ' → Phase ι} {k : ρ → List (Fact (Ids ι))}
    {l : ρ' → List (Fact (Ids ι))}
    (h : Sim L.emission g on s t k fun i => (liftM (act i) : EmitM α))
    (h' : ∀ r, Sim L.emission (k r ++ g) on' (t r) t' l fun i =>
      (liftM (next i (on r i)) : EmitM β)) :
    Sim L.emission g on' s t' l fun i => (liftM (act i >>= next i) : EmitM β) :=
  show Sim L.emission g on' s t' l fun i => (liftM (act i) : EmitM α) >>= fun a =>
    liftM (next i a) from .bind h h'

end Link.Sim

omit [Inhabited ι] in
lemma Link.Knows.attested {L : Link ι R} (hrel : L.Rel owed o p) (hg : L.Knows p g)
    (h : Attested g a) :
    L.Holds p (.issued a) := h.elim (hg _) fun h => L.issued hrel (hg _ h)

/-- The environments of a function agree. -/
structure Locale.Runs (C : Correspondence ι R) (E : Locale ι) : Prop where
  akin : C.Akin E.env
  descends : C.Descends E.function.Refers fun i => (E.env i).depth

section

variable {C : Correspondence ι R} {env : ι → Env} {E : Locale ι} (hE : C.Akin E.env) (i : ι)
  (h : Handle .expression)

lemma shapeAt_congr (henv : C.Akin env) (type : Handle .type) (i : ι) :
    shapeAt (env i) type = shapeAt (env default) type := by
  unfold shapeAt IR.Module.typeAt
  rw [C.akin_types henv]

include hE

lemma expressionShape_congr : expressionShape (E.on i) h = expressionShape (E.on default) h := by
  have hshape : shapeAt (E.on i).toEnv = shapeAt (E.on default).toEnv :=
    funext fun type => shapeAt_congr hE type i
  unfold expressionShape
  rw [hshape]
  rfl

lemma pointsToAtomic_congr : pointsToAtomic (E.on i) h = pointsToAtomic (E.on default) h := by
  have hshape : shapeAt (E.on i).toEnv = shapeAt (E.on default).toEnv :=
    funext fun type => shapeAt_congr hE type i
  unfold pointsToAtomic
  rw [expressionShape_congr hE, hshape]

lemma constantIndex?_congr : constantIndex? (E.on i) h = constantIndex? (E.on default) h := by
  have hconstants : (E.on i).module.constants = (E.on default).module.constants :=
    C.akin_constants hE i
  unfold constantIndex?
  rw [hconstants]
  rfl

end

namespace Correspondence

variable {C : Correspondence ι R} {g : List (Fact (Ids ι))} {s : Phase ι} {owed : List (Ids ι)}
  {flow : List (Around ι)} {a type : Ids ι}

/-! ### Constants -/

lemma literalConstant (literal : Literal) :
    C.Provides g s fun _ => (liftM (literalConstant literal) : EmitM Id) := by
  refine .lift_bind (C.scalarType (Law.narrow_literal literal)) fun t => C.constant (by simp) ?_
  cases literal <;> rintro _ ⟨⟩

lemma indexConstant (value : UInt32) :
    C.Provides g s fun _ => (liftM (indexConstant value) : EmitM Id) := by
  refine .lift_bind (C.scalarType (Law.narrow_of_kind (by rintro ⟨⟩))) fun t =>
    C.constant (by simp) ?_
  split <;> rintro _ ⟨⟩

lemma nullConstant (ht : .global type ∈ g) :
    C.Provides g s fun i => (liftM (nullConstant (type i)) : EmitM Id) := C.constant ht nofun

/-! ### Emitting into the open block -/

lemma newId {o : Option Openness} :
    Sim C.body g (fun a => a) ⟨owed, flow, o⟩ (fun a => ⟨a :: owed, flow, o⟩)
    ([.issued ·]) fun _ => (liftM Assembly.freshId : BodyM Id) := .lift C.freshId

lemma emit (op : Opcode) (terms : List (Term ι)) (hop : Opcode.resultless.contains op)
    (hterminator : op.isTerminator = false) (hterms : Covered g terms)
    (hregular : ∀ i, Instruction.Regular ⟨op, terms.map (Term.on i)⟩) :
    C.Moves g ⟨owed, flow, some .opened⟩ ⟨owed, flow, some .opened⟩ fun i =>
      Emit.emit ⟨op, terms.map (Term.on i)⟩ := .lift (C.push hop hterminator hterms hregular)

lemma emitFor {id : Ids ι} (op : Opcode) (terms : List (Term ι)) (hop : op.isTyped)
    (ht : Attested g type) (hid : Attested g id) (hterms : Covered g terms)
    (hregular : ∀ i, (Instruction.result op (type i) (id i) (terms.map (Term.on i))).Regular) :
    C.Moves g ⟨id :: owed, flow, some .opened⟩ ⟨owed, flow, some .opened⟩ fun i =>
      Emit.emit (.result op (type i) (id i) (terms.map (Term.on i))) :=
  .lift (C.pushResult hop ht hid hterms hregular)

lemma terminateBlock (op : Opcode) (terms : List (Term ι)) (hop : Opcode.resultless.contains op)
    (hterms : Covered g terms) (hregular : ∀ i, Instruction.Regular ⟨op, terms.map (Term.on i)⟩) :
    C.Moves g ⟨owed, flow, some .opened⟩ ⟨owed, flow, some .closed⟩ fun i =>
      Emit.terminate ⟨op, terms.map (Term.on i)⟩ := .lift (C.terminate hop hterms hregular)

lemma startBlock (ho : o = .blank ∨ o = .closed) (h : Attested g a) :
    C.Moves g ⟨a :: owed, flow, some o⟩ ⟨owed, flow, some .opened⟩ fun i => Emit.beginBlock (a i) :=
  .lift (C.beginBlock ho h)

lemma emitResult {op : Opcode} (terms : List (Term ι)) (hop : op.isTyped) (ht : Attested g type)
    (hterms : Covered g terms)
    (hlength : ∀ i, op.isOpenEnded = true ∨ ((terms.map (Term.on i)).map Operand.wordCount).sum ≤
      9) :
    C.Computes g owed flow fun i => Emit.emitResult op (type i) (terms.map (Term.on i)) := by
  refine .bind newId fun id => .bind (emitFor op terms hop (ht.append _) (by simp)
    (hterms.append _) fun i => ?_) fun _ => .pure (by simp)
  refine (hlength i).imp (fun h => h) fun h => ?_
  show 1 + (1 + (1 + ((terms.map (Term.on i)).map Operand.wordCount).sum)) ≤ 12
  omega

lemma emitOnIds {op : Opcode} (ids : List (Ids ι)) (hop : op.isTyped) (ht : Attested g type)
    (hids : ∀ a ∈ ids, Attested g a) (hlength : op.isOpenEnded = true ∨ ids.length ≤ 9) :
    C.Computes g owed flow fun i => Emit.emitResult op (type i) (Operand.ids (ids.map (· i))) := by
  simp only [ids_on]
  refine emitResult _ hop ht (covered_map_id.2 hids) fun i => hlength.imp id fun h => ?_
  rw [← ids_on, Operand.wordCount_ids, length_map]
  exact h

/-! ### Composites -/

lemma compositeOf (parts : List (Ids ι)) (ht : .global type ∈ g)
    (hparts : ∀ a ∈ parts, Attested g a) :
    C.Computes g owed flow fun i => Emit.composite (type i) (parts.map (· i)) := by
  intro σ hσ hg
  have hrel : C.Rel _ _ fun i => (σ i).progress := BodiesAgree.rel hσ
  have hissued : ∀ a ∈ parts, C.Holds (fun i => (σ i).progress) (.issued a) := fun a ha =>
    hg.attested hrel (hparts a ha)
  have hall : ∀ i, (parts.map (· i)).all (σ i).progress.assembly.isConstant =
      (parts.map (· default)).all (σ default).progress.assembly.isConstant := fun i => by
    rw [Bool.eq_iff_iff]
    simp only [all_map, all_eq_true, Function.comp_apply]
    exact forall₂_congr fun a ha => by rw [C.isConstant hrel (hissued a ha) i]
  by_cases hconstant : (parts.map (· default)).all (σ default).progress.assembly.isConstant
  · have hparts' : ∀ a ∈ parts, (σ default).progress.assembly.isConstant (a default) := fun a ha =>
      all_eq_true.1 hconstant _ (mem_map.2 ⟨a, ha, rfl⟩)
    have hknown : C.Knows (fun i => (σ i).progress) (parts.map .global ++ g) := by
      refine .append (fun x hx => ?_) hg
      obtain ⟨a, ha, rfl⟩ := mem_map.1 hx
      exact C.recorded hrel (hissued a ha) (hparts' a ha)
    have hrun : Ensues C.body (fun a => a) (fun _ => ⟨owed, flow, some .opened⟩) ([.global ·])
        (fun i => (liftM (liftM (Assembly.constant (type i) (.composite (parts.map (· i)))) :
        EmitM Id) : BodyM Id)) σ :=
      .lift hσ (C.composite parts hrel hknown (mem_append_right _ ht) fun a ha =>
        ⟨mem_append_left _ (mem_map.2 ⟨a, ha, rfl⟩), hparts' a ha⟩) fun _ => rfl
    exact (hrun.issued (by simp)).congr fun i =>
      congrFun (if_pos ((hall i).trans hconstant) : (if _ then _ else _ : BodyM Id) = _) (σ i)
  · have hemit : C.Computes g owed flow fun i => Emit.emitResult .compositeConstruct (type i)
        (Operand.ids (parts.map (· i))) := emitOnIds parts rfl (.inr ht) hparts (.inl rfl)
    exact (hemit σ hσ hg).congr fun i => congrFun (if_neg fun h =>
      hconstant ((hall i).symm.trans h) : (if _ then _ else _ : BodyM Id) = _) (σ i)

omit [Inhabited ι] in
lemma replicate_on (n : Nat) (a : Ids ι) (i : ι) : replicate n (a i) = (replicate n a).map (· i) :=
  (map_replicate (f := fun b : Ids ι => b i)).symm

lemma compositeOfOne (n : Nat) (ht : .global type ∈ g) (h : Attested g a) :
    C.Computes g owed flow fun i => Emit.composite (type i) (replicate n (a i)) := by
  simp only [replicate_on n a]
  refine compositeOf _ ht fun b hb => ?_
  rw [eq_of_mem_replicate hb]
  exact h

lemma splat (h : Attested g a) (hscalar : R.Narrow scalar) (size : VectorSize) :
    C.Computes g owed flow fun i => Emit.splat (a i) scalar size :=
  .bind (.lift (C.vectorType _ hscalar)) fun t => compositeOfOne _ (by simp) (h.append _)

lemma splatOperand {scalar : TypeShape} (h : Attested g a)
    (hnarrow : ∀ s, scalar.scalar? = some s → R.Narrow s)
    (hscalar : scalar.scalar?.isSome) (hvector : vector.vectorSize?.isSome) :
    C.Computes g owed flow fun i => Emit.splatOperand (a i) scalar vector := by
  obtain ⟨s, hs⟩ := Option.isSome_iff_exists.1 hscalar
  obtain ⟨size, hsize⟩ := Option.isSome_iff_exists.1 hvector
  simp only [Emit.splatOperand, hs, hsize]
  exact splat h (hnarrow s hs) size

/-! ### References -/

lemma argumentValue (index : UInt32) :
    C.Computes g owed flow fun _ => Emit.argumentValue index := by
  refine .read fun σ hσ _ => ?_
  obtain ⟨r, hr, hknown⟩ := BodiesAgree.arguments hσ |>.getElem? index.toNat
  simp only [hr]
  cases r with
  | some id => exact ⟨_, hknown id rfl, .pure (by simp)⟩
  | none => exact ⟨[], .nil, .fail rfl (by rintro ⟨⟩)⟩

lemma localPointer (h : Handle .localVariable) :
    C.Computes g owed flow fun _ => Emit.localPointer h := by
  refine .read fun σ hσ _ => ?_
  obtain ⟨r, hr, hknown⟩ := BodiesAgree.locals hσ |>.getElem? h.index
  simp only [hr]
  cases r with
  | some id => exact ⟨_, hknown id rfl, .pure (by simp)⟩
  | none => exact ⟨[], .nil, .fail rfl (by rintro ⟨⟩)⟩

lemma globalPointer (h : Handle .globalVariable) :
    C.Computes g owed flow fun _ => Emit.globalPointer h := by
  refine .read fun σ hσ _ => ?_
  obtain ⟨r, hr, hknown⟩ := BodiesAgree.contents hσ |>.getElem? h.index
  obtain ⟨place, hplace, hplaced⟩ := C.globals (BodiesAgree.rel hσ) |>.getElem? h.index
  simp only [Array.getD_eq_getD_getElem?, hr, hplace]
  -- without a pointer to its contents, the variable itself is what is pointed at
  have hglobal : ∀ v, place = some v → ∃ g', C.Knows (fun i => C.body.look (σ i)) g' ∧
      C.Computes (g' ++ g) owed flow fun i => pure (v.id i) := fun v hv =>
    ⟨[.issued v.id], forall_mem_singleton.2 (C.issued (BodiesAgree.rel hσ)
      (hplaced v hv _ mem_cons_self)), .pure (r := v.id) (by simp)⟩
  have hnone : ∃ g', C.Knows (fun i => C.body.look (σ i)) g' ∧ C.Computes (g' ++ g)
    owed flow fun _ =>
      throw (.inconsistent (.undeclaredGlobal h)) := ⟨[], .nil, .fail rfl (by rintro ⟨⟩)⟩
  obtain - | - | id := r
  · cases place with
    | none => exact hnone
    | some v => exact hglobal v rfl
  · cases place with
    | none => exact hnone
    | some v => exact hglobal v rfl
  · exact ⟨_, hknown _ rfl, .pure (r := id) (by simp)⟩

/-! ### Memory and parts of composites -/

/-- The operand is computed alike. -/
structure Serves (C : Correspondence ι R) (operand : ι → Handle .expression → BodyM Id)
    (h : Handle .expression) : Prop where
  computes : ∀ {g owed flow}, C.Computes g owed flow fun i => operand i h

section

variable {E : Locale ι} (hE : C.Akin E.env) {operand : ι → Handle .expression → BodyM Id}
  {h base value pointer index vector condition accept reject arg : Handle .expression}

lemma atomicOperands :
    Sim C.body g (fun (r : Ids ι × Ids ι) i => (r.1 i, r.2 i)) ⟨owed, flow, some .opened⟩
      (fun _ => ⟨owed, flow, some .opened⟩) (fun r => [.issued r.1, .issued r.2]) fun _ =>
    Emit.atomicOperands :=
  .issued (k := fun r => [.global r.1, .global r.2]) (.bind (.lift (indexConstant _)) fun scope =>
    .bind (.lift (indexConstant _)) fun semantics => .pure (r := (scope, semantics)) (by simp))
      (by simp)

include hE

lemma expressionShape {next : ι → TypeShape → BodyM α}
    (hnext : ∀ shape, Emit.expressionShape (E.on default) h = .ok shape →
      Sim C.body g on s t k fun i => next i shape) :
    Sim C.body g on s t k fun i => (liftM (Emit.expressionShape (E.on i) h) : BodyM TypeShape) >>=
    next i :=
  .askInside (expressionShape_congr hE · h) hnext

lemma expressionType : Sim C.body g (fun a => a) s (fun _ => s) ([.global ·]) fun i =>
    (liftM (Emit.expressionType (E.on i) h) : BodyM Id) :=
  .lift (.ask (fun _ => rfl) fun _ _ => C.typeId hE)

lemma computeLoad (hp : Serves C operand pointer) :
    C.Computes g owed flow fun i => Emit.computeLoad (E.on i) (operand i) h pointer := by
  refine .bind (expressionType hE) fun type => ?_
  refine .askInside (pointsToAtomic_congr hE · pointer) fun atomic _ =>
    .bind hp.computes fun p => .bind newId fun id => ?_
  cases atomic with
  | true =>
    refine .bind atomicOperands fun ⟨scope, semantics⟩ => ?_
    exact .bind (emitFor .atomicLoad [.id p, .id scope, .id semantics] rfl (by simp)
      (by simp) (by simp) fun _ => .short rfl) fun _ => .pure (by simp)
  | false =>
    exact .bind (emitFor .load [.id p] rfl (by simp) (by simp) (by simp) fun _ => .short rfl)
      fun _ => .pure (by simp)

lemma computeAccess (hb : Serves C operand base) (hi : Serves C operand index) :
    C.Computes g owed flow fun i => Emit.computeAccess (E.on i) (operand i) h base index := by
  simp only [Emit.computeAccess, constantIndex?_congr hE]
  refine expressionShape hE fun shape _ => .bind (expressionType hE) fun type =>
    .bind hb.computes fun value => .ite (fun _ => ?_) fun _ => ?_
  · exact .bind hi.computes fun i => emitOnIds [value, i] rfl (by simp) (by simp) (.inr (by simp))
  · split
    · exact emitResult [.id value, .word _] rfl (by simp) (by simp) fun _ =>
        .inr (Nat.le_of_ble_eq_true rfl)
    · exact .bind hi.computes fun i => emitOnIds [value, i] rfl (by simp) (by simp) (.inr (by simp))
    · exact .fail rfl (by rintro ⟨⟩)

lemma computeAccessIndex (hb : Serves C operand base) (index : UInt32) :
    C.Computes g owed flow fun i => Emit.computeAccessIndex (E.on i) (operand i) h base index := by
  refine expressionShape hE fun shape _ => .bind (expressionType hE) fun type =>
    .bind hb.computes fun value => .ite (fun _ => ?_) fun _ => ?_
  · exact .bind (.lift (indexConstant index)) fun i => emitOnIds [value, i] rfl (by simp) (by simp)
      (.inr (by simp))
  · exact emitResult [.id value, .word index] rfl (by simp) (by simp) fun _ =>
      .inr (Nat.le_of_ble_eq_true rfl)

lemma computeSwizzle (size : VectorSize) (hv : Serves C operand vector) (pattern) :
    C.Computes g owed flow fun i => Emit.computeSwizzle (E.on i) (operand i) h size
      vector pattern := by
  refine .bind (expressionType hE) fun type => .bind hv.computes fun value => ?_
  have hpicked : (Expression.picked size pattern).length ≤ 4 := by
    rw [Expression.picked, length_take, Vector.length_toList]
    exact Nat.min_le_right _ _
  have hterms : ∀ words i, .id (value i) :: .id (value i) :: Operand.words words =
      (.id value :: .id value :: words.map Term.word : List (Term ι)).map (Term.on i) :=
      fun words i => by
    rw [words_on words i]
    rfl
  simp only [hterms]
  refine emitResult _ rfl (by simp)
    (covered_id_cons.2 ⟨by simp, covered_id_cons.2 ⟨by simp, covered_map_word⟩⟩) fun i => .inr ?_
  rw [← hterms]
  show 1 + (1 + ((Operand.words _).map Operand.wordCount).sum) ≤ 9
  rw [Operand.wordCount_words, length_map]
  omega

/-! ### Operators -/

lemma computeUnary (op : UnaryOp) (hv : Serves C operand value) :
    C.Computes g owed flow fun i => Emit.computeUnary (E.on i) (operand i) h op value := by
  refine expressionShape hE fun shape _ => .consult (supported_unaryOpcode _ _)
    fun opcode hopcode => .bind (expressionType hE) fun type => .bind hv.computes fun v => ?_
  exact emitResult [.id v] (Opcode.isTyped_of_isPlain (isPlain_unaryOpcode hopcode))
    (by simp) (by simp) fun _ => .inr (Nat.le_of_ble_eq_true rfl)

lemma computeBinary (hop : op.isShortCircuit = false) {left right : Handle .expression}
    (hl : Serves C operand left) (hr : Serves C operand right) :
    C.Computes g owed flow fun i => Emit.computeBinary (E.on i) (operand i) h op left right := by
  refine expressionShape hE fun leftShape hleft => expressionShape hE fun rightShape hright =>
    .consult (supported_binaryOperation hop _ _) fun operation hoperation => ?_
  refine .bind (expressionType hE) fun type => .bind hl.computes fun l =>
    .bind hr.computes fun r => ?_
  have hlast : ∀ {g first second}, Attested g type → Attested g first → Attested g second →
      C.Computes g owed flow fun i => Emit.emitResult operation.opcode (type i)
        (Operand.ids [first i, second i]) := fun {_ first second} htype hfirst hsecond =>
    emitOnIds [first, second] (Opcode.isTyped_of_isPlain (isPlain_binaryOperation hoperation)) htype
      (by simp [hfirst, hsecond]) (.inr (by simp))
  have hfits := fits_binaryOperation hoperation
  cases harrangement : operation.arrangement with
  | normal | swapped => exact hlast (by simp) (by simp) (by simp)
  | splatLeft =>
    rw [harrangement] at hfits
    exact .bind (splatOperand (by simp) (fun _ => Regime.narrow_expressionShape (C.suits hE) hleft)
      hfits.1 hfits.2) fun _ => hlast (by simp) (by simp) (by simp)
  | splatRight =>
    rw [harrangement] at hfits
    exact .bind (splatOperand (by simp) (fun _ => Regime.narrow_expressionShape (C.suits hE)
      hright) hfits.1 hfits.2) fun _ => hlast (by simp) (by simp) (by simp)

omit hE in
lemma forget (mark : Nat) :
    C.Moves g s s fun _ =>
    (modify fun body => { body with values := body.values.rewind mark } : BodyM Unit) :=
  .modify (fun _ _ => rfl) fun _ hσ _ => hσ.rewind mark

lemma computeShortCircuit (op : BinaryOp) {left right : Handle .expression}
    (hl : Serves C operand left) (hr : Serves C operand right) :
    C.Computes g owed flow fun i => Emit.computeShortCircuit (E.on i) (operand i) h op
      left right := by
  refine .bind (expressionType hE) fun type => .bind hl.computes fun l => ?_
  refine .bind (C.labelOr _ (by rintro ⟨⟩)) fun leftEnd => .bind newId fun rightLabel => .bind newId
    fun merge => ?_
  refine .bind (emit .selectionMerge [.id merge, .word 0] rfl rfl (by simp) fun _ => .short rfl)
    fun _ => ?_
  -- what follows the branch is the same for a conjunction and a disjunction
  have hrest : ∀ g', Attested g' type → Attested g' l → Attested g' leftEnd → Attested g' merge →
      Attested g' rightLabel →
      Sim C.body g' (fun a => a) ⟨merge :: rightLabel :: owed, flow, some .closed⟩
        (fun _ => ⟨owed, flow, some .opened⟩) ([.issued ·]) (fun i => do
        Emit.beginBlock (rightLabel i)
        let mark := (← get).values.mark
        let r ← operand i right
        let rightEnd ← Emit.labelOr .shortCircuitClosedBlock
        Emit.terminate (.branch (merge i))
        modify fun body => { body with values := body.values.rewind mark }
        Emit.beginBlock (merge i)
        Emit.emitResult .phi (type i) (Operand.ids [l i, leftEnd i, r, rightEnd])) := by
    intro g' htype hl hleft hmerge hright
    refine .perm (rightLabel :: merge :: owed) ?_ (.swap _ _ _)
    refine .bind (startBlock (.inr rfl) hright) fun _ => .read fun σ hσ _ => ⟨[], .nil, ?_⟩
    have hmark : ∀ i, (σ i).values.mark = (σ default).values.mark := fun i =>
      congrArg length (BodiesAgree.trail hσ i default)
    simp only [hmark]
    refine .bind hr.computes fun r => .bind (C.labelOr _ (by rintro ⟨⟩)) fun rightEnd => ?_
    refine .bind (terminateBlock .branch [.id merge] rfl (by simp [hmerge]) fun _ => .short rfl)
      fun _ => ?_
    refine .bind (forget _) fun _ => .bind (startBlock (.inr rfl) (by simp [hmerge])) fun _ => ?_
    exact emitOnIds [l, leftEnd, r, rightEnd] rfl (by simp [htype]) (by simp [hl, hleft])
      (.inr (by simp))
  refine .ite (fun _ => ?_) fun _ => ?_
  · exact .bind (terminateBlock .branchConditional [.id l, .id rightLabel, .id merge] rfl (by simp)
      fun _ => .short rfl) fun _ => hrest _ (by simp) (by simp) (by simp) (by simp) (by simp)
  · exact .bind (terminateBlock .branchConditional [.id l, .id merge, .id rightLabel] rfl (by simp)
      fun _ => .short rfl) fun _ => hrest _ (by simp) (by simp) (by simp) (by simp) (by simp)

lemma computeSelect (hc : Serves C operand condition) (ha : Serves C operand accept)
    (hr : Serves C operand reject) :
    C.Computes g owed flow fun i => Emit.computeSelect (E.on i) (operand i) h condition
      accept reject := by
  refine expressionShape hE fun conditionShape _ => expressionShape hE fun acceptShape _ => ?_
  refine .bind (expressionType hE) fun type => .bind hc.computes fun c => .bind ha.computes fun a =>
    .bind hr.computes fun r => ?_
  split
  · exact .bind (splat (by simp) (fun _ => .inr rfl) _) fun d =>
      emitOnIds [d, a, r] rfl (by simp) (by simp) (.inr (by simp))
  · exact emitOnIds [c, a, r] rfl (by simp) (by simp) (.inr (by simp))

/-! ### Functions and conversions -/

omit hE in
lemma emitExtended (arguments : List (Ids ι)) (ht : Attested g type) (op : ExtendedOp)
    (harguments : ∀ a ∈ arguments, Attested g a) (hlength : arguments.length ≤ 7) :
    C.Computes g owed flow fun i => Emit.emitExtended (type i) op (arguments.map (· i)) := by
  refine .bind (.lift C.mathImport) fun set => ?_
  simp only [ids_on]
  refine emitResult (.id set :: .word _ :: _) rfl (ht.append _) ?_ fun i => .inr ?_
  · simp only [covered_id_cons, covered_word_cons, covered_map_id]
    exact ⟨by simp, fun a ha => (harguments a ha).append _⟩
  · show 1 + (1 + (((arguments.map Term.id).map (Term.on i)).map Operand.wordCount).sum) ≤ 9
    rw [← ids_on, Operand.wordCount_ids, length_map]
    omega

lemma computeMath (function : MathFunction) {others : Handles} (ha : Serves C operand arg)
    (ho : ∀ o ∈ others, Serves C operand o) :
    C.Computes g owed flow fun i => Emit.computeMath (E.on i) (operand i) h function
      arg others := by
  refine expressionShape hE fun shape _ => .consult (supported_mathOperation _ _)
    fun operation hoperation => .bind (expressionType hE) fun type => .bind ha.computes fun first =>
      .bind (.mapM fun o hmem => (ho o hmem).computes) fun rest => ?_
  simp only [length_map]
  refine .ite (fun _ => .failing rfl (by rintro ⟨⟩)) fun harity => ?_
  have hsmall : (first :: rest).length ≤ 3 := by
    have : function.arity ≤ 3 := by cases function <;> decide
    rw [length_cons]
    omega
  have hall : ∀ a ∈ first :: rest,
      Attested (rest.flatMap ([Fact.issued ·]) ++
      ([Fact.issued first] ++ ([Fact.global type] ++ g))) a := by
    simp +contextual
  cases operation with
  | identity => exact .pure (by simp)
  | core op =>
    exact emitOnIds (first :: rest) (Opcode.isTyped_of_isPlain (isPlain_mathOperation hoperation))
      (by simp) hall (.inr (by omega))
  | extended op => exact emitExtended (first :: rest) (by simp) op hall (by omega)
  | saturate =>
    refine .bind (.lift (nullConstant (by simp))) fun zero =>
      .bind (.lift (C.oneConstant shape (by simp))) fun one => ?_
    exact emitExtended [first, zero, one] (by simp) .fClamp (by simp) (by simp)

lemma computeCast (hv : Serves C operand value) (kind : ScalarKind) (width : Option UInt8) :
    C.Computes g owed flow fun i => Emit.computeCast (E.on i) (operand i) h value kind width := by
  refine expressionShape hE fun sourceShape _ => ?_
  cases sourceShape.scalar? with
  | none => exact .fail rfl (by rintro ⟨⟩)
  | some source =>
    refine .consult (supported_conversion _ _ _) fun operation hoperation => expressionShape hE
      fun targetShape _ => .bind (expressionType hE) fun type => .bind hv.computes fun v => ?_
    cases operation with
    | identity => exact .pure (by simp)
    | «instruction» op =>
      exact emitResult [.id v] (Opcode.isTyped_of_isPlain (isPlain_conversion (.inl hoperation)))
        (by simp) (by simp) fun _ => .inr (Nat.le_of_ble_eq_true rfl)
    | boolToNumber =>
      refine .bind (.lift (C.oneConstant targetShape (by simp))) fun one =>
        .bind (.lift (nullConstant (by simp))) fun zero => ?_
      exact emitOnIds [v, one, zero] rfl (by simp) (by simp) (.inr (by simp))
    | numberToBool op =>
      refine .bind (expressionType hE) fun sourceType => .bind (.lift (nullConstant (by simp)))
        fun zero => ?_
      exact emitOnIds [v, zero] (Opcode.isTyped_of_isPlain (isPlain_conversion (.inr hoperation)))
        (by simp) (by simp) (.inr (by simp))

omit hE in
lemma computeArrayLength (array : Handle .expression) :
    C.Computes g owed flow fun i => Emit.computeArrayLength (E.on i) array := by
  cases hfound : bufferArray? (E.on default) array with
  | none =>
    simp only [Emit.computeArrayLength, fun i => show bufferArray? (E.on i) array =
      none from hfound]
    exact .fail rfl (by rintro ⟨⟩)
  | some found =>
    obtain ⟨global, member⟩ := found
    simp only [Emit.computeArrayLength,
      fun i => show bufferArray? (E.on i) array = some (global, member) from hfound]
    refine .read fun σ hσ _ => ?_
    obtain ⟨place, hplace, hplaced⟩ := C.globals (BodiesAgree.rel hσ) |>.getElem? global.index
    simp only [hplace]
    cases place with
    | none => exact ⟨[], .nil, .fail rfl (by rintro ⟨⟩)⟩
    | some place =>
      refine ⟨_, hplaced place rfl, ?_⟩
      have hlast : ∀ index, C.Computes (place.facts ++ g) owed flow fun i => (do
          let type ← (liftM (Assembly.scalarType .u32) : BodyM Id)
          Emit.emitResult .arrayLength type [.id (place.id i), .word index]) :=
        fun index => .bind (.lift (C.scalarType (Law.narrow_of_kind (by rintro ⟨⟩)))) fun type =>
          emitResult [.id place.id, .word index] rfl (by simp) (by simp [Place.facts])
            fun _ => .inr (Nat.le_of_ble_eq_true rfl)
      obtain ⟨id, contents⟩ := place
      cases contents <;> cases member
      · exact .failing rfl (by rintro ⟨⟩)
      · exact hlast _
      · exact hlast 0
      · exact .failing rfl (by rintro ⟨⟩)

/-! ### All expressions -/

/-- An expression is computed alike if its operands are. -/
lemma compute {e : Expression} (ho : ∀ o ∈ e.operands, Serves C operand o) :
    C.Computes g owed flow fun i => Emit.compute (E.on i) (operand i) h e := by
  cases e with
  | literal literal => exact .issued (.lift (literalConstant literal)) (by simp)
  | constant value => exact .issued (.lift (C.constantId hE)) (by simp)
  | «override» o => exact .issued (.lift (C.overrideId o)) (by simp)
  | zeroValue type =>
    exact .bind (.lift (C.typeId hE)) fun type => .issued (.lift (nullConstant mem_cons_self))
      (by simp)
  | compose type components =>
    exact .bind (.lift (C.typeId hE)) fun type => .bind (.mapM fun o hmem => (ho o hmem).computes)
      fun parts => compositeOf _ (by simp) fun a ha => by simp [ha]
  | argument index => exact argumentValue index
  | globalVariable global => exact globalPointer global
  | localVariable slot => exact localPointer slot
  | load pointer => exact computeLoad hE (ho _ (.head _))
  | access base index => exact computeAccess hE (ho _ (.head _)) (ho _ (.tail _ (.head _)))
  | accessIndex base index => exact computeAccessIndex hE (ho _ (.head _)) index
  | swizzle size vector pattern => exact computeSwizzle hE size (ho _ (.head _)) pattern
  | splat size value =>
    exact .bind (expressionType hE) fun type => .bind (ho _ (.head _)).computes fun part =>
      compositeOfOne _ (by simp) (by simp)
  | unary op value => exact computeUnary hE op (ho _ (.head _))
  | binary op left right =>
    have hl := ho left (.head _)
    have hr := ho right (.tail _ (.head _))
    exact .ite (fun _ => computeShortCircuit hE op hl hr) fun hop =>
      computeBinary hE (Bool.eq_false_iff.2 hop) hl hr
  | select condition accept reject =>
    exact computeSelect hE (ho _ (.head _)) (ho _ (.tail _ (.head _)))
      (ho _ (.tail _ (.tail _ (.head _))))
  | math function arg arg1 arg2 =>
    exact computeMath hE function (ho _ (.head _)) fun o hmem => ho o (mem_cons_of_mem _ hmem)
  | cast value kind width => exact computeCast hE (ho _ (.head _)) kind width
  | arrayLength array => exact computeArrayLength array
  | callResult f => exact .fail rfl (by rintro ⟨⟩)
  | atomicResult type comparison => exact .fail rfl (by rintro ⟨⟩)

omit hE

lemma remember (h : Handle .expression) (ha : Attested g a) :
    C.Moves g s s fun i => Emit.remember h (a i) :=
  .modify (fun _ _ => rfl) fun _ hσ hg => hσ.set h (hg.attested hσ.rel ha)

lemma nameValue (h : Handle .expression) (e : Expression) (ha : Attested g a) :
    C.Leads g s s fun i => Emit.nameValue (E.on i) h e (a i) := by
  have hname : ∀ i, (E.on i).function.nameOf? h = E.function.nameOf? h := fun _ => rfl
  simp only [Emit.nameValue, hname]
  cases E.function.nameOf? h with
  | none => exact .pure (r := ()) (forall_mem_nil _)
  | some name =>
    refine .read fun p hp hg => ⟨[], .nil, ?_⟩
    have hconstant : ∀ i, (p i).assembly.isConstant (a i) =
      (p default).assembly.isConstant (a default) :=
      C.isConstant hp (hg.attested hp ha)
    simp only [hconstant]
    exact .ite (fun _ => .pure (r := ()) (forall_mem_nil _)) fun _ => C.nameTarget _ ha

lemma expression (hE : E.Runs C) (h : Handle .expression) :
    C.Computes g owed flow fun i => Emit.expression (E.on i) h := by
  refine hE.descends (fun depth h => ∀ {g owed flow},
    C.Computes g owed flow fun i => expressionWithin (E.on i) (depth i) h) ?_ ?_ h
  · exact fun hcircular h _ _ _ => .throw hcircular
  · intro depth h ih g owed flow
    refine .read fun σ hσ _ => ?_
    obtain ⟨r, hr, hheld⟩ := BodiesAgree.values hσ h
    simp only [hr]
    cases r with
    | some a => exact ⟨[.issued a], forall_mem_singleton.2 (hheld a rfl), .pure (by simp)⟩
    | none =>
      refine ⟨[], .nil, .askInside (fun _ => rfl) fun e he => ?_⟩
      have hserves : ∀ o ∈ e.operands, Serves C (fun i => expressionWithin (E.on i) (depth i)) o :=
        fun o ho => ⟨fun {_ _ _} => ih o ⟨e, he, ho⟩⟩
      exact .bind (compute hE.akin hserves) fun a => .bind (remember h (by simp)) fun _ =>
        .bind (.lift (nameValue h e (by simp))) fun _ => .pure (by simp)

end

end Correspondence

end Shader.Emit
