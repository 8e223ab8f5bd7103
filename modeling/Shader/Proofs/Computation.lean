import Shader.Proofs.Record

/-!
# Every run of the emission of an expression has a record

The computation of each form of expression is taken apart into steps, given that the evaluation
of its operands has a record.  By induction on the depth every evaluation has one.
-/

namespace Shader.Emit

open List Assembly
open IR (Expression Scalar ScalarKind TypeShape BinaryOp UnaryOp MathFunction VectorSize)

variable {shape vector : TypeShape} {α β : Type} {op : BinaryOp} {kind : ScalarKind}
    {opcode : Opcode} {left right rank : Rank}
  {operation : BinaryOperation} {function : MathFunction} {type value id : Id} {σ₁ σ σ' : Body}
  {h g pointer : Handle .expression}

/-! ### The tables have an entry or do without -/

/-- The only fault is that something is not supported. -/
inductive Supported {α : Type} : Except Fault α → Prop where
  | ok (a : α) : Supported (.ok a)
  | unsupported (what : Unsupported) : Supported (.error (.unsupported what))

lemma Supported.bind {next : α → Except Fault β} (h : Supported x) (h' : ∀ a, Supported (next a)) :
    Supported (x >>= next) := by
  cases h with
  | ok a => exact h' a
  | unsupported what => exact .unsupported what

lemma supported_operandRank (shape : TypeShape) : Supported (operandRank shape) := by
  cases shape <;> constructor

lemma supported_unaryOpcode (op : UnaryOp) (operand : TypeShape) :
    Supported (unaryOpcode op operand) := by
  refine .bind (supported_operandRank operand) fun ⟨rank, scalar⟩ => ?_
  dsimp only
  split <;> constructor

lemma supported_mathOperation (function : MathFunction) (operand : TypeShape) :
    Supported (mathOperation function operand) := by
  refine .bind (supported_operandRank operand) fun ⟨rank, scalar⟩ => ?_
  dsimp only
  split <;> constructor

lemma supported_conversion (source : Scalar) (kind : ScalarKind) (width : Option UInt8) :
    Supported (conversion source kind width) := by
  unfold conversion
  split
  · exact .ok _
  · split <;> constructor

lemma supported_binaryOperation (h : op.isShortCircuit = false) (left right : TypeShape) :
    Supported (binaryOperation op left right) := by
  refine .bind (supported_operandRank left) fun ⟨leftRank, scalar⟩ =>
    .bind (supported_operandRank right) fun ⟨rightRank, _⟩ => ?_
  dsimp only
  rw [h, if_neg Bool.false_ne_true]
  split <;> constructor

/-! ### The tables hold plain opcodes only -/

lemma isPlain_arithmeticOpcode? (h : arithmeticOpcode? op kind = some opcode) : opcode.isPlain := by
  cases op <;> cases kind <;> simp only [arithmeticOpcode?, reduceCtorEq,
    Option.some.injEq] at h <;> exact h ▸ rfl

lemma isPlain_comparisonOpcode? (h : comparisonOpcode? op kind = some opcode) : opcode.isPlain := by
  cases op <;> cases kind <;> simp only [comparisonOpcode?, reduceCtorEq,
    Option.some.injEq] at h <;> exact h ▸ rfl

lemma isPlain_bitwiseOpcode? (h : bitwiseOpcode? op kind = some opcode) : opcode.isPlain := by
  cases op <;> cases kind <;> simp only [bitwiseOpcode?, reduceCtorEq, Option.some.injEq] at h <;>
    exact h ▸ rfl

lemma isPlain_product? (h : product? left right kind = some operation) :
    operation.opcode.isPlain := by
  cases kind with
  | float =>
    cases h
    cases left <;> cases right <;> rfl
  | sint | uint =>
    obtain ⟨arrangement, -, rfl⟩ := Option.map_eq_some_iff.1 h
    rfl
  | bool => cases h

lemma isPlain_sameRank? {opcode : Option Opcode} (h : sameRank? left right opcode = some operation)
    (hop : ∀ op, opcode = some op → op.isPlain) : operation.opcode.isPlain := by
  unfold sameRank? at h
  split at h
  · obtain ⟨op, hop', rfl⟩ := Option.map_eq_some_iff.1 h
    exact hop op hop'
  · cases h

lemma isPlain_binaryOperation? (h : binaryOperation? op left right kind = some operation) :
    operation.opcode.isPlain := by
  cases op with
  | add | subtract | divide | modulo =>
    obtain ⟨opcode, hopcode, h⟩ := Option.bind_eq_some_iff.1 h
    obtain ⟨arrangement, -, h⟩ := Option.bind_eq_some_iff.1 h
    cases h
    exact isPlain_arithmeticOpcode? hopcode
  | multiply => exact isPlain_product? h
  | equal | notEqual | less | lessEqual | greater | greaterEqual =>
    exact isPlain_sameRank? h fun _ => isPlain_comparisonOpcode?
  | bitwiseAnd | bitwiseOr | bitwiseXor | shiftLeft | shiftRight =>
    exact isPlain_sameRank? h fun _ => isPlain_bitwiseOpcode?
  | logicalAnd | logicalOr => cases h

lemma except_bind_eq_ok {next : α → Except ε β} :
    (x >>= next) = .ok b ↔ ∃ a, x = .ok a ∧ next a = .ok b := by
  cases x with
  | error e => exact ⟨nofun, nofun⟩
  | ok a => exact ⟨fun h => ⟨a, rfl, h⟩, fun ⟨_, heq, h⟩ => Except.ok.inj heq ▸ h⟩

lemma isPlain_binaryOperation {left right : TypeShape} {operation : BinaryOperation}
    (h : binaryOperation op left right = .ok operation) : operation.opcode.isPlain := by
  obtain ⟨l, -, h⟩ := except_bind_eq_ok.1 h
  obtain ⟨r, -, h⟩ := except_bind_eq_ok.1 h
  dsimp only at h
  split at h
  · cases h
  · split at h
    · cases h
      exact isPlain_binaryOperation? ‹_›
    · cases h

lemma isPlain_unaryOpcode? {op : UnaryOp} (h : unaryOpcode? rank op kind = some opcode) :
    opcode.isPlain := by
  unfold unaryOpcode? at h
  split at h <;> (try split at h) <;> first | exact Option.some.inj h ▸ rfl | cases h

lemma isPlain_unaryOpcode {op : UnaryOp} {operand : TypeShape} {opcode : Opcode}
    (h : unaryOpcode op operand = .ok opcode) : opcode.isPlain := by
  obtain ⟨rank, -, h⟩ := except_bind_eq_ok.1 h
  dsimp only at h
  split at h
  · cases h
    exact isPlain_unaryOpcode? ‹_›
  · cases h

lemma integerMath?_ne_core : integerMath? kind function ≠ some (.core opcode) := by
  unfold integerMath?
  split <;> cases kind <;> nofun

lemma isPlain_mathOperation (h : mathOperation function operand = .ok (.core opcode)) :
    opcode.isPlain := by
  obtain ⟨rank, -, h⟩ := except_bind_eq_ok.1 h
  dsimp only at h
  split at h
  · cases h
    rename_i htable
    unfold mathOperation? at htable
    split at htable
    · cases function <;> cases htable <;> rfl
    · exact absurd htable integerMath?_ne_core
  · cases h

lemma arity_of_integerMath? (h : integerMath? kind function = some .identity) :
    function.arity = 1 := by
  unfold integerMath? at h
  split at h <;> first | rfl | (cases kind <;> cases h)

/-- The only function that is the identity, the absolute value of unsigned integers, has one
argument. -/
lemma arity_of_identity (h : mathOperation function shape = .ok .identity) :
    function.arity = 1 := by
  obtain ⟨rank, -, h⟩ := except_bind_eq_ok.1 h
  dsimp only at h
  split at h
  · cases h
    rename_i htable
    unfold mathOperation? at htable
    split at htable
    · cases function <;> cases htable
    · exact arity_of_integerMath? htable
  · cases h

lemma isPlain_valueConversion (source target : Scalar)
    (h : valueConversion source target = .instruction opcode ∨
      valueConversion source target = .numberToBool opcode) : opcode.isPlain := by
  unfold valueConversion at h
  split at h
  · grind
  · split at h <;> (try split at h) <;> (try split at h) <;>
      (rcases h with h | h <;> cases h <;> rfl)

lemma isPlain_conversion (h : conversion source kind width = .ok (.instruction opcode) ∨
      conversion source kind width = .ok (.numberToBool opcode)) : opcode.isPlain := by
  unfold conversion at h
  split at h
  · simp only [Except.ok.injEq] at h
    exact isPlain_valueConversion _ _ h
  · split at h
    · rename_i htable
      simp only [Except.ok.injEq] at h
      unfold reinterpretation? at htable
      split at htable
      · cases htable
      · cases htable
      · cases htable
        split at h <;> rcases h with h | h <;> cases h
        rfl
    · rcases h with h | h <;> cases h

/-! ### Chains that make a value known -/

/-- A chain of steps from the ids `known` on, after which `id` is known too. -/
def Learns (env : FunctionEnv) (evaluate : Evaluation) (source : Source)
    (operands : Handles) (known : List Id) (σ : Body) (id : Id) (σ' : Body) : Prop :=
  ∃ r new, Straight env evaluate source Opcode.isPlain operands ⟨σ, known, []⟩ r
    ⟨σ', new ++ known, []⟩ ∧ id ∈ new ++ known

/-- A chain of steps from the ids `known` on, of which the last one makes `id`. -/
def Made (env : FunctionEnv) (evaluate : Evaluation) (source : Source) (last : Opcode → Bool)
    (operands : Handles) (known : List Id) (σ : Body) (id : Id) (σ' : Body) : Prop :=
  ∃ r, Makes env evaluate source last operands known σ r id σ'

section

variable {env : FunctionEnv} {evaluate : Evaluation} {source : Source}
    {last allowed : Opcode → Bool}
 {operands gs : Handles} {known ids parts values pending : List Id} {σ₂ : Body}
 {new scope semantics label : Id} {r : Record}

lemma emitResult_eq_ok {op : Opcode} (hop : op.isTyped)
    (hrun : emitResult op type rest σ = .ok id σ') :
    id = σ.nextId ∧ σ.issue.Pushes (.result op type σ.nextId rest) σ' := by
  simp only [emitResult, bind_eq_ok, pure_eq_ok] at hrun
  obtain ⟨_, _, hid, _, _, hpush, rfl, rfl⟩ := hrun
  obtain ⟨rfl, rfl⟩ := freshId_eq_ok.1 hid
  exact ⟨rfl, pushes_of_emit (Opcode.not_isTerminator_of_isTyped hop) hpush⟩

lemma Straight.declared (hdeclared : σ.Extends σ' ∧ σ'.progress.Declared id) :
    Straight env evaluate source allowed operands ⟨σ, known, ids⟩ [] ⟨σ', id :: known, ids⟩ :=
  .declare [id] hdeclared.1 (by simpa using .inl hdeclared.2)

lemma composite_eq_ok (hrun : composite type parts σ = .ok id σ') :
    ((∀ part ∈ parts, σ.progress.Declared part) ∧ σ.Extends σ' ∧ σ'.progress.Declared id) ∨
      emitResult .compositeConstruct type (Operand.ids parts) σ = .ok id σ' := by
  simp only [composite, bind_eq_ok, get_eq_ok] at hrun
  obtain ⟨_, _, ⟨rfl, rfl⟩, hrun⟩ := hrun
  split at hrun
  · rename_i hparts
    refine .inl ⟨fun part hpart => .inl ?_, declared_of_declare (declaring_constant _ _) hrun⟩
    exact Assembly.Module.declared_of_isConstant (all_eq_true.1 hparts part hpart)
  · exact .inr hrun

lemma learns_splat {size : VectorSize} (hvalue : value ∈ known)
    (hrun : splat value scalar size σ = .ok id σ') :
    Learns env evaluate source operands known σ id σ' := by
  simp only [splat, bind_eq_ok] at hrun
  obtain ⟨type, σ₁, htype, hrun⟩ := hrun
  have hdeclared := declared_of_declare (Assembly.declaring_typeId (.vector ..)) htype
  rcases composite_eq_ok hrun with ⟨-, hconstant⟩ | hrun
  · exact ⟨_, [id, type], .trans (.declared hdeclared) (.declared hconstant), mem_cons_self⟩
  · obtain ⟨rfl, hpush⟩ := emitResult_eq_ok rfl hrun
    refine ⟨_, [σ₁.nextId, type], .trans (.declared hdeclared)
      (.emitResult rfl rfl mem_cons_self ?_ hpush), mem_cons_self⟩
    rw [Operand.filterMap_id?_ids]
    intro part hpart
    obtain rfl := eq_of_mem_replicate hpart
    exact mem_cons_of_mem _ hvalue

lemma learns_splatOperand (hvalue : value ∈ known)
    (hrun : splatOperand value scalar vector σ = .ok id σ') :
    Learns env evaluate source operands known σ id σ' := by
  simp only [splatOperand] at hrun
  cases hscalar : scalar.scalar? with
  | none =>
    rw [hscalar] at hrun
    exact absurd hrun throw_ne_ok
  | some component =>
    cases hsize : vector.vectorSize? with
    | none =>
      rw [hscalar, hsize] at hrun
      exact absurd hrun throw_ne_ok
    | some size =>
      rw [hscalar, hsize] at hrun
      exact learns_splat hvalue hrun

/-! ### Chains that end with the instruction of a value -/

lemma made_emitResult {op : Opcode} {rest : List Operand} (hop : last op) (htyped : op.isTyped)
    (htype : type ∈ known) (huses : ∀ u ∈ rest.filterMap Operand.id?, u ∈ known)
    (hrun : emitResult op type rest σ = .ok id σ') :
    Made env evaluate source last operands known σ id σ' := by
  obtain ⟨rfl, hpush⟩ := emitResult_eq_ok htyped hrun
  exact ⟨_, _, _, _, _, .one .issue, .result hop htyped htype huses hpush, rfl⟩

lemma Made.after (new : List Id)
      (h : Straight env evaluate source Opcode.isPlain operands ⟨σ, known, []⟩ r
      ⟨σ₁, new ++ known, []⟩) (h' :
      Made env evaluate source last operands (new ++ known) σ₁ id σ') :
    Made env evaluate source last operands known σ id σ' := by
  obtain ⟨_, _, _, _, _, hchain, hlast, rfl⟩ := h'
  exact ⟨_, _, _, _, _, h.trans hchain, hlast, rfl⟩

lemma Made.afterOperand (hg : g ∈ operands) (hvalue : ∃ r, evaluate g σ r value σ₁)
    (h' : Made env evaluate source last operands (value :: known) σ₁ id σ') :
    Made env evaluate source last operands known σ id σ' := by
  obtain ⟨r, hvalue⟩ := hvalue
  exact .after [value] (.evaluation hg hvalue) h'

lemma Made.afterDeclared (hnew : σ.Extends σ₁ ∧ σ₁.progress.Declared new)
    (h' : Made env evaluate source last operands (new :: known) σ₁ id σ') :
    Made env evaluate source last operands known σ id σ' :=
  .after [new] (.declared hnew) h'

lemma Made.afterType (htype : (liftM (expressionType env g) : BodyM Id) σ = .ok type σ₁)
    (h' : Made env evaluate source last operands (type :: known) σ₁ id σ') :
    Made env evaluate source last operands known σ id σ' :=
  .afterDeclared (declared_of_emit (declaring_expressionType env g) htype) h'

lemma made_emitExtended {op : ExtendedOp} {arguments : List Id} (htype : type ∈ known)
    (hparts : ∀ part ∈ arguments, part ∈ known)
    (hrun : emitExtended type op arguments σ = .ok id σ') :
    Made env evaluate source Opcode.isPlain operands known σ id σ' := by
  simp only [emitExtended, bind_eq_ok] at hrun
  obtain ⟨set, σ₁, hset, hrun⟩ := hrun
  refine .afterDeclared (declared_of_declare declaring_mathImport hset) ?_
  refine made_emitResult rfl rfl (mem_cons_of_mem _ htype) ?_ hrun
  show ∀ u ∈ set :: (Operand.ids arguments).filterMap Operand.id?, u ∈ set :: known
  rw [Operand.filterMap_id?_ids]
  grind

/-! ### Each form of expression -/

variable {operand : Handle .expression → BodyM Id}
 (hoperand : ∀ ⦃g σ id σ'⦄, operand g σ = .ok id σ' → ∃ r, evaluate g σ r id σ')

include hoperand in
lemma evaluatesAll_of_mapM (hrun : gs.mapM operand σ = .ok values σ') :
    ∃ r, EvaluatesAll evaluate gs σ r values σ' := by
  induction gs generalizing σ values with
  | nil =>
    obtain ⟨rfl, rfl⟩ := pure_eq_ok.1 hrun
    exact ⟨[], .nil⟩
  | cons g gs ih =>
    simp only [mapM_cons, bind_eq_ok, pure_eq_ok] at hrun
    obtain ⟨value, σ₁, hvalue, rest, σ₂, hrest, rfl, rfl⟩ := hrun
    obtain ⟨r, hvalue⟩ := hoperand hvalue
    obtain ⟨r', hrest⟩ := ih hrest
    exact ⟨r ++ r', .cons hvalue hrest⟩

include hoperand

lemma made_computeAccess {base index : Handle .expression}
    (hrun : computeAccess env operand h base index σ = .ok id σ') :
    Made env evaluate source Opcode.isPlain [base, index] [] σ id σ' := by
  simp only [computeAccess, bind_eq_ok, exceptIR_eq_ok] at hrun
  obtain ⟨shape, _, ⟨-, rfl⟩, type, σ₁, htype, value, σ₂, hvalue, hrun⟩ := hrun
  refine .afterType htype (.afterOperand (by simp) (hoperand hvalue) ?_)
  split at hrun
  · obtain ⟨i, σ₃, hindex, hrun⟩ := bind_eq_ok.1 hrun
    refine .afterOperand (by simp) (hoperand hindex) ?_
    exact made_emitResult rfl rfl (by simp) (by simp [Operand.filterMap_id?_ids]) hrun
  · cases hconst : constantIndex? env index with
    | some constant =>
      rw [hconst] at hrun
      exact made_emitResult rfl rfl (by simp) (by simp [Operand.id?]) hrun
    | none =>
      rw [hconst] at hrun
      cases shape with
      | vector =>
        obtain ⟨i, σ₃, hindex, hrun⟩ := bind_eq_ok.1 hrun
        refine .afterOperand (by simp) (hoperand hindex) ?_
        exact made_emitResult rfl rfl (by simp) (by simp [Operand.filterMap_id?_ids]) hrun
      | _ => exact absurd hrun throw_ne_ok

lemma made_computeAccessIndex {base : Handle .expression} {index : UInt32}
    (hrun : computeAccessIndex env operand h base index σ = .ok id σ') :
    Made env evaluate source Opcode.isPlain [base] [] σ id σ' := by
  simp only [computeAccessIndex, bind_eq_ok, exceptIR_eq_ok] at hrun
  obtain ⟨shape, _, ⟨-, rfl⟩, type, σ₁, htype, value, σ₂, hvalue, hrun⟩ := hrun
  refine .afterType htype (.afterOperand (by simp) (hoperand hvalue) ?_)
  split at hrun
  · obtain ⟨i, σ₃, hindex, hrun⟩ := bind_eq_ok.1 hrun
    refine .afterDeclared (declared_of_declare (declaring_indexConstant _) hindex) ?_
    exact made_emitResult rfl rfl (by simp) (by simp [Operand.filterMap_id?_ids]) hrun
  · exact made_emitResult rfl rfl (by simp) (by simp [Operand.id?]) hrun

lemma made_computeSwizzle {vector : Handle .expression} {size : VectorSize} {pattern}
    (hrun : computeSwizzle env operand h size vector pattern σ = .ok id σ') :
    Made env evaluate source Opcode.isPlain [vector] [] σ id σ' := by
  simp only [computeSwizzle, bind_eq_ok] at hrun
  obtain ⟨type, σ₁, htype, value, σ₂, hvalue, hrun⟩ := hrun
  refine .afterType htype (.afterOperand (by simp) (hoperand hvalue) ?_)
  refine made_emitResult rfl rfl (by simp) ?_ hrun
  simp [Operand.id?, Operand.filterMap_id?_words]

lemma made_computeUnary {value : Handle .expression} {op : UnaryOp}
    (hrun : computeUnary env operand h op value σ = .ok id σ') :
    Made env evaluate source Opcode.isPlain [value] [] σ id σ' := by
  simp only [computeUnary, bind_eq_ok, exceptIR_eq_ok, except_eq_ok] at hrun
  obtain ⟨shape, _, ⟨-, rfl⟩, opcode, _, ⟨hop, rfl⟩, type, σ₁, htype, v, σ₂, hv, hrun⟩ := hrun
  refine .afterType htype (.afterOperand (by simp) (hoperand hv) ?_)
  have hplain := isPlain_unaryOpcode hop
  exact made_emitResult hplain (Opcode.isTyped_of_isPlain hplain) (by simp)
    (by simp [Operand.id?]) hrun

lemma made_computeBinary {left right : Handle .expression}
    (hrun : computeBinary env operand h op left right σ = .ok id σ') :
    Made env evaluate source Opcode.isPlain [left, right] [] σ id σ' := by
  simp only [computeBinary, bind_eq_ok, exceptIR_eq_ok, except_eq_ok] at hrun
  obtain ⟨ls, _, ⟨-, rfl⟩, rs, _, ⟨-, rfl⟩, operation, _, ⟨hop, rfl⟩, type, σ₁, htype, l, σ₂, hl, r,
    σ₃, hr, hrun⟩ := hrun
  refine .afterType htype (.afterOperand (by simp) (hoperand hl)
    (.afterOperand (by simp) (hoperand hr) ?_))
  have hplain := isPlain_binaryOperation hop
  have hemit : ∀ {known} {σ₄} {first second}, type ∈ known → first ∈ known →
      second ∈ known → emitResult operation.opcode type (Operand.ids [first, second])
      σ₄ = .ok id σ' → Made env evaluate source Opcode.isPlain [left, right] known σ₄ id σ' := by
    intro known σ₄ first second htype hfirst hsecond hrun
    refine made_emitResult hplain (Opcode.isTyped_of_isPlain hplain) htype ?_ hrun
    simp [Operand.filterMap_id?_ids, hfirst, hsecond]
  cases harr : operation.arrangement with
  | normal | swapped =>
    rw [harr] at hrun
    exact hemit (by simp) (by simp) (by simp) hrun
  | splatLeft | splatRight =>
    simp only [harr, bind_eq_ok, pure_eq_ok] at hrun
    obtain ⟨v, σ₄, hsplat, _, _, ⟨rfl, rfl⟩, hrun⟩ := hrun
    have hsplat : Learns env evaluate source [left, right] [r, l, type] σ₃ v σ₄ :=
      learns_splatOperand (by simp) hsplat
    obtain ⟨_, new, hchain, hv⟩ := hsplat
    exact .after new hchain (hemit (by simp) (by simp_all) (by simp_all) hrun)

lemma made_computeSelect {condition accept reject : Handle .expression}
    (hrun : computeSelect env operand h condition accept reject σ = .ok id σ') :
    Made env evaluate source Opcode.isPlain [condition, accept, reject] [] σ id σ' := by
  simp only [computeSelect, bind_eq_ok, exceptIR_eq_ok] at hrun
  obtain ⟨cs, _, ⟨-, rfl⟩, as, _, ⟨-, rfl⟩, type, σ₁, htype, c, σ₂, hc, a, σ₃, ha, r, σ₄,
    hr, hrun⟩ := hrun
  refine .afterType htype (.afterOperand (by simp) (hoperand hc) (.afterOperand (by simp)
    (hoperand ha) (.afterOperand (by simp) (hoperand hr) ?_)))
  have hemit : ∀ {known} {σ₅} {v}, type ∈ known → v ∈ known → a ∈ known →
      r ∈ known → emitResult .select type (Operand.ids [v, a, r]) σ₅ = .ok id σ' →
      Made env evaluate source Opcode.isPlain [condition, accept, reject] known σ₅ id σ' := by
    intro known σ₅ v htype hv ha hr hrun
    exact made_emitResult rfl rfl htype (by simp [Operand.filterMap_id?_ids, hv, ha, hr]) hrun
  cases hsize : as.vectorSize? with
  | none =>
    rw [hsize] at hrun
    cases cs <;> exact hemit (by simp) (by simp) (by simp) (by simp) hrun
  | some size =>
    rw [hsize] at hrun
    cases cs with
    | scalar =>
      obtain ⟨v, σ₅, hsplat, hrun⟩ := bind_eq_ok.1 hrun
      have hsplat : Learns env evaluate source [condition, accept, reject]
        [r, a, c, type] σ₄ v σ₅ :=
        learns_splat (by simp) hsplat
      obtain ⟨_, new, hchain, hv⟩ := hsplat
      exact .after new hchain (hemit (by simp) hv (by simp) (by simp) hrun)
    | _ => exact hemit (by simp) (by simp) (by simp) (by simp) hrun

lemma computed_computeMath {arg : Handle .expression} {others : Handles}
    (hrun : computeMath env operand h function arg others σ = .ok id σ') :
    Made env evaluate source Opcode.isPlain (arg :: others) [] σ id σ' ∨
      ∃ r, Passes evaluate (arg :: others) σ r id σ' := by
  simp only [computeMath, bind_eq_ok, exceptIR_eq_ok, except_eq_ok] at hrun
  obtain ⟨shape, _, ⟨-, rfl⟩, operation, _, ⟨hop, rfl⟩, type, σ₁, htype, first, σ₂,
    hfirst, rest, σ₃, hrest, hrun⟩ := hrun
  obtain ⟨r₁, hrest⟩ := evaluatesAll_of_mapM hoperand hrest
  have hbefore : ∀ {last},
      Made env evaluate source last (arg :: others) (rest.reverse ++ [first, type]) σ₃ id σ' →
      Made env evaluate source last (arg :: others) [] σ id σ' := fun hmade =>
    .afterType htype (.afterOperand mem_cons_self (hoperand hfirst)
      (.after rest.reverse (hrest.straight (fun g hg => mem_cons_of_mem _ hg) _ _) hmade))
  have harguments : ∀ part ∈ first :: rest, part ∈ rest.reverse ++ [first, type] := by
    intro part hpart
    rcases mem_cons.1 hpart with rfl | hpart
    · simp
    · simp [hpart]
  split at hrun
  · obtain ⟨_, _, hrun, -⟩ := bind_eq_ok.1 hrun
    exact absurd hrun throw_ne_ok
  · rename_i harity
    cases operation with
    | identity =>
      obtain ⟨rfl, rfl⟩ := pure_eq_ok.1 hrun
      have hnone : rest = [] := by
        rw [ne_eq, not_not, arity_of_identity hop] at harity
        exact length_eq_zero_iff.1 (Nat.succ.inj harity)
      subst hnone
      cases hrest
      obtain ⟨r, hfirst⟩ := hoperand hfirst
      exact .inr ⟨r, .operand mem_cons_self
        (extends_of_emit (declaring_expressionType env h).extending htype) hfirst⟩
    | core op =>
      have hplain := isPlain_mathOperation hop
      refine .inl (hbefore (made_emitResult hplain (Opcode.isTyped_of_isPlain hplain)
        (by simp) ?_ hrun))
      rwa [Operand.filterMap_id?_ids]
    | extended op => exact .inl (hbefore (made_emitExtended (by simp) harguments hrun))
    | saturate =>
      simp only [bind_eq_ok] at hrun
      obtain ⟨zero, σ₄, hzero, one, σ₅, hone, hrun⟩ := hrun
      refine .inl (hbefore ?_)
      refine .afterDeclared (declared_of_declare (declaring_nullConstant _) hzero) ?_
      refine .afterDeclared (declared_of_emit (declaring_oneConstant _ _) hone) ?_
      exact made_emitExtended (by simp) (by simp) hrun

lemma computed_computeCast {value : Handle .expression} {width : Option UInt8}
    (hrun : computeCast env operand h value kind width σ = .ok id σ') :
    Made env evaluate source Opcode.isPlain [value] [] σ id σ' ∨ ∃ r, Passes evaluate [value]
      σ r id σ' := by
  simp only [computeCast, bind_eq_ok, exceptIR_eq_ok] at hrun
  obtain ⟨shape, _, ⟨-, rfl⟩, hrun⟩ := hrun
  cases hscalar : shape.scalar? with
  | none =>
    rw [hscalar] at hrun
    exact absurd hrun throw_ne_ok
  | some scalar =>
    simp only [hscalar, bind_eq_ok, exceptIR_eq_ok, except_eq_ok] at hrun
    obtain ⟨operation, _, ⟨hop, rfl⟩, target, _, ⟨-, rfl⟩, type, σ₁, htype, v, σ₂, hv, hrun⟩ := hrun
    have hbefore : Made env evaluate source Opcode.isPlain [value] [v, type] σ₂ id σ' →
        Made env evaluate source Opcode.isPlain [value] [] σ id σ' := fun hmade =>
      .afterType htype (.afterOperand mem_cons_self (hoperand hv) hmade)
    cases operation with
    | identity =>
      obtain ⟨rfl, rfl⟩ := pure_eq_ok.1 hrun
      obtain ⟨r, hv⟩ := hoperand hv
      exact .inr ⟨r, .operand mem_cons_self
        (extends_of_emit (declaring_expressionType env h).extending htype) hv⟩
    | instruction op =>
      have hplain := isPlain_conversion (.inl hop)
      exact .inl (hbefore (made_emitResult hplain (Opcode.isTyped_of_isPlain hplain) (by simp)
        (by simp [Operand.id?]) hrun))
    | boolToNumber =>
      simp only [bind_eq_ok] at hrun
      obtain ⟨one, σ₃, hone, zero, σ₄, hzero, hrun⟩ := hrun
      refine .inl (hbefore ?_)
      refine .afterDeclared (declared_of_emit (declaring_oneConstant _ _) hone) ?_
      refine .afterDeclared (declared_of_declare (declaring_nullConstant _) hzero) ?_
      exact made_emitResult rfl rfl (by simp) (by simp [Operand.filterMap_id?_ids]) hrun
    | numberToBool op =>
      simp only [bind_eq_ok] at hrun
      obtain ⟨sourceType, σ₃, hsource, zero, σ₄, hzero, hrun⟩ := hrun
      refine .inl (hbefore (.afterType hsource ?_))
      refine .afterDeclared (declared_of_declare (declaring_nullConstant _) hzero) ?_
      have hplain := isPlain_conversion (.inr hop)
      exact made_emitResult hplain (Opcode.isTyped_of_isPlain hplain) (by simp)
        (by simp [Operand.filterMap_id?_ids]) hrun

omit hoperand in
lemma computed_composite {parts all : List Id} (htype : σ.Extends σ₁ ∧ σ₁.progress.Declared type)
    (hparts : EvaluatesAll evaluate gs σ₁ r parts σ₂) (hall : ∀ part ∈ all, part ∈ parts)
    (hsame : ∀ part ∈ parts, part ∈ all) (hrun : composite type all σ₂ = .ok id σ') :
      Made env evaluate source Opcode.isPlain gs [] σ id σ' ∨
      ∃ r, Passes evaluate gs σ r id σ' := by
  rcases composite_eq_ok hrun with ⟨hconstant, hext, hdeclared⟩ | hrun
  · exact .inr ⟨r, .constant (fun _ hg => hg) htype.1 hparts
      (fun part hpart => hconstant part (hsame part hpart)) hext hdeclared⟩
  · refine .inl (.afterDeclared htype (.after parts.reverse
      (hparts.straight (fun _ hg => hg) _ _) (made_emitResult rfl rfl (by simp) ?_ hrun)))
    rw [Operand.filterMap_id?_ids]
    intro part hpart
    simp [hall part hpart]

omit hoperand

lemma made_computeArrayLength {array : Handle .expression}
    (hrun : computeArrayLength env array σ = .ok id σ') :
    Made env evaluate source Opcode.isPlain operands [] σ id σ' := by
  simp only [computeArrayLength] at hrun
  cases hbuffer : bufferArray? env array with
  | none =>
    rw [hbuffer] at hrun
    exact absurd hrun throw_ne_ok
  | some buffer =>
    obtain ⟨global, member⟩ := buffer
    simp only [hbuffer, bind_eq_ok, get_eq_ok] at hrun
    obtain ⟨_, _, ⟨rfl, rfl⟩, hrun⟩ := hrun
    cases hplace : σ.progress.globals[global.index]? with
    | none =>
      rw [hplace] at hrun
      exact absurd hrun throw_ne_ok
    | some place =>
      rw [hplace] at hrun
      have hglobal : σ.progress.Declared place.id := .inr (.inr (.inr (.inr (.inl
        ⟨place, Array.mem_of_getElem? hplace, .inl rfl⟩))))
      refine .afterDeclared ⟨.refl σ, hglobal⟩ ?_
      have hemit : ∀ word, (do
          let type ← scalarType .u32
          emitResult .arrayLength type [.id place.id, .word word] : BodyM Id) σ = .ok id σ' →
          Made env evaluate source Opcode.isPlain operands [place.id] σ id σ' := by
        intro word hrun
        obtain ⟨type, σ₁, htype, hrun⟩ := bind_eq_ok.1 hrun
        refine .afterDeclared (declared_of_declare (declaring_scalarType _) htype) ?_
        exact made_emitResult rfl rfl (by simp) (by simp [Operand.id?]) hrun
      obtain ⟨pointer, contents⟩ := place
      cases contents <;> cases member <;> first | exact hemit _ hrun | cases hrun

/-! ### References -/

lemma refers_argumentValue (hrun : argumentValue index σ = .ok id σ') : Refers env σ [] id σ' := by
  simp only [argumentValue, bind_eq_ok, get_eq_ok] at hrun
  obtain ⟨_, _, ⟨rfl, rfl⟩, hrun⟩ := hrun
  cases hslot : σ.arguments[index.toNat]? with
  | none =>
    rw [hslot] at hrun
    exact absurd hrun throw_ne_ok
  | some argument =>
    rw [hslot] at hrun
    obtain ⟨rfl, rfl⟩ := pure_eq_ok.1 hrun
    exact ⟨rfl, .refl σ, .inr (.inl (.inl (Array.mem_of_getElem? hslot)))⟩

lemma refers_localPointer (hrun : localPointer slot σ = .ok id σ') : Refers env σ [] id σ' := by
  simp only [localPointer, bind_eq_ok, get_eq_ok] at hrun
  obtain ⟨_, _, ⟨rfl, rfl⟩, hrun⟩ := hrun
  cases hslot : σ.locals[slot.index]? with
  | none =>
    rw [hslot] at hrun
    exact absurd hrun throw_ne_ok
  | some pointer =>
    rw [hslot] at hrun
    obtain ⟨rfl, rfl⟩ := pure_eq_ok.1 hrun
    exact ⟨rfl, .refl σ, .inr (.inl (.inr (.inl (Array.mem_of_getElem? hslot))))⟩

lemma refers_globalPointer (hrun : globalPointer global σ = .ok id σ') : Refers env σ [] id σ' := by
  simp only [globalPointer, bind_eq_ok, get_eq_ok] at hrun
  obtain ⟨_, _, ⟨rfl, rfl⟩, hrun⟩ := hrun
  cases hcontents : σ.contents.getD global.index none with
  | some pointer =>
    rw [hcontents] at hrun
    obtain ⟨rfl, rfl⟩ := pure_eq_ok.1 hrun
    refine ⟨rfl, .refl σ, .inr (.inl (.inr (.inr ?_)))⟩
    cases hslot : σ.contents[global.index]? with
    | none => simp [hslot] at hcontents
    | some found =>
      obtain rfl : found = some pointer := by simpa [hslot] using hcontents
      exact Array.mem_of_getElem? hslot
  | none =>
    rw [hcontents] at hrun
    cases hplace : σ.progress.globals[global.index]? with
    | none =>
      rw [hplace] at hrun
      exact absurd hrun throw_ne_ok
    | some place =>
      rw [hplace] at hrun
      obtain ⟨rfl, rfl⟩ := pure_eq_ok.1 hrun
      exact ⟨rfl, .refl σ, .inl (.inr (.inr (.inr (.inr (.inl
        ⟨place, Array.mem_of_getElem? hplace, .inl rfl⟩)))))⟩

/-! ### Loads and short circuits -/

lemma straight_atomicOperands (hrun : atomicOperands σ = .ok (scope, semantics) σ') :
    Straight env evaluate source allowed operands ⟨σ, known, pending⟩ []
      ⟨σ', semantics :: scope :: known, pending⟩ := by
  simp only [atomicOperands, bind_eq_ok, pure_eq_ok, Prod.mk.injEq] at hrun
  obtain ⟨_, σ₁, hscope, _, _, hsemantics, ⟨rfl, rfl⟩, rfl⟩ := hrun
  exact .trans (.declared (declared_of_declare (declaring_indexConstant _) hscope))
    (.declared (declared_of_declare (declaring_indexConstant _) hsemantics))

include hoperand in
lemma made_computeLoad (hrun : computeLoad env operand h pointer σ = .ok id σ') :
    Made env evaluate source Opcode.isRead [pointer] [] σ id σ' := by
  simp only [computeLoad, bind_eq_ok, exceptIR_eq_ok] at hrun
  obtain ⟨type, σ₁, htype, atomic, _, ⟨-, rfl⟩, p, σ₂, hp, _, _, hid, hrun⟩ := hrun
  obtain ⟨rfl, rfl⟩ := freshId_eq_ok.1 hid
  refine .afterType htype (.afterOperand mem_cons_self (hoperand hp) ?_)
  split at hrun
  · simp only [bind_eq_ok, pure_eq_ok] at hrun
    obtain ⟨⟨scope, semantics⟩, σ₃, hatomic, _, σ₄, hpush, rfl, rfl⟩ := hrun
    refine ⟨_, _, _, _, _, .trans (.one .issue) (straight_atomicOperands hatomic),
      .result rfl rfl (by simp) ?_ (pushes_of_emit rfl hpush), rfl⟩
    simp [Operand.filterMap_id?_ids]
  · simp only [bind_eq_ok, pure_eq_ok] at hrun
    obtain ⟨_, σ₄, hpush, rfl, rfl⟩ := hrun
    exact ⟨_, _, _, _, _, .one .issue,
      .result rfl rfl (by simp) (by simp [Operand.id?]) (pushes_of_emit rfl hpush), rfl⟩

lemma labelOr_eq_ok (hrun : labelOr cause σ = .ok label σ') : σ.label? = some label ∧ σ' = σ := by
  simp only [labelOr, bind_eq_ok] at hrun
  obtain ⟨found, _, hfound, hrun⟩ := hrun
  obtain ⟨hlabel, rfl⟩ := openLabel?_eq_ok hfound
  rw [← hlabel]
  cases found with
  | none => exact absurd hrun throw_ne_ok
  | some found =>
    obtain ⟨rfl, rfl⟩ := pure_eq_ok.1 hrun
    exact ⟨rfl, rfl⟩

lemma ite_bind [Decidable c] (a b : BodyM α) (next : α → BodyM β) :
    (if c then a >>= next else b >>= next) = (if c then a else b) >>= next := by
  split <;> rfl

include hoperand in
lemma shortCircuits_of_computeShortCircuit {left right : Handle .expression}
    (hrun : computeShortCircuit env operand h op left right σ = .ok id σ') :
    ∃ r, ShortCircuits env evaluate h op left right σ r id σ' := by
  simp only [computeShortCircuit, bind_eq_ok] at hrun
  obtain ⟨type, σ₁, htype, l, σ₂, hl, leftEnd, _, hleftEnd, rightLabel, _, hright, merge, _, hmerge,
    _, σ₃, hpush, hrun⟩ := hrun
  obtain ⟨hleftEnd, rfl⟩ := labelOr_eq_ok hleftEnd
  obtain ⟨rfl, rfl⟩ := freshId_eq_ok.1 hright
  obtain ⟨rfl, rfl⟩ := freshId_eq_ok.1 hmerge
  rw [ite_bind] at hrun
  simp only [bind_eq_ok, get_eq_ok, modify_eq_ok] at hrun
  obtain ⟨_, σ₄, hbranch, _, σ₅, hopen, _, _, ⟨rfl, rfl⟩, r, σ₆, hr, rightEnd, _, hrightEnd, _, σ₇,
    hclose, _, _, rfl, _, σ₈, hopen', hphi⟩ := hrun
  obtain ⟨hrightEnd, rfl⟩ := labelOr_eq_ok hrightEnd
  obtain ⟨r₁, hl⟩ := hoperand hl
  obtain ⟨r₂, hr⟩ := hoperand hr
  obtain ⟨rfl, hphi'⟩ := emitResult_eq_ok rfl hphi
  obtain ⟨htype, hknown⟩ := declared_of_emit (declaring_expressionType env h) htype
  rw [← apply_ite] at hbranch
  exact ⟨_, .intro htype (.inl hknown) hl hleftEnd rfl rfl (pushes_of_emit rfl hpush)
    (closes_of_terminate hbranch) (opens_of_beginBlock hopen) hr hrightEnd
    (closes_of_terminate hclose) (opens_of_beginBlock hopen') hphi'⟩

/-! ### All expressions -/

include hoperand in
/-- Every expression is computed in one of the ways `Computed` describes. -/
lemma computed_of_compute {e : Expression} (hrun : compute env operand h e σ = .ok id σ') :
    ∃ r, Computed env evaluate h e σ r id σ' := by
  cases e with
  | literal literal =>
    obtain ⟨hext, hknown⟩ := declared_of_declare (declaring_literalConstant _) hrun
    exact ⟨[], rfl, hext, .inl hknown⟩
  | constant value =>
    obtain ⟨hext, hknown⟩ := declared_of_emit (declaring_constantId env.toEnv value) hrun
    exact ⟨[], rfl, hext, .inl hknown⟩
  | «override» o =>
    obtain ⟨hext, hknown⟩ := declared_of_emit (declaring_overrideId o) hrun
    exact ⟨[], rfl, hext, .inl hknown⟩
  | zeroValue type =>
    obtain ⟨type, σ₁, htype, hrun⟩ := bind_eq_ok.1 hrun
    have htype := extends_of_emit (declaring_typeId _ _).extending htype
    obtain ⟨hext, hknown⟩ := declared_of_declare (declaring_nullConstant type) hrun
    exact ⟨[], rfl, htype.trans hext, .inl hknown⟩
  | compose type components =>
    simp only [compute, bind_eq_ok] at hrun
    obtain ⟨type, σ₁, htype, parts, σ₂, hparts, hrun⟩ := hrun
    obtain ⟨r, hparts⟩ := evaluatesAll_of_mapM hoperand hparts
    exact exists_or.2 (computed_composite (declared_of_emit (declaring_typeId _ _) htype) hparts
      (fun _ h => h) (fun _ h => h) hrun)
  | argument index => exact ⟨[], refers_argumentValue hrun⟩
  | globalVariable global => exact ⟨[], refers_globalPointer hrun⟩
  | localVariable slot => exact ⟨[], refers_localPointer hrun⟩
  | load pointer => exact made_computeLoad hoperand hrun
  | access base index => exact exists_or.2 (.inl (made_computeAccess hoperand hrun))
  | accessIndex base index => exact exists_or.2 (.inl (made_computeAccessIndex hoperand hrun))
  | swizzle size vector pattern => exact exists_or.2 (.inl (made_computeSwizzle hoperand hrun))
  | splat size value =>
    simp only [compute, bind_eq_ok] at hrun
    obtain ⟨type, σ₁, htype, part, σ₂, hpart, hrun⟩ := hrun
    obtain ⟨r, hpart⟩ := hoperand hpart
    refine exists_or.2 (computed_composite (declared_of_emit (declaring_expressionType _ _) htype)
      (.cons hpart .nil) (fun p hp => ?_) (fun p hp => ?_) hrun)
    · rw [eq_of_mem_replicate hp]
      exact mem_cons_self
    · rw [mem_singleton.1 hp]
      exact mem_replicate.2 ⟨by cases size <;> decide, rfl⟩
  | unary op value => exact exists_or.2 (.inl (made_computeUnary hoperand hrun))
  | binary op left right =>
    simp only [compute] at hrun
    cases hop : op.isShortCircuit with
    | true =>
      simp only [Computed, hop, if_true]
      rw [hop] at hrun
      exact shortCircuits_of_computeShortCircuit hoperand hrun
    | false =>
      simp only [Computed, hop, Bool.false_eq_true, if_false]
      rw [hop] at hrun
      exact made_computeBinary hoperand hrun
  | select condition accept reject => exact exists_or.2 (.inl (made_computeSelect hoperand hrun))
  | math function arg arg1 arg2 => exact exists_or.2 (computed_computeMath hoperand hrun)
  | cast value kind width => exact exists_or.2 (computed_computeCast hoperand hrun)
  | arrayLength array => exact exists_or.2 (.inl (made_computeArrayLength hrun))
  | callResult f | atomicResult type comparison => exact absurd hrun throw_ne_ok

end

lemma get?_of_fetch {a : IR.ExpressionArena} (hfetch : a.fetch h = .ok e) : a.get? h = some e := by
  unfold IR.ExpressionArena.fetch at hfetch
  split at hfetch
  · cases hfetch
    assumption
  · cases hfetch

lemma evaluated_of_expressionWithin {env : FunctionEnv} (depth : Nat) : ∀ ⦃h⦄ ⦃σ⦄ ⦃id⦄ ⦃σ'⦄,
      expressionWithin env depth h σ = .ok id σ' → ∃ r, Evaluated env depth h σ r id σ' := by
  induction depth with
  | zero => exact fun _ _ _ _ hrun => absurd hrun throw_ne_ok
  | succ depth ih =>
    intro h σ id σ' hrun
    simp only [expressionWithin, bind_eq_ok, get_eq_ok] at hrun
    obtain ⟨_, _, ⟨rfl, rfl⟩, hrun⟩ := hrun
    cases hslot : σ.values.get? h with
    | some known =>
      rw [hslot] at hrun
      obtain ⟨rfl, rfl⟩ := pure_eq_ok.1 hrun
      exact ⟨[], .inl ⟨hslot, rfl, rfl⟩⟩
    | none =>
      simp only [hslot, bind_eq_ok, pure_eq_ok, exceptIR_eq_ok, remember, modify_eq_ok] at hrun
      obtain ⟨e, _, ⟨he, rfl⟩, value, σ₁, hvalue, _, _, rfl, _, σ₂, hname, rfl, rfl⟩ := hrun
      obtain ⟨r, hcomputed⟩ := computed_of_compute ih hvalue
      exact ⟨r, .inr ⟨hslot, e, σ₁, get?_of_fetch he, hcomputed,
        extends_of_emit (extending_nameValue env h e value) hname⟩⟩

lemma evaluated_of_expression ⦃h : Handle .expression⦄ ⦃σ : Body⦄ ⦃id : Id⦄ ⦃σ' : Body⦄
    (hrun : expression env h σ = .ok id σ') : ∃ r, Evaluated env env.depth h σ r id σ' :=
  evaluated_of_expressionWithin env.depth hrun

end Shader.Emit
