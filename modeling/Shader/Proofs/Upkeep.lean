import Shader.Proofs.Progress

/-!
# What emission upholds outside functions

A fault is structural if it tells that the construction of the module went out of step, rather than
that something is wrong with the program.  A step of emission keeps the module sound and fails with
other faults only (`Preserves`).  A step that fails leaves a module behind that is sound as well,
but may owe more ids than before.
-/

namespace Shader.Emit

open List Assembly
open IR (Expression Literal Scalar TypeShape)

variable {α ε σ β : Type} {pending pending' owed : List Id} {p p₃ p₂ p' : Progress}

/-! ### Structural faults -/

/-- The construction of the module went out of step. -/
def Inconsistency.isStructural : Inconsistency → Bool
  | shortCircuitOperator | splatOperand | shortCircuitOutsideBlock | shortCircuitClosedBlock
  | inputWithoutMember | framesLeftOpen _ _ => true
  | _ => false

/-- The construction of the module went out of step. -/
def Fault.isStructural : Fault → Bool
  | construction .noFunction | construction (.inconsistent _) => true
  | inconsistent cause => cause.isStructural
  | construction .noTarget | unsupported _ | malformed _ => false

/-! ### How a step ends -/

/-- The step ends with an answer and a state that go together, or with a fault and a state that
do. -/
def Ends {ε σ α : Type} (act : EStateM ε σ α) (s : σ) (post : α → σ → Prop)
    (failed : ε → σ → Prop) : Prop :=
  match act s with
  | .ok a s' => post a s'
  | .error e s' => failed e s'

section

variable {act : EStateM ε σ α} {a : α} {s s' : σ} {post post' : α → σ → Prop}
  {failed failed' : ε → σ → Prop}

lemma Ends.bind {next : α → EStateM ε σ β} {q : α → σ → Prop} {last : β → σ → Prop}
    (h : Ends act s q failed) (h' : ∀ a s', q a s' → Ends (next a) s' last failed) :
    Ends (act >>= next) s last failed := by
  unfold Ends at h ⊢
  cases hact : act s with
  | ok a s' =>
    rw [hact] at h
    rw [bind_ok hact]
    exact h' a s' h
  | error e s' =>
    rw [hact] at h
    rw [bind_error hact]
    exact h

lemma Ends.mono (h : Ends act s post failed) (hpost : ∀ a s', post a s' → post' a s')
    (hfailed : ∀ e s', failed e s' → failed' e s') : Ends act s post' failed' := by
  unfold Ends at h ⊢
  cases hact : act s with
  | ok a s' =>
    rw [hact] at h
    exact hpost a s' h
  | error e s' =>
    rw [hact] at h
    exact hfailed e s' h

lemma Ends.recorded (h : Ends act s post failed) :
    Ends act s (fun a s' => post a s' ∧ act s = .ok a s') failed := by
  unfold Ends at h ⊢
  cases hact : act s with
  | ok a s' =>
    rw [hact] at h
    exact ⟨h, rfl⟩
  | error e s' =>
    rw [hact] at h
    exact h

lemma Ends.of_ok (h : Ends act s post failed) (hrun : act s = .ok a s') : post a s' := by
  unfold Ends at h
  rwa [hrun] at h

end

/-! ### Sound progress -/

variable {fault : Fault}

namespace Progress

/-- The module is sound, and the ids that stand for something are declared, or issued. -/
structure Sound (pending : List Id) (p : Progress) : Prop where
  assembly : p.assembly.Sound pending
  types : ∀ h u, p.types.get? h = some u → p.assembly.Global u
  constants : ∀ h u, p.constants.get? h = some u → p.assembly.Global u
  overrides : ∀ u ∈ p.overrides, p.assembly.Global u
  globals : ∀ place ∈ p.globals, p.assembly.Global place.id ∧
    ∀ u, place.contents = some u → p.assembly.Global u
  functions : ∀ u ∈ p.functions, p.assembly.Issued u

/-- The module grows, and what became of functions stays. -/
structure Follows (p p' : Progress) : Prop where
  grows : p.assembly.Grows p'.assembly
  functions : p'.functions = p.functions
  faults : p'.faults = p.faults

lemma Follows.refl (p : Progress) : p.Follows p := ⟨.refl _, rfl, rfl⟩

lemma Follows.trans {p₁ p₂ : Progress} (h : p₁.Follows p₂) (h' : p₂.Follows p₃) : p₁.Follows p₃ :=
  ⟨h.grows.trans h'.grows, h'.functions.trans h.functions, h'.faults.trans h.faults⟩

lemma Sound.withAssembly (h : p.Sound pending) (hm : m.Sound pending')
    (hgrows : p.assembly.Grows m) :
    (p.withAssembly m).Sound pending' where
  assembly := hm
  types t u hu := hgrows.globals u (h.types t u hu)
  constants t u hu := hgrows.globals u (h.constants t u hu)
  overrides u hu := hgrows.globals u (h.overrides u hu)
  globals place hplace :=
    ⟨hgrows.globals _ (h.globals place hplace).1,
      fun u hu => hgrows.globals u ((h.globals place hplace).2 u hu)⟩
  functions u hu := (h.functions u hu).grows hgrows

/-- What is left behind by a step that failed: more ids may be owed than before. -/
def Failed (pending : List Id) (p : Progress) (fault : Fault) (p' : Progress) : Prop :=
  fault.isStructural = false ∧ (∃ extra, p'.Sound (extra ++ pending)) ∧ p.Follows p'

lemma Failed.after {p₁ : Progress} (h : p.Follows p₁) (h' : p₁.Failed pending fault p₂) :
    p.Failed pending fault p₂ := ⟨h'.1, h'.2.1, h.trans h'.2.2⟩

lemma Failed.frame (h : p.Failed (owed ++ pending) fault p') : p.Failed pending fault p' := by
  obtain ⟨hfault, ⟨extra, hsound⟩, hfollows⟩ := h
  exact ⟨hfault, ⟨extra ++ owed, append_assoc extra owed pending ▸ hsound⟩, hfollows⟩

end Progress

/-! ### Steps that keep progress sound -/

/-- The step keeps progress sound and drafts as they are, and fails with other faults than
structural ones only. -/
def Preserves {α : Type} (g : List (Fact Id)) (act : EmitM α) (facts : α → List (Fact Id)) : Prop :=
  ∀ ⦃p : Progress⦄ ⦃pending⦄, p.Sound pending → p.assembly.Knows g → Ends act p
      (fun a p' => p'.Sound pending ∧ p.Follows p' ∧ p'.assembly.Knows (facts a) ∧
        p'.assembly.draft = p.assembly.draft)
      (p.Failed pending)

namespace Preserves

variable {g : List (Fact Id)} {l : β → List (Assembly.Fact Id)} {k : α → List (Assembly.Fact Id)}

protected lemma pure (h : ∀ x ∈ k a, x ∈ g) : Preserves g (pure a) k :=
  fun p _ hp hg => ⟨hp, .refl p, fun x hx => hg x (h x hx), rfl⟩

protected lemma throw (h : fault.isStructural = false) :
    Preserves g (throw fault) k := fun p _ hp _ => ⟨h, ⟨[], hp⟩, .refl p⟩

/-- One step after the other: the second knows the facts of the first. -/
protected lemma bind {act : EmitM α} {next : α → EmitM β} (h : Preserves g act k)
    (h' : ∀ a, Preserves (k a ++ g) (next a) l) : Preserves g (act >>= next) l := by
  intro p pending hp hg
  refine .bind ((h hp hg).mono (fun _ _ => id) fun _ _ => id) ?_
  rintro a p₁ ⟨hp₁, hfollows, hfacts, hdraft⟩
  refine (h' a hp₁ (hfacts.append (hg.grows hfollows.grows))).mono ?_ fun _ _ => .after hfollows
  rintro b p₂ ⟨hp₂, hfollows', hfacts', hdraft'⟩
  exact ⟨hp₂, hfollows.trans hfollows', hfacts', hdraft'.trans hdraft⟩

lemma mono (h : Preserves g act k) (hg : ∀ x ∈ g, x ∈ g') :
    Preserves g' act k := fun _ _ hp hg' => h hp fun x hx => hg' x (hg x hx)

lemma get {next : Progress → EmitM β} (known : Progress → List (Fact Id))
    (hknown : ∀ ⦃p : Progress⦄ ⦃pending⦄, p.Sound pending → p.assembly.Knows (known p))
    (h : ∀ p, Preserves (known p ++ g) (next p) l) : Preserves g (MonadState.get >>= next) l :=
  fun p _ hp hg => h p hp ((hknown hp).append hg)

lemma modify (hassembly : ∀ p, (change p).assembly = p.assembly)
    (hfunctions : ∀ p, (change p).functions = p.functions)
    (hfaults : ∀ p, (change p).faults = p.faults)
    (h : ∀ ⦃p : Progress⦄ ⦃pending⦄, p.Sound pending → p.assembly.Knows g →
      (change p).Sound pending) :
    Preserves g (modify change : EmitM Unit) fun _ => [] :=
  fun p _ hp hg => ⟨h hp hg, ⟨hassembly p ▸ .refl _, hfunctions p, hfaults p⟩,
    .nil _, congrArg Assembly.Module.draft (hassembly p)⟩

lemma declare (h : Upholds g act k) : Preserves g (liftM act : EmitM α) k := by
  intro p pending hp hg
  obtain ⟨hm, hgrows, hfacts, hdraft⟩ := h hp.assembly hg
  exact ⟨hp.withAssembly hm hgrows, ⟨hgrows, rfl, rfl⟩, hfacts, hdraft⟩

lemma except {x : Except Fault α} (h : ∀ fault, x = .error fault → fault.isStructural = false) :
    Preserves g (liftM x : EmitM α) fun _ => [] := by
  cases x with
  | ok a => exact .pure nofun
  | error fault => exact .throw (h fault rfl)

lemma exceptIR (x : Except IR.Error α) : Preserves g (liftM x : EmitM α) fun _ => [] := by
  cases x with
  | ok a => exact .pure nofun
  | error error => exact .throw rfl

protected lemma mapM {xs : List α} (h : ∀ a ∈ xs, Preserves g (f a) l) :
    Preserves g (xs.mapM f) fun ys => ys.flatMap l := by
  induction xs with
  | nil => exact .pure nofun
  | cons x xs ih =>
    obtain ⟨hx, hxs⟩ := forall_mem_cons.1 h
    rw [mapM_cons]
    refine .bind hx fun y => .bind ((ih hxs).mono fun _ => mem_append_right _) fun ys => .pure ?_
    intro x hx
    simp only [flatMap_cons, mem_append] at hx ⊢
    tauto

protected lemma forM {xs : List α} (h : ∀ a ∈ xs, Preserves g (f a) fun _ => []) :
    Preserves g (xs.forM f) fun _ => [] := by
  induction xs with
  | nil => exact .pure nofun
  | cons x xs ih =>
    obtain ⟨hx, hxs⟩ := forall_mem_cons.1 h
    exact .bind hx fun _ => ih hxs

lemma declareNew {i : Id → Instruction} {next : Id → EmitM β}
    (hresult : ∀ id, (i id).result? = some id)
    (huses : ∀ id, ∀ u ∈ (i id).uses, .global u ∈ g)
    (h : ∀ id, Preserves (.global id :: g) (next id) l) :
    Preserves g (do
      let id ← (liftM freshId : EmitM Id)
      (liftM (pushTo .globals (i id)) : EmitM Unit)
      next id) l := by
  intro p pending hp hg
  obtain ⟨hsound, hgrows, hglobal⟩ := hp.assembly.declare (hresult ⟨p.assembly.bound⟩)
    fun u hu => hg _ (huses _ u hu)
  have hfollows : p.Follows (p.withAssembly (({ p.assembly with bound := p.assembly.bound + 1 } :
    Assembly.Module).pushed .globals (i ⟨p.assembly.bound⟩))) := ⟨hgrows, rfl, rfl⟩
  refine (h ⟨p.assembly.bound⟩ (hp.withAssembly hsound hgrows)
    (forall_mem_cons.2 ⟨hglobal, hg.grows hgrows⟩)).mono ?_ fun _ _ => .after hfollows
  rintro b p₂ ⟨hp₂, hfollows', hfacts', hdraft'⟩
  exact ⟨hp₂, hfollows.trans hfollows', hfacts', hdraft'⟩

end Preserves

/-! ### Types -/

section

variable {g : List (Fact Id)}

lemma isStructural_matrixStrideWithin (m : IR.Module) : ∀ depth h fault,
    matrixStrideWithin m depth h = .error fault → fault.isStructural = false := by
  intro depth
  induction depth with
  | zero =>
    rintro _ _ ⟨⟩
    rfl
  | succ depth ih =>
    intro h fault hfault
    unfold matrixStrideWithin at hfault
    split at hfault
    · cases hfault
      rfl
    · split at hfault
      · cases hfault
      · exact ih _ fault hfault
      · cases hfault

lemma preserves_typeKey (env : Env) {component : Handle .type → EmitM Id}
    (h : ∀ t, Preserves g (component t) ([.global ·])) (type : IR.Ty) :
    Preserves g (typeKey env component type) TypeKey.facts := by
  unfold typeKey
  cases type.shape with
  | scalar | atomic | vector | matrix => exact .pure nofun
  | pointer base space => exact .bind (h base) fun _ => .pure (forall_mem_singleton.2 mem_cons_self)
  | array base size stride =>
    cases size <;> exact .bind (h base) fun _ => .pure (forall_mem_singleton.2 mem_cons_self)
  | struct members span =>
    refine .bind (.mapM (l := fun layout => [.global layout.type]) fun member _ => ?_)
      fun layouts => .pure ?_
    · exact .bind (h member.type) fun _ => .bind (.except (isStructural_matrixStrideWithin _ _ _))
        fun _ => .pure (by simp)
    · intro x hx
      obtain ⟨u, hu, rfl⟩ := mem_map.1 hx
      obtain ⟨layout, hlayout, rfl⟩ := mem_map.1 hu
      exact mem_append_left _ (mem_flatMap.2 ⟨layout, hlayout, mem_cons_self⟩)

lemma preserves_typeIdWithin (env : Env) :
    ∀ depth h, Preserves g (typeIdWithin env depth h) ([.global ·]) := by
  intro depth
  induction depth with
  | zero => exact fun _ => .throw rfl
  | succ depth ih =>
    intro h
    refine .get (fun p => (p.types.get? h).toList.map .global) (fun p _ hp => ?_) fun p => ?_
    · intro x hx
      obtain ⟨u, hu, rfl⟩ := mem_map.1 hx
      exact hp.types h u (Option.mem_toList.1 hu)
    · cases hslot : p.types.get? h with
      | some known => exact .pure (by simp)
      | none =>
        refine .bind (.exceptIR _) fun type => ?_
        refine .bind (preserves_typeKey env (fun t => (ih t).mono fun _ => mem_append_right _) type)
          fun key => ?_
        refine .bind (.declare (upholds_typeId fun _ => mem_append_left _)) fun id => ?_
        refine .bind (.modify (fun _ => rfl) (fun _ => rfl) (fun _ => rfl) fun p _ hp hg => ?_)
          fun _ => .pure (by simp)
        refine { hp with types := fun t u hu => ?_ }
        rcases Slots.get?_set hu with rfl | hu
        · exact hg _ mem_cons_self
        · exact hp.types t u hu

lemma preserves_typeId (env : Env) (h : Handle .type) :
    Preserves g (typeId env h) ([.global ·]) := preserves_typeIdWithin env env.depth h

/-! ### Constants -/

lemma preserves_overrideId (h : Handle .override) : Preserves g (overrideId h) ([.global ·]) := by
  refine .get (fun p => (p.overrides[h.index]?).toList.map .global) (fun p _ hp => ?_) fun p => ?_
  · intro x hx
    obtain ⟨u, hu, rfl⟩ := mem_map.1 hx
    exact hp.overrides u (Array.mem_of_getElem? (Option.mem_toList.1 hu))
  · cases hslot : p.overrides[h.index]? with
    | some known => exact .pure (by simp)
    | none => exact .throw rfl

lemma preserves_constantOf (env : Env) {operand : Handle .expression → EmitM Id}
    (h : ∀ o, ∀ g, Preserves g (operand o) ([.global ·])) (o : Handle .expression)
    (e : Expression) : Preserves g (constantOf env operand o e) ([.global ·]) := by
  cases e with
  | literal literal => exact .declare (upholds_literalConstant literal)
  | constant value => exact h value g
  | «override» o => exact preserves_overrideId o
  | zeroValue type =>
    exact .bind (preserves_typeId env type) fun type =>
      .declare (upholds_nullConstant mem_cons_self)
  | compose type components =>
    refine .bind (preserves_typeId env type) fun type => ?_
    refine .bind (.mapM fun o _ => h o _) fun parts => ?_
    refine .get (fun _ => []) (fun _ _ _ => .nil _) fun p => ?_
    have hconstant : Preserves (parts.flatMap ([Fact.global ·]) ++ ([Fact.global type] ++ g))
        (liftM (constant type (.composite parts)) : EmitM Id) ([.global ·]) := by
      refine .declare (upholds_constant (by simp) fun u hu => ?_)
      exact mem_append_left _ (mem_flatMap.2 ⟨u, hu, mem_cons_self⟩)
    dsimp only
    split
    · exact .bind (k := fun _ => []) (.throw rfl) fun _ => hconstant
    · exact hconstant
  | splat size value =>
    refine .bind (.exceptIR _) fun type => .bind (preserves_typeId env type) fun type => ?_
    refine .bind (h value _) fun part => .declare (upholds_constant (by simp) fun u hu => ?_)
    rw [eq_of_mem_replicate hu]
    exact mem_cons_self
  | _ => exact .throw rfl

lemma preserves_constantIdWithin (env : Env) :
    ∀ depth h, ∀ g, Preserves g (constantIdWithin env depth h) ([.global ·]) := by
  intro depth
  induction depth with
  | zero => exact fun _ _ => .throw rfl
  | succ depth ih =>
    intro h g
    refine .get (fun p => (p.constants.get? h).toList.map .global) (fun p _ hp => ?_) fun p => ?_
    · intro x hx
      obtain ⟨u, hu, rfl⟩ := mem_map.1 hx
      exact hp.constants h u (Option.mem_toList.1 hu)
    · cases hslot : p.constants.get? h with
      | some known => exact .pure (by simp)
      | none =>
        refine .bind (.exceptIR _) fun e => .bind (preserves_constantOf env ih h e) fun id => ?_
        refine .bind (.modify (fun _ => rfl) (fun _ => rfl) (fun _ => rfl) fun p _ hp hg => ?_)
          fun _ => .pure (by simp)
        refine { hp with constants := fun t u hu => ?_ }
        rcases Slots.get?_set hu with rfl | hu
        · exact hg _ mem_cons_self
        · exact hp.constants t u hu

lemma preserves_constantId (env : Env) (h : Handle .expression) :
    Preserves g (constantId env h) ([.global ·]) := preserves_constantIdWithin env env.depth h g

lemma preserves_scalarOne (scalar : Scalar) : Preserves g (scalarOne scalar) ([.global ·]) := by
  have hparts : ∀ value, oneBits? scalar = some value → value.parts = [] := by
    intro value hvalue
    unfold oneBits? at hvalue
    split at hvalue <;> cases hvalue <;> rfl
  unfold scalarOne
  cases hone : oneBits? scalar with
  | none => exact .throw rfl
  | some value =>
    refine .bind (.declare (upholds_scalarType scalar)) fun type =>
      .declare (upholds_constant mem_cons_self ?_)
    rw [hparts value hone]
    exact forall_mem_nil _

lemma preserves_oneConstant (h : .global type ∈ g) (shape : TypeShape) :
    Preserves g (oneConstant type shape) ([.global ·]) := by
  cases shape with
  | scalar scalar => exact preserves_scalarOne scalar
  | vector size scalar =>
    refine .bind (preserves_scalarOne scalar) fun one =>
      .declare (upholds_constant (mem_append_right _ h) fun u hu => ?_)
    rw [eq_of_mem_replicate hu]
    exact mem_cons_self
  | _ => exact .throw rfl

/-! ### Functions and names -/

lemma uses_variable (pointer id : Id) (storage : StorageClass) (init : Option Id) :
    (Instruction.variable pointer id storage init).uses = pointer :: init.toList := by
  refine (Instruction.uses_result rfl ..).trans ?_
  rw [filterMap_cons, Operand.id?, Operand.filterMap_id?_ids]

lemma preserves_functionId (h : Handle .function) : Preserves g (functionId h) ([.issued ·]) := by
  refine .get (fun p => (p.functions[h.index]?).toList.map .issued) (fun p _ hp => ?_) fun p => ?_
  · intro x hx
    obtain ⟨u, hu, rfl⟩ := mem_map.1 hx
    exact hp.functions u (Array.mem_of_getElem? (Option.mem_toList.1 hu))
  · cases hslot : p.functions[h.index]? with
    | some known => exact .pure (by simp)
    | none => exact .throw rfl

end

end Shader.Emit
