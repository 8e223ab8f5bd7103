import Shader.Proofs.Approximation
import Shader.Proofs.Standing
import Shader.Proofs.Upkeep

/-!
# What becomes of types and constants

Types and constant expressions are emitted when they are first asked for, and remembered.  Still,
whether that succeeds, with which fault it fails, and what a constant can be used for, does not
depend on what was emitted before: there is an outcome for every type and every constant expression
of a program (`typeOutcome`, `constantOutcome`) that emission comes to from any state that it can be
in (`finds_typeId`, `finds_constantId`).
-/

namespace Shader.Emit

open List Assembly
open IR (Expression TypeShape)

variable {overrides : Nat} {a : Assembly.Module} {env : Env}

/-! ### Outcomes -/

/-- The column stride, given those of the types that a type refers to. -/
def strideStep (m : IR.Module) : Inquiry .type (Option UInt32) := fun stride h =>
  match m.typeAt h with
  | .error error => .error (.malformed error)
  | .ok type =>
    match type.shape with
    | .matrix _ rows scalar => .ok (some (columnStride rows scalar))
    | .array base _ _ => stride base
    | _ => .ok none

def strideOutcome (m : IR.Module) : Handle .type → Except Fault (Option UInt32) :=
  limit (strideStep m) m.types.size

/-- What becomes of a type with the given shape, given what becomes of its components. -/
def shapeOutcome (stride : Handle .type → Except Fault (Option UInt32))
    (component : Handle .type → Except Fault Unit) : TypeShape → Except Fault Unit
  | .pointer base _ | .array base _ _ => component base
  | .struct members _ => do
    let _ ← members.mapM fun member => do
      component member.type
      stride member.type
    return ()
  | _ => .ok ()

def typeStep (m : IR.Module) : Inquiry .type Unit := fun component h =>
  match m.typeAt h with
  | .error error => .error (.malformed error)
  | .ok type => shapeOutcome (strideOutcome m) component type.shape

/-- What becomes of a type. -/
def typeOutcome (m : IR.Module) : Handle .type → Except Fault Unit :=
    limit (typeStep m) m.types.size

/-- What becomes of a constant expression, given what becomes of its operands and how many overrides
there are. -/
def valueOutcome (m : IR.Module) (overrides : Nat)
    (operand : Handle .expression → Except Fault Standing)
    (h : Handle .expression) : Expression → Except Fault Standing
  | .literal _ => .ok .fixed
  | .constant value => operand value
  | .override o =>
    if o.index < overrides then .ok .adjustable else .error (.inconsistent (.undeclaredOverride o))
  | .zeroValue type => do
    typeOutcome m type
    return .fixed
  | .compose type components => do
    typeOutcome m type
    let parts ← components.mapM operand
    if parts.any Standing.specialization then .error (.unsupported .compositeOfOverrides)
      else .ok .fixed
  | .splat _ value =>
    match m.constants.typeOf h with
    | .error error => .error (.malformed error)
    | .ok type => do
      typeOutcome m type
      let _ ← operand value
      return .fixed
  | e => .error (.unsupported (.constantExpression e))

def constantStep (m : IR.Module) (overrides : Nat) : Inquiry .expression Standing :=
    fun operand h =>
  match m.constants.fetch h with
  | .error error => .error (.malformed error)
  | .ok e => valueOutcome m overrides operand h e

/-- What becomes of a constant expression. -/
def constantOutcome (m : IR.Module) (overrides : Nat) :
    Handle .expression → Except Fault Standing :=
  limit (constantStep m overrides) m.constants.size

section

variable {m : IR.Module}

lemma typeAt_outside (hout : m.types.size ≤ h.index) :
    m.typeAt h = .error (.badHandle h.index m.types.size) := by
  unfold IR.Module.typeAt
  cases hget : m.types.get? h with
  | none => rfl
  | some type => exact absurd (Arena.get?_eq_some_lt hget) (Nat.not_lt.2 hout)

lemma fetch_outside (hout : m.constants.size ≤ h.index) :
    m.constants.fetch h = .error (.badHandle h.index m.constants.size) := by
  unfold IR.ExpressionArena.fetch
  cases hget : m.constants.get? h with
  | none => rfl
  | some e => exact absurd (Arena.get?_eq_some_lt hget) (Nat.not_lt.2 hout)

lemma guarded_strideStep : (strideStep m).Guarded m.types.size where
  mono hfg h := by
    unfold strideStep
    split
    · exact .refl _
    · split
      · exact .refl _
      · exact hfg _
      · exact .refl _
  outside f g h hout := by
    unfold strideStep
    rw [typeAt_outside hout]

lemma below_shapeOutcome (hfg : ∀ h, Below (f h) (g h)) (shape : TypeShape) :
    Below (shapeOutcome stride f shape) (shapeOutcome stride g shape) := by
  cases shape with
  | pointer base space => exact hfg base
  | array base length stride => exact hfg base
  | struct members span =>
    exact (Below.mapM _ fun member => (hfg _).bind fun _ => .refl _).bind fun _ => .refl _
  | _ => exact .refl _

lemma guarded_typeStep : (typeStep m).Guarded m.types.size where
  mono hfg h := by
    unfold typeStep
    split
    · exact .refl _
    · exact below_shapeOutcome hfg _
  outside f g h hout := by
    unfold typeStep
    rw [typeAt_outside hout]

lemma below_valueOutcome (hfg : ∀ h, Below (f h) (g h)) (h : Handle .expression) (e : Expression) :
    Below (valueOutcome m overrides f h e) (valueOutcome m overrides g h e) := by
  cases e with
  | constant value => exact hfg value
  | compose type components =>
    exact (Below.refl _).bind fun _ => (Below.mapM _ hfg).bind fun _ => .refl _
  | splat size value =>
    simp only [valueOutcome]
    split
    · exact .refl _
    · exact (Below.refl _).bind fun _ => (hfg value).bind fun _ => .refl _
  | _ => exact .refl _

lemma guarded_constantStep : (constantStep m overrides).Guarded m.constants.size where
  mono hfg h := by
    unfold constantStep
    split
    · exact .refl _
    · exact below_valueOutcome hfg h _
  outside f g h hout := by
    unfold constantStep
    rw [fetch_outside hout]

lemma matrixStrideWithin_eq_approx (depth : Nat) :
    matrixStrideWithin m depth = approx (strideStep m) depth := by
  induction depth with
  | zero => rfl
  | succ depth ih =>
    funext h
    show _ = strideStep m (approx (strideStep m) depth) h
    rw [← ih]
    rfl

end

/-! ### Uniform progress -/

/-- The environment is one of a program with the given types and constant expressions, and lets all
references between these be followed. -/
structure Env.Serves (m : IR.Module) (env : Env) : Prop where
  types : env.module.types = m.types
  constants : env.module.constants = m.constants
  typesDepth : m.types.size < env.depth
  constantsDepth : m.constants.size < env.depth

namespace Progress

/-- What was emitted so far has come out as it always does. -/
structure Uniform (m : IR.Module) (n : Nat) (p : Progress) : Prop where
  orderly : p.assembly.Orderly
  count : p.overrides.size = n
  overrides : ∀ id ∈ p.overrides, p.assembly.Holds id .adjustable
  types : ∀ h id, p.types.get? h = some id → p.assembly.Holds id .plain ∧ typeOutcome m h = .ok ()
  constants : ∀ h id, p.constants.get? h = some id →
    ∃ s, p.assembly.Holds id s ∧ constantOutcome m n h = .ok s

/-- Declarations were added, but not of what a program declares outside its functions. -/
structure Later (p q : Progress) : Prop where
  enters : p.assembly.tables.Enters q.assembly.tables
  overrides : q.overrides = p.overrides
  globals : q.globals = p.globals
  functions : q.functions = p.functions

/-- Declarations were added, while no function was worked on. -/
structure Adds (p q : Progress) : Prop extends Later p q where
  faults : q.faults = p.faults
  draft : q.assembly.draft = p.assembly.draft

lemma Later.refl (p : Progress) : p.Later p := ⟨.refl _, rfl, rfl, rfl⟩

variable {p₃ : Progress}

lemma Later.trans {p₁ p₂ : Progress} (h : p₁.Later p₂) (h' : p₂.Later p₃) : p₁.Later p₃ :=
  ⟨h.enters.trans h'.enters, h'.overrides.trans h.overrides, h'.globals.trans h.globals,
    h'.functions.trans h.functions⟩

lemma Adds.refl (p : Progress) : p.Adds p := ⟨.refl p, rfl, rfl⟩

lemma Adds.trans {p₁ p₂ : Progress} (h : p₁.Adds p₂) (h' : p₂.Adds p₃) : p₁.Adds p₃ :=
  ⟨h.toLater.trans h'.toLater, h'.faults.trans h.faults, h'.draft.trans h.draft⟩

lemma adds_withAssembly {p : Progress} (h : p.assembly.Adds a) :
    p.Adds (p.withAssembly a) := ⟨⟨h.enters, rfl, rfl, rfl⟩, rfl, h.draft⟩

lemma Uniform.withAssembly {p : Progress} (h : p.Uniform m overrides) (horderly : a.Orderly)
    (henters : p.assembly.tables.Enters a.tables) : (p.withAssembly a).Uniform m overrides where
  orderly := horderly
  count := h.count
  overrides id hid := henters.holds (h.overrides id hid)
  types t id hid := ⟨henters.holds (h.types t id hid).1, (h.types t id hid).2⟩
  constants t id hid := by
    obtain ⟨s, hholds, houtcome⟩ := h.constants t id hid
    exact ⟨s, henters.holds hholds, houtcome⟩

end Progress

lemma Slots.get?_set_cases {s : Slots kind} {id : Id}
    (hget : (s.set h (some id)).get? h' = some id') :
    h' = h ∧ id' = id ∨ s.get? h' = some id' := by
  obtain ⟨i⟩ := h
  obtain ⟨j⟩ := h'
  simp only [Slots.set, Slots.get?, Array.getD_eq_getD_getElem?, Array.getElem?_setIfInBounds,
    Handle.mk.injEq] at *
  grind

/-! ### Steps with an outcome -/

section

variable {m : IR.Module} {p : Progress} {α β α' β' : Type}

/-- From a state, the step comes to the second of two outcomes, or gives up where the first one
does. -/
def Finds (m : IR.Module) (overrides : Nat) (p : Progress) (low high : Except Fault β)
    (act : EmitM α) (V : Assembly.Module → α → β → Prop) : Prop :=
  Ends act p (fun a q => q.Uniform m overrides ∧ p.Adds q ∧ ∃ b, high = .ok b ∧ V q.assembly a b)
    fun fault q => q.Uniform m overrides ∧ p.Adds q ∧
      (high = .error fault ∨ low = exhausted ∧ fault = .inconsistent .circular)

namespace Finds

variable {low high : Except Fault β} {V V' : Assembly.Module → α → β → Prop} {act : EmitM α}

protected lemma pure {a : α} {b : β} (hp : p.Uniform m overrides) (hV : V p.assembly a b) :
    Finds m overrides p low (.ok b) (pure a) V := ⟨hp, .refl p, b, rfl, hV⟩

protected lemma throw (hp : p.Uniform m overrides) :
    Finds m overrides p low (.error fault) (throw fault) V := ⟨hp, .refl p, .inl rfl⟩

lemma read {next : Progress → EmitM α} (h : Finds m overrides p low high (next p) V) :
    Finds m overrides p low high (get >>= next) V := h

protected lemma bind {next : α → EmitM α'} {lowNext highNext : β → Except Fault β'}
    (h : Finds m overrides p low high act V) (hbelow : Below low high)
    (h' : ∀ a b q, q.Uniform m overrides → high = .ok b → V q.assembly a b →
      Finds m overrides q (lowNext b) (highNext b) (next a) W) :
    Finds m overrides p (low >>= lowNext) (high >>= highNext) (act >>= next) W := by
  refine Ends.bind (h.mono (fun _ _ => id) ?_) ?_
  · rintro fault q ⟨hq, hadds, hfault | ⟨hlow, rfl⟩⟩
    · exact ⟨hq, hadds, .inl (by rw [hfault]; rfl)⟩
    · exact ⟨hq, hadds, .inr ⟨by rw [hlow]; rfl, rfl⟩⟩
  · rintro a q ⟨hq, hadds, b, rfl, hV⟩
    refine (h' a b q hq rfl hV).mono ?_ ?_
    · rintro c r ⟨hr, hadds', hc⟩
      exact ⟨hr, hadds.trans hadds', hc⟩
    · rintro fault r ⟨hr, hadds', hfault | ⟨hlow, rfl⟩⟩
      · exact ⟨hr, hadds.trans hadds', .inl hfault⟩
      · refine ⟨hr, hadds.trans hadds', .inr ⟨?_, rfl⟩⟩
        -- the first step gives up, or comes to what the second one starts from
        rcases hbelow with rfl | rfl
        · rfl
        · exact hlow

lemma weaken (h : Finds m overrides p low high act V) (hV : ∀ a x b, V a x b → V' a x b) :
    Finds m overrides p low high act V' := by
  refine h.mono ?_ fun _ _ => id
  rintro a q ⟨hq, hadds, b, hb, hab⟩
  exact ⟨hq, hadds, b, hb, hV _ _ _ hab⟩

lemma mapM {lows highs : γ → Except Fault β} (hp : p.Uniform m overrides)
    (hV : ∀ {a a' : Assembly.Module} {x b}, a.tables.Enters a'.tables → V a x b → V a' x b)
    (hbelow : ∀ x, Below (lows x) (highs x))
    (h : ∀ x q, q.Uniform m overrides → Finds m overrides q (lows x) (highs x) (f x) V)
    (xs : List γ) :
    Finds m overrides p (xs.mapM lows) (xs.mapM highs) (xs.mapM f) fun a as bs =>
    Forall₂ (V a) as bs := by
  induction xs generalizing p with
  | nil => exact .pure hp .nil
  | cons x xs ih =>
    rw [mapM_cons, mapM_cons, mapM_cons]
    refine (h x p hp).bind (hbelow x) fun a b q hq _ hab => ?_
    have hrest := ih hq
    -- what is known about the first answer stays true while the others are found
    have hkept : Finds m overrides q (xs.mapM lows) (xs.mapM highs) (xs.mapM f) fun n as bs =>
        V n a b ∧ Forall₂ (V n) as bs := by
      refine hrest.mono ?_ fun _ _ => id
      rintro as r ⟨hr, hadds, bs, hbs, has⟩
      exact ⟨hr, hadds, bs, hbs, hV hadds.enters hab, has⟩
    exact hkept.bind (Below.mapM xs hbelow) fun as bs r hr _ has => .pure hr (.cons has.1 has.2)

lemma declare {act : DeclareM Id} {low : Except Fault Standing} (h : Assigns act s)
    (hp : p.Uniform m overrides) :
    Finds m overrides p low (.ok s) (liftM act : EmitM Id) Assembly.Module.Holds := by
  have hadds := h.1 p.assembly hp.orderly
  exact ⟨hp.withAssembly hadds.orderly hadds.enters, Progress.adds_withAssembly hadds, s, rfl,
    h.2 p.assembly hp.orderly⟩

end Finds

/-! ### Types -/

lemma typeAt_congr {m' : IR.Module} (htypes : m'.types = m.types) (h : Handle .type) :
    m'.typeAt h = m.typeAt h := by
  unfold IR.Module.typeAt
  rw [htypes]

lemma matrixStride_eq_outcome (henv : env.Serves m) (h : Handle .type) :
    matrixStride env h = strideOutcome m h := by
  have hstep : strideStep env.module = strideStep m := by
    unfold strideStep
    simp only [typeAt_congr henv.types]
  unfold matrixStride
  rw [matrixStrideWithin_eq_approx, hstep, approx_eq_limit guarded_strideStep henv.typesDepth]
  rfl

/-- There is nothing to know about the answer. -/
def Anything {α β : Type} (_ : Assembly.Module) (_ : α) (_ : β) : Prop := True

lemma finds_typeKey (henv : env.Serves m) {component : Handle .type → EmitM Id}
    {low : Handle .type → Except Fault Unit} (hlow : ∀ h, Below (low h) (typeOutcome m h))
    (hcomponent : ∀ h q, q.Uniform m overrides →
      Finds m overrides q (low h) (typeOutcome m h) (component h) fun a id _ => a.Holds id .plain)
    (hp : p.Uniform m overrides) (type : IR.Ty) :
    Finds m overrides p (shapeOutcome (strideOutcome m) low type.shape)
      (shapeOutcome (strideOutcome m) (typeOutcome m) type.shape) (typeKey env component type)
      Anything := by
  have hone : ∀ (base : Handle .type) (key : Id → TypeKey),
      Finds m overrides p (low base) (typeOutcome m base)
      (component base >>= fun id => pure (key id))
        Anything := by
    intro base key
    rw [← bind_pure (low base), ← bind_pure (typeOutcome m base)]
    exact (hcomponent base p hp).bind (hlow base) fun _ _ q hq _ _ => .pure hq trivial
  unfold typeKey
  cases type.shape with
  | scalar | atomic | vector | matrix => exact .pure hp trivial
  | pointer base space => exact hone base _
  | array base length stride => cases length <;> exact hone base _
  | struct members span =>
    refine Finds.bind (Finds.weaken (Finds.mapM hp (fun _ _ => trivial)
      ?_ ?_ members) fun _ _ _ _ => trivial) ?_ fun _ _ q hq _ _ => .pure hq trivial
    · exact fun member => (hlow _).bind fun _ => .refl _
    · intro member q hq
      refine (hcomponent _ q hq).bind (hlow _) fun id _ r hr _ _ => ?_
      rw [matrixStride_eq_outcome henv]
      cases strideOutcome m member.type with
      | error fault => exact .throw hr
      | ok stride => exact .pure hr trivial
    · exact Below.mapM _ fun member => (hlow _).bind fun _ => .refl _

/-- What asking for a type comes to is decided by the program alone. -/
lemma finds_typeIdWithin (henv : env.Serves m) (depth : Nat) (h : Handle .type)
    (hp : p.Uniform m overrides) :
    Finds m overrides p (approx (typeStep m) depth h) (typeOutcome m h) (typeIdWithin env depth h)
      fun a id _ => a.Holds id .plain := by
  induction depth generalizing h p with
  | zero => exact ⟨hp, .refl p, .inr ⟨rfl, rfl⟩⟩
  | succ depth ih =>
    have houtcome : typeOutcome m h = typeStep m (typeOutcome m) h :=
      congrFun (limit_eq_step guarded_typeStep) h
    refine .read ?_
    cases hcached : p.types.get? h with
    | some id =>
      obtain ⟨hholds, hok⟩ := hp.types h id hcached
      rw [hok]
      exact .pure hp hholds
    | none =>
      rw [typeAt_congr henv.types]
      show Finds m overrides p (typeStep m (approx (typeStep m) depth) h) _ _ _
      rw [houtcome]
      cases htype : m.typeAt h with
      | error error =>
        simp only [typeStep, htype]
        exact .throw hp
      | ok type =>
        simp only [typeStep, htype]
        have hstep : typeOutcome m h = shapeOutcome (strideOutcome m) (typeOutcome m)
          type.shape := by
          rw [houtcome]
          simp only [typeStep, htype]
        -- at this depth the key may be missing, but where there is one it is the final one
        rw [← bind_pure (shapeOutcome (strideOutcome m) (approx (typeStep m) depth) type.shape),
          ← bind_pure (shapeOutcome (strideOutcome m) (typeOutcome m) type.shape)]
        have hlow := approx_below_limit (guarded_typeStep (m := m)) depth
        refine (finds_typeKey henv hlow (fun h q hq => ih h hq) hp type).bind
          (below_shapeOutcome hlow _) fun key _ q hq hok _ => ?_
        have hid := assigns_typeId key
        have hadds := hid.1 q.assembly hq.orderly
        have hholds := hid.2 q.assembly hq.orderly
        have huniform := hq.withAssembly hadds.orderly hadds.enters
        refine ⟨{ huniform with types := fun h' id' hget => ?_ },
          ⟨⟨hadds.enters, rfl, rfl, rfl⟩, rfl, hadds.draft⟩, (), rfl, hholds⟩
        rcases Slots.get?_set_cases hget with ⟨rfl, rfl⟩ | hold
        · exact ⟨hholds, hstep.trans hok⟩
        · exact huniform.types h' id' hold

lemma finds_typeId (henv : env.Serves m) (h : Handle .type) (hp : p.Uniform m overrides) :
    Finds m overrides p (typeOutcome m h) (typeOutcome m h) (typeId env h)
      fun a id _ => a.Holds id .plain := by
  have hfinds := finds_typeIdWithin henv env.depth h hp
  rw [approx_eq_limit guarded_typeStep henv.typesDepth] at hfinds
  exact hfinds

/-! ### Constants -/

lemma finds_overrideId (h : Handle .override) (hp : p.Uniform m overrides)
    (low : Except Fault Standing) :
    Finds m overrides p low
      (if h.index < overrides then .ok .adjustable else .error
        (.inconsistent (.undeclaredOverride h)))
      (overrideId h) Assembly.Module.Holds := by
  refine .read ?_
  cases hget : p.overrides[h.index]? with
  | some id =>
    have hlt : h.index < overrides := hp.count ▸ (Array.getElem?_eq_some_iff.1 hget).1
    rw [if_pos hlt]
    exact .pure hp (hp.overrides id (Array.mem_of_getElem? hget))
  | none =>
    have hge : ¬h.index < overrides := Nat.not_lt.2 (hp.count ▸ Array.getElem?_eq_none_iff.1 hget)
    rw [if_neg hge]
    exact .throw hp

lemma any_specialization (h : Forall₂ a.Holds ids ss) :
    ids.any a.isSpecialization = ss.any Standing.specialization := by
  induction h with
  | nil => rfl
  | cons hholds _ ih =>
    rw [any_cons, any_cons, ih, ← hholds.standing]
    rfl

lemma finds_constantOf (henv : env.Serves m) {operand : Handle .expression → EmitM Id}
    {low : Handle .expression → Except Fault Standing}
    (hlow : ∀ h, Below (low h) (constantOutcome m overrides h))
    (hoperand : ∀ h q, q.Uniform m overrides →
      Finds m overrides q (low h) (constantOutcome m overrides h) (operand h) Assembly.Module.Holds)
    (hp : p.Uniform m overrides) (h : Handle .expression) (e : Expression) :
    Finds m overrides p (valueOutcome m overrides low h e)
      (valueOutcome m overrides (constantOutcome m overrides) h e) (constantOf env operand h e)
      Assembly.Module.Holds := by
  cases e with
  | literal literal => exact .declare (assigns_literalConstant literal) hp
  | constant value => exact hoperand value p hp
  | override o => exact finds_overrideId o hp _
  | zeroValue type =>
    exact (finds_typeId henv type hp).bind (.refl _) fun id _ q hq _ _ =>
      .declare (assigns_constant id .null) hq
  | compose type components =>
    refine (finds_typeId henv type hp).bind (.refl _) fun id _ q hq _ _ => ?_
    refine (Finds.mapM (V := Assembly.Module.Holds) hq (fun henters => henters.holds) hlow hoperand
      components).bind
      (Below.mapM _ hlow) fun parts ss r hr _ hparts => ?_
    refine .read ?_
    dsimp only
    rw [any_specialization hparts]
    split
    · exact .throw hr
    · exact .declare (assigns_constant id _) hr
  | splat size value =>
    simp only [valueOutcome, constantOf]
    rw [henv.constants]
    cases m.constants.typeOf h with
    | error error => exact .throw hp
    | ok type =>
      exact (finds_typeId henv type hp).bind (.refl _) fun id _ q hq _ _ =>
        (hoperand value q hq).bind (hlow value) fun part _ r hr _ _ =>
          .declare (assigns_constant id _) hr
  | _ => exact .throw hp

/-- What asking for a constant comes to is decided by the program alone. -/
lemma finds_constantIdWithin (henv : env.Serves m) (depth : Nat) (h : Handle .expression)
    (hp : p.Uniform m overrides) :
    Finds m overrides p (approx (constantStep m overrides) depth h) (constantOutcome m overrides h)
      (constantIdWithin env depth h) Assembly.Module.Holds := by
  induction depth generalizing h p with
  | zero => exact ⟨hp, .refl p, .inr ⟨rfl, rfl⟩⟩
  | succ depth ih =>
    have houtcome : constantOutcome m overrides h = constantStep m overrides
      (constantOutcome m overrides) h :=
      congrFun (limit_eq_step guarded_constantStep) h
    refine .read ?_
    cases hcached : p.constants.get? h with
    | some id =>
      obtain ⟨s, hholds, hok⟩ := hp.constants h id hcached
      rw [hok]
      exact .pure hp hholds
    | none =>
      rw [henv.constants]
      show Finds m overrides p (constantStep m overrides (approx (constantStep m overrides)
        depth) h) _ _ _
      rw [houtcome]
      cases hfetch : m.constants.fetch h with
      | error error =>
        simp only [constantStep, hfetch]
        exact .throw hp
      | ok e =>
        simp only [constantStep, hfetch]
        have hstep : constantOutcome m overrides h =
            valueOutcome m overrides (constantOutcome m overrides) h e := by
          rw [houtcome]
          simp only [constantStep, hfetch]
        rw [← bind_pure (valueOutcome m overrides (approx (constantStep m overrides) depth) h e),
          ← bind_pure (valueOutcome m overrides (constantOutcome m overrides) h e)]
        have hlow :=
          approx_below_limit (guarded_constantStep : (constantStep m overrides).Guarded _) depth
        refine (finds_constantOf henv hlow (fun h q hq => ih h hq) hp h e).bind
          (below_valueOutcome hlow h e) fun id s q hq hok hholds => ?_
        refine ⟨{ hq with constants := fun h' id' hget => ?_ },
          ⟨⟨.refl _, rfl, rfl, rfl⟩, rfl, rfl⟩, s, rfl, hholds⟩
        rcases Slots.get?_set_cases hget with ⟨rfl, rfl⟩ | hold
        · exact ⟨s, hholds, hstep.trans hok⟩
        · exact hq.constants h' id' hold

lemma finds_constantId (henv : env.Serves m) (h : Handle .expression) (hp : p.Uniform m overrides) :
    Finds m overrides p (constantOutcome m overrides h) (constantOutcome m overrides h)
      (constantId env h)
      Assembly.Module.Holds := by
  have hfinds := finds_constantIdWithin henv env.depth h hp
  rw [approx_eq_limit guarded_constantStep henv.constantsDepth] at hfinds
  exact hfinds

end

end Shader.Emit
