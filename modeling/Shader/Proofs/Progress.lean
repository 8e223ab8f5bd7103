import Shader.Emit.Function
import Shader.Proofs.Change

/-!
# What the emission of types and constants leaves alone

A step of emission that does not emit code only extends its progress: the module gets more
declarations, and the ids that handles stand for are declared or issued on the way.
-/

namespace Shader.Emit

open List Assembly
open IR (Expression Literal Scalar TypeShape)

variable {α : Type} {kind : Kind}

/-! ### Running a step -/

section

variable {ε σ β : Type} {act : EStateM ε σ α} {next : α → EStateM ε σ β} {a : α} {b : β} {e : ε}
  {s s' : σ}

lemma bind_ok (h : act s = .ok a s') : (act >>= next) s = next a s' := by
  show EStateM.bind act next s = _
  unfold EStateM.bind
  rw [h]

lemma bind_error (h : act s = .error e s') : (act >>= next) s = .error e s' := by
  show EStateM.bind act next s = _
  unfold EStateM.bind
  rw [h]

lemma bind_eq_ok :
    (act >>= next) s = .ok b s' ↔ ∃ a s₁, act s = .ok a s₁ ∧ next a s₁ = .ok b s' := by
  show EStateM.bind act next s = _ ↔ _
  unfold EStateM.bind
  cases act s with
  | ok a s₁ =>
    constructor
    · exact fun h => ⟨a, s₁, rfl, h⟩
    · rintro ⟨a', s₁', heq, h⟩
      cases heq
      exact h
  | error e s₁ => exact ⟨nofun, nofun⟩

/-- The run ended without a fault. -/
def succeeded (run : EStateM.Result ε σ α) : Bool :=
  match run with
  | .ok .. => true
  | .error .. => false

lemma exists_of_succeeded {r : EStateM.Result ε σ α} (h : succeeded r) : ∃ a s, r = .ok a s := by
  cases r with
  | ok a s => exact ⟨a, s, rfl⟩
  | error => cases h

lemma pure_eq_ok {a' : α} : (pure a : EStateM ε σ α) s = .ok a' s' ↔ a = a' ∧ s = s' := by
  show EStateM.Result.ok a s = .ok a' s' ↔ _
  rw [EStateM.Result.ok.injEq]

lemma ok_eq_ok {ε' : Type} {a' : α} :
    (.ok a' s : EStateM.Result ε σ α) = .ok a s' ↔ (.ok a' : Except ε' α) = .ok a ∧ s = s' := by
  rw [EStateM.Result.ok.injEq, Except.ok.injEq]

lemma map_eq_ok {f : α → β} :
    (f <$> act) s = .ok b s' ↔ ∃ a, act s = .ok a s' ∧ b = f a := by
  show EStateM.map f act s = _ ↔ _
  unfold EStateM.map
  cases act s with
  | ok a s₁ =>
    constructor
    · intro h
      cases h
      exact ⟨a, rfl, rfl⟩
    · rintro ⟨a', h, rfl⟩
      cases h
      rfl
  | error e s₁ => exact ⟨nofun, nofun⟩

lemma throw_ne_ok : (throw e : EStateM ε σ α) s ≠ .ok a s' := nofun

lemma get_eq_ok {s₁ : σ} : (get : EStateM ε σ σ) s = .ok s₁ s' ↔ s = s₁ ∧ s = s' := by
  show EStateM.Result.ok s s = .ok s₁ s' ↔ _
  rw [EStateM.Result.ok.injEq]

lemma modify_eq_ok {change : σ → σ} {u : PUnit} :
    (modify change : EStateM ε σ PUnit) s = .ok u s' ↔ s' = change s := by
  show EStateM.Result.ok _ (change s) = .ok u s' ↔ _
  rw [EStateM.Result.ok.injEq, eq_comm (a := change s)]
  exact ⟨fun h => h.2, fun h => ⟨rfl, h⟩⟩

end

namespace Progress

/-- The progress with another module. -/
def withAssembly (p : Progress) (m : Assembly.Module) : Progress := { p with assembly := m }

/-- The id stands for something outside the code of functions. -/
def Declared (p : Progress) (id : Id) : Prop :=
  p.assembly.Declared id ∨ (∃ h, p.types.get? h = some id) ∨ (∃ h, p.constants.get? h = some id) ∨
    id ∈ p.overrides ∨ (∃ place ∈ p.globals, id = place.id ∨ place.contents = some id) ∨
    id ∈ p.functions

/-- What became of functions so far: those that are finished, and what is wrong with the others. -/
def outcome (p : Progress) : Array Function × Array FunctionFault :=
    (p.assembly.functions, p.faults)

/-- `p'` is `p` with more declarations. -/
structure Extends (p p' : Progress) : Prop where
  draft : p'.assembly.draft = p.assembly.draft
  finished : p'.outcome = p.outcome
  bound : p.assembly.bound ≤ p'.assembly.bound
  fresh : ∀ id, p'.Declared id →
    p.Declared id ∨ (p.assembly.bound ≤ id.number ∧ id.number < p'.assembly.bound)

lemma Extends.refl (p : Progress) : p.Extends p := ⟨rfl, rfl, Nat.le_refl _, fun _ h => .inl h⟩

lemma Extends.trans {p₁ p₂ : Progress} (h : p₁.Extends p₂) (h' : p₂.Extends p₃) :
    p₁.Extends p₃ where
  draft := h'.draft.trans h.draft
  finished := h'.finished.trans h.finished
  bound := Nat.le_trans h.bound h'.bound
  fresh id hid := by
    rcases h'.fresh id hid with hid | ⟨hl, hu⟩
    · rcases h.fresh id hid with hid | ⟨hl, hu⟩
      · exact .inl hid
      · exact .inr ⟨hl, Nat.lt_of_lt_of_le hu h'.bound⟩
    · exact .inr ⟨Nat.le_trans h.bound hl, hu⟩

lemma extends_withAssembly {p : Progress} (h : p.assembly.Extends m) :
    p.Extends (p.withAssembly m) where
  draft := h.draft
  finished := Prod.ext h.functions rfl
  bound := h.bound
  fresh id hid := by
    rcases hid with hid | hid
    · rcases h.fresh id hid with hid | hid
      · exact .inl (.inl hid)
      · exact .inr hid
    · exact .inl (.inr hid)

lemma Extends.enter {p p₁ p₂ : Progress} (h : p.Extends p₁) (hm : p₂.assembly = p₁.assembly)
    (hfaults : p₂.faults = p₁.faults)
    (entered : ∀ x, p₂.Declared x → p₁.Declared x ∨
      (p.assembly.bound ≤ x.number ∧ x.number < p₁.assembly.bound)) : p.Extends p₂ where
  draft := hm ▸ h.draft
  finished := by rw [← h.finished, outcome, outcome, hm, hfaults]
  bound := hm ▸ h.bound
  fresh x hx := by
    rw [hm]
    rcases entered x hx with hx | hx
    · exact h.fresh x hx
    · exact .inr hx

end Progress

/-! ### Steps that only declare -/

/-- The step only declares. -/
def Extending {α : Type} (act : EmitM α) :
    Prop := ∀ ⦃p : Progress⦄ ⦃a p'⦄, act p = .ok a p' → p.Extends p'

/-- The step only declares, and answers with an id that is declared. -/
def Declaring (act : EmitM Id) : Prop :=
  ∀ ⦃p : Progress⦄ ⦃id p'⦄, act p = .ok id p' → p.Extends p' ∧ p'.Declared id

lemma Declaring.extending (h : Declaring act) : Extending act :=
  fun _ _ _ hrun => (h hrun).1

namespace Extending

protected lemma pure (a : α) : Extending (pure a) := by
  intro p b p' hrun
  obtain ⟨-, rfl⟩ := pure_eq_ok.1 hrun
  exact .refl p

protected lemma get : Extending (get : EmitM Progress) := by
  intro p b p' hrun
  obtain ⟨-, rfl⟩ := get_eq_ok.1 hrun
  exact .refl p

protected lemma throw (fault : Fault) : Extending (throw fault : EmitM α) :=
  fun _ _ _ hrun => absurd hrun throw_ne_ok

protected lemma bind {act : EmitM α} {next : α → EmitM β} (h : Extending act)
    (h' : ∀ a, Extending (next a)) : Extending (act >>= next) := by
  intro p b p' hrun
  obtain ⟨a, p₁, hact, hnext⟩ := bind_eq_ok.1 hrun
  exact (h hact).trans (h' a hnext)

lemma declare (h : Assembly.Extending act) : Extending (liftM act : EmitM α) := by
  intro p a p' hrun
  cases hrun
  exact Progress.extends_withAssembly (h p.assembly)

lemma except (x : Except Fault α) : Extending (liftM x : EmitM α) := by
  cases x with
  | ok a => exact .pure a
  | error fault => exact .throw fault

lemma exceptIR (x : Except IR.Error α) : Extending (liftM x : EmitM α) := by
  cases x with
  | ok a => exact .pure a
  | error error => exact .throw _

protected lemma mapM (h : ∀ a, Extending (f a)) (xs : List α) : Extending (xs.mapM f) := by
  induction xs with
  | nil => exact .pure []
  | cons x xs ih =>
    rw [mapM_cons]
    exact .bind (h x) fun y => .bind ih fun ys => .pure (y :: ys)

protected lemma forM (h : ∀ a, Extending (f a)) (xs : List α) : Extending (xs.forM f) := by
  induction xs with
  | nil => exact .pure ()
  | cons x xs ih => exact .bind (h x) fun _ => ih

end Extending

namespace Declaring

protected lemma bind {act : EmitM α} {next : α → EmitM Id} (h : Extending act)
    (h' : ∀ a, Declaring (next a)) : Declaring (act >>= next) := by
  intro p b p' hrun
  obtain ⟨a, p₁, hact, hnext⟩ := bind_eq_ok.1 hrun
  exact ⟨(h hact).trans (h' a hnext).1, (h' a hnext).2⟩

lemma declare (h : Assembly.Declaring act) : Declaring (liftM act : EmitM Id) := by
  intro p a p' hrun
  cases hrun
  exact ⟨Progress.extends_withAssembly (h p.assembly).1, .inl (h p.assembly).2⟩

protected lemma throw (fault : Fault) : Declaring (throw fault : EmitM Id) :=
  fun _ _ _ hrun => absurd hrun throw_ne_ok

end Declaring

/-! ### Types -/

lemma Slots.get?_empty (size : Nat) (h : Handle kind) : (Slots.empty size).get? h = none := by
  simp only [Slots.empty, Slots.get?, Array.getD_eq_getD_getElem?, Array.getElem?_replicate]
  split <;> rfl

lemma Slots.get?_set {s : Slots kind} {id : Id} (hget : (s.set h (some id)).get? h' = some id') :
    id' = id ∨ s.get? h' = some id' := by
  simp only [Slots.set, Slots.get?, Array.getD_eq_getD_getElem?, Array.getElem?_setIfInBounds] at *
  grind

lemma Slots.get?_set_of_get? {s : Slots kind} {id : Id} (hget : s.get? h' = some id) :
    (s.set h (some id)).get? h' = some id := by
  simp only [Slots.set, Slots.get?, Array.getD_eq_getD_getElem?, Array.getElem?_setIfInBounds] at *
  grind

lemma extending_typeKey (env : Env) (h : ∀ t, Extending (component t)) (type : IR.Ty) :
    Extending (typeKey env component type) := by
  unfold typeKey
  cases type.shape with
  | scalar | atomic | vector | matrix => exact .pure _
  | pointer base space => exact .bind (h base) fun _ => .pure _
  | array base size stride => cases size <;> exact .bind (h base) fun _ => .pure _
  | struct members span =>
    refine .bind (.mapM (fun member => ?_) members) fun _ => .pure _
    exact .bind (h member.type) fun _ => .bind (.except _) fun _ => .pure _

lemma declaring_typeIdWithin (env : Env) : ∀ depth h, Declaring (typeIdWithin env depth h) := by
  intro depth
  induction depth with
  | zero => exact fun _ => .throw _
  | succ depth ih =>
    intro h p id p' hrun
    simp only [typeIdWithin, bind_eq_ok, get_eq_ok] at hrun
    obtain ⟨_, _, ⟨rfl, rfl⟩, hrun⟩ := hrun
    cases hslot : p.types.get? h with
    | some known =>
      rw [hslot] at hrun
      obtain ⟨rfl, rfl⟩ := pure_eq_ok.1 hrun
      exact ⟨.refl p, .inr (.inl ⟨h, hslot⟩)⟩
    | none =>
      rw [hslot] at hrun
      simp only [bind_eq_ok, modify_eq_ok, pure_eq_ok] at hrun
      obtain ⟨type, p₁, htype, key, p₂, hkey, new, p₃, hnew, _, p₄, rfl, rfl, rfl⟩ := hrun
      have h₁ := Extending.exceptIR _ htype
      have h₂ := extending_typeKey env (fun t => (ih t).extending) type hkey
      obtain ⟨h₃, hd⟩ := Declaring.declare (Assembly.declaring_typeId key) hnew
      have hall := (h₁.trans h₂).trans h₃
      have hm : p₃.assembly.Declared new := by
        cases hnew
        exact (declaring_typeId key _).2
      refine ⟨hall.enter rfl rfl fun x hx => .inl ?_, .inl hm⟩
      rcases hx with hx | ⟨h', hx⟩ | hx
      · exact .inl hx
      · rcases Slots.get?_set hx with rfl | hx
        · exact .inl hm
        · exact .inr (.inl ⟨h', hx⟩)
      · exact .inr (.inr hx)

lemma declaring_typeId (env : Env) (h : Handle .type) : Declaring (typeId env h) :=
  declaring_typeIdWithin env env.depth h

/-! ### Constants -/

lemma declaring_overrideId (h : Handle .override) : Declaring (overrideId h) := by
  intro p id p' hrun
  simp only [overrideId, bind_eq_ok, get_eq_ok] at hrun
  obtain ⟨_, _, ⟨rfl, rfl⟩, hrun⟩ := hrun
  cases hslot : p.overrides[h.index]? with
  | none =>
    rw [hslot] at hrun
    exact absurd hrun throw_ne_ok
  | some known =>
    rw [hslot] at hrun
    obtain ⟨rfl, rfl⟩ := pure_eq_ok.1 hrun
    exact ⟨.refl p, .inr (.inr (.inr (.inl (Array.mem_of_getElem? hslot))))⟩

lemma declaring_constantOf (env : Env) (h : ∀ o, Declaring (operand o)) (g : Handle .expression)
    (e : Expression) : Declaring (constantOf env operand g e) := by
  cases e with
  | literal literal => exact .declare (declaring_literalConstant literal)
  | constant value => exact h value
  | «override» o => exact declaring_overrideId o
  | zeroValue type =>
    exact .bind (declaring_typeId env type).extending fun type =>
      .declare (declaring_nullConstant type)
  | compose type components =>
    refine .bind (declaring_typeId env type).extending fun type => ?_
    refine .bind (.mapM (fun o => (h o).extending) components) fun parts => ?_
    refine .bind .get fun p => ?_
    dsimp only
    split
    · exact .bind (.throw _) fun _ => .declare (declaring_constant _ _)
    · exact .declare (declaring_constant _ _)
  | splat size value =>
    refine .bind (.exceptIR _) fun type => .bind (declaring_typeId env type).extending fun type =>
      ?_
    exact .bind (h value).extending fun part => .declare (declaring_constant _ _)
  | _ => exact .throw _

lemma declaring_constantIdWithin (env : Env) :
    ∀ depth h, Declaring (constantIdWithin env depth h) := by
  intro depth
  induction depth with
  | zero => exact fun _ => .throw _
  | succ depth ih =>
    intro h p id p' hrun
    simp only [constantIdWithin, bind_eq_ok, get_eq_ok] at hrun
    obtain ⟨_, _, ⟨rfl, rfl⟩, hrun⟩ := hrun
    cases hslot : p.constants.get? h with
    | some known =>
      rw [hslot] at hrun
      obtain ⟨rfl, rfl⟩ := pure_eq_ok.1 hrun
      exact ⟨.refl p, .inr (.inr (.inl ⟨h, hslot⟩))⟩
    | none =>
      rw [hslot] at hrun
      simp only [bind_eq_ok, modify_eq_ok, pure_eq_ok] at hrun
      obtain ⟨e, p₁, he, new, p₂, hnew, _, p₃, rfl, rfl, rfl⟩ := hrun
      obtain ⟨h₂, hd⟩ := declaring_constantOf env ih h e hnew
      refine ⟨((Extending.exceptIR _ he).trans h₂).enter rfl rfl fun x hx => .inl ?_, ?_⟩
      · rcases hx with hx | hx | ⟨h', hx⟩ | hx
        · exact .inl hx
        · exact .inr (.inl hx)
        · rcases Slots.get?_set hx with rfl | hx
          · exact hd
          · exact .inr (.inr (.inl ⟨h', hx⟩))
        · exact .inr (.inr (.inr hx))
      · rcases hd with hd | hd | ⟨h', hd⟩ | hd
        · exact .inl hd
        · exact .inr (.inl hd)
        · exact .inr (.inr (.inl ⟨h', Slots.get?_set_of_get? hd⟩))
        · exact .inr (.inr (.inr hd))

lemma declaring_constantId (env : Env) (h : Handle .expression) : Declaring (constantId env h) :=
  declaring_constantIdWithin env env.depth h

lemma declaring_scalarOne (scalar : Scalar) : Declaring (scalarOne scalar) := by
  unfold scalarOne
  cases oneBits? scalar with
  | none => exact .throw _
  | some value =>
    exact .bind (.declare (declaring_scalarType scalar).extending) fun type =>
      .declare (declaring_constant type value)

lemma declaring_oneConstant (type : Id) (shape : TypeShape) :
    Declaring (oneConstant type shape) := by
  cases shape with
  | scalar scalar => exact declaring_scalarOne scalar
  | vector size scalar =>
    exact .bind (declaring_scalarOne scalar).extending fun one => .declare (declaring_constant _ _)
  | _ => exact .throw _

lemma declaring_functionId (h : Handle .function) : Declaring (functionId h) := by
  intro p id p' hrun
  simp only [functionId, bind_eq_ok, get_eq_ok] at hrun
  obtain ⟨_, _, ⟨rfl, rfl⟩, hrun⟩ := hrun
  cases hslot : p.functions[h.index]? with
  | none =>
    rw [hslot] at hrun
    exact absurd hrun throw_ne_ok
  | some known =>
    rw [hslot] at hrun
    obtain ⟨rfl, rfl⟩ := pure_eq_ok.1 hrun
    exact ⟨.refl p, .inr (.inr (.inr (.inr (.inr (Array.mem_of_getElem? hslot)))))⟩

/-! ### Types and names of expressions -/

lemma declaring_expressionType (env : FunctionEnv) (h : Handle .expression) :
    Declaring (expressionType env h) :=
  .bind (.exceptIR _) fun type => declaring_typeId env.toEnv type

lemma extending_nameValue (env : FunctionEnv) (h : Handle .expression) (e : Expression)
    (id : Id) : Extending (nameValue env h e id) := by
  unfold nameValue
  cases env.function.nameOf? h with
  | none => exact .pure ()
  | some name =>
    refine .bind .get fun p => ?_
    dsimp only
    split
    · exact .pure ()
    · exact .declare (extending_nameTarget _ _)

/-! ### How variables are decorated -/

/-- The decorations of a global variable. -/
def globalDecorations (v : IR.GlobalVariable) : Adornment :=
  (match v.binding with
    | none => []
    | some binding => [(.descriptorSet, some binding.group), (.binding, some binding.binding)]) ++
    if isReadOnly v.space then [(.nonWritable, none)] else []

def builtInDecorations (stage : IR.Stage) (direction : Direction) (builtIn : IR.BuiltIn) :
    Adornment :=
  (.builtIn, some (builtInVariable stage direction builtIn).word) ::
    if builtIn = .position true ∧ direction = .output then [(.invariant, none)] else []

def locationDecorations (stage : IR.Stage) (direction : Direction) (shape : TypeShape)
    (location : UInt32) (interpolation : Option IR.Interpolation) : Adornment :=
  (.location, some location) :: if isVarying stage direction then
      match interpolationDecoration? (shape.scalar?.any fun scalar => scalar.kind.isInteger)
        interpolation with
      | some decoration => [(decoration, none)]
      | none => []
    else []

section

variable {stage : IR.Stage} {direction : Direction}

lemma isBlock_blockDecoration (options : Options) (space : IR.AddressSpace) :
    (options.blockDecoration space).isBlock = true := by
  cases space with
  | storage access =>
    simp only [Options.blockDecoration]
    split <;> rfl
  | _ => rfl

lemma plain_globalDecorations (v : IR.GlobalVariable) : (globalDecorations v).Plain := by
  unfold globalDecorations
  cases v.binding <;> cases isReadOnly v.space <;> rfl

lemma plain_builtInDecorations (builtIn : IR.BuiltIn) :
    (builtInDecorations stage direction builtIn).Plain := by
  unfold builtInDecorations
  split <;> rfl

lemma plain_locationDecorations (shape : TypeShape) (location : UInt32)
    (interpolation : Option IR.Interpolation) :
    (locationDecorations stage direction shape location interpolation).Plain := by
  unfold locationDecorations
  generalize shape.scalar?.any (fun scalar => scalar.kind.isInteger) = integer
  cases isVarying stage direction <;> rcases interpolation with _ | _ | _ | _ <;>
    cases integer <;> rfl

lemma decorateGlobal_eq (id : Id) (v : IR.GlobalVariable) :
    decorateGlobal id v = (do adorn id (globalDecorations v); nameTarget id v.name) := by
  unfold decorateGlobal globalDecorations
  cases v.binding <;> cases isReadOnly v.space <;> rfl

lemma decorateBuiltIn_eq (id : Id) (builtIn : IR.BuiltIn) :
    decorateBuiltIn stage direction id builtIn = adorn id
      (builtInDecorations stage direction builtIn) := by
  cases builtIn with
  | position invariant => cases stage <;> cases direction <;> cases invariant <;> rfl
  | _ => rfl

lemma decorateLocation_of_ok (h : shapeAt env type = .ok shape) (id : Id) (location : UInt32)
    (interpolation : Option IR.Interpolation) :
    decorateLocation env stage direction id type location interpolation =
      liftM (adorn id (locationDecorations stage direction shape location interpolation)) := by
  unfold decorateLocation locationDecorations
  rw [h]
  cases isVarying stage direction with
  | false => rfl
  | true =>
    have hbind (next : _ → EmitM Unit) : liftM (Except.ok shape : Except IR.Error _) >>= next =
      next shape := rfl
    rw [hbind]
    generalize shape.scalar?.any (fun scalar => scalar.kind.isInteger) = integer
    rcases interpolation with _ | _ | _ | _ <;> cases integer <;> rfl

lemma decorateLocation_of_error (h : shapeAt env type = .error error) (id : Id) (location : UInt32)
    (interpolation : Option IR.Interpolation) :
    decorateLocation env stage direction id type location interpolation = (do
      (liftM (adorn id [(.location, some location)]) : EmitM Unit)
      throw (.malformed error)) := by
  unfold decorateLocation
  rw [h]
  rfl

end

end Shader.Emit
