import Shader.Proofs.Denotation

/-!
# What emission obeys, outside functions

A regime tells how a step of emission may change the module (`Regime`).  A step obeys it if the
module changes by elementary changes only, whether it succeeds or fails (`Obeys`).
-/

namespace Shader.Emit

open List Assembly
open IR (Expression Literal Scalar TypeShape)

variable {p p' p₁ p₂ p₃ : Progress} {fault : Fault} {h : Handle .type} {type : IR.Ty}
  {component : Handle .type → EmitM Id}

/-- How the emission of a program may go on. -/
structure Regime (m : IR.Module) (options : Options) extends Law where
  /-- What is true between steps. -/
  Inv : Progress → Prop
  made : ∀ {m : Assembly.Module} {parts}, (∀ u ∈ parts, m.isConstant u) → Made m parts
  keep : ∀ {p q : Progress}, p.assembly.Reaches toLaw q.assembly → q.constants = p.constants →
    q.overrides = p.overrides → Inv p → Inv q
  /-- A new override. -/
  override : ∀ {p : Progress} {id : Id}, p.assembly.isSpecialization id → Inv p →
    Inv { p with overrides := p.overrides.push id }
  importing : imports := by trivial
  drafting : drafts := by trivial

namespace Regime

variable {m : IR.Module} {options : Options} {R : Regime m options} {α β : Type} {scalar : Scalar}

/-- What is true of progress between steps: what the regime asks, and that the ids kept for types
are those they have. -/
structure Good (R : Regime m options) (p : Progress) : Prop where
  inv : R.Inv p
  keyed : p.Keyed m options

/-- What holds between a state and one that emission leads to. -/
structure Later (R : Regime m options) (p p' : Progress) : Prop where
  run : R.Good p → p.assembly.Reaches R.toLaw p'.assembly ∧ R.Good p'
  faults : p'.faults = p.faults
  globals : ¬R.globals → p'.globals = p.globals

lemma Later.refl (p : Progress) : R.Later p p := ⟨fun h => ⟨.refl, h⟩, rfl, fun _ => rfl⟩

lemma Later.trans (h : R.Later p₁ p₂) (h' : R.Later p₂ p₃) : R.Later p₁ p₃ where
  run hp₁ := by
    obtain ⟨hreaches, hp₂⟩ := h.run hp₁
    obtain ⟨hreaches', hp₃⟩ := h'.run hp₂
    exact ⟨hreaches.trans hreaches', hp₃⟩
  faults := h'.faults.trans h.faults
  globals hR := (h'.globals hR).trans (h.globals hR)

lemma Later.of_reaches (h : p.assembly.Reaches R.toLaw p'.assembly) (htypes : p'.types = p.types)
    (hconstants : p'.constants = p.constants) (hoverrides : p'.overrides = p.overrides)
    (hfaults : p'.faults = p.faults)
    (hglobals : ¬R.globals → p'.globals = p.globals := by exact fun _ => rfl) : R.Later p p' :=
  ⟨fun hp => ⟨h, R.keep h hconstants hoverrides hp.inv, hp.keyed.reaches h htypes⟩,
    hfaults, hglobals⟩

/-- The step ends, after which the regime goes on to hold, with an answer of which something is
true. -/
abbrev Yields (R : Regime m options) (act : EmitM α) (p : Progress)
    (post : α → Assembly.Module → Prop) : Prop :=
  Ends act p (fun a p' => R.Later p p' ∧ (R.Good p → post a p'.assembly))
    fun _ p' => R.Later p p'

lemma yields_mapM {q : α → β → Assembly.Module → Prop}
    (hmono : ∀ {x y a a'}, a.Reaches R.toLaw a' → q x y a → q x y a') {xs : List α}
    (h : ∀ x ∈ xs, ∀ p, R.Yields (f x) p (q x)) :
    ∀ p, R.Yields (xs.mapM f) p fun ys a => Forall₂ (fun x y => q x y a) xs ys := by
  induction xs with
  | nil => exact fun p => ⟨.refl p, fun _ => .nil⟩
  | cons x xs ih =>
    obtain ⟨hx, hxs⟩ := forall_mem_cons.1 h
    intro p
    rw [mapM_cons]
    refine .bind (hx p) ?_
    rintro y p₁ ⟨hlater, hy⟩
    refine .bind ((ih hxs p₁).mono (fun _ _ => id) fun _ _ => hlater.trans) ?_
    rintro ys p₂ ⟨hlater', hys⟩
    refine ⟨hlater.trans hlater', fun hp => ?_⟩
    have hp₁ := (hlater.run hp).2
    exact .cons (hmono (hlater'.run hp₁).1 (hy hp)) (hys hp₁)

/-- The step obeys the regime. -/
def Obeys (R : Regime m options) (act : EmitM α) : Prop :=
  ∀ s, Ends act s (fun _ s' => R.Later s s') fun _ s' => R.Later s s'

namespace Obeys

protected lemma pure (a : α) : R.Obeys (pure a : EmitM α) := fun _ => .refl _

protected lemma throw (fault : Fault) : R.Obeys (throw fault : EmitM α) := fun _ => .refl _

variable {act : EmitM α}

lemma bind_run {next : α → EmitM β} (h : R.Obeys act)
    (h' : ∀ a, (∃ s s', act s = .ok a s') → R.Obeys (next a)) : R.Obeys (act >>= next) := by
  intro s
  refine .bind (h s).recorded ?_
  rintro a s₁ ⟨hlater, hrun⟩
  exact (h' a ⟨s, s₁, hrun⟩ s₁).mono (fun _ _ => hlater.trans) fun _ _ => hlater.trans

protected lemma bind {next : α → EmitM β} (h : R.Obeys act) (h' : ∀ a, R.Obeys (next a)) :
    R.Obeys (act >>= next) := h.bind_run fun a _ => h' a

lemma get {next : Progress → EmitM β} (h : ∀ s, R.Obeys (next s)) :
    R.Obeys (MonadState.get >>= next) := fun s => h s s

lemma failing (fault : Fault) (next : α → EmitM β) : R.Obeys (throw fault >>= next) :=
  fun _ => .refl _

lemma modify (h : ∀ s, R.Later s (change s)) :
    R.Obeys (modify change : EmitM Unit) := fun s => h s

protected lemma mapM {f : α → EmitM β} {xs : List α} (h : ∀ x ∈ xs, R.Obeys (f x)) :
    R.Obeys (xs.mapM f) := by
  induction xs with
  | nil => exact .pure []
  | cons x xs ih =>
    obtain ⟨hx, hxs⟩ := forall_mem_cons.1 h
    rw [mapM_cons]
    exact .bind hx fun _ => .bind (ih hxs) fun _ => .pure _

protected lemma forM {f : α → EmitM Unit} {xs : List α} (h : ∀ x ∈ xs, R.Obeys (f x)) :
    R.Obeys (xs.forM f) := by
  induction xs with
  | nil => exact .pure ()
  | cons x xs ih =>
    obtain ⟨hx, hxs⟩ := forall_mem_cons.1 h
    exact .bind hx fun _ => ih hxs

lemma good (h : R.Obeys act) {s s' : Progress} {a : α}
    (hs : R.Good s) (hrun : act s = .ok a s') : R.Good s' :=
  (((h s).of_ok hrun).run hs).2

lemma good_of_forM {f : α → EmitM Unit} {xs : List α} (h : ∀ x ∈ xs, R.Obeys (f x))
    {s s' : Progress} (hs : R.Good s) (hrun : xs.forM f s = .ok () s') :
    ∀ x ∈ xs, ∃ s₁ s₂, R.Good s₁ ∧ f x s₁ = .ok () s₂ := by
  induction xs generalizing s with
  | nil => exact nofun
  | cons x xs ih =>
    obtain ⟨hx, hxs⟩ := forall_mem_cons.1 h
    obtain ⟨_, s₁, hfirst, hrest⟩ := bind_eq_ok.1 hrun
    exact forall_mem_cons.2 ⟨⟨s, s₁, hs, hfirst⟩, ih hxs (hx.good hs hfirst) hrest⟩

end Obeys

/-! ### Steps of the outer layers -/

lemma later_declare {act : DeclareM α} (h : p.assembly.Reaches R.toLaw (act p.assembly).2) :
    R.Later p (p.withAssembly (act p.assembly).2) := .of_reaches h rfl rfl rfl rfl

lemma Obeys.declare (h : Changes R.toLaw act) : R.Obeys (liftM act : EmitM α) :=
  fun p => later_declare (h p.assembly)

/-- The drafts change, and nothing else. -/
def Drafting (act : BuildM α) : Prop :=
  ∀ m, Ends act m (fun _ m' => ∃ d fs, m' = { m with draft := d, functions := fs })
    fun _ m' => ∃ d fs, m' = { m with draft := d, functions := fs }

lemma Obeys.build (h : Drafting act) : R.Obeys (liftM act : EmitM α) := by
  intro p
  have hrun := h p.assembly
  unfold Ends at hrun ⊢
  rw [liftBuild_run]
  cases hact : act p.assembly with
  | ok a m =>
    rw [hact] at hrun
    obtain ⟨d, fs, rfl⟩ := hrun
    exact .of_reaches (.single (.draft _ d fs R.drafting)) rfl rfl rfl rfl
  | error fault m =>
    rw [hact] at hrun
    obtain ⟨d, fs, rfl⟩ := hrun
    exact .of_reaches (.single (.draft _ d fs R.drafting)) rfl rfl rfl rfl

/-- The computation fails with faults only that are not structural. -/
def Spares (x : Except Fault α) : Prop := ∀ fault, x = .error fault → fault.isStructural = false

lemma Spares.ok (a : α) : Spares (.ok a) := by rintro _ ⟨⟩

lemma Spares.fail (h : fault.isStructural = false) : Spares (.error fault : Except Fault α) := by
  rintro _ ⟨⟩
  exact h

lemma Spares.bind {next : α → Except Fault β} (h : Spares x) (h' : ∀ a, Spares (next a)) :
    Spares (x >>= next) := by
  cases hx : x with
  | ok a => exact h' a
  | error fault => exact .fail (h fault hx)

lemma Obeys.exceptIR {x : Except IR.Error α} {next : α → EmitM β} (h : ∀ a, R.Obeys (next a)) :
    R.Obeys ((liftM x : EmitM α) >>= next) := by
  cases x with
  | ok a => exact h a
  | error error => exact fun _ => .refl _

/-! ### Types that are allowed -/

/-- The types of the program are allowed. -/
structure SuitsTypes (R : Regime m options) (m' : IR.Module) : Prop where
  suits : ∀ {h type}, m'.types.get? h = some type → ∀ scalar, type.shape.scalar? = some scalar →
    R.Narrow scalar

/-- The environment is one of the program, whose types are suitable. -/
structure FitsTypes (R : Regime m options) (env : Env) : Prop extends R.SuitsTypes env.module where
  module : env.module = m
  options : env.options = options

/-- The types of a program are allowed, and its constants obey. -/
structure Admits (R : Regime m options) (env : Env) : Prop where
  types : R.FitsTypes env
  constants : ∀ h, R.Obeys (constantId env h)

lemma get?_of_typeAt (hat : m.typeAt h = .ok type) : m.types.get? h = some type := by
  unfold IR.Module.typeAt at hat
  split at hat
  · rw [‹m.types.get? h = _›]
    exact congrArg some (Except.ok.inj hat)
  · cases hat

lemma exists_of_shapeAt (hshape : shapeAt env h = .ok shape) :
    ∃ type, env.module.types.get? h = some type ∧ type.shape = shape := by
  unfold shapeAt at hshape
  cases htype : env.module.typeAt h with
  | error error =>
    rw [htype] at hshape
    cases hshape
  | ok type =>
    rw [htype] at hshape
    exact ⟨type, get?_of_typeAt htype, Except.ok.inj hshape⟩

variable {env : Env}

/-! ### Types -/

lemma spares_matrixStrideWithin (m : IR.Module) :
    ∀ depth h, Spares (matrixStrideWithin m depth h) := by
  intro depth
  induction depth with
  | zero => exact fun _ => .fail rfl
  | succ depth ih =>
    intro h
    unfold matrixStrideWithin
    cases m.typeAt h with
    | error error => exact .fail rfl
    | ok type =>
      dsimp only
      cases type.shape with
      | array base size stride => exact ih base
      | _ => exact .ok _

/-- The structure is that of a type, as far as a module tells: the id it gets there is that of the
type. -/
def KeyOf (m : IR.Module) (options : Options) (type : IR.Ty) (key : TypeKey) (a : Assembly.Module) :
    Prop :=
  ∀ {a' : Assembly.Module} {h id}, (∀ k i, a.types.lookup k = some i → a'.types.lookup k = some i) →
    m.types.get? h = some type → a'.types.lookup key = some id → Denotes m options a'.types h id

section

variable (htypes : R.FitsTypes env)
include htypes

lemma yields_member (h : ∀ p, R.Yields (component member.type) p fun id a => Denotes m options
    a.types member.type id) (p : Progress) : R.Yields (do
      let type ← component member.type
      let matrixStride ← (liftM (matrixStride env member.type) : EmitM (Option UInt32))
      return ({ type, name := member.name, offset := member.offset, matrixStride } : MemberLayout))
        p
      fun layout a => Denotes m options a.types member.type layout.type ∧
        LaysOut m member layout := by
  refine .bind (h p) ?_
  rintro id p₁ ⟨hlater, hid⟩
  cases hstride : matrixStride env member.type with
  | error fault => exact hlater
  | ok stride =>
    refine ⟨hlater, fun hp => ⟨hid hp, rfl, rfl, env.depth, ?_⟩⟩
    rw [← htypes.module]
    exact hstride

/-- The key of a type describes it, if the ids of its components denote them. -/
lemma yields_typeKey (hsuits : ∀ scalar, type.shape.scalar? = some scalar → R.Narrow scalar)
    (h : ∀ c ∈ type.shape.components, ∀ p,
      R.Yields (component c) p fun id a => Denotes m options a.types c id) (p : Progress) :
    R.Yields (typeKey env component type) p fun key a =>
      KeyOf m options type key a ∧ R.Permits key ∧ key.block? = none := by
  obtain ⟨name, shape⟩ := type
  cases shape with
  | scalar scalar => exact ⟨.refl p, fun _ => ⟨fun _ hget hid => .scalar hget hid, hsuits, rfl⟩⟩
  | atomic scalar => exact ⟨.refl p, fun _ => ⟨fun _ hget hid => .atomic hget hid, hsuits, rfl⟩⟩
  | vector size scalar =>
    exact ⟨.refl p, fun _ => ⟨fun _ hget hid => .vector hget hid, hsuits, rfl⟩⟩
  | matrix columns rows scalar =>
    exact ⟨.refl p, fun _ => ⟨fun _ hget hid => .matrix hget hid, hsuits, rfl⟩⟩
  | pointer base space =>
    refine .bind (h base mem_cons_self p) ?_
    rintro b p₁ ⟨hlater, hb⟩
    refine ⟨hlater, fun hp => ⟨fun hmono hget hid => .pointer hget ((hb hp).mono hmono)
      ?_, nofun, rfl⟩⟩
    rwa [htypes.options] at hid
  | array base size stride =>
    cases size with
    | fixed length =>
      refine .bind (h base mem_cons_self p) ?_
      rintro b p₁ ⟨hlater, hb⟩
      exact ⟨hlater, fun hp => ⟨fun hmono hget hid => .array hget ((hb hp).mono hmono)
        hid, nofun, rfl⟩⟩
    | runtime =>
      refine .bind (h base mem_cons_self p) ?_
      rintro b p₁ ⟨hlater, hb⟩
      exact ⟨hlater, fun hp => ⟨fun hmono hget hid => .runtimeArray hget ((hb hp).mono hmono)
        hid, nofun, rfl⟩⟩
  | struct members span =>
    have hcomponent : ∀ member ∈ members, member.type ∈
      (TypeShape.struct members span).components :=
      fun member hmember => mem_map.2 ⟨member, hmember, rfl⟩
    have hmembers := yields_mapM (fun {member layout a _} hreaches ⟨hdenotes, hlays⟩ =>
        have hdenotes : Denotes m options a.types member.type layout.type := hdenotes
        ⟨hdenotes.reaches hreaches, hlays⟩)
      fun member hmember => yields_member htypes (h _ (hcomponent member hmember))
    refine .bind (hmembers p) ?_
    rintro layouts p₁ ⟨hlater, hlayouts⟩
    refine ⟨hlater, fun hp => ?_⟩
    have hlength := (hlayouts hp).length_eq
    have hall : ∀ (k : Nat) (member : IR.StructMember) (layout : MemberLayout),
        members[k]? = some member → layouts[k]? = some layout →
          Denotes m options p₁.assembly.types member.type layout.type ∧
          LaysOut m member layout := by
      intro k member layout hmember hlayout
      obtain ⟨hk, rfl⟩ := List.getElem?_eq_some_iff.1 hmember
      obtain ⟨hk', rfl⟩ := List.getElem?_eq_some_iff.1 hlayout
      exact (hlayouts hp).get hk hk'
    refine ⟨fun hmono hget hid => .struct hget hlength.symm
      (fun k member layout hm hl => (hall k member layout hm hl).1.mono hmono)
      (fun k member layout hm hl => (hall k member layout hm hl).2) hid, nofun, rfl⟩

/-- The id that a type gets denotes it. -/
lemma yields_typeIdWithin : ∀ depth h p,
      R.Yields (typeIdWithin env depth h) p fun id a => Denotes m options a.types h id := by
  intro depth
  induction depth with
  | zero => exact fun _ p => .refl p
  | succ depth ih =>
    intro h p
    refine .bind (q := fun q p' => p = q ∧ p = p') ⟨rfl, rfl⟩ ?_
    rintro _ _ ⟨rfl, rfl⟩
    cases hslot : p.types.get? h with
    | some id => exact ⟨.refl p, fun hp => hp.keyed h id hslot⟩
    | none =>
      cases htype : env.module.typeAt h with
      | error error => exact .refl p
      | ok type =>
        have hkeys := yields_typeKey htypes (htypes.suits (get?_of_typeAt htype)) fun c _ => ih c
        refine .bind (q := fun t p' => type = t ∧ p = p') ⟨rfl, rfl⟩ ?_
        rintro _ _ ⟨rfl, rfl⟩
        refine .bind (hkeys p) ?_
        rintro key p₁ ⟨hlater, hkey⟩
        have hreaches (hp : R.Good p) : p₁.assembly.Reaches R.toLaw
          (Assembly.typeId key p₁.assembly).2 :=
          reaches_typeId (hkey hp).2.1 (by rw [(hkey hp).2.2]; nofun)
        have hdenotes : R.Good p → Denotes m options (Assembly.typeId key p₁.assembly).2.types h
            (Assembly.typeId key p₁.assembly).1 := by
          intro hp
          refine (hkey hp).1 (fun _ _ => (hreaches hp).lookup_types) ?_
            (lookup_typeId key p₁.assembly)
          rw [← htypes.module]
          exact get?_of_typeAt htype
        refine ⟨⟨fun hp => ?_, hlater.faults, hlater.globals⟩, hdenotes⟩
        obtain ⟨hreaches₁, hp₁⟩ := hlater.run hp
        have hkeyed : (p₁.withAssembly (Assembly.typeId key p₁.assembly).2).Keyed m options :=
          hp₁.keyed.reaches (hreaches hp) rfl
        exact ⟨hreaches₁.trans (hreaches hp), R.keep (hreaches hp) rfl rfl hp₁.inv,
          hkeyed.set (hdenotes hp)⟩

lemma obeys_typeIdWithin (depth : Nat) (h : Handle .type) : R.Obeys (typeIdWithin env depth h) :=
  fun p => (yields_typeIdWithin htypes depth h p).mono (fun _ _ h => h.1) fun _ _ h => h

lemma obeys_typeId (h : Handle .type) : R.Obeys (typeId env h) :=
  obeys_typeIdWithin htypes env.depth h

end

/-! ### Constants -/

lemma obeys_overrideId (h : Handle .override) : R.Obeys (overrideId h) := by
  refine .get fun p => ?_
  cases p.overrides[h.index]? with
  | some known => exact .pure known
  | none => exact .throw _

lemma oneBits?_ne_composite (h : oneBits? scalar = some value) :
    ∀ parts, value ≠ .composite parts := by
  unfold oneBits? at h
  split at h <;> cases h <;> nofun

lemma obeys_scalarOne (scalar : Scalar) : R.Obeys (scalarOne scalar) := by
  unfold scalarOne
  cases hone : oneBits? scalar with
  | none => exact .throw _
  | some value =>
    refine .bind (.declare (changes_scalarType (Law.narrow_of_kind fun hkind => ?_))) fun type =>
      .declare (changes_constant type (oneBits?_ne_composite hone))
    unfold oneBits? at hone
    rw [hkind] at hone
    cases hone

lemma isConstant_of_scalarOne {id : Id} (h : scalarOne scalar p = .ok id p') :
    p'.assembly.isConstant id := by
  unfold scalarOne at h
  cases hone : oneBits? scalar with
  | none =>
    rw [hone] at h
    cases h
  | some value =>
    rw [hone] at h
    obtain ⟨type, p₁, -, hconstant⟩ := bind_eq_ok.1 h
    cases hconstant
    exact isConstant_iff.2 ⟨_, mem_of_lookup (lookup_constant type value _)⟩

lemma obeys_oneConstant (type : Id) (shape : TypeShape) : R.Obeys (oneConstant type shape) := by
  cases shape with
  | scalar scalar => exact obeys_scalarOne scalar
  | vector size scalar =>
    intro p
    refine .bind (obeys_scalarOne scalar p).recorded ?_
    rintro one p₁ ⟨hlater, hrun⟩
    refine hlater.trans (later_declare (reaches_constant fun parts heq => ?_))
    obtain rfl := ConstantValue.composite.inj heq
    refine R.made fun u hu => ?_
    rw [eq_of_mem_replicate hu]
    exact isConstant_of_scalarOne hrun
  | _ => exact .throw _

/-! ### Overrides -/

lemma get?_of_fetch {a : IR.ExpressionArena} {h : Handle .expression} {e : Expression}
    (hfetch : a.fetch h = .ok e) : a.get? h = some e := by
  unfold IR.ExpressionArena.fetch at hfetch
  split at hfetch
  · rw [‹a.get? h = _›]
    exact congrArg some (Except.ok.inj hfetch)
  · cases hfetch

lemma spares_overrideLiteralWithin (m : IR.Module) :
    ∀ depth h, Spares (overrideLiteralWithin m depth h) := by
  intro depth
  induction depth with
  | zero => exact fun _ => .fail rfl
  | succ depth ih =>
    intro h
    unfold overrideLiteralWithin
    cases m.constants.fetch h with
    | error error => exact .fail rfl
    | ok e =>
      cases e with
      | literal literal => exact .ok _
      | constant value => exact ih value
      | zeroValue type =>
        dsimp only
        split
        · exact .fail rfl
        · split
          · exact .ok _
          · exact .fail rfl
        · exact .fail rfl
      | _ => exact .fail rfl

/-! ### Constants of regimes that ask nothing of composites -/

/-- The regime asks nothing of constant composites, and nothing of what constants are known. -/
structure Free (R : Regime m options) : Prop where
  made : ∀ m parts, R.Made m parts
  inv : ∀ {p : Progress} (slots : Slots .expression), R.Inv p → R.Inv { p with constants := slots }

lemma Obeys.composite (hfree : R.Free) (type : Id) (parts : List Id) :
    R.Obeys (liftM (constant type (.composite parts)) : EmitM Id) :=
  .declare fun _ => reaches_constant fun _ _ => hfree.made _ _

lemma obeys_constantOf (hfree : R.Free) (htypes : R.FitsTypes env) (h : Handle .expression)
    (e : Expression) {operand : Handle .expression → EmitM Id}
    (hoperand : ∀ g, R.Obeys (operand g)) :
    R.Obeys (constantOf env operand h e) := by
  cases e with
  | literal literal => exact .declare (changes_literalConstant literal)
  | constant value => exact hoperand value
  | «override» o => exact obeys_overrideId o
  | zeroValue type =>
    exact .bind (obeys_typeId htypes type) fun _ => .declare (changes_nullConstant _)
  | compose type components =>
    refine .bind (obeys_typeId htypes type) fun _ => ?_
    refine .bind (.mapM fun g _ => hoperand g) fun parts => .get fun p => ?_
    dsimp only
    split
    · exact .failing _ _
    · exact .composite hfree _ _
  | splat size value =>
    refine .exceptIR fun t => .bind (obeys_typeId htypes t) fun _ => ?_
    exact .bind (hoperand value) fun _ => .composite hfree _ _
  | _ => exact .throw _

lemma obeys_constantIdWithin (hfree : R.Free) (htypes : R.FitsTypes env) :
    ∀ depth h, R.Obeys (constantIdWithin env depth h) := by
  intro depth
  induction depth with
  | zero => exact fun _ => .throw _
  | succ depth ih =>
    intro h
    refine .get fun p => ?_
    cases p.constants.get? h with
    | some known => exact .pure known
    | none =>
      refine .exceptIR fun e => .bind (obeys_constantOf hfree htypes h e ih) fun id => ?_
      exact .bind (.modify fun p => ⟨fun hp => ⟨.refl, hfree.inv _ hp.inv, hp.keyed⟩,
        rfl, fun _ => rfl⟩) fun _ => .pure id

lemma Free.admits (hfree : R.Free) (htypes : R.FitsTypes env) : R.Admits env :=
  ⟨htypes, obeys_constantIdWithin hfree htypes env.depth⟩

end Regime

end Shader.Emit
