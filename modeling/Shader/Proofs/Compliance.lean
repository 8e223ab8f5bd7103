import Shader.Proofs.Regime

/-!
# What emission obeys, from declarations to whole modules

Every step of emission obeys every regime that allows the types of the program: those that declare
what is outside functions, those that emit the body of a function, and the attempts at functions,
whose failures are kept.
-/

namespace Shader.Emit

open List
open Assembly
open IR (Expression Literal Scalar TypeShape Statement SwitchCase BinaryOp UnaryOp
  MathFunction VectorSize ScalarKind)

variable {α β : Type} {id pointer contents pointee : Id} {type : Handle .type}

namespace Regime

variable {m : IR.Module} {options : Options} {R : Regime m options} {f : IR.Function}

/-- The program may be emitted under the regime. -/
structure FitsProgram (R : Regime m options) : Prop where
  declares : R.globals
  admits : ∀ depth, R.Admits ⟨m, options, depth⟩

/-! ### Steps that keep progress sound, and obey -/

/-- The step keeps progress sound, and obeys the regime. -/
structure Sustains (R : Regime m options) {α : Type} (g : List (Fact Id)) (act : EmitM α)
    (facts : α → List (Fact Id)) : Prop where
  preserves : Preserves g act facts
  obeys : R.Obeys act

section

variable {g : List (Fact Id)} {ds : Adornment}

lemma Obeys.newVariable (hvariables : R.globals) (pointer : Id) (storage : StorageClass)
    (init : Option Id) (hds : ds.Plain) {f : Id → EmitM α} (h : ∀ id, R.Obeys (f id)) : R.Obeys (do
      let id ← (liftM freshId : EmitM Id)
      (liftM (pushTo .globals (.variable pointer id storage init)) : EmitM Unit)
      (liftM (adorn id ds) : EmitM Unit)
      f id) := by
  intro p
  have hchange := Assembly.Module.Change.global p.assembly pointer storage init hvariables hds
  have hlater : R.Later p (p.withAssembly (adorn ⟨p.assembly.bound⟩ ds
      (({ p.assembly with bound := p.assembly.bound + 1 } : Assembly.Module).pushed .globals
        (.variable pointer ⟨p.assembly.bound⟩ storage init))).2) := by
    rw [adorn_apply]
    exact .of_reaches (.single hchange) rfl rfl rfl rfl
  exact (h ⟨p.assembly.bound⟩ _).mono (fun _ _ => hlater.trans) fun _ _ => hlater.trans

namespace Sustains

protected lemma pure (h : ∀ x ∈ k a, x ∈ g) : R.Sustains g (pure a) k := ⟨.pure h, .pure a⟩

variable {l : β → List (Assembly.Fact Id)} {k : α → List (Assembly.Fact Id)}

protected lemma bind {next : α → EmitM β} (h : R.Sustains g act k)
    (h' : ∀ a, R.Sustains (k a ++ g) (next a) l) : R.Sustains g (act >>= next) l :=
  ⟨.bind h.preserves fun a => (h' a).preserves, .bind h.obeys fun a => (h' a).obeys⟩

lemma declare (h : Upholds g act k) (h' : Changes R.toLaw act) :
    R.Sustains g (liftM act : EmitM α) k := ⟨.declare h, .declare h'⟩

lemma except {next : α → EmitM β} (hx : Spares x) (h : ∀ a, x = .ok a → R.Sustains g (next a) l) :
    R.Sustains g ((liftM x : EmitM α) >>= next) l := by
  cases hrun : x with
  | ok a => exact h a hrun
  | error fault =>
    exact ⟨fun p _ hp _ => ⟨hx fault hrun, ⟨[], hp⟩, .refl p⟩, fun _ => .refl _⟩

lemma exceptIR {x : Except IR.Error α} {next : α → EmitM β} (h : ∀ a, R.Sustains g (next a) l) :
    R.Sustains g ((liftM x : EmitM α) >>= next) l := by
  cases x with
  | ok a => exact h a
  | error error => exact ⟨fun p _ hp _ => ⟨rfl, ⟨[], hp⟩, .refl p⟩, fun _ => .refl _⟩

protected lemma forM {f : α → EmitM Unit} {xs : List α}
    (h : ∀ a ∈ xs, R.Sustains g (f a) fun _ => []) :
    R.Sustains g (xs.forM f) fun _ => [] :=
  ⟨.forM fun a ha => (h a ha).preserves, .forM fun a ha => (h a ha).obeys⟩

lemma newVariable (hglobals : R.globals) (hpointer : .global pointer ∈ g)
    (storage : StorageClass) {init : Option Id} (hinit : ∀ u ∈ init.toList, .global u ∈ g)
    (hds : ds.Plain)
    {f : Id → EmitM β} (h : ∀ id, R.Sustains (.global id :: g) (f id) l) : R.Sustains g (do
      let id ← (liftM freshId : EmitM Id)
      (liftM (pushTo .globals (.variable pointer id storage init)) : EmitM Unit)
      (liftM (adorn id ds) : EmitM Unit)
      f id) l := by
  refine ⟨.declareNew (fun id => Instruction.result?_result rfl ..) (fun id u hu => ?_)
    fun id => .bind (.declare ((upholds_adorns (.inr mem_cons_self)).adorn ds)) fun _ =>
      (h id).preserves, .newVariable hglobals _ _ _ hds fun id => (h id).obeys⟩
  rw [uses_variable] at hu
  rcases mem_cons.1 hu with rfl | hu
  · exact hpointer
  · exact hinit u hu

end Sustains

end

section

variable {env : Env} {g : List (Fact Id)}

lemma sustains_typeId (htypes : R.FitsTypes env) (h : Handle .type) :
    R.Sustains g (typeId env h) ([.global ·]) := ⟨preserves_typeId env h, obeys_typeId htypes h⟩

/-! ### Overrides -/

lemma spares_checkedDefault (env : Env) (name : String) (o : IR.Override) :
    Spares (checkedDefault env name o) := by
  have hdefault : ∀ scalar, Spares (overrideDefault env name scalar o.init) := by
    intro scalar
    unfold overrideDefault
    cases o.init with
    | some init => exact spares_overrideLiteralWithin _ _ _
    | none =>
      dsimp only
      split
      · exact .ok _
      · exact .fail rfl
  unfold checkedDefault
  cases shapeAt env o.type with
  | error error => exact .fail rfl
  | ok shape =>
    cases shape with
    | scalar scalar =>
      refine .bind (x := overrideDefault env name scalar o.init) (hdefault scalar) fun literal => ?_
      split
      · exact .ok _
      · exact .fail rfl
    | _ => exact .fail rfl

lemma sustains_declareOverride (env : Env) (number : Nat) (h : Handle .override) (o : IR.Override) :
    R.Sustains g (declareOverride env number h o) fun _ => [] := by
  refine .except (spares_checkedDefault env _ o) fun default _ => ⟨?_, fun p => ?_⟩
  · refine .bind (.declare (upholds_specialization default)) fun id => ?_
    refine .bind (.declare (upholds_decorate (.inr mem_cons_self) _ _)) fun _ => ?_
    refine .bind (.declare (upholds_nameTarget (.inr mem_cons_self) _)) fun _ => ?_
    refine .modify (fun _ => rfl) (fun _ => rfl) (fun _ => rfl) fun p _ hp hg => ?_
    refine { hp with overrides := fun u hu => ?_ }
    rcases Array.mem_push.1 hu with hu | rfl
    · exact hp.overrides u hu
    · exact hg _ mem_cons_self
  · have hspecial := contains_iff_mem.2 (mem_specialization default p.assembly)
    have hnumbered := reaches_numbered (L := R.toLaw) (m := p.assembly) default
      (UInt32.ofNat number)
    have hname := changes_nameTarget (L := R.toLaw) (specialization default p.assembly).1
      (o.name.getD s!"override{h.index}")
      ((specialization default p.assembly).2.pushed .annotations
        (.decorate (specialization default p.assembly).1 .specId [UInt32.ofNat number]))
    have hreaches := hnumbered.trans hname
    exact ⟨fun hp => ⟨hreaches, R.override (hname.isSpecialization hspecial)
      (R.keep hreaches rfl rfl hp.inv), hp.keyed.reaches hreaches rfl⟩, rfl, fun _ => rfl⟩

lemma sustains_declareOverridesFrom (env : Env) (claimed : List Nat)
    (overrides : List (Handle .override × IR.Override)) :
    ∀ next, R.Sustains g (declareOverridesFrom env claimed next overrides) fun _ => [] := by
  induction overrides with
  | nil => exact fun _ => .pure nofun
  | cons entry rest ih =>
    exact fun next => .bind (sustains_declareOverride env _ entry.1 entry.2) fun _ => ih _

/-! ### Global variables -/

lemma sustains_variableType (hblocks : R.blocks) (space : IR.AddressSpace)
    (h : .global contents ∈ g) :
    R.Sustains g (variableType env space type contents) fun answer => [.global answer.1] := by
  unfold variableType
  split
  · refine .exceptIR fun shape => ?_
    split
    · exact .bind (.declare (upholds_decorateBlock (.inr h) _) (changes_decorateBlock hblocks _ _))
        fun _ => .pure (forall_mem_singleton.2 h)
    · have hstride := spares_matrixStrideWithin env.module env.depth type
      refine .except (hstride.bind fun _ => .ok _) fun layout hlayout => ?_
      unfold wrapper matrixStride at hlayout
      cases hrun : matrixStrideWithin env.module env.depth type with
      | error fault =>
        rw [hrun] at hlayout
        cases hlayout
      | ok stride =>
        rw [hrun] at hlayout
        cases hlayout
        refine .bind (.declare (upholds_typeId (forall_mem_singleton.2 h)) fun _ =>
          reaches_typeId nofun ?_) fun _ => .pure (by simp)
        rintro _ ⟨⟩
        exact hblocks
  · exact .pure (forall_mem_singleton.2 h)

lemma sustains_globalInit (henv : R.Admits env) (h : .global pointee ∈ g) :
    R.Sustains g (globalInit env pointee v) fun init => init.toList.map .global := by
  unfold globalInit
  split
  · exact .bind ⟨preserves_constantId env _, henv.constants _⟩ fun _ => .pure (by simp)
  · exact .bind (.declare (upholds_nullConstant h) (changes_nullConstant _)) fun _ =>
      .pure (by simp)
  · exact .pure nofun

lemma sustains_declareGlobal (henv : R.Admits env) (hblocks : R.blocks) (hglobals : R.globals)
    (v : IR.GlobalVariable) : R.Sustains g (declareGlobal env v) fun _ => [] := by
  simp only [declareGlobal, decorateGlobal_eq]
  refine .bind (sustains_typeId henv.types _) fun contents => ?_
  refine .bind (.declare (upholds_pointerType mem_cons_self _) (changes_pointerType _ _))
    fun contentsPointer => ?_
  refine .bind (sustains_variableType hblocks _ (by simp)) fun ⟨pointee, wrapped⟩ => ?_
  refine .bind (.declare (upholds_pointerType mem_cons_self _) (changes_pointerType _ _))
    fun pointer => ?_
  refine .bind (sustains_globalInit henv (by simp)) fun init => ?_
  refine .newVariable (f := fun id => do
    (liftM (nameTarget id v.name) : EmitM Unit)
    modify fun p => { p with globals := p.globals.push ⟨id, if wrapped then some
      contentsPointer else none⟩ })
    hglobals (mem_append_right _ mem_cons_self) _ (fun u hu => ?_)
      (plain_globalDecorations v) fun id => ?_
  · exact mem_append_left _ (mem_map.2 ⟨u, hu, rfl⟩)
  · refine .bind (.declare (upholds_nameTarget (.inr mem_cons_self) _) (changes_nameTarget _ _))
      fun _ => ⟨?_, .modify fun p => .of_reaches .refl rfl rfl rfl rfl (absurd hglobals)⟩
    refine .modify (fun _ => rfl) (fun _ => rfl) (fun _ => rfl) fun p _ hp hg => ?_
    refine { hp with globals := fun place hplace => ?_ }
    rcases Array.mem_push.1 hplace with hplace | rfl
    · exact hp.globals place hplace
    · refine ⟨hg _ mem_cons_self, fun u hu => ?_⟩
      cases wrapped with
      | false => cases hu
      | true =>
        cases hu
        exact hg (.global contentsPointer) (by simp)

end

/-! ### Emitting into the open block -/

section

variable {shape : TypeShape} {env : FunctionEnv}

lemma drafting_onDraft (change : Assembly.Draft → Except Assembly.Inconsistency Assembly.Draft) :
    Drafting (onDraft change) := by
  intro m
  unfold Ends onDraft
  cases hd : m.draft with
  | none => exact ⟨none, m.functions, by rw [← hd]⟩
  | some d =>
    dsimp only
    cases change d with
    | ok d' => exact ⟨some d', m.functions, rfl⟩
    | error cause => exact ⟨some d, m.functions, by rw [← hd]⟩

lemma drafting_openFunction (head : FunctionHead) : Drafting (openFunction head) := by
  intro m
  unfold Ends openFunction
  cases hd : m.draft with
  | none => exact ⟨_, m.functions, rfl⟩
  | some d => exact ⟨some d, m.functions, by rw [← hd]⟩

lemma drafting_closeFunction : Drafting closeFunction := by
  intro m
  unfold Ends closeFunction
  cases hd : m.draft with
  | none => exact ⟨none, m.functions, by rw [← hd]⟩
  | some d =>
    dsimp only
    cases d.finish with
    | ok f => exact ⟨none, _, rfl⟩
    | error cause => exact ⟨none, _, rfl⟩

/-! ### Types of expressions -/

variable {h : Handle .expression}

lemma exists_of_expressionShape (hshape : expressionShape env h = .ok shape) :
    ∃ t, shapeAt env.toEnv t = .ok shape := by
  unfold expressionShape at hshape
  cases htype : env.function.expressions.typeOf h with
  | error error =>
    rw [htype] at hshape
    cases hshape
  | ok t =>
    rw [htype] at hshape
    exact ⟨t, hshape⟩

lemma narrow_expressionShape (hsuits : R.SuitsTypes env.module)
    (hshape : expressionShape env h = .ok shape)
    (hscalar : shape.scalar? = some scalar) : R.Narrow scalar := by
  obtain ⟨t, hshape⟩ := exists_of_expressionShape hshape
  obtain ⟨type, hget, rfl⟩ := exists_of_shapeAt hshape
  exact hsuits.suits hget scalar hscalar

end

/-- The regime that asks nothing but whether there may be new blocks, variables, booleans of any
width and structs of any layout. -/
def plain (m : IR.Module) (options : Options) (blocks globals : Prop) (wide : Prop := True) :
    Regime m options where
  blocks := blocks
  globals := globals
  wide := wide
  Inv _ := True
  made _ := trivial
  keep _ _ _ _ := trivial
  override _ _ := trivial

section

variable {blocks globals wide : Prop}

lemma fitsTypes_plain (depth : Nat) (h : ∀ {h type}, m.types.get? h = some type →
      ∀ scalar, type.shape.scalar? = some scalar →
        (plain m options blocks globals wide).Narrow
        scalar := by exact fun _ _ _ _ => .inl trivial) :
    (plain m options blocks globals wide).FitsTypes ⟨m, options, depth⟩ :=
  ⟨⟨h⟩, rfl, rfl⟩

lemma admits_plain (depth : Nat) (h : ∀ {h type}, m.types.get? h = some type →
      ∀ scalar, type.shape.scalar? = some scalar →
        (plain m options blocks globals wide).Narrow
        scalar := by exact fun _ _ _ _ => .inl trivial) :
    (plain m options blocks globals wide).Admits ⟨m, options, depth⟩ :=
  Free.admits ⟨fun _ _ => trivial, fun _ _ => trivial⟩ (fitsTypes_plain depth h)

lemma fitsProgram_plain (hglobals : globals) (h : ∀ {h type}, m.types.get? h = some type →
      ∀ scalar, type.shape.scalar? = some scalar →
        (plain m options blocks globals wide).Narrow
        scalar := by exact fun _ _ _ _ => .inl trivial) :
    (plain m options blocks globals wide).FitsProgram :=
  ⟨hglobals, fun depth => admits_plain depth h⟩

end

end Regime

end Shader.Emit
