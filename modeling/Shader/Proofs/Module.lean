import Shader.Emit.Module
import Shader.Proofs.Function

/-!
# The record of the emission of a module

Everything outside the functions is declared before them.  A function is emitted after its own
declarations, from a state in which all that it refers to was issued.  If a module is emitted, so
was each of its functions, and the functions of the module are those that were emitted.
-/

namespace Shader

open List

lemma Arena.map_snd_entries (a : Arena kind α) : a.entries.map Prod.snd = a.toList := by
  simp only [Arena.entries, map_map]
  exact zipIdx_map_fst 0 _

/-- The functions of a program in the order they are emitted, the helper functions first. -/
def IR.Module.bodies (m : Module) : List IR.Function :=
  m.functions.toList ++ m.entryPoints.map EntryPoint.function

end Shader

namespace Shader.Emit

open List Assembly

variable {p p' p₁ : Progress} {g : List Id} {α β : Type} {f : IR.Function} {arguments : Array Id}
  {head : FunctionHead} {a : Unit} {env : Env} {name : String} {inputs : List EntryArgument}
  {done : List IR.Function} {m : IR.Module} {options : Options} {u type : Id}
  {assembly : Assembly.Module} {act : EmitM α}

/-- The ids were issued. -/
def Progress.Issued (p : Progress) (ids : List Id) : Prop := ∀ u ∈ ids, u.number < p.assembly.bound

/-- All that is declared was issued. -/
def Progress.Bounded (p : Progress) : Prop := ∀ u, p.Declared u → u.number < p.assembly.bound

lemma Progress.Issued.extends (h : p.Issued ids) (h' : p.Extends p') :
    p'.Issued ids := fun u hu => Nat.lt_of_lt_of_le (h u hu) h'.bound

lemma Progress.Bounded.extends (h : p.Bounded) (h' : p.Extends p') : p'.Bounded := by
  intro u hu
  rcases h'.fresh u hu with hu | ⟨-, hu⟩
  · exact Nat.lt_of_lt_of_le (h u hu) h'.bound
  · exact hu

/-- The step only declares, and the ids of its answer were issued if those it is given were. -/
def Issuing {α : Type} (g : List Id) (ids : α → List Id) (act : EmitM α) : Prop :=
  ∀ ⦃p : Progress⦄ ⦃a p'⦄, act p = .ok a p' → p.Extends p' ∧ (p.Bounded → p.Issued g →
    p'.Issued (ids a))

namespace Issuing

variable {ids : α → List Id} {ids' : β → List Id}

protected lemma pure {a : α} (h : ∀ u ∈ ids a, u ∈ g) : Issuing g ids (pure a) := by
  intro p b p' hrun
  obtain ⟨rfl, rfl⟩ := pure_eq_ok.1 hrun
  exact ⟨.refl p, fun _ hgiven u hu => hgiven u (h u hu)⟩

protected lemma throw (fault : Fault) : Issuing g ids (throw fault) :=
  fun _ _ _ hrun => absurd hrun throw_ne_ok

protected lemma bind {next : α → EmitM β} (h : Issuing g ids act)
    (h' : ∀ a, Issuing (ids a ++ g) ids' (next a)) : Issuing g ids' (act >>= next) := by
  intro p b p' hrun
  obtain ⟨a, p₁, hact, hnext⟩ := bind_eq_ok.1 hrun
  obtain ⟨hext, hids⟩ := h hact
  obtain ⟨hext', hids'⟩ := h' a hnext
  refine ⟨hext.trans hext', fun hp hgiven => hids' (hp.extends hext) ?_⟩
  exact forall_mem_append.2 ⟨hids hp hgiven, hgiven.extends hext⟩

lemma quiet (h : Extending act) : Issuing g (fun _ => []) act :=
  fun _ _ _ hrun => ⟨h hrun, fun _ _ => forall_mem_nil _⟩

lemma declaring {act : EmitM Id} (h : Declaring act) : Issuing g (fun id => [id]) act := by
  intro p id p' hrun
  obtain ⟨hext, hid⟩ := h hrun
  refine ⟨hext, fun hp _ u hu => ?_⟩
  obtain rfl := mem_singleton.1 hu
  exact hp.extends hext u hid

lemma freshId : Issuing g (fun id => [id]) (liftM freshId : EmitM Id) := by
  intro p id p' hrun
  cases hrun
  refine ⟨Progress.extends_withAssembly (extending_freshId _), fun _ _ u hu => ?_⟩
  obtain rfl := mem_singleton.1 hu
  exact Nat.lt_succ_self _

protected lemma mapM {act : α → EmitM β} (xs : List α) (h : ∀ x, Issuing g ids' (act x)) :
    Issuing g (flatMap ids') (xs.mapM act) := by
  induction xs generalizing g with
  | nil => exact .pure (by simp)
  | cons x xs ih =>
    rw [mapM_cons]
    refine .bind (h x) fun y => .bind (ih fun x => ?_) fun ys => .pure ?_
    · exact fun p b p' hrun => (h x hrun).imp_right fun hids hp hgiven =>
        hids hp fun u hu => hgiven u (by simp [hu])
    · intro u hu
      simp only [flatMap_cons, mem_append] at hu ⊢
      tauto

end Issuing

/-! ### Interfaces -/

lemma extending_decorateLocation (env : Env) (stage : IR.Stage) (direction : Direction) (id : Id)
    (type : Handle .type) (location : UInt32) (interpolation : Option IR.Interpolation) :
    Extending (decorateLocation env stage direction id type location interpolation) := by
  cases h : shapeAt env type with
  | ok shape =>
    rw [decorateLocation_of_ok h]
    exact .declare (extending_adorn id _)
  | error error =>
    rw [decorateLocation_of_error h]
    exact .bind (.declare (extending_adorn id _)) fun _ => .throw _

/-- The ids of an interface variable as it is declared. -/
def declaredIds (variable_ : Id × Option Id) : List Id := variable_.1 :: variable_.2.toList

lemma issuing_interfaceType (storage : StorageClass) (htype : type ∈ g) (binding : IR.Binding) :
    Issuing g declaredIds
      (liftM (interfaceType storage type binding) : EmitM (Id × Option Id)) := by
  unfold interfaceType
  split
  · show Issuing g declaredIds (do
      let array ← (liftM (arrayType type 1 0) : EmitM Id)
      let element ← (liftM (pointerType storage type) : EmitM Id)
      return (array, some element))
    refine .bind (.declaring (.declare (Assembly.declaring_typeId (.array ..)))) fun array => .bind
      (.declaring (.declare (declaring_pointerType _ _))) fun element => .pure ?_
    intro u hu
    simp only [declaredIds, Option.toList, mem_cons, not_mem_nil, or_false, mem_append] at hu ⊢
    tauto
  · exact Issuing.pure (by simpa [declaredIds] using htype)

section

variable (env : Env) (stage : IR.Stage) (direction : Direction)

lemma issuing_declareInterface (type : Handle .type) (binding : IR.Binding) (name : Option String) :
    Issuing g declaredIds (declareInterface env stage direction type binding name) := by
  have hrest : ∀ {g} {id} {element}, (∀ u ∈ declaredIds (id, element), u ∈ g) →
    Issuing g declaredIds (do
        (liftM (nameTarget id name) : EmitM Unit)
        return (id, element)) := fun h =>
    .bind (.quiet (.declare (extending_nameTarget _ _))) fun _ => .pure h
  refine .bind (.declaring (declaring_typeId _ _)) fun type_ => .bind
    (issuing_interfaceType _ (by simp) _) fun x => .bind
    (.declaring (.declare (declaring_pointerType _ _))) fun pointer => .bind .freshId fun id =>
    .bind (.quiet (.declare (extending_pushTo _ _))) fun _ => ?_
  split
  · refine .bind (.quiet (.declare (decorateBuiltIn_eq .. ▸ extending_adorn _ _))) fun _ => hrest ?_
    intro u hu
    simp only [declaredIds, mem_cons, mem_append] at hu ⊢
    tauto
  · refine .bind (.quiet (extending_decorateLocation ..)) fun _ => hrest ?_
    intro u hu
    simp only [declaredIds, mem_cons, mem_append] at hu ⊢
    tauto

lemma issuing_declareMembers
    (members : List IR.StructMember) : ∀ {g} index, Issuing g (flatMap InterfaceVariable.ids)
        (declareMembers env stage direction index members) := by
  induction members with
  | nil => exact fun _ => .pure (by simp)
  | cons member rest ih =>
    intro g index
    unfold declareMembers
    split
    · exact .throw _
    · refine .bind (issuing_declareInterface ..) fun x => .bind (.declaring (declaring_typeId _ _))
        fun type => .bind (ih _) fun others => .pure ?_
      intro u hu
      simp only [declaredIds, flatMap_cons, InterfaceVariable.ids, mem_cons, mem_append,
        Option.map_some, Option.toList, not_mem_nil, or_false] at hu ⊢
      tauto

lemma issuing_interfaceVariables (type : Handle .type) (binding : Option IR.Binding)
    (name : Option String) :
    Issuing g (flatMap InterfaceVariable.ids)
      (interfaceVariables env stage direction type binding name) := by
  unfold interfaceVariables
  split
  · refine .bind (issuing_declareInterface ..) fun x => .pure ?_
    intro u hu
    simp only [declaredIds, flatMap_cons, flatMap_nil, append_nil, InterfaceVariable.ids,
      mem_cons, mem_append, Option.map_none, Option.toList] at hu ⊢
    tauto
  · refine .bind (.quiet (.exceptIR _)) fun shape => ?_
    split
    · exact issuing_declareMembers ..
    · exact .throw _

end

lemma issuing_entryArguments (env : Env) (entry : IR.EntryPoint) :
    Issuing g (flatMap EntryArgument.ids) (entryArguments env entry) :=
  .mapM _ fun _ => .bind (issuing_interfaceVariables ..) fun _ => .pure fun _ hu =>
    mem_append_left _ hu

lemma issuing_entryOutputs (env : Env) (entry : IR.EntryPoint) :
    Issuing g (flatMap InterfaceVariable.ids) (entryOutputs env entry) := by
  unfold entryOutputs
  split
  · exact .pure (by simp)
  · exact issuing_interfaceVariables ..

/-! ### Functions -/

/-- A function is emitted, after the declarations it needs and before those that follow it.  All
that it refers to was issued, if all that was declared before it was. -/
inductive Lowers (env : FunctionEnv) (inputs : List EntryArgument) (p : Progress) (r : Record)
    (fn : Function) : Progress → Prop where
  | intro {σ σ' : Body} {p₁ p' : Progress} : Blank env σ →
      (p.Bounded → Fresh env σ ∧ σ.progress.Issued (inputs.flatMap EntryArgument.ids)) →
      σ.progress.outcome = p.outcome → Written env inputs σ r σ' →
      Finishes σ' fn p₁ → p₁.Extends p' → Lowers env inputs p r fn p'

/-- What a helper function is emitted with. -/
def helperEnv (env : Env) (name : String) (f : IR.Function) (result : Option Id) : FunctionEnv :=
  { toEnv := env.within f, function := f, name, result, outputs := [], deferred := deferred f }

/-- What an entry point is emitted with. -/
def entryEnv (env : Env) (entry : IR.EntryPoint) (outputs : List InterfaceVariable) : FunctionEnv :=
  { toEnv := env.within entry.function, function := entry.function, name := entry.name,
    result := none, outputs, deferred := deferred entry.function }

lemma inBody_eq_ok {act : BodyM Unit} (hrun : inBody f arguments act p = .ok a p') :
    ∃ σ, act { progress := p, values := { slots := .empty f.expressions.size }, arguments } = .ok a
    σ ∧
      p' = σ.progress := by
  unfold inBody at hrun
  split at hrun
  · rename_i hact
    cases hrun
    exact ⟨_, hact, rfl⟩
  · cases hrun

/-- The state of a body of which nothing is emitted yet. -/
def startOf (p : Progress) (head : FunctionHead) (f : IR.Function) (arguments : Array Id) : Body :=
  { progress := p.withAssembly { p.assembly with draft := some { toFunctionHead := head } }
    values := { slots := .empty f.expressions.size }
    arguments }

lemma openFunction_eq_ok (hrun : (liftM (openFunction head) : EmitM Unit) p = .ok a p') :
    p' = p.withAssembly { p.assembly with draft := some { toFunctionHead := head } } := by
  obtain ⟨m, hm, rfl⟩ := liftBuild_eq_ok.1 hrun
  unfold openFunction at hm
  split at hm
  · cases hm
  · cases hm
    rfl

lemma blank_startOf (env : FunctionEnv) (p : Progress) (arguments : Array Id)
    (hlead : head.locals = #[]) :
    Blank env (startOf p head env.function arguments) where
  closed := rfl
  current := rfl
  lead := congrArg Array.toList hlead
  values := rfl
  flow := rfl

lemma fresh_startOf {env : FunctionEnv} (hlead : head.locals = #[]) (hp : p.Bounded)
    (harguments : p.Issued arguments.toList)
    (henv : ∀ u, env.Held u → u.number < p.assembly.bound) :
    Fresh env (startOf p head env.function arguments) where
  toBlank := blank_startOf env p arguments hlead
  issued u hu := by
    rcases hu with hu | (hu | hu | hu) | hu
    · exact hp u hu
    · exact harguments u (Array.mem_toList_iff.2 hu)
    · exact absurd hu (Array.not_mem_empty u)
    · exact absurd hu (Array.not_mem_empty _)
    · exact henv u hu

lemma issuing_resultType (env : Env) (f : IR.Function) :
    Issuing g Option.toList (resultType env f) := by
  unfold resultType
  split
  · exact .bind (.declaring (declaring_typeId _ _)) fun id => .pure (by simp)
  · exact .pure (by simp)

lemma issuing_declareParameter (argument : IR.Argument) (type : Id) :
    Issuing g (fun parameter => [parameter.id])
      (liftM (declareParameter argument type) : EmitM Parameter) := by
  show Issuing g (fun parameter : Parameter => [parameter.id]) (do
    let id ← (liftM freshId : EmitM Id)
    (liftM (nameTarget id argument.name) : EmitM Unit)
    return ⟨type, id⟩)
  exact .bind .freshId fun id => .bind (.quiet (.declare (extending_nameTarget _ _))) fun _ =>
    .pure (by simp)

lemma held_helperEnv (h : (helperEnv env name f result).Held u) : result = some u := by
  rcases h with h | ⟨v, hv, -⟩
  · exact h
  · exact absurd hv not_mem_nil

lemma lowers_of_inBody (env : FunctionEnv) (hext : p.Extends p₁) (hlead : head.locals = #[])
    (hissued : p.Bounded → p₁.Issued arguments.toList ∧
      (∀ u, env.Held u → u.number < p₁.assembly.bound) ∧
      p₁.Issued (inputs.flatMap EntryArgument.ids))
    (hrun : inBody env.function arguments (do
      beginBody env
      inputs.forM (loadArgument env.toEnv)
      finishBody env)
      (p₁.withAssembly { p₁.assembly with draft := some { toFunctionHead := head } }) = .ok a p') :
    ∃ r fn, Lowers env inputs p r fn p' := by
  obtain ⟨σ', hact, rfl⟩ := inBody_eq_ok hrun
  simp only [bind_eq_ok] at hact
  obtain ⟨_, σ₁, hbegin, _, σ₂, hloads, hfinish⟩ := hact
  obtain ⟨r₁, hbegins⟩ := begins_of_beginBody hbegin
  obtain ⟨r₂, hloads⟩ := loadsAll_of_forM hloads
  obtain ⟨r, σ₃, fn, hwritten, hfinishes⟩ := written_of_finishBody rfl hbegins hloads hfinish
  refine ⟨r, fn, .intro (blank_startOf env p₁ arguments hlead) (fun hp => ?_) hext.finished hwritten
    hfinishes (.refl _)⟩
  obtain ⟨harguments, henv, hinputs⟩ := hissued hp
  exact ⟨fresh_startOf hlead (hp.extends hext) harguments henv, hinputs⟩

/-- A helper that is emitted is lowered. -/
lemma lowers_of_emitHelper {id : Id} (hrun : emitHelper env id name f p = .ok a p') :
    ∃ result r fn, Lowers (helperEnv env name f result) [] p r fn p' := by
  simp only [emitHelper, bind_eq_ok] at hrun
  obtain ⟨result, p₁, hresult, hrun⟩ := hrun
  obtain ⟨hext₁, hissued⟩ := issuing_resultType (g := []) env f hresult
  have hrest : ∀ {returnType} {p₂}, p₁.Extends p₂ → (do
      let types ← f.arguments.mapM fun argument => typeId env argument.type
      let type ← Assembly.typeId (.function returnType types)
      let parameters ← (f.arguments.zip types).mapM fun x => declareParameter x.1 x.2
      nameTarget id name
      openFunction { id, typeId := type, returnType, parameters := parameters.toArray }
      inBody f (parameters.map Parameter.id).toArray do
        beginBody (helperEnv env name f result)
        finishBody (helperEnv env name f result) : EmitM Unit) p₂ = .ok a p' →
      ∃ r fn, Lowers (helperEnv env name f result) [] p r fn p' := by
    intro returnType p₂ hext₂ hrun
    simp only [bind_eq_ok] at hrun
    obtain ⟨types, p₃, htypes, type, p₄, htype, parameters, p₅, hparameters, _, p₆, hname, _, p₇,
      hopen, hrun⟩ := hrun
    obtain rfl := openFunction_eq_ok hopen
    have hext₃ := Extending.mapM (fun argument : IR.Argument =>
      (declaring_typeId env argument.type).extending) _ htypes
    have hext₄ := (Extending.declare (Assembly.declaring_typeId _).extending htype)
    have hext := hext₁.trans (hext₂.trans (hext₃.trans hext₄))
    obtain ⟨hext₅, hids⟩ := Issuing.mapM _ (fun x : IR.Argument × Id =>
      issuing_declareParameter (g := []) x.1 x.2) hparameters
    have hext₆ := Extending.declare (extending_nameTarget _ _) hname
    have hafter := hext₅.trans hext₆
    refine lowers_of_inBody (helperEnv env name f result) (hext.trans hafter) rfl
      (fun hp => ⟨fun u hu => ?_, fun u hu => ?_, forall_mem_nil _⟩) hrun
    · obtain ⟨parameter, hparameter, rfl⟩ := mem_map.1 hu
      exact (hids (hp.extends hext) nofun).extends hext₆ _
        (mem_flatMap.2 ⟨parameter, hparameter, by simp⟩)
    · exact (hissued hp nofun).extends (hext₂.trans (hext₃.trans (hext₄.trans hafter))) u
        (Option.mem_toList.2 (held_helperEnv hu))
  refine ⟨result, ?_⟩
  cases result with
  | some type => exact hrest (.refl _) hrun
  | none =>
    obtain ⟨_, _, hreturn, hrun⟩ := bind_eq_ok.1 hrun
    exact hrest (Extending.declare declaring_voidType.extending hreturn) hrun

lemma held_entryEnv (h : (entryEnv env entry outputs).Held u) :
    u ∈ outputs.flatMap InterfaceVariable.ids := by
  rcases h with h | ⟨v, hv, h⟩
  · cases h
  · refine mem_flatMap.2 ⟨v, hv, ?_⟩
    rcases h with rfl | h | ⟨index, h⟩
    · simp [InterfaceVariable.ids]
    · simp [InterfaceVariable.ids, h]
    · simp [InterfaceVariable.ids, h]

lemma Lowers.extends {env : FunctionEnv} {p'' : Progress} {r : Record} {fn : Function}
    (h : Lowers env inputs p r fn p') (h' : p'.Extends p'') : Lowers env inputs p r fn p'' := by
  obtain ⟨hblank, hfresh, houtcome, hwritten, hfinishes, hext⟩ := h
  exact .intro hblank hfresh houtcome hwritten hfinishes (hext.trans h')

lemma Lowers.after {env : FunctionEnv} {p₀ : Progress} {r : Record} {fn : Function}
    (h' : p₀.Extends p) (h : Lowers env inputs p r fn p') : Lowers env inputs p₀ r fn p' := by
  obtain ⟨hblank, hfresh, houtcome, hwritten, hfinishes, hext⟩ := h
  exact .intro hblank (fun hp => hfresh (hp.extends h')) (houtcome.trans h'.finished)
    hwritten hfinishes hext

lemma lowers_of_emitEntryPoint {entry : IR.EntryPoint}
    (hrun : emitEntryPoint env entry p = .ok a p') :
    ∃ outputs inputs r fn, Lowers (entryEnv env entry outputs) inputs p r fn p' := by
  simp only [emitEntryPoint, bind_eq_ok, get_eq_ok] at hrun
  obtain ⟨_, p₁, hvalid, void, p₂, hvoid, type, p₃, htype, id, p₄, hid, _, p₅, hname, inputs, p₆,
    hinputs, outputs, p₇, houtputs, _, _, ⟨rfl, rfl⟩, _, p₈, hopen, _, p₉, hbody, _, p₁₀, hentry,
    hmodes⟩ := hrun
  obtain rfl := openFunction_eq_ok hopen
  have hext₁ : p.Extends p₅ :=
    (Extending.exceptIR _ hvalid).trans <| (Extending.declare declaring_voidType.extending
      hvoid).trans <| (Extending.declare (Assembly.declaring_typeId _).extending htype).trans <|
      (Extending.declare extending_freshId hid).trans <|
      Extending.declare (extending_nameTarget _ _) hname
  obtain ⟨hext₂, hinputs⟩ := issuing_entryArguments (g := []) env entry hinputs
  have hext := hext₁.trans hext₂
  obtain ⟨hext₃, houtputs⟩ := issuing_entryOutputs (g := []) env entry houtputs
  obtain ⟨r, fn, hlowers⟩ := lowers_of_inBody (entryEnv env entry outputs) (hext.trans hext₃)
    rfl (fun hp => ⟨forall_mem_nil _, fun u hu => houtputs (hp.extends hext) nofun u
    (held_entryEnv hu),
      (hinputs (hp.extends hext₁) nofun).extends hext₃⟩) hbody
  refine ⟨outputs, inputs, r, fn, hlowers.extends ((Extending.declare
    (extending_pushTo _ _) hentry).trans ?_)⟩
  exact Extending.forM (fun mode => .declare (extending_pushTo _ mode)) _ hmodes

/-! ### Declarations of the module -/

/-- The step leaves the functions, and what it declares was issued. -/
def Grounding {α : Type} (act : EmitM α) : Prop :=
  ∀ ⦃p : Progress⦄ ⦃a p'⦄, p.Bounded → act p = .ok a p' → p'.Bounded ∧ p'.outcome = p.outcome

namespace Grounding

lemma of_extending (h : Extending act) : Grounding act :=
  fun _ _ _ hp hrun => ⟨hp.extends (h hrun), (h hrun).finished⟩

protected lemma bind {next : α → EmitM β} (h : Grounding act) (h' : ∀ a, Grounding (next a)) :
    Grounding (act >>= next) := by
  intro p b p' hp hrun
  obtain ⟨a, p₁, hact, hnext⟩ := bind_eq_ok.1 hrun
  obtain ⟨hp₁, hfunctions⟩ := h hp hact
  obtain ⟨hp', hfunctions'⟩ := h' a hp₁ hnext
  exact ⟨hp', hfunctions'.trans hfunctions⟩

protected lemma forM {act : α → EmitM PUnit.{1}} (h : ∀ a, Grounding (act a)) (xs : List α) :
    Grounding (xs.forM act) := by
  induction xs with
  | nil => exact .of_extending (.pure ())
  | cons x xs ih => exact .bind (h x) fun _ => ih

end Grounding

lemma grounding_declareOverride (env : Env) (number : Nat) (h : Handle .override)
    (o : IR.Override) :
    Grounding (declareOverride env number h o) := by
  intro p a p' hp hrun
  simp only [declareOverride, bind_eq_ok, modify_eq_ok] at hrun
  obtain ⟨default, p₁, hdefault, id, p₂, hid, _, p₃, hpush, _, p₄, hname, rfl⟩ := hrun
  have hext₁ := Extending.except _ hdefault
  obtain ⟨hext₂, hissued⟩ := Issuing.declaring (g := []) (.declare (declaring_specialization _)) hid
  have hext₃ := (Extending.declare (extending_pushTo _ _) hpush).trans
    (Extending.declare (extending_nameTarget _ _) hname)
  have hext := hext₁.trans (hext₂.trans hext₃)
  refine ⟨fun u hu => ?_, hext.finished⟩
  rcases hu with hu | hu | hu | hu | hu
  · exact hp.extends hext u (.inl hu)
  · exact hp.extends hext u (.inr (.inl hu))
  · exact hp.extends hext u (.inr (.inr (.inl hu)))
  · rcases Array.mem_push.1 hu with hu | rfl
    · exact hp.extends hext u (.inr (.inr (.inr (.inl hu))))
    · exact (hissued (hp.extends hext₁) nofun).extends hext₃ u mem_cons_self
  · exact hp.extends hext u (.inr (.inr (.inr (.inr hu))))

lemma grounding_declareOverridesFrom (env : Env) (claimed : List Nat)
    (entries : List (Handle .override × IR.Override)) :
    ∀ next, Grounding (declareOverridesFrom env claimed next entries) := by
  induction entries with
  | nil => exact fun _ => .of_extending (.pure ())
  | cons entry rest ih => exact fun next => .bind (grounding_declareOverride ..) fun _ => ih _

lemma extending_variableType (env : Env) (space : IR.AddressSpace) (type : Handle .type)
    (contents : Id) : Extending (variableType env space type contents) := by
  unfold variableType
  split
  · refine .bind (.exceptIR _) fun shape => ?_
    split
    · exact .bind (.declare (changes_decorateBlock trivial _ _).extending) fun _ => .pure _
    · exact .bind (.except _) fun layout => .bind
        (.declare (Assembly.declaring_typeId _).extending) fun _ => .pure _
  · exact .pure _

lemma extending_globalInit (env : Env) (pointee : Id) (v : IR.GlobalVariable) :
    Extending (globalInit env pointee v) := by
  unfold globalInit
  split
  · exact .bind (declaring_constantId _ _).extending fun _ => .pure _
  · exact .bind (.declare (declaring_nullConstant _).extending) fun _ => .pure _
  · exact .pure _

lemma extending_decorateGlobal (id : Id) (v : IR.GlobalVariable) :
    Assembly.Extending (decorateGlobal id v) := by
  rw [decorateGlobal_eq]
  exact .bind (extending_adorn id _) fun _ => extending_nameTarget id v.name

lemma grounding_declareGlobal (env : Env) (v : IR.GlobalVariable) :
    Grounding (declareGlobal env v) := by
  intro p a p' hp hrun
  simp only [declareGlobal, bind_eq_ok, modify_eq_ok] at hrun
  obtain ⟨contents, p₁, hcontents, contentsPointer, p₂, hpointer, ⟨pointee, wrapped⟩, p₃, htype,
    pointer, p₄, hpointer', init, p₅, hinit, id, p₆, hid, _, p₇, hpush, _, p₈,
    hdecorate, rfl⟩ := hrun
  have hext₁ := (declaring_typeId _ _ hcontents).1
  obtain ⟨hext₂, hissued⟩ :=
    Issuing.declaring (g := []) (.declare (declaring_pointerType _ _)) hpointer
  have hext₃ := (extending_variableType _ _ _ _ htype).trans
    ((Extending.declare (declaring_pointerType _ _).extending hpointer').trans
      (extending_globalInit _ _ _ hinit))
  have hbefore := hext₁.trans (hext₂.trans hext₃)
  obtain ⟨hext₄, hissued'⟩ := Issuing.freshId (g := []) hid
  have hext₅ := (Extending.declare (extending_pushTo _ _) hpush).trans
    (Extending.declare (extending_decorateGlobal _ _) hdecorate)
  have hext := hbefore.trans (hext₄.trans hext₅)
  refine ⟨fun u hu => ?_, hext.finished⟩
  rcases hu with hu | hu | hu | hu | ⟨place, hplace, hu⟩ | hu
  · exact hp.extends hext u (.inl hu)
  · exact hp.extends hext u (.inr (.inl hu))
  · exact hp.extends hext u (.inr (.inr (.inl hu)))
  · exact hp.extends hext u (.inr (.inr (.inr (.inl hu))))
  · rcases Array.mem_push.1 hplace with hplace | rfl
    · exact hp.extends hext u (.inr (.inr (.inr (.inr (.inl ⟨place, hplace, hu⟩)))))
    · rcases hu with rfl | hu
      · exact (hissued' (hp.extends hbefore) nofun).extends hext₅ _ mem_cons_self
      · split at hu
        · cases hu
          exact (hissued (hp.extends hext₁) nofun).extends
            (hext₃.trans (hext₄.trans hext₅)) _ mem_cons_self
        · cases hu
  · exact hp.extends hext u (.inr (.inr (.inr (.inr (.inr hu)))))

lemma bounded_initial (env : Env) : (Progress.initial env).Bounded := by
  intro u hu
  rcases hu with (⟨_, h⟩ | ⟨_, h⟩ | h | h) | ⟨h, hu⟩ | ⟨h, hu⟩ | hu | ⟨place, hplace, -⟩ | hu
  · exact absurd h not_mem_nil
  · exact absurd h not_mem_nil
  · exact absurd h not_mem_nil
  · cases h
  · cases (Slots.get?_empty _ h).symm.trans hu
  · cases (Slots.get?_empty _ h).symm.trans hu
  · exact absurd hu (Array.not_mem_empty u)
  · exact absurd hplace (Array.not_mem_empty place)
  · exact absurd hu (Array.not_mem_empty u)

lemma bounded_of_declareModule (hrun : declareModule env (.initial env) = .ok a p) :
    p.Bounded ∧ p.outcome = (#[], #[]) := by
  simp only [declareModule, bind_eq_ok, modify_eq_ok] at hrun
  obtain ⟨_, p₁, hpreamble, _, p₂, hoverrides, _, p₃, hglobals, ids, p₄, hids, rfl⟩ := hrun
  obtain ⟨hp₁, hfunctions₁⟩ := Grounding.of_extending (.declare (.bind
    (extending_pushTo _ _) fun _ => extending_pushTo _ _))
    (bounded_initial env) hpreamble
  obtain ⟨hp₂, hfunctions₂⟩ := grounding_declareOverridesFrom _ _ _ _ hp₁ hoverrides
  obtain ⟨hp₃, hfunctions₃⟩ := Grounding.forM (grounding_declareGlobal env) _ hp₂ hglobals
  obtain ⟨hext, hissued⟩ := Issuing.mapM (g := []) _ (fun _ => .freshId) hids
  refine ⟨fun u hu => ?_, ?_⟩
  · rcases hu with hu | hu | hu | hu | hu | hu
    · exact hp₃.extends hext u (.inl hu)
    · exact hp₃.extends hext u (.inr (.inl hu))
    · exact hp₃.extends hext u (.inr (.inr (.inl hu)))
    · exact hp₃.extends hext u (.inr (.inr (.inr (.inl hu))))
    · exact hp₃.extends hext u (.inr (.inr (.inr (.inr (.inl hu)))))
    · exact hissued hp₃ nofun u (by simpa using hu)
  · exact hext.finished.trans (hfunctions₃.trans (hfunctions₂.trans hfunctions₁))

/-! ### All functions of a module -/

namespace Lowers

variable {env : FunctionEnv} {r : Record} {fn : Function} (h : Lowers env inputs p r fn p')
include h

lemma outcome : p'.outcome = (p.assembly.functions.push fn, p.faults) := by
  obtain ⟨-, -, houtcome, hwritten, hfinishes, hext⟩ := h
  obtain ⟨hfunctions, hfaults⟩ :=
    Prod.ext_iff.1 ((carries_written hwritten).finished.trans houtcome)
  rw [hext.finished]
  obtain ⟨_, _⟩ := hfinishes
  exact Prod.ext (congrArg (fun functions => functions.push fn) hfunctions) hfaults

lemma bounded (hp : p.Bounded) : p'.Bounded := by
  obtain ⟨-, hfresh, -, hwritten, hfinishes, hext⟩ := h
  refine Progress.Bounded.extends (fun u hu => ?_) hext
  obtain ⟨_, _⟩ := hfinishes
  exact (((carries_written hwritten).sound (hfresh hp).1.sound).declared u hu).1

end Lowers

/-- A function of a program is emitted. -/
def EmitsFor (f : IR.Function) (p : Progress) (fn : Function) (p' : Progress) : Prop :=
  ∃ env inputs r, Lowers env inputs p r fn p' ∧ env.deferred = deferred env.function ∧
    env.function = f

/-- If no function failed, all that was declared was issued, and the functions are those that were
emitted, in their order. -/
def Progress.Settled (done : List IR.Function) (p : Progress) : Prop :=
  p.faults = #[] → p.Bounded ∧ Forall₂ (fun f fn =>
    ∃ p₀ p₁, Progress.Bounded p₀ ∧ EmitsFor f p₀ fn p₁) done p.assembly.functions.toList

lemma settled_attempt {act : EmitM Unit} (hp : p.Settled done)
    (hact : ∀ {p'}, act p = .ok () p' → ∃ fn, EmitsFor f p fn p') :
    (attempt name act p).Settled (done ++ [f]) := by
  intro hfaults
  unfold attempt at hfaults ⊢
  split at hfaults
  · rename_i p' hrun
    obtain ⟨fn, hemits⟩ := hact hrun
    obtain ⟨env, inputs, r, hlowers, -⟩ := id hemits
    obtain ⟨hfunctions, hkept⟩ := Prod.ext_iff.1 hlowers.outcome
    obtain ⟨hbounded, hall⟩ := hp (hkept.symm.trans hfaults)
    refine ⟨hlowers.bounded hbounded, ?_⟩
    rw [show p'.assembly.functions = p.assembly.functions.push fn from hfunctions,
      Array.toList_push]
    exact rel_append hall (.cons ⟨p, p', hbounded, hemits⟩ .nil)
  · exact absurd hfaults (Array.push_ne_empty)

lemma settled_attemptHelper (env : Env) (hp : p.Settled done)
    (entry : Handle .function × IR.Function) :
    (attemptHelper env p entry).Settled (done ++ [entry.2]) := by
  refine settled_attempt hp fun {p'} hrun => ?_
  obtain ⟨id, p₁, hid, hrun⟩ := bind_eq_ok.1 hrun
  obtain ⟨result, r, fn, hlowers⟩ := lowers_of_emitHelper hrun
  exact ⟨fn, _, [], r, hlowers.after (declaring_functionId _ hid).1, rfl, rfl⟩

lemma settled_attemptEntryPoint (env : Env) (hp : p.Settled done) (entry : IR.EntryPoint) :
    (attemptEntryPoint env p entry).Settled (done ++ [entry.function]) := by
  refine settled_attempt hp fun {p'} hrun => ?_
  obtain ⟨outputs, inputs, r, fn, hlowers⟩ := lowers_of_emitEntryPoint hrun
  exact ⟨fn, _, inputs, r, hlowers, rfl, rfl⟩

lemma settled_foldl
    (hstep : ∀ {done} {p}, p.Settled done → ∀ x, (go p x).Settled (done ++ [function x]))
    {xs : List α} (hp : p.Settled done) : (xs.foldl go p).Settled (done ++ xs.map function) := by
  induction xs generalizing p done with
  | nil =>
    rw [map_nil, append_nil]
    exact hp
  | cons x xs ih =>
    rw [map_cons, ← singleton_append, ← append_assoc]
    exact ih (hstep hp x)

/-- The functions of an emitted module were emitted for the functions of the program, one for each
and in their order. -/
lemma emitted_of_assemble (hrun : assemble m options = .ok assembly) :
    Forall₂ (fun f fn => ∃ p p', Progress.Bounded p ∧ EmitsFor f p fn p') m.bodies
      assembly.functions.toList := by
  unfold assemble assembleIn at hrun
  split at hrun
  · cases hrun
  · rename_i p hdeclare
    obtain ⟨hbounded, houtcome⟩ := bounded_of_declareModule hdeclare
    obtain ⟨hfunctions, -⟩ := Prod.ext_iff.1 houtcome
    have hstart : p.Settled [] := by
      refine fun _ => ⟨hbounded, ?_⟩
      rw [show p.assembly.functions = #[] from hfunctions]
      exact .nil
    have hall : (attemptFunctions (.of m options) p).Settled
        ([] ++ m.functions.entries.map Prod.snd ++ m.entryPoints.map IR.EntryPoint.function) :=
      settled_foldl (settled_attemptEntryPoint _) (settled_foldl (settled_attemptHelper _) hstart)
    rw [nil_append, Arena.map_snd_entries] at hall
    dsimp only at hrun
    split at hrun
    · rename_i hempty
      cases hrun
      exact (hall (Array.isEmpty_iff.1 hempty)).2
    · cases hrun

lemma exists_of_mem_right (h : Forall₂ R as bs) (hb : b ∈ bs) : ∃ a ∈ as, R a b := by
  induction h with
  | nil => cases hb
  | @cons a _ _ _ hab _ ih =>
    rcases mem_cons.1 hb with rfl | hb
    · exact ⟨a, mem_cons_self, hab⟩
    · obtain ⟨a', ha', hR⟩ := ih hb
      exact ⟨a', mem_cons_of_mem _ ha', hR⟩

lemma emitsFor_of_assemble (hrun : assemble m options = .ok assembly) :
    ∀ fn ∈ assembly.functions, ∃ p p', Progress.Bounded p ∧ ∃ env inputs r,
      Lowers env inputs p r fn p' ∧ env.deferred = deferred env.function ∧
      (env.function ∈ m.functions.toList ∨ ∃ entry ∈ m.entryPoints, entry.function =
        env.function) := by
  intro fn hfn
  obtain ⟨f, hf, p, p', hp, env, inputs, r, hlowers, hanalysis, rfl⟩ :=
    exists_of_mem_right (emitted_of_assemble hrun) (Array.mem_toList_iff.2 hfn)
  refine ⟨p, p', hp, env, inputs, r, hlowers, hanalysis, ?_⟩
  exact (mem_append.1 hf).imp_right fun h => by simpa using h

lemma words_eq_ok : words m options = .ok ws ↔ ∃ assembly, assemble m options = .ok assembly ∧
      ws = assembly.encode options.version options.generator := by
  unfold words
  cases assemble m options with
  | error failure => exact ⟨nofun, nofun⟩
  | ok assembly =>
    constructor
    · intro h
      exact ⟨assembly, rfl, (Except.ok.inj h).symm⟩
    · rintro ⟨_, h, rfl⟩
      cases h
      rfl

end Shader.Emit
