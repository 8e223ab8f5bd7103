import Shader.Proofs.Conduct
import Shader.Proofs.Module

/-!
# Functions

Emissions that correspond go through a whole helper function (`Correspondence.emitHelper`) or entry
point (`Correspondence.emitEntryPoint`) alike.  A function that is emitted defines all ids that were
issued for it, and none is begun where another one is.
-/

namespace Shader.Emit

open List Assembly Link

variable {ι : Type} [Inhabited ι] {m m' : IR.Module} {options : Options} {R : Regime m options}
    {o o' : Option Openness}

namespace Correspondence

variable {C : Correspondence ι R} {g : List (Fact (Ids ι))} {owed owed' : List (Ids ι)}
    {flow : List (Around ι)}
  {s : Phase ι} {E : Locale ι}

/-! ### Bodies -/

lemma localInit (hE : E.Runs C) (v : IR.LocalVariable) :
    Sim C.body g (fun (r : Option (Ids ι)) i => r.map (· i)) ⟨owed, flow, some .opened⟩
      (fun _ => ⟨owed, flow, some .opened⟩) (fun r => r.toList.map .issued) fun i =>
      Emit.localInit (E.on i) v := by
  unfold Emit.localInit
  cases v.init with
  | none => exact .pure (r := none) (forall_mem_nil _)
  | some init =>
    refine .bind (expression hE _) fun a => .read fun σ hσ hg => ⟨[], .nil, ?_⟩
    have hissued : C.Holds (fun i => (σ i).progress) (.issued a) := hg _ mem_cons_self
    simp only [C.isConstant (BodiesAgree.rel hσ) hissued,
      C.isSpecialization (BodiesAgree.rel hσ) hissued]
    exact .ite (fun _ => .pure (r := some a) (by simp)) fun _ => .failing rfl (by rintro ⟨⟩)

lemma declareLocal (hE : E.Runs C) (v : IR.LocalVariable) :
    C.Works g fun i => Emit.declareLocal (E.on i) v := by
  intro owed flow
  refine .bind (.lift (C.typeId hE.akin)) fun type => .bind (.lift (C.pointerType _ mem_cons_self))
    fun pointer => .bind (localInit hE v) fun init => .bind newId fun id => ?_
  refine .bind (.lift (C.addVariable init (by simp) (by simp) fun a ha => by simp [ha])) fun _ => ?_
  refine .bind (.lift (C.nameTarget _ (a := id) (by simp))) fun _ => .modify (fun _ _ => rfl)
    fun σ hσ hg => ?_
  refine { hσ with locals := hσ.locals.push id (forall_mem_singleton.2
    (hg.attested hσ.rel (by simp))) }

lemma contentsPointers (f : IR.Function) (places : List (Place ι))
    (h : ∀ place ∈ places, ∀ x ∈ place.facts, x ∈ g) :
    ∀ index, Sim C.body g (fun (rs : List (Option (Ids ι))) i => rs.map (Option.map (· i)))
      ⟨owed, flow, some .opened⟩ (fun _ => ⟨owed, flow, some .opened⟩)
        (flatMap (·.toList.map .issued)) fun i =>
        Emit.contentsPointers f index (places.map (·.on i)) := by
  induction places generalizing g with
  | nil => exact fun _ => .pure (r := []) (forall_mem_nil _)
  | cons place rest ih =>
    obtain ⟨hplace, hrest⟩ := forall_mem_cons.1 h
    intro index
    have hnext : ∀ {g'} (r : Option (Ids ι)), (∀ x ∈ g, x ∈ g') →
        (∀ a, r = some a → .issued a ∈ g') → Sim C.body g' (fun (rs : List (Option (Ids ι))) i =>
        rs.map (Option.map (· i)))
          ⟨owed, flow, some .opened⟩ (fun _ => ⟨owed, flow, some .opened⟩)
          (flatMap (·.toList.map .issued)) (fun i => do
            return r.map (· i) :: (← Emit.contentsPointers f (index + 1) (rest.map (·.on i)))) := by
      intro g' r hg hr
      refine .bind (ih (fun place hp x hx => hg x (hrest place hp x hx)) (index + 1)) fun rs =>
        .pure (r := r :: rs) fun x hx => ?_
      rw [flatMap_cons] at hx
      rcases mem_append.1 hx with hx | hx
      · obtain ⟨a, ha, rfl⟩ := mem_map.1 hx
        exact mem_append_right _ (hr a (Option.mem_toList.1 ha))
      · exact mem_append_left _ hx
    obtain ⟨id, contents⟩ := place
    have hid : Attested g id := .inr (hplace _ mem_cons_self)
    simp only [map_cons, Emit.contentsPointers]
    cases contents with
    | none => exact hnext none (fun _ h => h) (by rintro _ ⟨⟩)
    | some type =>
      have htype : Attested g type := .inr (hplace _ (mem_cons_of_mem _ mem_cons_self))
      by_cases hmentions : mentions f index
      · simp only [if_pos hmentions]
        refine .bind (.lift (indexConstant 0)) fun zero => ?_
        have hpointer : Sim C.body ([Fact.global zero] ++ g)
            (fun (r : Option (Ids ι)) i => r.map (· i)) ⟨owed, flow, some .opened⟩
            (fun _ => ⟨owed, flow, some .opened⟩) (·.toList.map .issued) fun i =>
              some <$> Emit.emitResult .accessChain (type i) (Operand.ids [id i, zero i]) := by
          simp only [map_eq_pure_bind]
          exact .bind (emitOnIds [id, zero] rfl (by simp [htype]) (by simp [hid]) (.inr (by simp)))
            fun a => .pure (r := some a) (by simp)
        exact .bind hpointer fun r => hnext r (fun x hx => by simp [hx]) fun a ha => by simp [ha]
      · simp only [if_neg hmentions]
        exact hnext none (fun _ h => h) (by rintro _ ⟨⟩)

lemma beginBody (hE : E.Runs C) :
    C.Moves g ⟨owed, flow, some .blank⟩ ⟨owed, flow, some .opened⟩ fun i =>
    Emit.beginBody (E.on i) := by
  refine .bind newId fun label => .bind (startBlock (.inl rfl) (by simp)) fun _ => ?_
  refine .bind (.forM (fun v (_ : v ∈ E.function.locals.toList) => declareLocal hE v _ _)) fun _ =>
    ?_
  refine .read fun σ hσ _ => ?_
  obtain ⟨places, hplaces, hknown⟩ := C.globals (BodiesAgree.rel hσ)
  refine ⟨places.flatMap Place.facts, fun x hx => ?_, ?_⟩
  · obtain ⟨place, hplace, hx⟩ := mem_flatMap.1 hx
    exact hknown place hplace x hx
  · have hglobals : ∀ i, (σ i).progress.globals.toList = places.map (·.on i) := hplaces
    simp only [hglobals]
    refine .bind (contentsPointers E.function places (fun place hplace x hx => ?_) 0) fun rs =>
      .modify (fun _ _ => rfl) fun σ hσ hg => ?_
    · exact mem_append_left _ (mem_flatMap.2 ⟨place, hplace, hx⟩)
    · refine { hσ with contents := ⟨rs, fun i => rfl, fun r hr x hx => ?_⟩ }
      exact hg x (mem_append_left _ (mem_flatMap.2 ⟨r, hr, hx⟩))

lemma fallOff (hfacts : ∀ x ∈ E.facts, x ∈ g) :
    C.Moves g ⟨owed, flow, some .begun⟩ ⟨owed, flow, some .closed⟩ fun i =>
    Emit.fallOff (E.on i) := by
  refine .bind C.openLabel fun r => ?_
  cases r with
  | none => exact .pure (r := ()) (forall_mem_nil _)
  | some label =>
    have hresult : ∀ i, (E.on i).result = E.result.map (· i) := fun _ => rfl
    have hknown : ∀ type, E.result = some type → .global type ∈ g := by
      refine fun type htype => hfacts _ (mem_append_right _ ?_)
      rw [htype]
      exact mem_cons_self
    simp only [hresult]
    cases hr : E.result with
    | none => exact terminateBlock .return [] rfl (by simp) fun _ => .short rfl
    | some type =>
      exact .bind (.lift (nullConstant (mem_cons_of_mem _ (hknown type hr)))) fun null =>
        terminateBlock .returnValue [.id null] rfl (by simp) fun _ => .short rfl

lemma finishBody (hE : E.Runs C) (hfacts : ∀ x ∈ E.facts, x ∈ g) :
    C.Moves g ⟨owed, [], some .opened⟩ ⟨owed, [], none⟩ fun i => Emit.finishBody (E.on i) := by
  refine .bind ((steady_statements hE hfacts E.function.body).goes _ _) fun _ => ?_
  refine .bind (fallOff hfacts) fun _ => .read fun σ hσ _ => ⟨[], .nil, ?_⟩
  simp only [BodiesAgree.flow hσ]
  exact .lift C.closeFunction

/-- What is left of a step inside a function when the function is left. -/
def outside {α : Type} : EStateM.Result Fault Body α → EStateM.Result Fault Progress α
  | .ok value body => .ok value body.progress
  | .error fault body => .error fault body.progress

lemma inBody (f : IR.Function) (arguments : List (Ids ι))
    (harguments : ∀ a ∈ arguments, Attested g a)
    {act : ι → BodyM Unit} (h : C.Moves g ⟨owed, [], o⟩ ⟨owed', [], o'⟩ act) :
    C.Leads g ⟨owed, flow, o⟩ ⟨owed', flow, o'⟩ fun i => Emit.inBody f
      (arguments.map (· i)).toArray (act i) := by
  intro p hp hg
  have hstart : C.BodiesAgree ⟨owed, [], o⟩ fun i =>
      { progress := p i, values := { slots := .empty f.expressions.size }, arguments :=
        (arguments.map (· i)).toArray } :=
    { rel := hp
      size := fun _ _ => rfl
      trail := fun _ _ => rfl
      values := fun e => ⟨none, fun _ => Slots.get?_empty _ e, nofun⟩
      arguments := ⟨arguments, fun _ => rfl, fun a ha => forall_mem_singleton.2 (hg.attested hp
      (harguments a ha))⟩
      locals := ⟨[], fun _ => rfl, forall_mem_nil _⟩
      contents := ⟨[], fun _ => rfl, forall_mem_nil _⟩
      flow := fun _ => rfl
      frames := nofun }
  rcases h _ hstart hg with ⟨_, σ, hrun, hσ, hlater, hk⟩ | ⟨fault, σ, hrun, hfailed⟩
  · have hrel : C.Rel owed' o' fun i => (σ i).progress := BodiesAgree.rel hσ
    exact .inl ⟨(), fun i => (σ i).progress, fun i => congrArg outside (hrun i), hrel, hlater, hk⟩
  · exact .inr ⟨fault, fun i => (σ i).progress, fun i => congrArg outside (hrun i), hfailed⟩

/-! ### Helper functions -/

section

variable {env : ι → Env} (henv : C.Akin env)

lemma parameters (arguments : List IR.Argument) (types : List (Ids ι))
    (h : ∀ a ∈ types, .global a ∈ g) :
    Sim C.emission g (fun (qs : List (Ids ι × Ids ι)) i => qs.map fun q => ⟨q.1 i, q.2 i⟩)
      ⟨owed, flow, none⟩
        (fun qs => ⟨qs.map Prod.snd ++ owed, flow, none⟩)
      (flatMap fun q => [.issued q.2, .global q.1])
      fun i => (arguments.zip (types.map (· i))).mapM fun (argument, type) =>
        (liftM (declareParameter argument type) : EmitM Parameter) := by
  induction arguments generalizing g owed types with
  | nil => exact .answer (r := []) (forall_mem_nil _) rfl
  | cons argument arguments ih =>
    cases types with
    | nil => exact .answer (r := []) (forall_mem_nil _) rfl
    | cons type types =>
      obtain ⟨htype, htypes⟩ := forall_mem_cons.1 h
      have hone : Sim C.emission g (fun (q : Ids ι × Ids ι) i => (⟨q.1 i, q.2 i⟩ : Parameter))
          ⟨owed, flow, none⟩ (fun q => ⟨q.2 :: owed, flow, none⟩)
          (fun q => [.issued q.2, .global q.1]) fun i =>
            (liftM (declareParameter argument (type i)) : EmitM Parameter) :=
        .lift_bind C.freshId fun id => .lift_bind (C.nameTarget (a := id) _ (by simp)) fun _ =>
          .answer (r := (type, id)) (by simp [htype]) rfl
      simp only [map_cons, zip_cons_cons, mapM_cons]
      refine .bind hone fun q => .bind (ih types fun a ha => mem_append_right _ (htypes a ha))
        fun qs => ?_
      refine .perm (q.2 :: qs.map Prod.snd ++ owed) (.answer (r := q :: qs) (fun x hx => ?_)
        rfl) perm_middle
      simp only [flatMap_cons, mem_append] at hx ⊢
      tauto

include henv

lemma resultType (f : IR.Function) :
    Sim C.emission g (fun (r : Option (Ids ι)) i => r.map (· i)) s (fun _ => s)
      (fun r => r.toList.map .global)
      fun i => Emit.resultType (env i) f := by
  unfold Emit.resultType
  cases f.result with
  | none => exact .pure (r := none) (forall_mem_nil _)
  | some result => exact .bind (C.typeId henv) fun t => .pure (r := some t) (by simp)

/-- Helpers are emitted alike. -/
lemma emitHelper {id : Ids ι} (hid : Attested g id) (name : String) (hfits : C.Fits f) :
    C.Leads g ⟨id :: owed, flow, none⟩ ⟨owed, flow, none⟩ fun i => Emit.emitHelper (env i)
      (id i) name f := by
  refine .bind (resultType henv f) fun result => ?_
  have hrest : ∀ {g'} returnType, Attested g' id → .global returnType ∈ g' →
      (∀ x ∈ result.toList.map Fact.global, x ∈ g') → C.Leads g' ⟨id :: owed, flow, none⟩
      ⟨owed, flow, none⟩ (fun i => do
        let types ← f.arguments.mapM fun argument => Emit.typeId (env i) argument.type
        let type ← (liftM (Assembly.typeId (.function (returnType i) types)) : EmitM Id)
        let parameters ← (f.arguments.zip types).mapM fun (argument, type) =>
          (liftM (declareParameter argument type) : EmitM Parameter)
        (liftM (Assembly.nameTarget (id i) (some name)) : EmitM Unit)
        (liftM (Assembly.openFunction
          { id := id i, typeId := type, returnType := returnType i, parameters := parameters.toArray
          }) : EmitM Unit)
        Emit.inBody f (parameters.map Parameter.id).toArray do
          Emit.beginBody (helperEnv (env i) name f (result.map (· i)))
          Emit.finishBody (helperEnv (env i) name f (result.map (· i)))) := by
    intro g' returnType hid hreturn hresult
    refine .bind (.mapM fun _ _ => C.typeId henv) fun types => ?_
    refine .bind (C.functionType _ (mem_append_right _ hreturn) fun a ha => ?_) fun type => ?_
    · exact mem_append_left _ (mem_flatMap.2 ⟨a, ha, mem_cons_self⟩)
    refine .bind (parameters _ _ fun a ha => ?_) fun qs => ?_
    · exact mem_append_right _ (mem_append_left _ (mem_flatMap.2 ⟨a, ha, mem_cons_self⟩))
    refine .bind (C.nameTarget _ (by simp [hid])) fun _ => ?_
    have hqs : ∀ q ∈ qs, Attested (qs.flatMap fun q => [.issued q.2, .global q.1]) q.1 ∧
        Attested (qs.flatMap fun q => [.issued q.2, .global q.1]) q.2 := fun q hq =>
      ⟨.inr (mem_flatMap.2 ⟨q, hq, by simp⟩), .inl (mem_flatMap.2 ⟨q, hq, by simp⟩)⟩
    have hids : ∀ i, (qs.map fun q => (⟨q.1 i, q.2 i⟩ : Parameter)).map Parameter.id =
      (qs.map Prod.snd).map (· i) :=
      fun i => by simp only [map_map, Function.comp_def]
    simp only [hids]
    refine .perm (id :: qs.map Prod.snd ++ owed) ?_ perm_middle
    refine .bind (C.openFunction qs (by simp [hid]) (by simp) (by simp [Attested, hreturn])
      fun q hq => ?_) fun _ => inBody f (qs.map Prod.snd) (fun a ha => ?_) ?_
    · simp only [attested_append]
      exact ⟨.inr (.inl (hqs q hq).1), .inr (.inl (hqs q hq).2)⟩
    · obtain ⟨q, hq, rfl⟩ := mem_map.1 ha
      simp only [attested_append]
      exact .inr (.inr (.inl (hqs q hq).2))
    · have hE : Locale.Runs C ⟨fun i => (env i).within f, f, name, result, [], deferred f⟩ :=
        ⟨C.akin_within f henv, C.descends henv hfits⟩
      refine .bind (beginBody hE) fun _ => finishBody hE fun x hx => ?_
      simp only [mem_append]
      exact .inr (.inr (.inr (.inr (.inr (.inr (hresult x hx))))))
  cases result with
  | some type => exact hrest type (by simp [hid]) (by simp) fun x hx => mem_append_left _ hx
  | none => exact .bind C.voidType fun void => hrest void (by simp [hid]) (by simp) nofun

/-! ### Interfaces -/

omit henv in
lemma interfaceType {type : Ids ι} (h : .global type ∈ g) (storage : StorageClass)
    (binding : IR.Binding) :
    Sim C.emission g (fun (r : Ids ι × Option (Ids ι)) i => (r.1 i, r.2.map (· i))) s (fun _ => s)
      (fun r => .global r.1 :: r.2.toList.map .global) fun i =>
        (liftM (Emit.interfaceType storage (type i) binding) : EmitM (Id × Option Id)) := by
  unfold Emit.interfaceType
  by_cases hbinding : binding = .builtIn .sampleMask
  · simp only [if_pos hbinding]
    exact .lift_bind (C.arrayType _ _ h) fun array =>
      .lift_bind (C.pointerType _ (mem_cons_of_mem _ h)) fun element =>
        .pure (r := (array, some element)) (by simp)
  · simp only [if_neg hbinding]
    exact .pure (r := (type, none)) (by simp [h])

section

variable (hglobals : R.globals) (stage : IR.Stage) (direction : Direction)
include hglobals

lemma declareInterface (type : Handle .type) (binding : IR.Binding) (name : Option String) :
    Sim C.emission g (fun (r : Ids ι × Option (Ids ι)) i => (r.1 i, r.2.map (· i))) s (fun _ => s)
      (fun r => .global r.1 :: r.2.toList.map .global) fun i =>
        Emit.declareInterface (env i) stage direction type binding name := by
  refine .bind (C.typeId henv) fun type_ => ?_
  refine .bind (interfaceType mem_cons_self _ binding) fun ⟨declared, element⟩ => ?_
  refine .bind (C.pointerType _ mem_cons_self) fun pointer => ?_
  have hlast (id : Ids ι) : Sim C.emission (Fact.global id :: ([Fact.global pointer] ++
      ((Fact.global declared :: element.toList.map Fact.global) ++ ([Fact.global type_] ++ g))))
      (fun (r : Ids ι × Option (Ids ι)) i => (r.1 i, r.2.map (· i))) s (fun _ => s)
      (fun r => .global r.1 :: r.2.toList.map .global) (fun i => do
        (liftM (Assembly.nameTarget (id i) name) : EmitM Unit)
        return (id i, element.map (· i))) := by
    refine .bind (C.nameTarget (a := id) _ (.inr (by simp))) fun _ => .pure (r := (id, element)) ?_
    intro x hx
    simp only [mem_cons, nil_append, mem_append] at hx ⊢
    tauto
  cases binding with
  | builtIn builtIn =>
    simp only [decorateBuiltIn_eq]
    exact C.newVariable _ hglobals mem_cons_self (plain_builtInDecorations _) hlast
  | location location interpolation =>
    cases hshape : shapeAt (env default) type with
    | ok shape =>
      have hlocation : ∀ i id, decorateLocation (env i) stage direction id type location
          interpolation = liftM (adorn id (locationDecorations stage direction shape location
          interpolation)) := fun i id =>
        decorateLocation_of_ok ((shapeAt_congr henv type i).trans hshape) id location interpolation
      simp only [hlocation]
      exact C.newVariable _ hglobals mem_cons_self (plain_locationDecorations _ _ _) hlast
    | error error =>
      have hplain : Adornment.Plain [(.location, some location)] := rfl
      have hlocation : ∀ i id, decorateLocation (env i) stage direction id type location
        interpolation = (do
          (liftM (adorn id [(.location, some location)]) : EmitM Unit)
          throw (.malformed error)) := fun i id =>
        decorateLocation_of_error ((shapeAt_congr henv type i).trans hshape) id
          location interpolation
      simp only [hlocation]
      refine C.newVariable _ hglobals mem_cons_self hplain fun id => ?_
      have hfault : (Fault.malformed error).isStructural = false := rfl
      exact .throw (C.alike hfault (by rintro ⟨⟩))

/-- The variables for the members of a struct, each of which knows its member. -/
abbrev MemberPorts (ι : Type) := { vs : List (Port ι) // ∀ v ∈ vs, v.member.isSome }

lemma declareMembers (members : List IR.StructMember) :
    ∀ index, Sim C.emission g (fun (r : MemberPorts ι) i => r.1.map (·.on i)) s (fun _ => s)
      (fun r => r.1.flatMap Port.facts) fun i => Emit.declareMembers (env i) stage direction
        index members := by
  induction members generalizing g with
  | nil => exact fun _ => .pure (r := (⟨[], forall_mem_nil _⟩ : MemberPorts ι)) (forall_mem_nil _)
  | cons member rest ih =>
    intro index
    simp only [Emit.declareMembers]
    cases member.binding with
    | none => exact .fail rfl (by rintro ⟨⟩)
    | some binding =>
      refine .bind (declareInterface henv hglobals _ _ _ _ _) fun port => ?_
      refine .bind (C.typeId henv) fun type => .bind (ih _) fun others => ?_
      obtain ⟨id, element⟩ := port
      obtain ⟨others, hothers⟩ := others
      refine .pure (r := (⟨⟨id, some (index, type), element⟩ :: others,
        forall_mem_cons.2 ⟨rfl, hothers⟩⟩ :
        MemberPorts ι)) fun x hx => ?_
      simp only [flatMap_cons, Port.facts, Option.toList_some, map_cons,
        map_nil, mem_append, mem_cons, not_mem_nil, or_false] at hx ⊢
      tauto

/-- The variables of an argument or a result: one for the whole, or one for each of its members. -/
abbrev Ports (ι : Type) :=
  { vs : List (Port ι) // (∃ id element, vs = [⟨id, none, element⟩]) ∨ ∀ v ∈ vs, v.member.isSome }

lemma interfaceVariables (type : Handle .type) (binding : Option IR.Binding)
    (name : Option String) :
    Sim C.emission g (fun (r : Ports ι) i => r.1.map (·.on i)) s (fun _ => s)
      (fun r => r.1.flatMap Port.facts) fun i =>
      Emit.interfaceVariables (env i) stage direction type binding name := by
  cases binding with
  | some binding =>
    refine .bind (declareInterface henv hglobals _ _ _ _ _) fun ⟨id, element⟩ =>
      .pure (r := (⟨[⟨id, none, element⟩], .inl ⟨id, element, rfl⟩⟩ : Ports ι)) fun x hx => ?_
    simp only [flatMap_cons, flatMap_nil, Port.facts, Option.toList_none,
      map_nil, mem_append, mem_cons, not_mem_nil, or_false] at hx ⊢
    tauto
  | none =>
    refine .ask (shapeAt_congr henv type) fun shape _ => ?_
    cases shape with
    | struct members span =>
      exact .imp (fun r : MemberPorts ι => (⟨r.1, .inr r.2⟩ : Ports ι))
        (declareMembers henv hglobals stage direction members 0) (fun _ _ => rfl) (fun _ => rfl)
        fun _ _ hx => hx
    | _ => cases direction <;> exact .fail rfl (by rintro ⟨⟩)

end

/-! ### Entry points -/

/-- The variables of an argument of an entry point. -/
structure Intake (ι : Type) where
  type : Handle .type
  inputs : Ports ι

def Intake.on (i : ι) (v : Intake ι) : EntryArgument := ⟨v.type, v.inputs.1.map (·.on i)⟩

omit henv in
lemma loadMember {v : Port ι} (hmember : v.member.isSome) (h : ∀ x ∈ v.facts, x ∈ g) :
    C.Computes g owed flow fun i => Emit.loadMember (v.on i) := by
  have hpointer : C.Computes g owed flow fun i => Emit.interfacePointer (v.on i) :=
    interfacePointer h
  obtain ⟨⟨index, type⟩, hv⟩ := Option.isSome_iff_exists.1 hmember
  have htype : Attested g type := attested_member h hv
  obtain ⟨id, member, element⟩ := v
  obtain rfl : member = some (index, type) := hv
  exact .bind hpointer fun pointer => emitResult [.id pointer] rfl (htype.append _) (by simp)
    fun _ => .inr (Nat.le_of_ble_eq_true rfl)

omit henv in
lemma loadMembers {vs : List (Port ι)} (hmember : ∀ v ∈ vs, v.member.isSome)
    (h : ∀ x ∈ vs.flatMap Port.facts, x ∈ g) :
    Sim C.body g (fun (rs : List (Ids ι)) i => rs.map (· i)) ⟨owed, flow, some .opened⟩
      (fun _ => ⟨owed, flow, some .opened⟩) (map .issued) fun i => (vs.map (·.on i)).mapM
        Emit.loadMember := by
  induction vs generalizing g with
  | nil => exact .pure (r := []) (forall_mem_nil _)
  | cons v vs ih =>
    obtain ⟨hv, hvs⟩ := forall_mem_cons.1 hmember
    rw [flatMap_cons, forall_mem_append] at h
    simp only [map_cons, mapM_cons]
    refine .bind (loadMember hv h.1) fun a => ?_
    refine .bind (ih hvs fun x hx => mem_append_right _ (h.2 x hx)) fun rs =>
      .pure (r := a :: rs) fun x hx => ?_
    simp only [map_cons, mem_cons, mem_append, not_mem_nil, or_false] at hx ⊢
    tauto

lemma loadArgument (argument : Intake ι) (h : ∀ x ∈ argument.inputs.1.flatMap Port.facts, x ∈ g) :
    C.Works g fun i => Emit.loadArgument (env i) (argument.on i) := by
  intro owed flow
  have hkeep : ∀ {g} {a : Ids ι}, Attested g a → C.Moves g ⟨owed, flow, some .opened⟩
      ⟨owed, flow, some .opened⟩ fun i =>
      (modify fun body => { body with arguments := body.arguments.push (a i) } : BodyM Unit) := by
    refine fun {_ a} ha => .modify (fun _ _ => rfl) fun σ hσ hg => { hσ with arguments := ?_ }
    exact hσ.arguments.push a (forall_mem_singleton.2 (hg.attested hσ.rel ha))
  obtain ⟨type, inputs, hkind⟩ := argument
  refine .bind (.lift (C.typeId henv)) fun type => ?_
  have hinputs : ∀ x ∈ inputs.flatMap Port.facts, x ∈ [Fact.global type] ++ g :=
    fun x hx => mem_append_right _ (h x hx)
  rcases hkind with ⟨id, element, rfl⟩ | hmembers
  · rw [flatMap_cons, flatMap_nil, append_nil] at hinputs
    refine .bind (interfacePointer hinputs) fun pointer => ?_
    exact .bind (emitResult [.id pointer] rfl (by simp) (by simp) fun _ =>
      .inr (Nat.le_of_ble_eq_true rfl)) fun _ => hkeep (by simp)
  · have hmany : C.Moves ([Fact.global type] ++ g) ⟨owed, flow, some .opened⟩
        ⟨owed, flow, some .opened⟩ (fun i => do
        let parts ← (inputs.map (·.on i)).mapM Emit.loadMember
        let value ← Emit.emitResult .compositeConstruct (type i) (Operand.ids parts)
        modify fun body => { body with arguments := body.arguments.push value }) :=
      .bind (loadMembers hmembers hinputs) fun parts => .bind (emitOnIds parts rfl (by simp)
        (fun a ha => by simp [ha]) (.inl rfl)) fun _ => hkeep (by simp)
    -- one variable for the whole is what the members are not
    cases inputs with
    | nil => exact hmany
    | cons v rest =>
      obtain ⟨id, member, element⟩ := v
      obtain ⟨member, rfl⟩ := Option.isSome_iff_exists.1 (hmembers _ mem_cons_self)
      cases rest with
      | nil => exact hmany
      | cons => exact hmany

/-- How an entry point executes, by its stage: the modes and their operands. -/
def modesOf (m : IR.Module) (entry : IR.EntryPoint) : List (ExecutionMode × List UInt32) :=
  match entry.stage with
  | .vertex => []
  | .fragment =>
    (.originUpperLeft, []) :: if entry.function.result.any (writesDepth m) then
      [(.depthReplacing, [])] else []
  | .compute =>
    [(.localSize, [entry.workgroupSize.1, entry.workgroupSize.2.1, entry.workgroupSize.2.2])]

omit [Inhabited ι] henv in
lemma executionModes_eq (hm : m'.types = m.types) (id : Id) (entry : IR.EntryPoint) :
    executionModes m' id entry = (modesOf m entry).map fun mode => Emit.executionMode id
      mode.1 mode.2 := by
  unfold executionModes modesOf writesDepth
  rw [hm]
  cases entry.stage with
  | vertex => rfl
  | fragment =>
    dsimp only
    split <;> rfl
  | compute => rfl

omit [Inhabited ι] henv in
lemma length_modesOf (entry : IR.EntryPoint) : ∀ mode ∈ modesOf m entry, mode.2.length ≤ 9 := by
  unfold modesOf
  cases entry.stage with
  | vertex => exact nofun
  | fragment =>
    dsimp only
    split <;> simp
  | compute => simp

lemma entryArguments (hglobals : R.globals) (entry : IR.EntryPoint) :
    Sim C.emission g (fun (rs : List (Intake ι)) i => rs.map (·.on i)) s (fun _ => s)
      (flatMap fun r => r.inputs.1.flatMap Port.facts) fun i => Emit.entryArguments (env i) entry :=
  .mapM fun a _ => .bind (interfaceVariables henv hglobals _ _ _ _ _) fun vs =>
    .pure (r := (⟨a.type, vs⟩ : Intake ι)) fun _ => mem_append_left _

lemma entryOutputs (hglobals : R.globals) (entry : IR.EntryPoint) :
    Sim C.emission g (fun (r : Ports ι) i => r.1.map (·.on i)) s (fun _ => s)
      (fun r => r.1.flatMap Port.facts)
      fun i => Emit.entryOutputs (env i) entry := by
  unfold Emit.entryOutputs
  cases entry.function.result with
  | none => exact .pure (r := (⟨[], .inr nofun⟩ : Ports ι)) (forall_mem_nil _)
  | some result => exact interfaceVariables henv hglobals _ _ _ _ _

/-- Entry points are emitted alike. -/
lemma emitEntryPoint (hglobals : R.globals) (hfits : C.Fits entry.function) :
    C.Leads g ⟨owed, flow, none⟩ ⟨owed, flow, none⟩ fun i => Emit.emitEntryPoint (env i) entry := by
  refine .ask (fun _ => rfl) fun _ _ => .bind C.voidType fun void => ?_
  refine .bind (C.functionType [] mem_cons_self (forall_mem_nil _)) fun type =>
    .bind C.freshId fun id => ?_
  refine .bind (C.nameTarget (a := id) _ (by simp)) fun _ => ?_
  refine .bind (entryArguments henv hglobals entry) fun arguments => ?_
  refine .bind (entryOutputs henv hglobals entry) fun outputs => .read fun p hp hg => ?_
  have hids : ∀ i, ((arguments.map (·.on i)).flatMap EntryArgument.inputs ++
      outputs.1.map (·.on i)).map InterfaceVariable.id =
      ((arguments.flatMap (·.inputs.1) ++ outputs.1).map Port.id).map (· i) := by
    intro i
    simp only [map_append, flatMap_map, map_flatMap, Intake.on, map_map]
    rfl
  have hmodes : ∀ i, (executionModes (env i).module (id i) entry).forM (fun mode =>
      (liftM (Assembly.pushTo .executionModes mode) : EmitM Unit)) =
        (modesOf (env default).module entry).forM fun mode => liftM (Assembly.pushTo .executionModes
        (Emit.executionMode (id i) mode.1 mode.2)) := fun i => by
    rw [executionModes_eq (C.akin_types henv i)]
    exact forM_map ..
  have hload : ∀ i, (arguments.map (·.on i)).forM
      (Emit.loadArgument ((env i).within entry.function)) = arguments.forM fun argument =>
      Emit.loadArgument ((env i).within entry.function) (argument.on i) :=
    fun i => forM_map ..
  have hports : ∀ v ∈ arguments.flatMap (·.inputs.1) ++ outputs.1, .global v.id ∈
      outputs.1.flatMap Port.facts ++ arguments.flatMap fun r => r.inputs.1.flatMap Port.facts := by
    intro v hv
    rcases mem_append.1 hv with hv | hv
    · obtain ⟨argument, hargument, hv⟩ := mem_flatMap.1 hv
      exact mem_append_right _
        (mem_flatMap.2 ⟨argument, hargument, mem_flatMap.2 ⟨v, hv, mem_cons_self⟩⟩)
    · exact mem_append_left _ (mem_flatMap.2 ⟨v, hv, mem_cons_self⟩)
  have hE : Locale.Runs C ⟨fun i => (env i).within entry.function, entry.function, entry.name,
      none, outputs.1, deferred entry.function⟩ := ⟨C.akin_within _ henv, C.descends henv hfits⟩
  obtain ⟨g', hg', hpush⟩ :=
    C.entryPoint (g := outputs.1.flatMap Port.facts ++ (arguments.flatMap (fun r =>
      r.inputs.1.flatMap Port.facts) ++ [Fact.issued id])) (s := ⟨owed, flow, none⟩)
    [.word (executionModel entry.stage).word, .id id, .text entry.name]
    ((arguments.flatMap (·.inputs.1) ++ outputs.1).map Port.id) henv hp (by simp) fun a ha => by
      obtain ⟨v, hv, rfl⟩ := mem_map.1 ha
      rw [← append_assoc]
      exact .inr (mem_append_left _ (hports v hv))
  refine ⟨g', hg', ?_⟩
  simp only [hids, hmodes, hload]
  refine .bind (C.openFunction [] (by simp) (by simp) (by simp) nofun) fun _ => ?_
  refine .bind (inBody entry.function [] nofun (.bind (beginBody hE) fun _ => .bind (.forM
    fun argument hargument => loadArgument (C.akin_within _ henv) argument (fun x hx => ?_) _ _)
    fun _ =>
      finishBody hE fun x hx => ?_)) fun _ => ?_
  · simp only [mem_append]
    exact .inr (.inr (.inr (.inr (.inl (mem_flatMap.2 ⟨argument, hargument, hx⟩)))))
  · simp only [Locale.facts, Option.toList_none, map_nil, append_nil] at hx
    simp only [mem_append]
    exact .inr (.inr (.inr (.inr (.inl hx))))
  · refine .bind (hpush.mono fun x hx => ?_) fun _ => .forM fun mode hmode =>
      C.executionMode mode.1 mode.2 (length_modesOf entry mode hmode) (by simp)
    simp only [mem_append, mem_singleton] at hx ⊢
    tauto

end

end Correspondence

end Shader.Emit
