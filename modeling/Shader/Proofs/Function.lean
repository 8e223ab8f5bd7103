import Shader.Proofs.Statement

/-!
# The record of the emission of a function

The first block of a function is led by its local variables, by pointers to the contents of global
variables, and in an entry point by the loads of its arguments.  Then come the statements, and the
return at the end.  The initial value of a local variable is a constant, so its evaluation emits
nothing.
-/

namespace Shader.Emit

open List Assembly
open IR (LocalVariable)

variable {σ σ' σ₁ σ₂ : Body} {i : Instruction} {v : LocalVariable} {known P Q : List Id}
    {inputs : List EntryArgument}
  {env : FunctionEnv} {a : Unit} {vs : List LocalVariable} {restack : Bool}
  {init : Option (Handle .expression)} {s s' : Site} {r r₁ r₂ : Record} {value u : Id}

namespace Body

/-- The variables that lead the first block. -/
def lead (σ : Body) : List Instruction := σ.draft?.elim [] fun d => d.locals.toList

/-- `σ'` differs from `σ` only in what the statements of the function refer to. -/
structure SameCode (σ σ' : Body) : Prop where
  bound : σ'.bound = σ.bound
  finished : σ'.progress.outcome = σ.progress.outcome
  declared : ∀ id, σ'.progress.Declared id ↔ σ.progress.Declared id
  closed : σ'.closed = σ.closed
  current? : σ'.current? = σ.current?
  values : σ'.values = σ.values
  flow : σ'.flow = σ.flow

lemma SameCode.code (h : σ.SameCode σ') :
    σ'.code = σ.code := by simp only [Body.code, h.closed, h.current?]

def withLocals (σ : Body) (locals : Array Id) : Body := { σ with locals }

def withContents (σ : Body) (contents : Array (Option Id)) : Body := { σ with contents }

def withArguments (σ : Body) (arguments : Array Id) : Body := { σ with arguments }

lemma sameCode_withLocals (σ : Body) (locals : Array Id) : σ.SameCode (σ.withLocals locals) :=
  ⟨rfl, rfl, fun _ => .rfl, rfl, rfl, rfl, rfl⟩

lemma sameCode_withContents (σ : Body) (contents : Array (Option Id)) :
    σ.SameCode (σ.withContents contents) := ⟨rfl, rfl, fun _ => .rfl, rfl, rfl, rfl, rfl⟩

lemma sameCode_withArguments (σ : Body) (arguments : Array Id) :
    σ.SameCode (σ.withArguments arguments) := ⟨rfl, rfl, fun _ => .rfl, rfl, rfl, rfl, rfl⟩

/-- A variable joins those that lead the first block. -/
inductive Leads (i : Instruction) (σ : Body) : Body → Prop where
  | intro {d : Draft} : σ.draft? = some d → Leads i σ (σ.withDraft (d.addVariable i))

lemma Leads.same (h : σ.Leads i σ') : σ.SameCode σ' := by
  obtain ⟨hd⟩ := h
  refine ⟨rfl, rfl, fun _ => .rfl, ?_, ?_, rfl, rfl⟩
  · simp only [Body.closed, hd]
    rfl
  · simp only [Body.current?, hd]
    rfl

lemma Leads.lead (h : σ.Leads i σ') : σ'.lead = σ.lead ++ [i] := by
  obtain ⟨hd⟩ := h
  simp only [Body.lead, hd]
  exact Array.toList_push

lemma leads_of_addVariable (hrun : (liftM (addVariable i) : BodyM Unit) σ = .ok a σ') :
    σ.Leads i σ' := by
  obtain ⟨d, d', hd, hc, rfl⟩ := onDraft_eq_ok hrun
  cases hc
  exact .intro hd

end Body

/-! ### What leads the first block -/

/-- The initial value of a local variable. -/
inductive Initializes (env : FunctionEnv) (σ : Body) :
    Option (Handle .expression) → Record → Option Id → Body → Prop where
  | none : Initializes env σ none [] none σ
  | some {h : Handle .expression} {r : Record} {id : Id} {σ' : Body} :
      Evaluated env env.depth h σ r id σ' → σ'.progress.Declared id →
      Initializes env σ (some h) r (some id) σ'

/-- A local variable is declared. -/
inductive Declares (env : FunctionEnv) (v : LocalVariable) (σ : Body) : Record → Body → Prop where
  | intro {pointer : Id} {init : Option Id} {r : Record} {σ₁ σ₂ σ₃ σ₄ : Body} :
      σ.Extends σ₁ → σ₁.progress.Declared pointer → Initializes env σ₁ v.init r init σ₂ →
      σ₂.issue.Leads (.variable pointer σ₂.nextId .function init) σ₃ → σ₃.Extends σ₄ →
      Declares env v σ r (σ₄.withLocals (σ₄.locals.push σ₂.nextId))

def DeclaresAll (env : FunctionEnv) : List LocalVariable → Emission
  | [] => Emission.skip
  | v :: rest => Emission.Then (Declares env v) (DeclaresAll env rest)

/-- The first block is opened, with the local variables and the pointers that lead it. -/
inductive Begins (env : FunctionEnv) (σ : Body) : Record → Body → Prop where
  | intro {r₁ r₂ : Record} {σ₁ σ₂ σ₃ : Body} {known : List Id} {contents : Array (Option Id)} :
      σ.issue.Opens σ.nextId σ₁ → DeclaresAll env env.function.locals.toList σ₁ r₁ σ₂ →
      Chain env .frame Opcode.isPlain [] ⟨σ₂, [], []⟩ r₂
        ⟨σ₃, known, []⟩ → (∀ id, some id ∈ contents → id ∈ known) →
      Begins env σ (.of .frame [.label σ.nextId] ++ r₁ ++ r₂) (σ₃.withContents contents)

/-- The ids that an interface variable is used by. -/
def InterfaceVariable.ids (v : InterfaceVariable) : List Id :=
  v.id :: (v.element.toList ++ (v.member.map Prod.snd).toList)

/-- The ids that an argument of an entry point is loaded by. -/
def EntryArgument.ids (argument : EntryArgument) :
    List Id := argument.inputs.flatMap InterfaceVariable.ids

/-- An argument of an entry point is loaded. -/
inductive Loads (env : FunctionEnv) (argument : EntryArgument) (σ : Body) :
    Record → Body → Prop where
  | intro {r : Record} {σ' : Body} {known : List Id} {value : Id} :
      Chain env .frame Opcode.isValue [] ⟨σ, argument.ids, []⟩ r ⟨σ', known, []⟩ → value ∈ known →
      Loads env argument σ r (σ'.withArguments (σ'.arguments.push value))

def LoadsAll (env : FunctionEnv) : List EntryArgument → Emission
  | [] => Emission.skip
  | argument :: rest => Emission.Then (Loads env argument) (LoadsAll env rest)

/-- Control reaches the end of a function, or not. -/
inductive FallsOff (env : FunctionEnv) (σ : Body) : Record → Body → Prop where
  | ended : σ.label? = none → FallsOff env σ [] σ
  | nothing {σ' : Body} : env.result = none → σ.Closes .ret σ' → FallsOff env σ
    (.of .frame [.ret]) σ'
  | null {type null : Id} {σ₁ σ' : Body} : env.result = some type → σ.Extends σ₁ →
      σ₁.progress.Declared null → σ₁.Closes (.returnValue null) σ' →
      FallsOff env σ (.of .frame [.returnValue null]) σ'

/-- The emission of a function from its first block on. -/
inductive Written (env : FunctionEnv) (inputs : List EntryArgument) (σ : Body) :
    Record → Body → Prop where
  | intro {r₁ r₂ r₃ r₄ : Record} {σ₁ σ₂ σ₃ σ' : Body} : Begins env σ r₁ σ₁ →
      LoadsAll env inputs σ₁ r₂ σ₂ → StatedAll env {} 0 env.function.body σ₂ r₃ σ₃ →
      FallsOff env σ₃ r₄ σ' → Written env inputs σ (r₁ ++ r₂ ++ r₃ ++ r₄) σ'

/-! ### Runs -/

lemma initializes_of_localInit {init : Option Id} (hrun : localInit env v σ = .ok init σ') :
    ∃ r, Initializes env σ v.init r init σ' := by
  simp only [localInit] at hrun
  cases hinit : v.init with
  | none =>
    simp only [hinit, pure_eq_ok] at hrun
    obtain ⟨rfl, rfl⟩ := hrun
    exact ⟨_, .none⟩
  | some h =>
    simp only [hinit, bind_eq_ok, get_eq_ok] at hrun
    obtain ⟨id, σ₁, heval, _, _, ⟨rfl, rfl⟩, hrun⟩ := hrun
    obtain ⟨r, heval⟩ := evaluated_of_expression heval
    split at hrun
    · rename_i hconstant
      obtain ⟨rfl, rfl⟩ := pure_eq_ok.1 hrun
      refine ⟨r, .some heval ?_⟩
      rcases Bool.or_eq_true_iff.1 hconstant with h | h
      · exact .inl (Assembly.Module.declared_of_isConstant h)
      · exact .inl (Assembly.Module.declared_of_isSpecialization h)
    · simp only [bind_eq_ok] at hrun
      obtain ⟨_, _, hrun, -⟩ := hrun
      exact absurd hrun throw_ne_ok

lemma declares_of_declareLocal (hrun : declareLocal env v σ = .ok a σ') :
    ∃ r, Declares env v σ r σ' := by
  simp only [declareLocal, bind_eq_ok, freshId_eq_ok, modify_eq_ok] at hrun
  obtain ⟨type, σ₁, htype, pointer, σ₂, hpointer, init, σ₃, hinit, id, σ₄, ⟨rfl, rfl⟩,
    _, σ₅, hlead, _, σ₆, hname, -, rfl⟩ := hrun
  obtain ⟨hext, -⟩ := declared_of_emit (declaring_typeId _ _) htype
  obtain ⟨hext', hdeclared⟩ := declared_of_declare (declaring_pointerType _ _) hpointer
  obtain ⟨r, hinit⟩ := initializes_of_localInit hinit
  exact ⟨r, .intro (hext.trans hext') hdeclared hinit (Body.leads_of_addVariable hlead)
    (extends_of_declare (extending_nameTarget _ _) hname)⟩

lemma declaresAll_of_forM {a : PUnit.{1}} (hrun : vs.forM (declareLocal env) σ = .ok a σ') :
    ∃ r, DeclaresAll env vs σ r σ' := by
  induction vs generalizing σ with
  | nil =>
    obtain ⟨-, rfl⟩ := pure_eq_ok.1 hrun
    exact ⟨[], rfl, rfl⟩
  | cons v rest ih =>
    obtain ⟨_, σ₁, hfirst, hrest⟩ := bind_eq_ok.1 hrun
    obtain ⟨r, hfirst⟩ := declares_of_declareLocal hfirst
    obtain ⟨r', hrest⟩ := ih hrest
    exact ⟨r ++ r', .intro hfirst hrest⟩

lemma straight_of_contentsPointers (env : FunctionEnv)
    (hplaces : ∀ place ∈ places, place.id ∈ known ∧ ∀ type, place.contents =
      some type → type ∈ known)
    (hrun : contentsPointers f index places σ = .ok pointers σ') :
    ∃ r new, Chain env .frame Opcode.isPlain [] ⟨σ, known, []⟩ r
      ⟨σ', new ++ known, []⟩ ∧ ∀ id, some id ∈ pointers → id ∈ new := by
  induction places generalizing σ index known pointers with
  | nil =>
    obtain ⟨rfl, rfl⟩ := pure_eq_ok.1 hrun
    exact ⟨[], [], .nil, nofun⟩
  | cons place rest ih =>
    obtain ⟨hplace, hrest⟩ := forall_mem_cons.1 hplaces
    obtain ⟨pointer, σ₁, others, ⟨r, new, hchain, hnew⟩, hothers, rfl⟩ : ∃ pointer σ₁ others,
        (∃ r new, Chain env .frame Opcode.isPlain [] ⟨σ, known, []⟩ r
          ⟨σ₁, new ++ known, []⟩ ∧ ∀ id, pointer = some id → id ∈ new) ∧
        contentsPointers f (index + 1) rest σ₁ = .ok others σ' ∧ pointers = pointer :: others := by
      simp only [contentsPointers] at hrun
      cases hcontents : place.contents with
      | none =>
        simp only [hcontents, bind_eq_ok, pure_eq_ok] at hrun
        obtain ⟨_, _, ⟨rfl, rfl⟩, others, _, hothers, rfl, rfl⟩ := hrun
        exact ⟨none, σ, others, ⟨[], [], .nil, by simp⟩, hothers, rfl⟩
      | some type =>
        simp only [hcontents] at hrun
        split at hrun
        · simp only [bind_eq_ok, map_eq_ok, pure_eq_ok] at hrun
          obtain ⟨zero, σ₁, hzero, _, σ₂, ⟨id, hresult, rfl⟩, others, _, hothers, rfl, rfl⟩ := hrun
          obtain ⟨rfl, hpush⟩ := emitResult_eq_ok rfl hresult
          refine ⟨_, σ₂, others, ⟨_, [σ₁.nextId, zero], .trans
            (.declared (declared_of_declare (declaring_indexConstant _) hzero))
            (.emitResult rfl rfl ?_ ?_ hpush), by simp⟩, hothers, rfl⟩
          · exact mem_cons_of_mem _ (hplace.2 type hcontents)
          · simp [Operand.filterMap_id?_ids, hplace.1]
        · simp only [bind_eq_ok, pure_eq_ok] at hrun
          obtain ⟨_, _, ⟨rfl, rfl⟩, others, _, hothers, rfl, rfl⟩ := hrun
          exact ⟨none, σ, others, ⟨[], [], .nil, by simp⟩, hothers, rfl⟩
    obtain ⟨r', new', hchain', hnew'⟩ := ih (fun p hp => ⟨mem_append_right _ (hrest p hp).1,
      fun type htype => mem_append_right _ ((hrest p hp).2 type htype)⟩) hothers
    refine ⟨r ++ r', new' ++ new, ?_, fun id hid => ?_⟩
    · rw [append_assoc]
      exact hchain.trans hchain'
    · rcases mem_cons.1 hid with hid | hid
      · exact mem_append_right _ (hnew id hid.symm)
      · exact mem_append_left _ (hnew' id hid)

lemma begins_of_beginBody (hrun : beginBody env σ = .ok a σ') : ∃ r, Begins env σ r σ' := by
  simp only [beginBody, bind_eq_ok, freshId_eq_ok, get_eq_ok, modify_eq_ok] at hrun
  obtain ⟨label, _, ⟨rfl, rfl⟩, _, σ₁, hopen, _, σ₂, hlocals, _, _, ⟨rfl, rfl⟩,
    contents, σ₃, hcontents, -, rfl⟩ := hrun
  obtain ⟨r₁, hlocals⟩ := declaresAll_of_forM hlocals
  let ids := σ₂.progress.globals.toList.flatMap fun place => place.id :: place.contents.toList
  have hids : ∀ id ∈ ids, Known env σ₂ id := by
    intro id hid
    obtain ⟨place, hplace, hid⟩ := mem_flatMap.1 hid
    refine .inl (.inr (.inr (.inr (.inr (.inl ⟨place, Array.mem_toList_iff.1 hplace, ?_⟩)))))
    simpa [eq_comm] using hid
  have hplaces : ∀ place ∈ σ₂.progress.globals.toList, place.id ∈ ids ++ [] ∧
      ∀ type, place.contents = some type → type ∈ ids ++ [] := by
    intro place hplace
    refine ⟨mem_append_left _ (mem_flatMap.2 ⟨place, hplace, mem_cons_self⟩), ?_⟩
    intro type htype
    exact mem_append_left _ (mem_flatMap.2 ⟨place, hplace, by simp [htype]⟩)
  obtain ⟨r₂, new, hchain, hnew⟩ := straight_of_contentsPointers env hplaces hcontents
  exact ⟨_, .intro (opens_of_beginBlock hopen) hlocals
    ((Straight.declare ids (.refl σ₂) hids).trans hchain) fun id hid =>
      mem_append_left _ (hnew id (by simpa using hid))⟩

lemma straight_of_loadMember (env : FunctionEnv) {v : InterfaceVariable}
    (hv : ∀ u ∈ v.ids, u ∈ known) (hrun : loadMember v σ = .ok value σ') :
    ∃ r new, Chain env .frame Opcode.isValue [] ⟨σ, known, []⟩ r ⟨σ', new ++ known, []⟩ ∧
    value ∈ new := by
  simp only [loadMember] at hrun
  cases hmember : v.member with
  | none =>
    rw [hmember] at hrun
    exact absurd hrun throw_ne_ok
  | some member =>
    obtain ⟨index, type⟩ := member
    simp only [hmember, bind_eq_ok] at hrun
    obtain ⟨pointer, σ₁, hpointer, hrun⟩ := hrun
    obtain ⟨rfl, hpush⟩ := emitResult_eq_ok rfl hrun
    obtain ⟨r, new, hchain, hmem⟩ := straight_of_interfacePointer env isValue_of_isPlain
      (hv _ (by simp [InterfaceVariable.ids]))
      (fun id hid => hv id (by simp [InterfaceVariable.ids, hid])) hpointer
    refine ⟨_, σ₁.nextId :: new, hchain.trans (.emitResult rfl rfl ?_ ?_ hpush), mem_cons_self⟩
    · exact mem_append_right _ (hv type (by simp [InterfaceVariable.ids, hmember]))
    · simpa [Operand.id?] using hmem

lemma straight_of_loadMembers (env : FunctionEnv) {vs : List InterfaceVariable} {parts : List Id}
    (hvs : ∀ v ∈ vs, ∀ u ∈ v.ids, u ∈ known) (hrun : vs.mapM loadMember σ = .ok parts σ') :
    ∃ r new, Chain env .frame Opcode.isValue [] ⟨σ, known, []⟩ r
      ⟨σ', new ++ known, []⟩ ∧ ∀ part ∈ parts, part ∈ new := by
  induction vs generalizing σ known parts with
  | nil =>
    obtain ⟨rfl, rfl⟩ := pure_eq_ok.1 hrun
    exact ⟨[], [], .nil, forall_mem_nil _⟩
  | cons v rest ih =>
    obtain ⟨hv, hrest⟩ := forall_mem_cons.1 hvs
    simp only [mapM_cons, bind_eq_ok, pure_eq_ok] at hrun
    obtain ⟨part, σ₁, hpart, parts, _, hparts, rfl, rfl⟩ := hrun
    obtain ⟨r, new, hchain, hnew⟩ := straight_of_loadMember env hv hpart
    obtain ⟨r', new', hchain', hnew'⟩ :=
      ih (fun v hv u hu => mem_append_right _ (hrest v hv u hu)) hparts
    refine ⟨r ++ r', new' ++ new, ?_, fun id hid => ?_⟩
    · rw [append_assoc]
      exact hchain.trans hchain'
    · rcases mem_cons.1 hid with rfl | hid
      · exact mem_append_right _ hnew
      · exact mem_append_left _ (hnew' id hid)

lemma loads_of_loadArgument {argument : EntryArgument}
    (hrun : loadArgument env.toEnv argument σ = .ok a σ') : ∃ r, Loads env argument σ r σ' := by
  obtain ⟨type, inputs⟩ := argument
  simp only [loadArgument, bind_eq_ok] at hrun
  obtain ⟨id, σ₁, hid, hrun⟩ := hrun
  have hids : ∀ v ∈ inputs, ∀ u ∈ v.ids, u ∈ [id] ++ EntryArgument.ids ⟨type, inputs⟩ :=
    fun v hv u hu => mem_append_right _ (mem_flatMap.2 ⟨v, hv, hu⟩)
  have hfirst : Chain env .frame Opcode.isValue [] ⟨σ, EntryArgument.ids ⟨type, inputs⟩, []⟩ []
      ⟨σ₁, [id] ++ EntryArgument.ids ⟨type, inputs⟩, []⟩ :=
    .declared (declared_of_emit (declaring_typeId _ _) hid)
  -- all forms but one variable without a member are loaded member by member
  have hmembers : ∀ {parts : List Id} {σ₂ σ₃ : Body} {value : Id}, inputs.mapM loadMember
      σ₁ = .ok parts σ₂ → emitResult .compositeConstruct id (Operand.ids parts) σ₂ = .ok value σ₃ →
      ∃ r, Loads env ⟨type, inputs⟩ σ r (σ₃.withArguments (σ₃.arguments.push value)) := by
    intro parts σ₂ σ₃ value hparts hvalue
    obtain ⟨rfl, hpush⟩ := emitResult_eq_ok rfl hvalue
    obtain ⟨r, new, hchain, hnew⟩ := straight_of_loadMembers env hids hparts
    refine ⟨_, .intro ((hfirst.trans hchain).trans (.emitResult rfl rfl ?_ ?_ hpush)) mem_cons_self⟩
    · simp
    · rw [Operand.filterMap_id?_ids]
      exact fun u hu => mem_append_left _ (hnew u hu)
  match inputs, hrun with
  | [⟨pointee, none, element⟩], hrun =>
    simp only [bind_eq_ok, modify_eq_ok] at hrun
    obtain ⟨pointer, σ₂, hpointer, value, σ₃, hvalue, rfl⟩ := hrun
    obtain ⟨rfl, hpush⟩ := emitResult_eq_ok rfl hvalue
    obtain ⟨r, new, hchain, hmem⟩ := straight_of_interfacePointer env isValue_of_isPlain
      (hids _ mem_cons_self pointee mem_cons_self) (fun u hu => hids _ mem_cons_self u
        (mem_cons_of_mem _ (mem_append_left _ (Option.mem_toList.2 hu)))) hpointer
    refine ⟨_, .intro ((hfirst.trans hchain).trans (.emitResult rfl rfl ?_ ?_ hpush)) mem_cons_self⟩
    · simp
    · simpa [Operand.id?] using hmem
  | [], hrun | [⟨_, some _, _⟩], hrun | _ :: _ :: _, hrun =>
    simp only [bind_eq_ok, modify_eq_ok] at hrun
    obtain ⟨parts, σ₂, hparts, value, σ₃, hvalue, rfl⟩ := hrun
    exact hmembers hparts hvalue

lemma loadsAll_of_forM {a : PUnit.{1}} (hrun : inputs.forM (loadArgument env.toEnv) σ = .ok a σ') :
    ∃ r, LoadsAll env inputs σ r σ' := by
  induction inputs generalizing σ with
  | nil =>
    obtain ⟨-, rfl⟩ := pure_eq_ok.1 hrun
    exact ⟨[], rfl, rfl⟩
  | cons argument rest ih =>
    obtain ⟨_, σ₁, hfirst, hrest⟩ := bind_eq_ok.1 hrun
    obtain ⟨r, hfirst⟩ := loads_of_loadArgument hfirst
    obtain ⟨r', hrest⟩ := ih hrest
    exact ⟨r ++ r', .intro hfirst hrest⟩

lemma fallsOff_of_fallOff (hrun : fallOff env σ = .ok a σ') :
    (∃ r, FallsOff env σ r σ') ∧ σ'.flow = σ.flow := by
  simp only [fallOff, bind_eq_ok] at hrun
  obtain ⟨label, σ₁, hlabel, hrun⟩ := hrun
  obtain ⟨rfl, rfl⟩ := openLabel?_eq_ok hlabel
  split at hrun
  · cases hresult : env.result with
    | none =>
      rw [hresult] at hrun
      have hclose := closes_of_terminate hrun
      exact ⟨⟨_, .nothing hresult hclose⟩, hclose.same.flow⟩
    | some type =>
      simp only [hresult, bind_eq_ok] at hrun
      obtain ⟨null, σ₂, hnull, hrun⟩ := hrun
      obtain ⟨hext, hdeclared⟩ := declared_of_declare (declaring_nullConstant _) hnull
      have hclose := closes_of_terminate hrun
      exact ⟨⟨_, .null hresult hext hdeclared hclose⟩, hclose.same.flow.trans hext.flow⟩
  · rename_i hnone
    obtain ⟨-, rfl⟩ := pure_eq_ok.1 hrun
    exact ⟨⟨[], .ended (by simpa using hnone)⟩, rfl⟩

/-! ### Constructs around the statements -/

lemma flow_of_initializes {id : Option Id} (h : Initializes env σ init r id σ') :
    σ'.flow = σ.flow := by
  cases h with
  | none => rfl
  | some heval _ => exact flow_of_evaluated heval

lemma flow_of_declaresAll (h : DeclaresAll env vs σ r σ') : σ'.flow = σ.flow := by
  induction vs generalizing σ r with
  | nil =>
    obtain ⟨-, rfl⟩ := h
    rfl
  | cons v rest ih =>
    obtain ⟨hfirst, hrest⟩ := h
    rw [ih hrest]
    obtain ⟨hext, -, hinit, hlead, hext'⟩ := hfirst
    exact hext'.flow.trans (hlead.same.flow.trans ((flow_of_initializes hinit).trans hext.flow))

lemma flow_of_begins (h : Begins env σ r σ') : σ'.flow = σ.flow := by
  obtain ⟨hopen, hlocals, hchain, -⟩ := h
  exact (flow_of_straight hchain).trans ((flow_of_declaresAll hlocals).trans hopen.same.flow)

lemma flow_of_loadsAll (h : LoadsAll env inputs σ r σ') : σ'.flow = σ.flow := by
  induction inputs generalizing σ r with
  | nil =>
    obtain ⟨-, rfl⟩ := h
    rfl
  | cons argument rest ih =>
    obtain ⟨⟨hchain, -⟩, hrest⟩ := h
    exact (ih hrest).trans (flow_of_straight hchain)

/-! ### Whole functions -/

/-- A function is finished. -/
inductive Finishes (σ : Body) (fn : Function) : Progress → Prop where
  | intro {d : Draft} : σ.draft? = some d → d.finish = .ok fn →
      Finishes σ fn (σ.progress.withAssembly { σ.progress.assembly with
          draft := none, functions := σ.progress.assembly.functions.push fn })

namespace Finishes

variable {fn : Function} (h : Finishes σ fn p) {p : Progress}
include h

lemma current : σ.current? = none := by
  obtain ⟨hd, hfinish⟩ := h
  unfold Draft.finish at hfinish
  split at hfinish
  · cases hfinish
  · simp only [Body.current?, hd, Option.bind_some]
    assumption

lemma draft : ∃ d, σ.draft? = some d ∧ fn.toFunctionHead = d.toFunctionHead ∧
    fn.blocks = d.closed := by
  obtain ⟨hd, hfinish⟩ := h
  rename_i d
  unfold Draft.finish at hfinish
  split at hfinish
  · cases hfinish
  · split at hfinish
    · cases hfinish
    · cases hfinish
      exact ⟨d, hd, rfl, rfl⟩

lemma blocks : fn.blocks.toList = σ.closed := by
  obtain ⟨d, hd, -, hblocks⟩ := h.draft
  simp only [Body.closed, hd, hblocks, Option.elim_some]

lemma lead : fn.locals.toList = σ.lead := by
  obtain ⟨d, hd, hhead, -⟩ := h.draft
  simp only [Body.lead, hd, hhead, Option.elim_some]

lemma code : fn.code = σ.code := by
  simp only [Body.code, h.current, Function.code, h.blocks, Option.elim_none, append_nil]

end Finishes

/-- A state in front of the first block of a function. -/
structure Blank (env : FunctionEnv) (σ : Body) : Prop where
  closed : σ.closed = []
  current : σ.current? = none
  lead : σ.lead = []
  values : σ.values = { slots := .empty env.function.expressions.size }
  flow : σ.flow = {}

/-- Moreover, all that is known was issued. -/
structure Fresh (env : FunctionEnv) (σ : Body) : Prop extends Blank env σ where
  issued : ∀ u, Known env σ u → u.number < σ.bound

/-! ### What the emission of a function keeps -/

lemma Move.lead (h : Move restack s r s') : s'.body.lead = s.body.lead := by
  cases h with
  | extend h => simp only [Body.lead, h.draft?]
  | issueLabel | issueResult | reorder _ | value _ | stack _ => rfl
  | result _ h | push _ h | close _ h | «open» _ h =>
    cases h with
    | intro hd _ => simp only [Body.lead, hd]; rfl

lemma Moves.lead (h : Moves restack s r s') : s'.body.lead = s.body.lead := by
  induction h with
  | nil => rfl
  | cons hmove _ ih => exact ih.trans hmove.lead

lemma outside_same (h : σ.SameCode σ') : Outside ⟨σ', P, Q⟩ u ↔ Outside ⟨σ, P, Q⟩ u := by
  simp only [Outside, h.bound, h.code]

lemma Numbered.same (hs : Numbered ⟨σ, P, Q⟩) (h : σ.SameCode σ') : Numbered ⟨σ', P, Q⟩ where
  distinct := by simpa only [Site.taken, h.code] using hs.distinct
  issued := by simpa only [Site.taken, h.code, h.bound] using hs.issued

lemma Sound.same (hsound : Sound ⟨σ, P, Q⟩) (h : σ.SameCode σ') : Sound ⟨σ', P, Q⟩ where
  toNumbered := hsound.toNumbered.same h
  declared u hu := (outside_same h).2 (hsound.declared u ((h.declared u).1 hu))

/-- Code is added, and each id is still defined at most once. -/
structure Carries (σ : Body) (r : Record) (σ' : Body) : Prop where
  code : σ'.code = σ.code ++ r.code
  finished : σ'.progress.outcome = σ.progress.outcome
  numbered : Numbered ⟨σ, [], []⟩ → Numbered ⟨σ', [], []⟩
  sound : Sound ⟨σ, [], []⟩ → Sound ⟨σ', [], []⟩
  lead : ∀ i ∈ σ'.lead, i ∈ σ.lead ∨ i.opcode = .variable

namespace Carries

variable {r' : Record}

lemma refl (σ : Body) : Carries σ [] σ :=  ⟨(append_nil _).symm, rfl, id, id, fun _ => .inl⟩

lemma trans (h : Carries σ r σ₁) (h' : Carries σ₁ r' σ') : Carries σ (r ++ r') σ' where
  code := by rw [h'.code, h.code, Record.code_append, append_assoc]
  finished := h'.finished.trans h.finished
  numbered := h'.numbered ∘ h.numbered
  sound := h'.sound ∘ h.sound
  lead i hi := (h'.lead i hi).elim (h.lead i) .inr

lemma of_moves (h : Moves restack ⟨σ, [], []⟩ r ⟨σ', [], []⟩) : Carries σ r σ' :=
  ⟨h.keeps.code, h.keeps.finished, h.numbered, h.sound, fun _ hi => .inl (h.lead ▸ hi)⟩

lemma of_extends (h : σ.Extends σ') :
    Carries σ [] σ' := of_moves (Moves.one (.extend h) : Moves false _ _ _)

lemma extend (h : Carries σ r σ₁) (h' : σ₁.Extends σ') : Carries σ r σ' := by
  rw [← append_nil r]
  exact h.trans (of_extends h')

lemma same (hcarries : Carries σ r σ₁) (h : σ₁.SameCode σ')
    (hlead : ∀ i ∈ σ'.lead, i ∈ σ₁.lead ∨ i.opcode = .variable) : Carries σ r σ' where
  code := by rw [h.code, hcarries.code]
  finished := h.finished.trans hcarries.finished
  numbered hs := (hcarries.numbered hs).same h
  sound hsound := (hcarries.sound hsound).same h
  lead i hi := (hlead i hi).elim (hcarries.lead i) .inr

end Carries

section

variable {p q : Point}

lemma carries_initializes {id : Option Id} (h : Initializes env σ init r id σ') :
    Carries σ r σ' := by
  cases h with
  | none => exact .refl σ
  | some heval _ => exact .of_moves (moving_evaluated env env.depth heval [] [])

lemma carries_declares (h : Declares env v σ r σ') : Carries σ r σ' := by
  obtain ⟨hext, -, hinit, hlead, hext'⟩ := h
  have hbefore := (Carries.of_extends hext).trans (carries_initializes hinit)
  have hvariable := (hbefore.extend (Body.extends_issue _)).same hlead.same fun i hi => by
    rw [hlead.lead] at hi
    exact (mem_append.1 hi).imp_right fun hi => by rw [mem_singleton.1 hi]; rfl
  exact (hvariable.extend hext').same (Body.sameCode_withLocals _ _) fun _ => .inl

lemma carries_declaresAll (h : DeclaresAll env vs σ r σ') : Carries σ r σ' := by
  induction vs generalizing σ r with
  | nil =>
    obtain ⟨rfl, rfl⟩ := h
    exact .refl σ'
  | cons v rest ih =>
    obtain ⟨hfirst, hrest⟩ := h
    exact (carries_declares hfirst).trans (ih hrest)

lemma carries_straight (hchain : Chain env source allowed [] p r q)
    (hp : p.pending = []) (hq : q.pending = []) : Carries p.body r q.body := by
  have hmoves := moves_of_straight (moving_evaluated env env.depth) hchain [] []
  rw [hp, hq] at hmoves
  exact .of_moves hmoves

lemma carries_begins (h : Begins env σ r σ') : Carries σ r σ' := by
  obtain ⟨hopen, hlocals, hchain, -⟩ := h
  have hlabel : Moves false ⟨σ, [], []⟩ [⟨.frame, .label σ.nextId⟩] ⟨_, [], []⟩ :=
    .cons .issueLabel (.one (.open (.refl _) hopen))
  exact (((Carries.of_moves hlabel).trans (carries_declaresAll hlocals)).trans
    (carries_straight hchain rfl rfl)).same (Body.sameCode_withContents _ _) fun _ => .inl

lemma carries_loadsAll (h : LoadsAll env inputs σ r σ') : Carries σ r σ' := by
  induction inputs generalizing σ r with
  | nil =>
    obtain ⟨rfl, rfl⟩ := h
    exact .refl σ'
  | cons argument rest ih =>
    obtain ⟨⟨hchain, -⟩, hrest⟩ := h
    refine .trans ?_ (ih hrest)
    exact (carries_straight hchain rfl rfl).same (Body.sameCode_withArguments _ _) fun _ => .inl

lemma moving_fallsOff : Emission.Moving (FallsOff env) := by
  intro σ r σ' hend P Q
  cases hend with
  | ended _ => exact .nil
  | nothing _ hclose => exact .one (.close rfl hclose)
  | null _ hext _ hclose => exact .cons (.extend hext) (.one (.close rfl hclose))

lemma carries_written (h : Written env inputs σ r σ') : Carries σ r σ' := by
  obtain ⟨hbegins, hloads, hbody, hend⟩ := h
  exact (((carries_begins hbegins).trans (carries_loadsAll hloads)).trans
    (.of_moves (moving_statedAll env env.function.body _ _ hbody [] []))).trans
      (.of_moves (moving_fallsOff hend [] []))

end

lemma Blank.code (h : Blank env σ) : σ.code = [] := by
  simp only [Body.code, h.closed, h.current, flatMap_nil, Option.elim_none, append_nil]

lemma Blank.numbered (h : Blank env σ) : Numbered ⟨σ, [], []⟩ where
  distinct := by simp [Site.taken, h.code]
  issued := by simp [Site.taken, h.code]

lemma Fresh.sound (h : Fresh env σ) : Sound ⟨σ, [], []⟩ where
  toNumbered := h.numbered
  declared u hu := ⟨h.issued u (.inl hu), by simp [h.code], not_mem_nil⟩

lemma written_of_finishBody (hflow : σ.flow = {}) (hbegins : Begins env σ r₁ σ₁)
    (hloads : LoadsAll env inputs σ₁ r₂ σ₂) (hrun : finishBody env σ₂ = .ok a σ') :
    ∃ r σ₃ fn, Written env inputs σ r σ₃ ∧ Finishes σ₃ fn σ'.progress := by
  simp only [finishBody, bind_eq_ok, get_eq_ok] at hrun
  obtain ⟨_, σ₃, hbody, _, σ₄, hend, _, _, ⟨rfl, rfl⟩, hrun⟩ := hrun
  have hflow₂ : σ₂.flow = {} := by rw [flow_of_loadsAll hloads, flow_of_begins hbegins, hflow]
  obtain ⟨⟨r₃, hbody⟩, -⟩ := told_statements env env.function.body 0 hbody
  rw [hflow₂] at hbody
  obtain ⟨⟨r₄, hend⟩, -⟩ := fallsOff_of_fallOff hend
  have hwritten := Written.intro hbegins hloads hbody hend
  split at hrun
  · obtain ⟨_, _, hrun, -⟩ := bind_eq_ok.1 hrun
    exact absurd hrun throw_ne_ok
  · obtain ⟨m, hm, rfl⟩ := build_eq_ok.1 hrun
    simp only [closeFunction] at hm
    cases hd : σ₄.progress.assembly.draft with
    | none =>
      rw [hd] at hm
      cases hm
    | some d =>
      simp only [hd] at hm
      cases hfinish : d.finish with
      | error cause =>
        rw [hfinish] at hm
        cases hm
      | ok fn =>
        rw [hfinish] at hm
        cases hm
        exact ⟨_, σ₄, fn, hwritten, .intro hd hfinish⟩

end Shader.Emit
