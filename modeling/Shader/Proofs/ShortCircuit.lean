import Shader.Proofs.Discipline
import Shader.Proofs.FlagMachine

/-!
# Short circuits

A program that returns a condition over private flags becomes a module, and what its function
computes is the short-circuit evaluation of the condition.
-/

namespace Shader.Assembly

open List

/-! ### Private variables -/

/-- The variable in private storage that an instruction declares. -/
def Instruction.privateVariable? (i : Instruction) : Option Id :=
  if i.opcode = .variable then
    match i.operands with
    | .id _ :: .id id :: .word storage :: _ =>
      if storage = StorageClass.private.word then some id else none
    | _ => none
  else none

/-- The variables in private storage, in their order. -/
def Module.privateVariables (m : Module) : List Id :=
  m.sections.globals.toList.filterMap Instruction.privateVariable?

lemma privateVariables_push (m : Module) (i : Instruction) :
    (pushTo .globals i m).2.privateVariables = m.privateVariables ++ i.privateVariable?.toList := by
  have hpush : (pushTo .globals i m).2.sections.globals = m.sections.globals.push i := rfl
  simp only [Module.privateVariables, hpush, Array.toList_push, filterMap_append]
  cases h : i.privateVariable? <;> simp [h]

/-- The step declares no private variable. -/
def SparesVariables {α : Type} (act : DeclareM α) : Prop :=
  ∀ m : Module, (act m).2.privateVariables = m.privateVariables

namespace SparesVariables

variable {α β : Type}

protected lemma pure (a : α) : SparesVariables (pure a) := fun _ => rfl

protected lemma get : SparesVariables (get : DeclareM Module) := fun _ => rfl

protected lemma bind {next : α → DeclareM β} (h : SparesVariables act)
    (h' : ∀ a, SparesVariables (next a)) : SparesVariables (act >>= next) :=
  fun m => (h' (act m).1 (act m).2).trans (h m)

end SparesVariables

lemma sparesVariables_pushTo (h : i.opcode ≠ .variable) : SparesVariables (pushTo .globals i) := by
  intro m
  rw [privateVariables_push, Instruction.privateVariable?, if_neg h]
  exact append_nil _

lemma sparesVariables_pushTo_of_ne (h : s ≠ .globals) (i : Instruction) :
    SparesVariables (pushTo s i) := by
  intro m
  have hget : (m.sections.push i s).globals = m.sections.globals :=
    (Sections.get_push m.sections i s .globals).trans (if_neg h)
  show (if _ then m else _).privateVariables = _
  split
  · rfl
  · exact congrArg (·.toList.filterMap Instruction.privateVariable?) hget

lemma sparesVariables_nameTarget (target : Id) (name : Option String) :
    SparesVariables (nameTarget target name) := by
  cases name with
  | none => exact .pure ()
  | some name =>
    refine .bind .get fun m => ?_
    split
    · exact sparesVariables_pushTo_of_ne (by decide) _
    · exact .pure ()

lemma sparesVariables_internType (declarator : Declarator) (hopcode : declarator.opcode ≠ .variable)
    (hplain : ∀ id, decorateType id key = pure ()) :
    SparesVariables (internType key (pure declarator)) := by
  refine .bind .get fun m => ?_
  split
  · exact .pure _
  · simp only [pure_bind]
    refine .bind (fun _ => rfl) fun id => .bind (sparesVariables_pushTo hopcode) fun _ => ?_
    rw [hplain]
    exact .bind (.pure ()) fun _ => .bind (fun _ => rfl) fun _ => .pure _

lemma sparesVariables_nullConstant (type : Id) : SparesVariables (nullConstant type) := by
  refine .bind .get fun m => .bind .get fun _ => ?_
  split
  · exact .pure _
  · exact .bind (fun _ => rfl) fun id => .bind (sparesVariables_pushTo
      (show Opcode.constantNull ≠ .variable by decide)) fun _ => .bind (fun _ => rfl)
      fun _ => .pure _

end Shader.Assembly

namespace Shader.Emit

open List Assembly
open IR (Condition)

variable {α : Type} {env : Env} {p : Progress} {count before : Nat} {g h : Handle .globalVariable}

/-! ### Declarations -/

lemma declare_eq (act : DeclareM α) (p : Progress) :
    (liftM act : EmitM α) p = .ok (act p.assembly).1 (p.withAssembly (act p.assembly).2) := rfl

/-- The module is one of a condition, as far as its types are concerned. -/
structure Flagged (env : Env) : Prop where
  depth : 0 < env.depth
  types : env.module.types.get? ⟨0⟩ = some ⟨none, .scalar .bool⟩ ∧
    env.module.types.get? ⟨1⟩ = some ⟨none, .pointer ⟨0⟩ .private⟩

lemma typeId_flag (henv : Flagged env) (hsize : 0 < p.types.ids.size) :
    ∃ flag p', typeId env ⟨0⟩ p = .ok flag p' ∧ p'.types.get? ⟨0⟩ = some flag ∧
      p'.types.ids.size = p.types.ids.size ∧ p'.globals = p.globals ∧ p'.functions = p.functions ∧
      p'.assembly.privateVariables = p.assembly.privateVariables := by
  obtain ⟨depth, hdepth⟩ := Nat.exists_eq_succ_of_ne_zero (Nat.pos_iff_ne_zero.1 henv.depth)
  unfold typeId
  rw [hdepth]
  simp only [typeIdWithin, bind_eq_ok, get_eq_ok]
  cases hflag : p.types.get? ⟨0⟩ with
  | some flag =>
    refine ⟨flag, p, ⟨p, p, ⟨rfl, rfl⟩, ?_⟩, hflag, rfl, rfl, rfl, rfl⟩
    simp only [hflag]
    rfl
  | none =>
    have htype : env.module.typeAt ⟨0⟩ = .ok ⟨none, .scalar .bool⟩ := by
      simp only [IR.Module.typeAt, henv.types.1]
    obtain ⟨flag, hflag'⟩ : ∃ flag, (Assembly.typeId (.scalar .bool) p.assembly).1 = flag :=
      ⟨_, rfl⟩
    refine ⟨flag, { p.withAssembly (Assembly.typeId (.scalar .bool) p.assembly).2 with
      types := p.types.set ⟨0⟩ (some flag) }, ⟨p, p, ⟨rfl, rfl⟩, ?_⟩, ?_, ?_, rfl, rfl,
      sparesVariables_internType (scalarDeclarator .bool) (by decide) (fun _ => rfl) _⟩
    · simp only [hflag, bind_eq_ok, modify_eq_ok]
      refine ⟨⟨none, .scalar .bool⟩, p, ?_, .scalar .bool, p, rfl, flag, _, ?_, (), _, rfl, rfl⟩
      · rw [htype]
        rfl
      · rw [declare_eq, hflag']
    · simp [Slots.get?, Slots.set, Array.getD_eq_getD_getElem?, hsize]
    · simp [Slots.set]

/-- The flags declared so far are distinct variables that hold their contents themselves. -/
structure HasFlags (p : Progress) (count : Nat) : Prop where
  size : p.globals.size = count
  types : 0 < p.types.ids.size
  bare : ∀ place ∈ p.globals, place.contents = none ∧ place.id.number < p.assembly.bound
  distinct : (p.globals.toList.map GlobalPlace.id).Nodup
  privates : p.assembly.privateVariables = p.globals.toList.map GlobalPlace.id

/-- One more flag can be declared, and is there then. -/
lemma declareGlobal_flag (henv : Flagged env) (hp : HasFlags p count) (name : Option String) :
    ∃ p', declareGlobal env (Condition.flag name) p = .ok () p' ∧ HasFlags p' (count + 1) ∧
      p'.functions = p.functions := by
  obtain ⟨flag, p₁, htype, -, hsize, hglobals, hfunctions, hvariables⟩ := typeId_flag henv hp.types
  have hinit : ∀ q, globalInit env flag (Condition.flag name) q =
        .ok (some (nullConstant flag q.assembly).1)
        (q.withAssembly (nullConstant flag q.assembly).2) := fun _ => rfl
  have hrun : ∃ p', declareGlobal env (Condition.flag name) p = .ok () p' := by
    simp only [declareGlobal, bind_eq_ok, modify_eq_ok]
    exact ⟨_, flag, p₁, htype, _, _, declare_eq _ _, (flag, false), _, rfl, _, _,
      declare_eq _ _, _, _, hinit _, _, _, declare_eq _ _, (), _, declare_eq _ _, (), _,
      declare_eq _ _, rfl⟩
  obtain ⟨p', hrun⟩ := hrun
  have hsteps := hrun
  simp only [declareGlobal, bind_eq_ok, modify_eq_ok] at hsteps
  obtain ⟨contents, q₁, hcontents, contentsPointer, q₂, hpointer, ⟨pointee, wrapped⟩, q₃, hvariable,
    pointer, q₄, hpointer', init, q₅, hinit', id, q₆, hid, _, q₇, hpush, _, q₈,
    hdecorate, rfl⟩ := hsteps
  cases htype.symm.trans hcontents
  obtain ⟨hwrapped, rfl⟩ := EStateM.Result.ok.inj
    (hvariable : EStateM.Result.ok (flag, false) q₂ = .ok (pointee, wrapped) q₃)
  obtain ⟨rfl, rfl⟩ := Prod.ext_iff.1 hwrapped
  have hext := (declaring_typeId _ _ hcontents).1.trans
    ((Extending.declare (declaring_pointerType _ _).extending hpointer).trans
      ((Extending.declare (declaring_pointerType _ _).extending hpointer').trans
        (extending_globalInit _ _ _ hinit')))
  have hext' := (Extending.declare (extending_pushTo _ _) hpush).trans
    (Extending.declare (extending_decorateGlobal _ _) hdecorate)
  -- the new variable has an id above all those issued before
  have hfresh : id.number = q₅.assembly.bound ∧ q₆.assembly.bound = q₅.assembly.bound + 1 := by
    cases (declare_eq _ _).symm.trans hid
    exact ⟨rfl, rfl⟩
  have hlow := hext.bound
  have hhigh := hext'.bound
  have hspares (pointee : Id) : SparesVariables (pointerType .private pointee) :=
    sparesVariables_internType _ (show Opcode.typePointer ≠ .variable by decide) fun _ => rfl
  have hsame : q₈.globals = p₁.globals ∧ q₈.types = p₁.types ∧ q₈.functions = p₁.functions ∧
      q₈.assembly.privateVariables = p₁.assembly.privateVariables ++ [id] := by
    cases (declare_eq _ _).symm.trans hpointer
    cases (declare_eq _ _).symm.trans hpointer'
    cases (hinit _).symm.trans hinit'
    cases (declare_eq _ _).symm.trans hid
    cases (declare_eq _ _).symm.trans hpush
    cases (declare_eq _ _).symm.trans hdecorate
    refine ⟨rfl, rfl, rfl, ?_⟩
    refine (sparesVariables_nameTarget _ _ _).trans ((privateVariables_push _ _).trans ?_)
    refine congrArg (· ++ _) ((sparesVariables_nullConstant _ _).trans ?_)
    exact (hspares _ _).trans (hspares _ _)
  have hglobals' := hsame.1.trans hglobals
  refine ⟨_, hrun, ⟨?_, ?_, fun place hplace => ?_, ?_, ?_⟩, hsame.2.2.1.trans hfunctions⟩
  · rw [Array.size_push, hglobals', hp.size]
  · rw [hsame.2.1, hsize]
    exact hp.types
  · change place.contents = none ∧ place.id.number < q₈.assembly.bound
    rcases Array.mem_push.1 hplace with hplace | rfl
    · rw [hglobals'] at hplace
      have := hp.bare place hplace
      exact ⟨this.1, by omega⟩
    · exact ⟨rfl, by simp only; omega⟩
  · rw [Array.toList_push, map_append, hglobals']
    refine nodup_append.2 ⟨hp.distinct, nodup_singleton _, ?_⟩
    rintro u hu w hw rfl
    obtain ⟨place, hplace, rfl⟩ := mem_map.1 hu
    have hnumber := (hp.bare place (Array.mem_toList_iff.1 hplace)).2
    rw [mem_singleton.1 hw] at hnumber
    simp only at hnumber
    omega
  · rw [hsame.2.2.2, hvariables, hp.privates, Array.toList_push, map_append, hglobals']
    rfl

lemma declareGlobals_flags (henv : Flagged env) (names : List (Option String)) :
    ∀ {p} {before}, HasFlags p before →
      ∃ p', (names.map Condition.flag).forM (declareGlobal env) p = .ok () p' ∧
        HasFlags p' (before + names.length) ∧ p'.functions = p.functions := by
  induction names with
  | nil => exact fun hp => ⟨_, rfl, hp, rfl⟩
  | cons name names ih =>
    intro p before hp
    obtain ⟨p₁, hfirst, hp₁, hfunctions⟩ := declareGlobal_flag henv hp name
    obtain ⟨p', hrest, hp', hfunctions'⟩ := ih hp₁
    refine ⟨p', bind_eq_ok.2 ⟨(), p₁, hfirst, hrest⟩, ?_, hfunctions'.trans hfunctions⟩
    rwa [Nat.add_assoc, Nat.add_comm 1] at hp'

/-- Where the flags are. -/
def Progress.flagPlace (p : Progress) (g : Handle .globalVariable) : Id :=
  (p.globals.toList.map GlobalPlace.id).getD g.index ⟨0⟩

lemma contentsPointers_bare (f : IR.Function) (h : ∀ place ∈ places, place.contents = none)
    (index : Nat)
    (σ : Body) : contentsPointers f index places σ = .ok (replicate places.length none) σ := by
  induction places generalizing index with
  | nil => rfl
  | cons place rest ih =>
    obtain ⟨hplace, hrest⟩ := forall_mem_cons.1 h
    simp only [contentsPointers, hplace, bind_eq_ok]
    exact ⟨none, σ, rfl, _, _, ih hrest _, rfl⟩

lemma flagPlace_eq (hp : HasFlags p count) (hg : g.index < count) :
    ∃ contents, p.globals[g.index]? = some ⟨p.flagPlace g, contents⟩ := by
  have hlt : g.index < p.globals.size := hp.size ▸ hg
  refine ⟨p.globals[g.index].contents, ?_⟩
  rw [Array.getElem?_eq_getElem, Progress.flagPlace, getD_eq_getElem?_getD, getElem?_map,
    Array.getElem?_toList, Array.getElem?_eq_getElem]
  rfl

/-- The body that returns a condition comes to the code of the condition. -/
lemma inBody_function (env : FunctionEnv) (henv : Flagged env.toEnv) (c : Condition)
    (hfunction : env.function = c.function) (hdeferred : env.deferred = deferred c.function)
    (houtputs : env.outputs = []) (hresult : env.result = some flag) (hdepth : c.root 0 < env.depth)
    (hp : HasFlags p count) (hflag : p.types.get? ⟨0⟩ = some flag)
    (hflags : ∀ g ∈ c.flags, g.index < count)
    {head : FunctionHead} (hdraft : p.assembly.draft = some { toFunctionHead := head }) :
    ∃ p' fn, inBody c.function #[] (do beginBody env; finishBody env) p = .ok () p' ∧
      p'.outcome = (p.assembly.functions.push fn, p.faults) ∧
      p'.assembly.privateVariables = p.assembly.privateVariables ∧
      fn.blocks = returning flag p.flagPlace c
        ⟨p.assembly.bound + 1, #[], { label := ⟨p.assembly.bound⟩ }⟩ := by
  let v : Valuation := { slots := .empty c.function.expressions.size }
  let σ : Body :=
    { progress := p, values := v, contents := (replicate p.globals.size none).toArray }
  let s : Spot := ⟨p.assembly.bound + 1, #[], { label := ⟨p.assembly.bound⟩ }⟩
  have hbegin : beginBody env { progress := p, values := v, arguments := #[] } =
      .ok () (s.body σ head v) := by
    let m : Assembly.Module := { p.assembly with bound := p.assembly.bound + 1 }
    have hblock : beginBlock ⟨p.assembly.bound⟩ { progress := p.withAssembly m, values := v } =
        .ok () (s.body { σ with contents := #[] } head v) := by
      refine build_eq_ok.2 ⟨(s.body { σ with contents := #[] } head v).progress.assembly, ?_, rfl⟩
      have hm : m.draft = some { toFunctionHead := head } := hdraft
      simp only [Assembly.beginBlock, onDraft, Progress.withAssembly, hm, Draft.beginBlock]
      rfl
    have hlocals : env.function.locals.toList = [] := by
      rw [hfunction]
      rfl
    simp only [beginBody, bind_eq_ok, get_eq_ok, modify_eq_ok, hlocals]
    exact ⟨_, _, rfl, (), _, hblock, (), _, rfl, _, _, ⟨rfl, rfl⟩, _, _,
      contentsPointers_bare _ (fun place hplace =>
      (hp.bare place (Array.mem_toList_iff.1 hplace)).1) _ _,
      by rw [Array.length_toList]; rfl⟩
  -- the rest of the run depends on the declarations only
  have hfurnished : Furnished flag p.flagPlace env σ count := by
    refine ⟨henv.depth, ?_, henv.types, hflag, fun index => ?_, fun g hg => flagPlace_eq hp hg⟩
    · rw [hfunction]
      rfl
    · simp only [σ, Array.getD_eq_getD_getElem?, getElem?_toArray, getElem?_replicate]
      split <;> rfl
  have hsize : c.root 0 < v.size := by
    have hlength := c.length_layout 0
    simp only [v, Valuation.size, Slots.empty, Array.size_replicate, Arena.size, Condition.function,
      size_toArray]
    omega
  obtain ⟨v', hstatements⟩ := statements_function head s v hfurnished c hfunction
    hdeferred hflags hdepth houtputs hresult (fun i => Slots.get?_empty _ _) hsize
  rw [← hfunction] at hstatements
  generalize hlast : code flag p.flagPlace c s = last at hstatements
  obtain ⟨id, t⟩ := last
  have hne : t.closed.push (t.block.close (.returnValue id)) ≠ #[] := Array.push_ne_empty
  let fn : Function := ⟨head, t.closed.push (t.block.close (.returnValue id)), hne⟩
  let m : Assembly.Module :=
    { p.assembly with bound := t.bound, draft := none, functions := p.assembly.functions.push fn }
  have hclose : (liftM closeFunction : BodyM Unit) (t.between σ head (.returnValue id) v') =
      .ok () ((t.between σ head (.returnValue id) v').withProgress (p.withAssembly m)) := by
    refine build_eq_ok.2 ⟨_, ?_, rfl⟩
    simp only [closeFunction, Spot.between, Draft.finish, dif_neg hne]
    rfl
  have hfinish : finishBody env (s.body σ head v) =
      .ok () ((t.between σ head (.returnValue id) v').withProgress (p.withAssembly m)) := by
    simp only [finishBody, bind_eq_ok, get_eq_ok]
    exact ⟨(), _, hstatements, (), _, rfl, _, _, ⟨rfl, rfl⟩, hclose⟩
  refine ⟨p.withAssembly m, fn, ?_, rfl, rfl, ?_⟩
  · have hrun : (do beginBody env; finishBody env : BodyM Unit)
        { progress := p, values := v, arguments := #[] } =
        .ok () ((t.between σ head (.returnValue id) v').withProgress (p.withAssembly m)) :=
      bind_eq_ok.2 ⟨(), _, hbegin, hfinish⟩
    simp only [inBody]
    rw [hrun]
    rfl
  · simp only [returning, hlast, fn, s]

/-- A function that returns a condition is emitted with the code of the condition. -/
lemma emitHelper_function (henv : Flagged env) (hp : HasFlags p count)
    (hdraft : p.assembly.draft = none)
    (c : Condition) (hflags : ∀ g ∈ c.flags, g.index < count) (id : Id) (name : String) :
    ∃ p' flag fn bound, emitHelper env id name c.function p = .ok () p' ∧
      p'.outcome = (p.assembly.functions.push fn, p.faults) ∧
      p'.assembly.privateVariables = p.assembly.privateVariables ∧
      fn.blocks = returning flag p.flagPlace c ⟨bound + 1, #[], { label := ⟨bound⟩ }⟩ := by
  obtain ⟨flag, p₁, htype, hflag, hsize, hglobals, -, hvariables⟩ := typeId_flag henv hp.types
  have hext := (declaring_typeId _ _ htype).1
  have hresult : resultType env c.function p = .ok (some flag) p₁ :=
    bind_eq_ok.2 ⟨flag, p₁, htype, rfl⟩
  -- what is declared before the function is opened
  have htypes := declare_eq (Assembly.typeId (.function flag [])) p₁
  have hext₂ := Extending.declare (Assembly.declaring_typeId _).extending htypes
  generalize (Assembly.typeId (.function flag []) p₁.assembly).1 = type at htypes
  generalize hp₂ : p₁.withAssembly (Assembly.typeId (.function flag []) p₁.assembly).2 =
    p₂ at htypes hext₂
  have hname := declare_eq (nameTarget id (some name)) p₂
  have hext₃ := Extending.declare (extending_nameTarget _ _) hname
  generalize hp₃ : p₂.withAssembly (nameTarget id (some name) p₂.assembly).2 = p₃ at hname hext₃
  have hbefore := hext.trans (hext₂.trans hext₃)
  have hdraft₃ : p₃.assembly.draft = none := hbefore.draft.trans hdraft
  have hsame : p₃.types = p₁.types ∧ p₃.globals = p.globals := by
    subst hp₃ hp₂
    exact ⟨rfl, hglobals⟩
  have hprivates : p₃.assembly.privateVariables = p.assembly.privateVariables := by
    subst hp₃ hp₂
    refine (sparesVariables_nameTarget _ _ _).trans (Eq.trans ?_ hvariables)
    exact sparesVariables_internType _ (show Opcode.typeFunction ≠ .variable by decide)
      (fun _ => rfl) _
  let head : FunctionHead := { id, typeId := type, returnType := flag, parameters := #[] }
  let p₄ := p₃.withAssembly { p₃.assembly with draft := some { toFunctionHead := head } }
  have hopen : (liftM (openFunction head) : EmitM Unit) p₃ = .ok () p₄ := by
    refine liftBuild_eq_ok.2 ⟨_, ?_, rfl⟩
    simp only [openFunction, hdraft₃]
  have hplace : p₄.flagPlace = p.flagPlace := by
    funext g
    simp only [Progress.flagPlace, p₄, Progress.withAssembly, hsame.2]
  have hp₄ : HasFlags p₄ count := by
    refine ⟨?_, ?_, fun place hplace => ?_, ?_, ?_⟩
    · simp only [p₄, Progress.withAssembly, hsame.2, hp.size]
    · simp only [p₄, Progress.withAssembly, hsame.1, hsize, hp.types]
    · simp only [p₄, Progress.withAssembly, hsame.2] at hplace ⊢
      have hbound := hbefore.bound
      exact ⟨(hp.bare place hplace).1, by have := (hp.bare place hplace).2; omega⟩
    · simp only [p₄, Progress.withAssembly, hsame.2, hp.distinct]
    · rw [show p₄.globals = p.globals from hsame.2, ← hp.privates]
      exact hprivates
  have hdepth : c.root 0 < (env.within c.function).depth := by
    have hlength := c.length_layout 0
    simp only [Env.within, Arena.size, Condition.function, size_toArray]
    omega
  let functionEnv : FunctionEnv :=
    { toEnv := env.within c.function
      function := c.function
      name
      result := some flag
      outputs := []
      deferred := deferred c.function }
  obtain ⟨p', fn, hrun, houtcome, hprivates', hblocks⟩ := inBody_function functionEnv
    ⟨Nat.lt_of_lt_of_le henv.depth (Nat.le_add_right _ _), henv.types⟩ c rfl rfl rfl rfl hdepth hp₄
    (hsame.1 ▸ hflag) hflags rfl
  refine ⟨p', flag, fn, p₄.assembly.bound, ?_, ?_, hprivates'.trans hprivates, hplace ▸ hblocks⟩
  · refine bind_eq_ok.2 ⟨_, _, hresult, bind_eq_ok.2 ⟨flag, p₁, rfl, ?_⟩⟩
    refine bind_eq_ok.2 ⟨[], p₁, rfl, bind_eq_ok.2 ⟨type, p₂, htypes,
      bind_eq_ok.2 ⟨[], p₂, rfl, ?_⟩⟩⟩
    exact bind_eq_ok.2 ⟨(), p₃, hname, bind_eq_ok.2 ⟨(), p₄, hopen, hrun⟩⟩
  · rw [houtcome]
    have hfinished := Prod.ext_iff.1 hbefore.finished
    exact Prod.ext (congrArg (Array.push · fn) hfinished.1) hfinished.2

lemma flagged_program (c : Condition) (names : List (Option String)) (options : Options) :
    Flagged (.of (c.program names) options) :=
  ⟨Nat.succ_pos _, rfl, rfl⟩

lemma declareModule_flags (c : Condition) (names : List (Option String)) (options : Options) :
    ∃ p id, declareModule (.of (c.program names) options)
      (.initial (.of (c.program names) options)) =
      .ok () p ∧ HasFlags p names.length ∧ p.functions = #[id] := by
  let env : Env := .of (c.program names) options
  have hpreamble := declare_eq declarePreamble (.initial env)
  generalize hp₁ : Progress.withAssembly (.initial env) _ = p₁ at hpreamble
  have hflags : HasFlags p₁ 0 := by
    subst hp₁
    have hspares : SparesVariables declarePreamble :=
      .bind (sparesVariables_pushTo_of_ne (by decide) _) fun _ =>
        sparesVariables_pushTo_of_ne (by decide) _
    exact ⟨rfl, Nat.succ_pos _, fun _ h => absurd h (Array.not_mem_empty _), nodup_nil, hspares _⟩
  obtain ⟨p₂, hglobals, hp₂, -⟩ :=
    declareGlobals_flags (flagged_program c names options) names hflags
  rw [Nat.zero_add] at hp₂
  have hfresh := declare_eq freshId p₂
  refine ⟨_, _, bind_eq_ok.2 ⟨(), p₁, hpreamble, bind_eq_ok.2 ⟨(), p₁, rfl,
    bind_eq_ok.2 ⟨(), p₂, hglobals, bind_eq_ok.2 ⟨_, _, bind_eq_ok.2 ⟨_, _, hfresh, rfl⟩, rfl⟩⟩⟩⟩,
    ?_, rfl⟩
  exact { hp₂ with bare := fun place hplace => ⟨(hp₂.bare place hplace).1,
    Nat.lt_succ_of_lt (hp₂.bare place hplace).2⟩ }

lemma HasFlags.length_ids (hp : HasFlags p count) :
    (p.globals.toList.map GlobalPlace.id).length = count := by
  rw [length_map, Array.length_toList, hp.size]

lemma Progress.getElem_ids (hg : g.index < (p.globals.toList.map GlobalPlace.id).length) :
    (p.globals.toList.map GlobalPlace.id)[g.index] = p.flagPlace g := by
  rw [Progress.flagPlace, getD_eq_getElem?_getD, getElem?_eq_getElem]
  rfl

lemma HasFlags.ids_eq (hp : HasFlags p count) :
    p.globals.toList.map GlobalPlace.id = (range count).map fun i => p.flagPlace ⟨i⟩ := by
  refine ext_getElem (by rw [hp.length_ids]; simp) fun i hi hi' => ?_
  have hrange : ((range count).map fun i => p.flagPlace ⟨i⟩)[i] = p.flagPlace ⟨i⟩ := by simp
  exact (Progress.getElem_ids hi).trans hrange.symm

lemma flagPlace_injective (hp : HasFlags p count) (hg : g.index < count) (hh : h.index < count)
    (heq : p.flagPlace g = p.flagPlace h) : g = h := by
  rw [← hp.length_ids] at hg hh
  rw [← Progress.getElem_ids hg, ← Progress.getElem_ids hh] at heq
  obtain ⟨i⟩ := g
  obtain ⟨j⟩ := h
  exact congrArg Handle.mk ((hp.distinct.getElem_inj_iff).1 heq)

/-- The program of a condition is accepted, and is one function with its code. -/
lemma assemble_program (c : Condition) (names : List (Option String)) (options : Options)
    (hflags : ∀ g ∈ c.flags, g.index < names.length) :
    ∃ p m flag fn bound, HasFlags p names.length ∧
      m.privateVariables = p.globals.toList.map GlobalPlace.id ∧
      assemble (c.program names) options = .ok m ∧ m.functions = #[fn] ∧
      fn.blocks = returning flag p.flagPlace c ⟨bound + 1, #[], { label := ⟨bound⟩ }⟩ := by
  let env : Env := .of (c.program names) options
  obtain ⟨p, id, hdeclare, hp, hids⟩ := declareModule_flags c names options
  have houtcome := Prod.ext_iff.1 (bounded_of_declareModule hdeclare).2
  have hdraft : p.assembly.draft = none := by
    obtain ⟨ids, -, htrying⟩ := (ends_declareModule env).of_ok hdeclare
    exact htrying.draft
  obtain ⟨p', flag, fn, bound, hrun, hdone, hprivates, hblocks⟩ := emitHelper_function
    (flagged_program c names options) hp hdraft c hflags id (helperName ⟨0⟩ c.function)
  have hfunctions := Prod.ext_iff.1 hdone
  have hattempt : attemptFunctions env p = p' := by
    have hid : functionId ⟨0⟩ p = .ok id p := by
      simp only [functionId, bind_eq_ok, get_eq_ok]
      refine ⟨_, _, ⟨rfl, rfl⟩, ?_⟩
      rw [hids]
      rfl
    have hact : (do emitHelper env (← functionId ⟨0⟩) (helperName ⟨0⟩ c.function) c.function :
        EmitM Unit) p = .ok () p' := bind_eq_ok.2 ⟨id, p, hid, hrun⟩
    change attempt _ _ p = p'
    rw [attempt, hact]
  refine ⟨p, p'.assembly, flag, fn, bound, hp, hprivates.trans hp.privates, ?_, ?_, hblocks⟩
  · have hempty : p'.faults = #[] := hfunctions.2.trans houtcome.2
    rw [assemble, assembleIn, hdeclare]
    simp only [env] at hattempt
    simp only [hattempt, hempty]
    rfl
  · rw [show p'.assembly.functions = p.assembly.functions.push fn from hfunctions.1,
      show p.assembly.functions = #[] from houtcome.1]
    rfl

/-- A program that returns a condition over distinct private flags is accepted.  In every memory,
the function that it becomes returns the value of the condition, having loaded just the variables of
the flags that are read from left to right until the value is known, in their order and each
once. -/
theorem short_circuits_evaluate (c : Condition) (names : List (Option String)) (options : Options)
    (hflags : ∀ g ∈ c.flags, g.index < names.length) (hdistinct : c.flags.Nodup) :
    ∃ (assembly : Assembly.Module) (fn : Assembly.Function) (place : Handle .globalVariable → Id),
      words (c.program names) options = .ok (assembly.encode options.version options.generator) ∧
      assemble (c.program names) options = .ok assembly ∧
      assembly.privateVariables = (List.range names.length).map (fun i => place ⟨i⟩) ∧
      assembly.privateVariables.Nodup ∧ assembly.functions = #[fn] ∧
      ∀ memory : Id → Bool,
        fn.Returns memory (c.value fun g => memory (place g))
          ((c.reads fun g => memory (place g)).map place) ∧
        ((c.reads fun g => memory (place g)).map place).Nodup := by
  obtain ⟨p, assembly, flag, fn, bound, hp, hprivates, hassemble, hfunctions, hblocks⟩ :=
    assemble_program c names options hflags
  refine ⟨assembly, fn, p.flagPlace, words_eq_ok.2 ⟨assembly, hassemble, rfl⟩, hassemble,
    hprivates.trans hp.ids_eq, hprivates ▸ hp.distinct, hfunctions,
    fun memory => ⟨returns_returning hblocks memory, ?_⟩⟩
  have hreads := c.reads_sublist fun g => memory (p.flagPlace g)
  refine (List.nodup_map_iff_inj_on (hdistinct.sublist hreads)).2 fun g hg h hh heq => ?_
  exact flagPlace_injective hp (hflags g (hreads.subset hg)) (hflags h (hreads.subset hh)) heq

/-- `(a && b) || !c`. -/
def guardedCondition : Condition :=
  .shortCircuit false (.shortCircuit true (.read ⟨0⟩) (.read ⟨1⟩)) (.not (.read ⟨2⟩))

/-- Where no flag is set, `b` is not loaded. -/
theorem short_circuits_evaluate_guarded : ∃ (assembly : Assembly.Module) (fn : Assembly.Function)
    (place : Handle .globalVariable → Id),
    words (guardedCondition.program [some "a", none, none]) {} = .ok (assembly.encode ⟨1, 3⟩ 0) ∧
    assembly.functions = #[fn] ∧ fn.Returns (fun _ => false) true [place ⟨0⟩, place ⟨2⟩] := by
  obtain ⟨assembly, fn, place, hwords, -, -, -, hfunctions, hreturns⟩ :=
    short_circuits_evaluate guardedCondition [some "a", none, none] {} (by decide) (by decide)
  exact ⟨assembly, fn, place, hwords, hfunctions, (hreturns fun _ => false).1⟩

end Shader.Emit
