import Shader.Proofs.Contrast
import Shader.Proofs.Discipline
import Shader.Proofs.Parity

/-!
# Faults of one function

Functions fail one by one: whether a function fails, and with which fault, depends on what the
program declares outside its functions, but not on its other functions.  Main result: a function has
the same fault in all programs that share these declarations, and a program has code exactly if no
function of it fails on its own (`failures_isolated`).
-/

namespace Shader.IR.Module

open List

/-- The program with one helper function; the others do nothing. -/
def onlyHelper (m : Module) (h : Handle .function) (f : Function) : Module :=
  { m with
    functions := ⟨(Array.replicate m.functions.size {}).setIfInBounds h.index f⟩
    entryPoints := [] }

/-- The program with one entry point; the helper functions do nothing. -/
def onlyEntryPoint (m : Module) (entry : EntryPoint) : Module :=
  { m with
    functions := ⟨Array.replicate m.functions.size {}⟩
    entryPoints := [entry] }

lemma sharesDeclarations_onlyHelper (m : Module) (h : Handle .function) (f : Function) :
    m.SharesDeclarations (m.onlyHelper h f) := by
  refine ⟨rfl, rfl, rfl, rfl, ?_⟩
  simp only [onlyHelper, Arena.size, Array.size_setIfInBounds, Array.size_replicate]

lemma get?_onlyHelper {m : Module} {h : Handle .function} (hlt : h.index < m.functions.size)
    (f : Function) :
    (m.onlyHelper h f).functions.get? h = some f := by
  have hlt' : h.index < (Array.replicate m.functions.size ({} : Function)).size := by
    rwa [Array.size_replicate]
  exact Array.getElem?_setIfInBounds_self_of_lt hlt'

lemma sharesDeclarations_onlyEntryPoint (m : Module) (entry : EntryPoint) :
    m.SharesDeclarations (m.onlyEntryPoint entry) := by
  refine ⟨rfl, rfl, rfl, rfl, ?_⟩
  simp only [onlyEntryPoint, Arena.size, Array.size_replicate]

end Shader.IR.Module

namespace Shader.Emit

open List Assembly
open Link (Sim)
open Progress (Parallel)
open Regime (plain)

variable {env : Env} {p q : Progress} {α β : Type} {index index' : Nat} {f : IR.Function}
    {m m' : IR.Module}

/-! ### What is declared outside functions -/

/-- The environments are of programs that share their declarations. -/
structure Env.SharesDeclarations (env env' : Env) : Prop where
  module : env.module.SharesDeclarations env'.module
  options : env'.options = env.options
  depth : env'.depth = env.depth

lemma sharesDeclarations_of (h : m.SharesDeclarations m') (options : Options) :
    (Env.of m options).SharesDeclarations (Env.of m' options) := by
  refine ⟨h, rfl, ?_⟩
  show Env.depthOf m' = Env.depthOf m
  unfold Env.depthOf
  rw [h.types, h.constants]

namespace Env.SharesDeclarations

variable {env' : Env} (h : env.SharesDeclarations env')

include h

lemma sameCode (k : Contrast) (hk : k.acyclic = false) : env.SameCode k env' where
  module := h.module
  buffers := by rw [h.options]
  depth _ := h.depth
  deep hacyclic := absurd (hk.symm.trans hacyclic) Bool.false_ne_true

lemma kindred (hserves : env.Serves env.module) : Env.Kindred env.module env env' where
  serves := hserves
  serves' := ⟨h.module.types, h.module.constants, h.depth ▸ hserves.typesDepth,
    h.depth ▸ hserves.constantsDepth⟩
  depth := h.depth
  listsGlobals := by rw [h.options]

end Env.SharesDeclarations

lemma serves_of (m : IR.Module) (options : Options) : (Env.of m options).Serves m := by
  refine ⟨rfl, rfl, ?_, ?_⟩
  · exact Nat.lt_succ_of_le (Nat.le_add_right _ _)
  · exact Nat.lt_succ_of_le (Nat.le_add_left _ _)

/-! ### Declarations that come out as always -/

section

variable {n number next : Nat}

/-- When the step succeeds, types and constants have come out as always. -/
def Uniformly (m : IR.Module) (n : Nat) (act : EmitM α) : Prop :=
  ∀ ⦃p q : Progress⦄ ⦃a : α⦄, p.Uniform m n → act p = .ok a q → q.Uniform m n

namespace Uniformly

protected lemma pure (a : α) : Uniformly m n (pure a) := by
  intro p q b hp hrun
  obtain ⟨-, rfl⟩ := pure_eq_ok.1 hrun
  exact hp

protected lemma bind {next : α → EmitM β} (h : Uniformly m n act)
    (h' : ∀ a, Uniformly m n (next a)) :
    Uniformly m n (act >>= next) := by
  intro p q b hp hrun
  obtain ⟨a, p₁, hact, hnext⟩ := bind_eq_ok.1 hrun
  exact h' a (h hp hact) hnext

lemma declare (h : Adding act) : Uniformly m n (liftM act : EmitM α) := by
  intro p q a hp hrun
  cases hrun
  have hadds := h p.assembly hp.orderly
  exact hp.withAssembly hadds.orderly hadds.enters

lemma finds (h : ∀ p, p.Uniform m n → Finds m n p low high act V) : Uniformly m n act :=
  fun _ _ _ hp hrun => ((h _ hp).of_ok hrun).1

lemma except (x : Except Fault α) : Uniformly m n (liftM x : EmitM α) := by
  cases x with
  | ok a => exact .pure a
  | error fault => exact fun _ _ _ _ hrun => nomatch hrun

lemma exceptIR (x : Except IR.Error α) : Uniformly m n (liftM x : EmitM α) := by
  cases x with
  | ok a => exact .pure a
  | error error => exact fun _ _ _ _ hrun => nomatch hrun

variable {γ : Type _}

lemma forM {f : γ → EmitM Unit} (h : ∀ x, Uniformly m n (f x)) (xs : List γ) :
    Uniformly m n (xs.forM f) := by
  induction xs with
  | nil => exact .pure ()
  | cons x xs ih => exact .bind (h x) fun _ => ih

lemma mapM {f : γ → EmitM α} (h : ∀ x, Uniformly m n (f x)) (xs : List γ) :
    Uniformly m n (xs.mapM f) := by
  induction xs with
  | nil => exact .pure []
  | cons x xs ih =>
    rw [mapM_cons]
    exact .bind (h x) fun _ => .bind ih fun _ => .pure _

end Uniformly

lemma adding_decorateGlobal (id : Id) (v : IR.GlobalVariable) : Adding (decorateGlobal id v) := by
  rw [decorateGlobal_eq]
  exact .bind (adding_adorn id _) fun _ => adding_nameTarget _ _

lemma uniformly_variableType (env : Env) (space : IR.AddressSpace) (type : Handle .type)
    (contents : Id) :
    Uniformly m n (variableType env space type contents) := by
  have hblock (d : Decoration) : Adding (decorateBlock contents d) :=
    .of (changes_decorateBlock trivial contents _)
  unfold variableType
  split
  · refine .bind (.exceptIR _) fun shape => ?_
    split
    · exact .bind (.declare (hblock _)) fun _ => .pure _
    · exact .bind (.except _) fun layout => .bind (.declare (assigns_typeId _).1) fun _ => .pure _
  · exact .pure _

lemma uniformly_declareGlobal (henv : env.Serves m) (v : IR.GlobalVariable) :
    Uniformly m n (declareGlobal env v) := by
  have hpointer (storage : StorageClass) (pointee : Id) :
      Uniformly m n (liftM (pointerType storage pointee) : EmitM Id) :=
    .declare (assigns_typeId (.pointer storage pointee)).1
  have hinit (pointee : Id) : Uniformly m n (globalInit env pointee v) := by
    unfold globalInit
    split
    · exact .bind (.finds fun _ hp => finds_constantId henv _ hp) fun _ => .pure _
    · exact .bind (.declare (assigns_constant _ _).1) fun _ => .pure _
    · exact .pure _
  refine .bind (.finds fun _ hp => finds_typeId henv _ hp) fun contents =>
    .bind (hpointer _ _) fun _ => .bind (uniformly_variableType env _ _ _) fun pointee =>
      .bind (hpointer _ _) fun _ => .bind (hinit _) fun _ =>
        .bind (.declare assigns_freshId.1) fun _ => .bind (.declare (adding_pushTo _ _)) fun _ =>
          .bind (.declare (adding_decorateGlobal _ _)) fun _ => ?_
  intro p q a hp hrun
  cases hrun
  exact { hp with }

/-- Nothing but overrides was declared. -/
structure Progress.Initial (p : Progress) : Prop where
  orderly : p.assembly.Orderly
  overrides : ∀ id ∈ p.overrides, p.assembly.Holds id .adjustable
  types : ∀ h, p.types.get? h = none
  constants : ∀ h, p.constants.get? h = none

lemma Progress.Initial.withAssembly (h : p.Initial) (hadds : p.assembly.Adds a) :
    (p.withAssembly a).Initial :=
  ⟨hadds.orderly, fun id hid => hadds.enters.holds (h.overrides id hid), h.types, h.constants⟩

lemma Progress.Initial.uniform (h : p.Initial) (m : IR.Module) : p.Uniform m p.overrides.size where
  orderly := h.orderly
  count := rfl
  overrides := h.overrides
  types t id hid := by
    rw [h.types] at hid
    cases hid
  constants t id hid := by
    rw [h.constants] at hid
    cases hid

lemma initial_initial (env : Env) : (Progress.initial env).Initial where
  orderly := ⟨⟨.nil, forall_mem_nil _, .nil, .nil⟩, nofun⟩
  overrides id hid := absurd hid (Array.not_mem_empty id)
  types := Slots.get?_empty _
  constants := Slots.get?_empty _

lemma initial_declareOverride (hp : p.Initial)
    (hrun : declareOverride env number h o p = .ok () q) :
    q.Initial := by
  obtain ⟨default, p₁, hdefault, hrest⟩ := bind_eq_ok.1 hrun
  have hsame : p₁ = p := by
    revert hdefault
    cases checkedDefault env (o.name.getD s!"override{h.index}") o with
    | ok value => exact fun hdefault => (EStateM.Result.ok.inj hdefault).2.symm
    | error fault => exact fun hdefault => nomatch hdefault
  rw [hsame] at hrest
  have hspecial := assigns_specialization default
  -- the id is new, and what follows only decorates it
  have hdecorate : ∀ id, Adding (do
      pushTo .annotations (.decorate id .specId [UInt32.ofNat number])
      nameTarget id (o.name.getD s!"override{h.index}")) := fun id =>
    .bind (adding_pushTo _ _) fun _ => adding_nameTarget _ _
  have hadds := hspecial.1 p.assembly hp.orderly
  have hadds' := hdecorate (specialization default p.assembly).1 _ hadds.orderly
  cases hrest
  have hinitial := (hp.withAssembly hadds).withAssembly hadds'
  refine { hinitial with overrides := fun id hid => ?_ }
  rcases Array.mem_push.1 hid with hid | rfl
  · exact hinitial.overrides id hid
  · exact hadds'.enters.holds (hspecial.2 p.assembly hp.orderly)

lemma initial_declareOverrides : ∀ {next} {p q}, p.Initial →
      declareOverridesFrom env claimed next overrides p = .ok () q → q.Initial := by
  induction overrides with
  | nil =>
    intro next p q hp hrun
    obtain ⟨-, rfl⟩ := pure_eq_ok.1 hrun
    exact hp
  | cons o rest ih =>
    intro next p q hp hrun
    obtain ⟨_, p₁, hfirst, hrest⟩ := bind_eq_ok.1 hrun
    exact ih (initial_declareOverride hp hfirst) hrest

lemma uniform_declareModule (henv : env.Serves m)
    (hrun : declareModule env (.initial env) = .ok () p) :
    p.Uniform m p.overrides.size := by
  obtain ⟨_, p₁, hpreamble, hrun⟩ := bind_eq_ok.1 hrun
  obtain ⟨_, p₂, hoverrides, hrun⟩ := bind_eq_ok.1 hrun
  have hp₁ : p₁.Initial := by
    cases hpreamble
    have hadding : Adding declarePreamble := .bind (adding_pushTo _ _) fun _ => adding_pushTo _ _
    exact (initial_initial env).withAssembly (hadding _ (initial_initial env).orderly)
  have hp₂ := (initial_declareOverrides hp₁ hoverrides).uniform m
  have hrest : Uniformly m p₂.overrides.size (do
      declareGlobals env
      let ids ← env.module.functions.toList.mapM fun _ => (liftM freshId : EmitM Id)
      modify fun p => { p with functions := ids.toArray }) := by
    refine .bind (.forM (uniformly_declareGlobal henv) _) fun _ =>
      .bind (.mapM (fun _ => .declare assigns_freshId.1) _) fun ids => ?_
    intro p q a hp hrun
    cases hrun
    exact { hp with }
  have hp := hrest hp₂ hrun
  rw [hp.count]
  exact hp

end

/-! ### Trying functions -/

/-- The fault that a step fails with, if it does. -/
def fault? (act : EmitM Unit) (p : Progress) : Option Fault :=
  match act p with
  | .ok () _ => none
  | .error fault _ => some fault

/-- Emits the helper function behind a handle. -/
def tryHelper (env : Env) (entry : Handle .function × IR.Function) : EmitM Unit := do
  emitHelper env (← functionId entry.1) (helperName entry.1 entry.2) entry.2

/-- The state of emission when the first helper functions were tried. -/
def afterHelpers (env : Env) (base : Progress) (count : Nat) : Progress :=
  (env.module.functions.entries.take count).foldl (attemptHelper env) base

/-- The state of emission when all helper functions and the first entry points were tried. -/
def afterEntryPoints (env : Env) (base : Progress) (count : Nat) : Progress :=
  (env.module.entryPoints.take count).foldl (attemptEntryPoint env)
    (afterHelpers env base env.module.functions.size)

/-- What holds when some functions were tried, and the helper functions before the given index. -/
structure Progress.Reached (p : Progress) (m : IR.Module) (base : Progress) (index : Nat) :
    Prop where
  trying : p.Trying base.functions (base.functions.toList.drop index)
  later : base.Later p
  uniform : p.Uniform m base.overrides.size

section

variable {base p' : Progress} {env' : Env} {kind : Kind}

lemma Progress.Reached.parallel (h : p.Reached m base index) (h' : p'.Reached m base index') :
    Parallel m base none (pick p p') where
  later := Bool.forall_bool.2 ⟨h.later, h'.later⟩
  uniform := Bool.forall_bool.2 ⟨h.uniform, h'.uniform⟩
  drafts := Bool.forall_bool.2 ⟨h.trying.draft, h'.trying.draft⟩
  label := by
    refine ⟨none, Bool.forall_bool.2 ⟨?_, ?_⟩, nofun⟩
    · exact congrArg (Option.bind · Draft.label?) h.trying.draft
    · exact congrArg (Option.bind · Draft.label?) h'.trying.draft

/-- The step does the same from all states that follow on a given one. -/
abbrev Parallels (m : IR.Module) (base : Progress) (act : Bool → EmitM Unit) : Prop :=
  (parityLink m base).Leads [] ⟨[], [], none⟩ ⟨[], [], none⟩ act

lemma reached_attempt (hp : p.Reached m base index) (hact : Parallels m base fun _ => act)
    (htrying : (attempt name act p).Trying base.functions (base.functions.toList.drop index')) :
    (attempt name act p).Reached m base index' ∧
      (attempt name act p).faults.toList = p.faults.toList ++ (fault? act p).toList.map
        (⟨name, ·⟩) := by
  unfold fault?
  unfold attempt at htrying ⊢
  rcases hact (pick p p) (hp.parallel hp) .nil with ⟨_, q, hrun, hq, hlater, -⟩ | ⟨fault, q,
    hrun, hq, hlater, -⟩
  · rw [show act p = _ from hrun false] at htrying ⊢
    exact ⟨⟨htrying, hq.later false, hq.uniform false⟩,
      (congrArg Array.toList (hlater false).2).trans (append_nil _).symm⟩
  · rw [show act p = _ from hrun false] at htrying ⊢
    obtain ⟨hbase, huniform⟩ := hq false
    have huniform := huniform.withDraft none (q false).assembly.functions
    refine ⟨⟨htrying, { hbase with enters := hbase.enters }, { huniform with }⟩, ?_⟩
    show ((q false).faults.push ⟨name, fault false⟩).toList = _
    rw [show (q false).faults = p.faults from (hlater false).2, Array.toList_push]
    rfl

lemma fault?_eq (act : Bool → EmitM Unit) (hp : Parallel m base none (pick p p'))
    (hact : Parallels m base act) :
    fault? (act false) p = fault? (act true) p' := by
  unfold fault?
  rcases hact (pick p p') hp .nil with ⟨_, q, hrun, -⟩ | ⟨fault, q, hrun, -, -, hsame⟩
  · rw [show act false p = _ from hrun false, show act true p' = _ from hrun true]
  · rw [show act false p = _ from hrun false, show act true p' = _ from hrun true, hsame]

/-! ### Helper functions -/

lemma parallels_tryHelper (env : Bool → Env) (hbase : base.Grounded)
    (henv : Env.Kindred m (env false) (env true))
    (entry : Handle .function × IR.Function) :
    Parallels m base fun i => tryHelper (env i) entry := by
  have hhelper (id : Ids Bool) : (parityLink m base).Leads [.issued id] ⟨[id], [], none⟩
    ⟨[], [], none⟩ fun i =>
      emitHelper (env i) (id i) (helperName entry.1 entry.2) entry.2 :=
    Correspondence.emitHelper (C := parity m base hbase) henv (.inl mem_cons_self) _ trivial
  exact .bind (sim_functionOf hbase entry.1) fun id p hp hg => hhelper id p hp hg

lemma trying_tryHelper (hp : p.Reached m base index) (hindex : index < base.functions.size)
    (env : Env) (f : IR.Function) :
    (attemptHelper env p (⟨index⟩, f)).Trying base.functions
      (base.functions.toList.drop (index + 1)) := by
  have hlt : index < base.functions.toList.length := by simpa using hindex
  have hp := hp.trying
  rw [drop_eq_getElem_cons] at hp
  refine hp.attempt _ (Regime.tries_helper (R := plain env.module env.options True True)
    Regime.admits_plain hp ?_ f env.depth _)
  rw [← Array.getElem?_toList]
  exact getElem?_eq_getElem hlt

lemma fault?_tryHelper (hbase : base.Grounded) (henv : Env.Kindred m env env')
    (hp : p.Reached m base index) (hp' : p'.Reached m base index) (f : IR.Function) :
    fault? (tryHelper env (⟨index⟩, f)) p = fault? (tryHelper env' (⟨index⟩, f)) p' :=
  fault?_eq (fun i => tryHelper (pick env env' i) (⟨index⟩, f)) (hp.parallel hp')
    (parallels_tryHelper _ hbase henv _)

lemma getElem?_entries (a : Arena kind α) (index : Nat) :
    a.entries[index]? = (a.get? ⟨index⟩).map fun value => (⟨index⟩, value) := by
  simp only [Arena.entries, Arena.get?, getElem?_map, getElem?_zipIdx, Option.map_map,
    Array.getElem?_toList, Nat.zero_add]
  rfl

lemma length_entries (a : Arena kind α) :
    a.entries.length = a.size := by simp [Arena.entries, Arena.size]

lemma exists_of_mem_entries {a : Arena kind α} (h : entry ∈ a.entries) :
    ∃ index value, a.get? ⟨index⟩ = some value ∧ entry = (⟨index⟩, value) := by
  obtain ⟨index, hindex⟩ := mem_iff_getElem?.1 h
  rw [getElem?_entries, Option.map_eq_some_iff] at hindex
  obtain ⟨value, hvalue, rfl⟩ := hindex
  exact ⟨index, value, hvalue, rfl⟩

lemma afterHelpers_succ (env : Env) (base : Progress)
    (hf : env.module.functions.get? ⟨index⟩ = some f) :
    afterHelpers env base (index + 1) = attemptHelper env (afterHelpers env base index)
      (⟨index⟩, f) := by
  unfold afterHelpers
  rw [take_add_one, getElem?_entries, hf, foldl_append]
  rfl

lemma reached_afterHelpers (hbase : base.Grounded) (henv : env.Serves m)
    (hreached : base.Reached m base 0) (hcount : env.module.functions.size = base.functions.size)
    (hle : index ≤ base.functions.size) : (afterHelpers env base index).Reached m base index ∧
      (afterHelpers env base index).faults.toList = base.faults.toList ++
        (env.module.functions.entries.take index).flatMap fun entry =>
          (fault? (tryHelper env entry) (afterHelpers env base entry.1.index)).toList.map
            (⟨helperName entry.1 entry.2, ·⟩) := by
  induction index with
  | zero => exact ⟨hreached, by simp [afterHelpers]⟩
  | succ index ih =>
    obtain ⟨hp, hfaults⟩ := ih (Nat.le_of_succ_le hle)
    obtain ⟨f, hf⟩ : ∃ f, env.module.functions.get? ⟨index⟩ = some f :=
      ⟨_, Array.getElem?_eq_getElem (hcount ▸ hle : index < env.module.functions.size)⟩
    rw [afterHelpers_succ env base hf]
    obtain ⟨hnext, hmore⟩ := reached_attempt hp
      (parallels_tryHelper (fun _ => env) hbase ⟨henv, henv, rfl, rfl⟩ (⟨index⟩, f))
      (trying_tryHelper hp hle env f)
    refine ⟨hnext, hmore.trans ?_⟩
    rw [hfaults, take_add_one, getElem?_entries, hf, flatMap_append, ← append_assoc]
    simp

/-! ### Entry points -/

lemma parallels_tryEntryPoint (env : Bool → Env) (hbase : base.Grounded)
    (henv : Env.Kindred m (env false) (env true)) (entry : IR.EntryPoint) :
    Parallels m base fun i => emitEntryPoint (env i) entry :=
  Correspondence.emitEntryPoint (C := parity m base hbase) henv trivial trivial

lemma trying_tryEntryPoint (hp : p.Reached m base base.functions.size) (env : Env)
    (entry : IR.EntryPoint) :
    (attemptEntryPoint env p entry).Trying base.functions
      (base.functions.toList.drop base.functions.size) := by
  have hnone : base.functions.toList.drop base.functions.size = [] := drop_eq_nil_of_le (by simp)
  have hp := hp.trying
  rw [hnone] at hp ⊢
  exact hp.attempt _ (Regime.tries_entryPoint (R := plain env.module env.options True True)
    Regime.admits_plain hp trivial entry env.depth)

lemma fault?_tryEntryPoint (hbase : base.Grounded) (henv : Env.Kindred m env env')
    (hp : p.Reached m base base.functions.size) (hp' : p'.Reached m base base.functions.size)
    (entry : IR.EntryPoint) :
    fault? (emitEntryPoint env entry) p = fault? (emitEntryPoint env' entry) p' :=
  fault?_eq (fun i => emitEntryPoint (pick env env' i) entry) (hp.parallel hp')
    (parallels_tryEntryPoint _ hbase henv entry)

lemma reached_afterEntryPoints (hbase : base.Grounded) (henv : env.Serves m)
    (hstart : (afterHelpers env base env.module.functions.size).Reached m base base.functions.size)
    (count : Nat) : (afterEntryPoints env base count).Reached m base base.functions.size ∧
      (afterEntryPoints env base count).faults.toList =
        (afterHelpers env base env.module.functions.size).faults.toList ++
          (env.module.entryPoints.take count).flatMap fun entry =>
            (fault? (emitEntryPoint env entry)
              (afterHelpers env base env.module.functions.size)).toList.map (⟨entry.name, ·⟩) := by
  induction count with
  | zero => exact ⟨hstart, by simp [afterEntryPoints]⟩
  | succ count ih =>
    obtain ⟨hp, hfaults⟩ := ih
    cases hentry : env.module.entryPoints[count]? with
    | none =>
      have htake : env.module.entryPoints.take (count + 1) = env.module.entryPoints.take count := by
        rw [take_add_one, hentry, Option.toList_none, append_nil]
      unfold afterEntryPoints at hp hfaults ⊢
      rw [htake]
      exact ⟨hp, hfaults⟩
    | some entry =>
      have hkindred : Env.Kindred m env env := ⟨henv, henv, rfl, rfl⟩
      have hstep : afterEntryPoints env base (count + 1) =
          attempt entry.name (emitEntryPoint env entry) (afterEntryPoints env base count) := by
        unfold afterEntryPoints
        rw [take_add_one, hentry, foldl_append]
        rfl
      obtain ⟨hnext, hmore⟩ := reached_attempt hp (parallels_tryEntryPoint (fun _ => env) hbase
        hkindred entry) (trying_tryEntryPoint hp env entry)
      rw [hstep, take_add_one, hentry, flatMap_append, ← append_assoc]
      refine ⟨hnext, hmore.trans ?_⟩
      rw [hfaults, fault?_tryEntryPoint hbase hkindred hp hstart]
      simp

end

/-! ### Whole programs -/

/-- The state in which nothing but functions is left to emit, if there is one. -/
def declared? (env : Env) : Option Progress :=
  match declareModule env (.initial env) with
  | .ok () p => some p
  | .error _ _ => none

/-- The fault that the helper function with the given index fails with in a program, if it does. -/
def helperFault? (m : IR.Module) (options : Options) (index : Nat) : Option Fault := do
  let base ← declared? (.of m options)
  let f ← m.functions.get? ⟨index⟩
  fault? (tryHelper (.of m options) (⟨index⟩, f)) (afterHelpers (.of m options) base index)

/-- The fault that the entry point with the given index fails with in a program, if it does. -/
def entryPointFault? (m : IR.Module) (options : Options) (index : Nat) : Option Fault := do
  let base ← declared? (.of m options)
  let entry ← m.entryPoints[index]?
  fault? (emitEntryPoint (.of m options) entry) (afterEntryPoints (.of m options) base index)

/-- The faults of functions that fail on their own: of helper functions, and then of entry points,
in the order of the program. -/
def ownFaults (m : IR.Module) (options : Options) : List FunctionFault :=
  (m.functions.entries.flatMap fun entry =>
    (helperFault? (m.onlyHelper entry.1 entry.2) options entry.1.index).toList.map
      (⟨helperName entry.1 entry.2, ·⟩)) ++
  m.entryPoints.flatMap fun entry =>
    (entryPointFault? (m.onlyEntryPoint entry) options 0).toList.map (⟨entry.name, ·⟩)

section

variable {options : Options} {base : Progress}

lemma declared?_eq_some : declared? env = some base ↔ declareModule env (.initial env) =
    .ok () base := by
  unfold declared?
  cases declareModule env (.initial env) with
  | ok a p => simp
  | error fault p => simp

lemma declared?_shared (hshared : m.SharesDeclarations m') (options : Options) :
    declared? (.of m' options) = declared? (.of m options) := by
  have henv := (sharesDeclarations_of hshared options).sameCode
    ⟨options.debugNames, options.debugNames, [], false, false⟩ rfl
  have hagrees : Contrast.Agrees _ [] ⟨[], [], none⟩ fun i => declareModule (pick (.of m options)
    (.of m' options) i) :=
    agrees_declareModule rfl henv
  unfold declared?
  rcases hagrees (fun i => .initial (pick (.of m options) (.of m' options) i))
    (apart_initial rfl rfl rfl henv.module) .nil with ⟨_, p, hrun, hp, -⟩ | ⟨fault, p, hrun, -⟩
  · rw [show declareModule (.of m options) (.initial (.of m options)) = _ from hrun false,
      show declareModule (.of m' options) (.initial (.of m' options)) = _ from hrun true]
    exact congrArg some (Progress.Apart.eq hp rfl rfl)
  · rw [show declareModule (.of m options) (.initial (.of m options)) = _ from hrun false,
      show declareModule (.of m' options) (.initial (.of m' options)) = _ from hrun true]

section

variable (hbase : declared? (.of m options) = some base)
include hbase

lemma grounded_of_declared : base.Grounded := by
  have hbounded := (bounded_of_declareModule (declared?_eq_some.1 hbase)).1
  refine ⟨fun place hplace => ⟨?_, fun u hu => ?_⟩, fun u hu => ?_⟩
  · exact hbounded _ (.inr (.inr (.inr (.inr (.inl ⟨place, hplace, .inl rfl⟩)))))
  · exact hbounded _ (.inr (.inr (.inr (.inr (.inl ⟨place, hplace, .inr hu⟩)))))
  · exact hbounded _ (.inr (.inr (.inr (.inr (.inr hu)))))

lemma reached_of_declared :
    base.Reached m base 0 ∧ m.functions.size = base.functions.size ∧ base.faults = #[] := by
  have hrun := declared?_eq_some.1 hbase
  obtain ⟨ids, hsize, htrying⟩ := (ends_declareModule _).of_ok hrun
  obtain rfl : base.functions = ids := htrying.functions
  refine ⟨⟨htrying, .refl base, uniform_declareModule (serves_of m options) hrun⟩, ?_, ?_⟩
  · rw [hsize]
    exact (Array.length_toList).symm
  · exact congrArg Prod.snd (bounded_of_declareModule hrun).2

lemma helperFault?_eq (hf : m.functions.get? ⟨index⟩ = some f) : helperFault? m options index =
      fault? (tryHelper (.of m options) (⟨index⟩, f))
        (afterHelpers (.of m options) base index) := by
  simp only [helperFault?, hbase, hf, Option.bind_eq_bind, Option.bind_some]

lemma entryPointFault?_eq (hentry : m.entryPoints[index]? = some entry) :
      entryPointFault? m options index =
        fault? (emitEntryPoint (.of m options) entry)
      (afterEntryPoints (.of m options) base index) := by
  simp only [entryPointFault?, hbase, hentry, Option.bind_eq_bind, Option.bind_some]

end

section

variable (hshared : m.SharesDeclarations m') (hbase : declared? (.of m options) = some base)
include hshared hbase

lemma reached_shared (hle : index ≤ base.functions.size) :
    (afterHelpers (.of m' options) base index).Reached m base index := by
  obtain ⟨hreached, hcount, -⟩ := reached_of_declared hbase
  have hserves : (Env.of m' options).Serves m :=
    ((sharesDeclarations_of hshared options).kindred (serves_of m options)).serves'
  have hcount' : (Env.of m' options).module.functions.size = base.functions.size :=
    hshared.functions.trans hcount
  exact (reached_afterHelpers (grounded_of_declared hbase) hserves hreached hcount' hle).1

lemma reached_entryPoints (count : Nat) :
    (afterEntryPoints (.of m' options) base count).Reached m base base.functions.size := by
  have hserves : (Env.of m' options).Serves m :=
    ((sharesDeclarations_of hshared options).kindred (serves_of m options)).serves'
  have hcount : (Env.of m' options).module.functions.size = base.functions.size :=
    hshared.functions.trans (reached_of_declared hbase).2.1
  have hstart : (afterHelpers (.of m' options) base
      (Env.of m' options).module.functions.size).Reached m base base.functions.size := by
    rw [hcount]
    exact reached_shared hshared hbase (Nat.le_refl _)
  exact (reached_afterEntryPoints (grounded_of_declared hbase) hserves hstart count).1

/-- What is wrong with a helper depends on its own function and on the declarations. -/
lemma helperFault?_shared (hf : m'.functions.get? ⟨index⟩ = m.functions.get? ⟨index⟩) :
    helperFault? m' options index = helperFault? m options index := by
  have hbase' : declared? (.of m' options) = some base :=
    (declared?_shared hshared options).trans hbase
  cases hget : m.functions.get? ⟨index⟩ with
  | none =>
    simp only [helperFault?, hbase, hbase', hget, hf, Option.bind_eq_bind, Option.bind_some,
      Option.bind_none]
  | some f =>
    have hindex : index < base.functions.size :=
      (reached_of_declared hbase).2.1 ▸ Arena.get?_eq_some_lt hget
    rw [helperFault?_eq hbase hget, helperFault?_eq hbase' (hf.trans hget)]
    exact (fault?_tryHelper (grounded_of_declared hbase)
      ((sharesDeclarations_of hshared options).kindred (serves_of m options))
      (reached_shared (.refl m) hbase (Nat.le_of_lt hindex))
      (reached_shared hshared hbase (Nat.le_of_lt hindex)) f).symm

/-- What is wrong with an entry point depends on it alone and on the declarations. -/
lemma entryPointFault?_shared (hentry : m'.entryPoints[index']? = m.entryPoints[index]?) :
    entryPointFault? m' options index' = entryPointFault? m options index := by
  have hbase' : declared? (.of m' options) = some base :=
    (declared?_shared hshared options).trans hbase
  cases hget : m.entryPoints[index]? with
  | none =>
    simp only [entryPointFault?, hbase, hbase', hget, hentry, Option.bind_eq_bind, Option.bind_some,
      Option.bind_none]
  | some entry =>
    rw [entryPointFault?_eq hbase hget, entryPointFault?_eq hbase' (hentry.trans hget)]
    exact (fault?_tryEntryPoint (grounded_of_declared hbase)
      ((sharesDeclarations_of hshared options).kindred (serves_of m options))
      (reached_entryPoints (.refl m) hbase index) (reached_entryPoints hshared hbase
      index') entry).symm

end

lemma faults_attemptFunctions (hbase : declared? (.of m options) = some base) :
    (attemptFunctions (.of m options) base).faults.toList = ownFaults m options := by
  obtain ⟨hreached, hcount, hnone⟩ := reached_of_declared hbase
  have hgrounded := grounded_of_declared hbase
  have hserves := serves_of m options
  have hsize : (Env.of m options).module.functions.size = base.functions.size := hcount
  have hhelpers := (reached_afterHelpers hgrounded hserves hreached hsize (Nat.le_refl _)).2
  have hstart : (afterHelpers (.of m options) base (Env.of m options).module.functions.size).Reached
      m base base.functions.size := by
    rw [hsize]
    exact reached_shared (.refl m) hbase (Nat.le_refl _)
  have hentries := (reached_afterEntryPoints hgrounded hserves hstart m.entryPoints.length).2
  have hall : attemptFunctions (.of m options) base =
      afterEntryPoints (.of m options) base m.entryPoints.length := by
    unfold attemptFunctions afterEntryPoints afterHelpers
    rw [show (Env.of m options).module = m from rfl, take_length, ← length_entries, take_length]
  rw [hall, hentries, hsize, hhelpers, hnone, ← hsize]
  have htake : m.functions.entries.take m.functions.size = m.functions.entries := by
    rw [← length_entries, take_length]
  rw [show (Env.of m options).module = m from rfl, htake, take_length, nil_append]
  refine congrArg₂ (· ++ ·) (flatMap_congr fun entry hentry => ?_)
    (flatMap_congr fun entry hentry => ?_)
  · obtain ⟨index, f, hf, rfl⟩ := exists_of_mem_entries hentry
    rw [← helperFault?_eq hbase hf,
      helperFault?_shared (IR.Module.sharesDeclarations_onlyHelper m ⟨index⟩ f) hbase
      ((IR.Module.get?_onlyHelper (Arena.get?_eq_some_lt hf) f).trans hf.symm)]
  · have hshared := IR.Module.sharesDeclarations_onlyEntryPoint m entry
    have hbase' := (declared?_shared hshared options).trans hbase
    have hkindred := (sharesDeclarations_of hshared options).kindred hserves
    rw [entryPointFault?_eq hbase' rfl,
      ← fault?_tryEntryPoint hgrounded hkindred hstart (reached_entryPoints hshared hbase 0)]
    rfl

end

/-- Functions fail one by one.  In programs that share their declarations, a function has the same
fault, or none in both, whatever the other functions are; and a program has code exactly if none of
its functions fails on its own, and otherwise a list of those that do. -/
theorem failures_isolated (m m' : IR.Module) (options : Options) (hshared : m.SharesDeclarations m')
    (hdeclared : (declared? (.of m options)).isSome) :
    (∀ index, m'.functions.get? ⟨index⟩ = m.functions.get? ⟨index⟩ →
      helperFault? m' options index = helperFault? m options index) ∧
    (∀ index, m'.entryPoints[index]? = m.entryPoints[index]? →
      entryPointFault? m' options index = entryPointFault? m options index) ∧
    ((∃ ws, words m options = .ok ws) ↔ ownFaults m options = []) ∧
    (ownFaults m options ≠ [] → words m options = .error (.functions (ownFaults m options))) := by
  obtain ⟨base, hbase⟩ := Option.isSome_iff_exists.1 hdeclared
  refine ⟨fun index hf => helperFault?_shared hshared hbase hf,
    fun index hentry => entryPointFault?_shared hshared hbase hentry, ?_⟩
  have hassemble : assemble m options =
      if ownFaults m options = [] then .ok (attemptFunctions (.of m options) base).assembly
      else .error (.functions (ownFaults m options)) := by
    unfold assemble assembleIn
    rw [declared?_eq_some.1 hbase, ← faults_attemptFunctions hbase]
    dsimp only
    simp only [Array.isEmpty_iff, Array.toList_eq_nil_iff]
  unfold words
  rw [hassemble]
  by_cases hnone : ownFaults m options = []
  · rw [if_pos hnone]
    exact ⟨⟨fun _ => hnone, fun _ => ⟨_, rfl⟩⟩, fun hsome => absurd hnone hsome⟩
  · rw [if_neg hnone]
    refine ⟨⟨?_, fun h => absurd h hnone⟩, fun _ => rfl⟩
    rintro ⟨ws, hws⟩
    cases hws

theorem failures_isolated_strayBreak :
    (∀ f, strayBreak.functions.get? ⟨1⟩ = some f →
      helperFault? (strayBreak.onlyHelper ⟨1⟩ f) {} 1 = some (.construction .noTarget)) ∧
    words strayBreak {} = .error (.functions [⟨"stray", .construction .noTarget⟩,
      ⟨"looping", .construction .noTarget⟩]) := by
  have hdeclared : (declared? (.of strayBreak {})).isSome := by decide +kernel
  have hfaults : ownFaults strayBreak {} = [⟨"stray", .construction .noTarget⟩,
      ⟨"looping", .construction .noTarget⟩] := by decide +kernel
  have hisolated (f : IR.Function) := failures_isolated strayBreak (strayBreak.onlyHelper ⟨1⟩ f) {}
    (IR.Module.sharesDeclarations_onlyHelper _ _ _) hdeclared
  refine ⟨fun f hf => ?_, ?_⟩
  · rw [(hisolated f).1 1 ((IR.Module.get?_onlyHelper (by decide) f).trans hf.symm)]
    decide +kernel
  · rw [← hfaults]
    exact (hisolated {}).2.2.2 (by rw [hfaults]; exact List.cons_ne_nil _ _)

end Shader.Emit
