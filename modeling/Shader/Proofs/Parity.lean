import Shader.Proofs.Construction
import Shader.Proofs.Outcome

/-!
# Emission from different states

Two emissions of the same function, in programs that differ in other functions, start from different
states: different functions were emitted before.  What the states have in common is what the program
declares outside its functions, and that types and constants come out alike.  Ids correspond when
they have the same standing.  This is a correspondence (`parity`), so that the function ends alike
in both programs.
-/

namespace Shader.Emit

open List Assembly
open Link (Sim)
open Regime (plain)

variable {α β : Type} {m : IR.Module} {base : Progress} {p q : Bool → Progress} {a : Ids Bool}

/-! ### States that have declarations in common -/

namespace Progress

/-- The ids have the same standing, each in its state. -/
def SameStanding (p : Bool → Progress) (a : Ids Bool) :
    Prop := ∃ s, ∀ i, (p i).assembly.Holds (a i) s

/-- The ids that stand for global variables and functions were issued. -/
structure Grounded (p : Progress) : Prop where
  globals : ∀ place ∈ p.globals, place.id.number < p.assembly.bound ∧
    ∀ u, place.contents = some u → u.number < p.assembly.bound
  functions : ∀ u ∈ p.functions, u.number < p.assembly.bound

/-- The states follow on a common one, in which nothing but functions is left to emit. -/
structure Parallel (m : IR.Module) (base : Progress) (o : Option Openness) (p : Bool → Progress) :
    Prop where
  later : ∀ i, base.Later (p i)
  uniform : ∀ i, (p i).Uniform m base.overrides.size
  drafts : ∀ i, Drafts (p i).assembly o
  label : ∃ label : Option (Ids Bool), (∀ i, (p i).label? = label.map (· i)) ∧ ∀ a ∈ label,
    SameStanding p a

lemma SameStanding.later (h : SameStanding p a) (hq : ∀ i, (p i).Later (q i)) :
    SameStanding q a := by
  obtain ⟨s, hs⟩ := h
  exact ⟨s, fun i => (hq i).enters.holds (hs i)⟩

lemma Parallel.same (h : Parallel m base o p) {u : Id} (hu : u.number < base.assembly.bound) :
    SameStanding p fun _ => u := ⟨_, fun i => (h.later i).enters.holds ⟨hu, rfl⟩⟩

lemma Parallel.adds (h : Parallel m base o p) (hq : ∀ i, (q i).Uniform m base.overrides.size)
    (hadds : ∀ i, (p i).Adds (q i)) : Parallel m base o q where
  later i := (h.later i).trans (hadds i).toLater
  uniform := hq
  drafts i := by
    unfold Drafts
    rw [(hadds i).draft]
    exact h.drafts i
  label := by
    obtain ⟨label, hlabel, hstanding⟩ := h.label
    refine ⟨label, fun i => ?_, fun a ha => (hstanding a ha).later fun i => (hadds i).toLater⟩
    unfold label?
    rw [(hadds i).draft]
    exact hlabel i

/-- The draft and the functions that are finished may change. -/
def withDraft (p : Progress) (draft : Option Draft) (functions : Array Function) : Progress :=
  p.withAssembly { p.assembly with draft, functions }

lemma Uniform.withDraft {p : Progress} (h : p.Uniform m n) (draft : Option Draft)
    (functions : Array Function) :
    (p.withDraft draft functions).Uniform m n :=
  h.withAssembly ⟨h.orderly.tidy, fun id hid =>
    ⟨(h.orderly.mathImport id hid).issued, (h.orderly.mathImport id hid).standing⟩⟩ (.refl _)

lemma later_withDraft (p : Progress) (draft : Option Draft) (functions : Array Function) :
    p.Later (p.withDraft draft functions) := ⟨.refl _, rfl, rfl, rfl⟩

end Progress

open Progress (Parallel SameStanding)

/-- Ids correspond when they have the same standing, and faults are the same on both sides. -/
def parityLink (m : IR.Module) (base : Progress) : Link Bool (plain {} {} True True) where
  Rel _ := Parallel m base
  Left p := ∀ i, base.Later (p i) ∧ (p i).Uniform m base.overrides.size
  Holds p
    | .issued a | .global a => SameStanding p a
  Later p q := p.Later q ∧ q.faults = p.faults
  Alike fault := fault true = fault false
  left h i := ⟨h.later i, h.uniform i⟩
  perm _ h := h
  begun ho h := { h with
    drafts := fun i => by
      obtain ⟨d, hd, his⟩ := h.drafts i
      exact ⟨d, hd, his.begun ho⟩ }
  refl p := ⟨.refl p, rfl⟩
  trans h h' := ⟨h.1.trans h'.1, h'.2.trans h.2⟩
  keep {_ _ x} hq h := by cases x <;> exact h.later fun i => (hq i).1
  issued _ h := h
  alike _ _ := rfl

section

variable {g : List (Fact (Ids Bool))} {s : Phase Bool} {owed owed' : List (Ids Bool)}
    {flow : List (Around Bool)}
  {o o' : Openness}

/-! ### Steps outside functions -/

lemma parallel_adding {act : Bool → DeclareM α} {o : Option Openness} (hp : Parallel m base o p)
    (h : ∀ i, Adding (act i)) :
    Parallel m base o (fun i => (p i).withAssembly (act i (p i).assembly).2) ∧
      ∀ i, (p i).Later ((p i).withAssembly (act i (p i).assembly).2) := by
  have hadds := fun i => h i (p i).assembly (hp.uniform i).orderly
  exact ⟨hp.adds (fun i => (hp.uniform i).withAssembly (hadds i).orderly (hadds i).enters)
    fun i => Progress.adds_withAssembly (hadds i),
    fun i => (Progress.adds_withAssembly (hadds i)).toLater⟩

lemma sim_adding {act : Bool → DeclareM Unit} (h : ∀ i, Adding (act i)) :
    (parityLink m base).Leads g s s fun i => (liftM (act i) : EmitM Unit) := by
  intro p hp _
  obtain ⟨hq, hlater⟩ := parallel_adding hp h
  exact .inl ⟨(), _, fun _ => rfl, hq, fun i => ⟨hlater i, rfl⟩, .nil⟩

lemma sim_assigns {act : Bool → DeclareM Id} {standing : Standing}
    (h : ∀ i, Assigns (act i) standing) {t : Ids Bool → Phase Bool}
    (ht : ∀ a, (t a).openness = s.openness) {f : Ids Bool → List (Fact (Ids Bool))}
    (hf : ∀ a, ∀ x ∈ f a, x = .issued a ∨ x = .global a) :
    Sim (parityLink m base).emission g (fun a => a) s t f fun i => (liftM (act i) : EmitM Id) := by
  intro p hp _
  obtain ⟨hq, hlater⟩ := parallel_adding hp fun i => (h i).1
  refine .inl ⟨fun i => (act i (p i).assembly).1, _, fun _ => rfl, ?_, fun i => ⟨hlater i, rfl⟩,
    fun x hx => ?_⟩
  · exact (show Parallel m base _ _ from (ht _).symm ▸ hq)
  have hsame : SameStanding (fun i => (p i).withAssembly (act i (p i).assembly).2) fun i =>
    (act i (p i).assembly).1 :=
    ⟨standing, fun i => (h i).2 _ (hp.uniform i).orderly⟩
  rcases hf _ x hx with rfl | rfl <;> exact hsame

lemma provides_assigns {act : Bool → DeclareM Id} {standing : Standing}
    (h : ∀ i, Assigns (act i) standing) :
    (parityLink m base).Provides g s fun i => (liftM (act i) : EmitM Id) :=
  sim_assigns h (fun _ => rfl) fun _ => forall_mem_singleton.2 (.inr rfl)

/-- A step whose outcome the program decides comes to the same in both emissions. -/
lemma sim_finds {act : Bool → EmitM Id} {outcome : Except Fault β} (standing : β → Standing)
    (h : ∀ i p, p.Uniform m base.overrides.size → Finds m base.overrides.size p outcome
      outcome (act i)
      fun a id b => a.Holds id (standing b)) : (parityLink m base).Provides g s act := by
  intro p hp _
  have hact := fun i => h i (p i) (hp.uniform i)
  unfold Finds Ends at hact
  -- an id on one side and a fault on the other would be different outcomes
  cases houtcome : outcome with
  | ok b =>
    have hrun : ∀ i, ∃ a q, act i (p i) = .ok a q ∧ q.Uniform m base.overrides.size ∧ (p i).Adds q ∧
        q.assembly.Holds a (standing b) := by
      intro i
      have hact := hact i
      revert hact
      cases act i (p i) with
      | ok a q =>
        rintro ⟨hq, hadds, b', hb', ha⟩
        cases houtcome.symm.trans hb'
        exact ⟨a, q, rfl, hq, hadds, ha⟩
      | error fault q =>
        rintro ⟨-, -, hfault | ⟨hfault, -⟩⟩ <;> cases houtcome.symm.trans hfault
    choose a q hrun hq hadds ha using hrun
    exact .inl ⟨a, q, hrun, hp.adds hq hadds, fun i => ⟨(hadds i).toLater, (hadds i).faults⟩,
      forall_mem_singleton.2 ⟨standing b, ha⟩⟩
  | error fault =>
    have hrun : ∀ i, ∃ q, act i (p i) = .error fault q ∧ q.Uniform m base.overrides.size ∧
      (p i).Adds q := by
      intro i
      have hact := hact i
      revert hact
      cases act i (p i) with
      | ok a q =>
        rintro ⟨-, -, b', hb', -⟩
        cases houtcome.symm.trans hb'
      | error fault' q =>
        rintro ⟨hq, hadds, hfault⟩
        refine ⟨q, ?_, hq, hadds⟩
        rcases hfault with hfault | ⟨hfault, rfl⟩ <;>
          rw [Except.error.inj (houtcome.symm.trans hfault)]
    choose q hrun hq hadds using hrun
    exact .inr ⟨fun _ => fault, q, hrun, fun i => ⟨(hp.later i).trans (hadds i).toLater, hq i⟩,
      fun i => ⟨(hadds i).toLater, (hadds i).faults⟩, rfl⟩

lemma sim_functionOf (hbase : base.Grounded) (h : Handle .function) :
    Sim (parityLink m base).emission g (fun a => a) s (fun _ => s) ([.issued ·]) fun _ =>
    functionId h := by
  refine .read fun p hp _ => ?_
  have hfunctions : ∀ i, (p i).functions = base.functions := fun i => (hp.later i).functions
  simp only [hfunctions]
  cases hget : base.functions[h.index]? with
  | some id =>
    refine ⟨[.issued fun _ => id],
      forall_mem_singleton.2 (hp.same (hbase.functions id (Array.mem_of_getElem? hget))), ?_⟩
    exact .pure (r := fun _ => id) (by simp)
  | none => exact ⟨[], .nil, .fail rfl (by rintro ⟨⟩)⟩

/-! ### Steps inside functions -/

lemma Progress.Parallel.withDraft {o o' : Option Openness} (h : Parallel m base o p)
    (draft : Bool → Option Draft) (functions : Bool → Array Function) (label : Option (Ids Bool))
    (hdrafts : ∀ i, Drafts ((p i).withDraft (draft i) (functions i)).assembly o')
    (hlabel : ∀ i, (draft i).bind Draft.label? = label.map (· i))
    (hstanding : ∀ a ∈ label, SameStanding p a) :
    Parallel m base o' fun i => (p i).withDraft (draft i) (functions i) where
  later i := (h.later i).trans (later_withDraft (p i) _ _)
  uniform i := (h.uniform i).withDraft _ _
  drafts := hdrafts
  label := ⟨label, hlabel, fun a ha => (hstanding a ha).later fun i => later_withDraft (p i) _ _⟩

lemma sim_onDraft {change : Bool → Draft → Except Assembly.Inconsistency Draft}
    (after : Option (Ids Bool) → Option (Ids Bool))
    (hafter : ∀ label, ∀ a ∈ after label, a ∈ label ∨ Attested g a)
    (h : ∀ i d label, d.Is o → d.label? = Option.map (· i) label →
      ∃ d', change i d = .ok d' ∧ d'.Is o' ∧ d'.label? = (after label).map (· i)) :
    (parityLink m base).Leads g ⟨owed, flow, some o⟩ ⟨owed', flow, some o'⟩ fun i =>
      (liftM (onDraft (change i)) : EmitM Unit) := by
  intro p hp hg
  obtain ⟨label, hlabel, hstanding⟩ := Progress.Parallel.label hp
  have hchange : ∀ i, ∃ d d', (p i).assembly.draft = some d ∧ change i d = .ok d' ∧ d'.Is o' ∧
      d'.label? = (after label).map (· i) := by
    intro i
    obtain ⟨d, hd, his⟩ := Progress.Parallel.drafts hp i
    obtain ⟨d', hd', hrest⟩ := h i d label his (by rw [← hlabel i, Progress.label?, hd]; rfl)
    exact ⟨d, d', hd, hd', hrest⟩
  choose d d' hd hchange his hlabel' using hchange
  refine .inl ⟨(), fun i => (p i).withDraft (some (d' i)) (p i).assembly.functions, fun i => ?_,
    Progress.Parallel.withDraft hp _ _ (after label) (fun i => ⟨d' i, rfl, his i⟩) hlabel'
    fun a ha => ?_, fun i => ⟨Progress.later_withDraft _ _ _, rfl⟩, .nil⟩
  · refine liftBuild_eq_ok.2 ⟨_, ?_, rfl⟩
    simp only [onDraft, hd i, hchange i]
  · rcases hafter label a ha with ha | ha | ha
    · exact hstanding a ha
    · exact hg _ ha
    · exact hg _ ha

lemma push_alike {d : Draft} {i : Instruction} (h : d.Is .opened) (hi : i.isTerminator = false) :
    ∃ d', d.push i = .ok d' ∧ d'.Is .opened ∧ d'.label? = d.label? := by
  obtain ⟨head, closed, current⟩ := d
  obtain ⟨block, rfl⟩ := Option.isSome_iff_exists.1 h
  unfold Draft.push
  rw [hi]
  exact ⟨_, rfl, rfl, rfl⟩

lemma sim_push {i : Bool → Instruction} (hi : ∀ j, (i j).isTerminator = false) :
    (parityLink m base).Leads g ⟨owed, flow, some .opened⟩ ⟨owed', flow, some .opened⟩ fun j =>
      (liftM (pushInstruction (i j)) : EmitM Unit) := by
  refine sim_onDraft id (fun _ _ => .inl) fun j d label hd hlabel => ?_
  obtain ⟨d', hd', his, hlabel'⟩ := push_alike hd (hi j)
  exact ⟨d', hd', his, hlabel'.trans hlabel⟩

lemma sim_openFunction (head : Bool → FunctionHead) :
    (parityLink m base).Leads g ⟨owed, flow, none⟩ ⟨owed', flow, some .blank⟩ fun i =>
      (liftM (openFunction (head i)) : EmitM Unit) := by
  intro p hp _
  refine .inl ⟨(), fun i => (p i).withDraft (some { toFunctionHead := head i })
    (p i).assembly.functions, fun i => ?_, Progress.Parallel.withDraft hp _ _ none
    (fun i => ⟨_, rfl, rfl⟩) (fun _ => rfl) nofun, fun i => ⟨Progress.later_withDraft _ _ _, rfl⟩,
    .nil⟩
  refine liftBuild_eq_ok.2 ⟨_, ?_, rfl⟩
  simp only [openFunction, show (p i).assembly.draft = none from Progress.Parallel.drafts hp i]

lemma sim_closeFunction :
    (parityLink m base).Leads g ⟨owed, flow, some .closed⟩ ⟨owed', flow, none⟩ fun _ =>
    (liftM closeFunction : EmitM Unit) := by
  intro p hp _
  have hfinish : ∀ i, ∃ d f, (p i).assembly.draft = some d ∧ d.finish = .ok f := by
    intro i
    obtain ⟨d, hd, his⟩ := Progress.Parallel.drafts hp i
    obtain ⟨f, hf, -⟩ := Draft.exists_finish his
    exact ⟨d, f, hd, hf⟩
  choose d f hd hf using hfinish
  refine .inl ⟨(), fun i => (p i).withDraft none ((p i).assembly.functions.push (f i)), fun i => ?_,
    Progress.Parallel.withDraft hp _ _ none (fun _ => rfl) (fun _ => rfl) nofun,
    fun i => ⟨Progress.later_withDraft _ _ _, rfl⟩, .nil⟩
  refine liftBuild_eq_ok.2 ⟨_, ?_, rfl⟩
  simp only [closeFunction, hd i, hf i]

lemma drafting_parity : (parityLink m base).Drafting where
  drafts h := h.drafts
  redraft h h' := { h with drafts := h' }
  label h := h.label

end

/-! ### The correspondence -/

/-- The environments are of programs with the given types and constant expressions. -/
structure Env.Kindred (m : IR.Module) (env env' : Env) : Prop where
  serves : env.Serves m
  serves' : env'.Serves m
  depth : env'.depth = env.depth
  listsGlobals : env'.options.listsGlobals = env.options.listsGlobals

lemma Env.Serves.within {env : Env} (h : env.Serves m) (f : IR.Function) :
    (env.within f).Serves m :=
  ⟨h.types, h.constants, Nat.lt_of_lt_of_le h.typesDepth (Nat.le_add_right _ _),
    Nat.lt_of_lt_of_le h.constantsDepth (Nat.le_add_right _ _)⟩

lemma Env.Kindred.each {env : Bool → Env} (h : Env.Kindred m (env false) (env true)) (i : Bool) :
    (env i).Serves m := by
  cases i
  · exact h.serves
  · exact h.serves'

/-- Emissions of one function in programs that have all but functions in common. -/
def parity (m : IR.Module) (base : Progress) (hbase : base.Grounded) :
    Correspondence Bool (plain {} {} True True) where
  toLink := parityLink m base
  Akin env := Env.Kindred m (env false) (env true)
  akin_types h i := (h.each i).types.trans h.serves.types.symm
  akin_constants h i := (h.each i).constants.trans h.serves.constants.symm
  akin_within f h :=
    ⟨h.serves.within f, h.serves'.within f, congrArg (· + f.expressions.size) h.depth,
    h.listsGlobals⟩
  suits _ := ⟨fun _ _ _ _ => .inl trivial⟩
  Fits _ := True
  descends {env f} h _ := by
    have halike : (parityLink m base).Alike fun _ => .inconsistent .circular := rfl
    exact .same halike ((env false).within f).depth
      (Bool.forall_bool.2 ⟨rfl, congrArg (· + f.expressions.size) h.depth⟩)
  isConstant _ ha i := by
    obtain ⟨s, ha⟩ := ha
    exact congrArg Standing.constant ((ha i).standing.trans (ha false).standing.symm)
  isSpecialization _ ha i := by
    obtain ⟨s, ha⟩ := ha
    exact congrArg Standing.specialization ((ha i).standing.trans (ha false).standing.symm)
  recorded _ h _ := h
  globals hp := by
    refine .places base.globals (fun i => (Progress.Parallel.later hp i).globals) ?_
    rintro place hplace u (rfl | hu)
    · exact Progress.Parallel.same hp (hbase.globals place hplace).1
    · exact Progress.Parallel.same hp ((hbase.globals place hplace).2 u hu)
  freshId := sim_assigns (fun _ => assigns_freshId) (fun _ => rfl) fun _ =>
    forall_mem_singleton.2 (.inl rfl)
  scalarType _ := provides_assigns fun _ => assigns_typeId (.scalar _)
  vectorType n _ := provides_assigns fun _ => assigns_typeId (.vector _ n)
  voidType := provides_assigns fun _ => assigns_typeId .void
  pointerType storage _ := provides_assigns fun _ => assigns_typeId (.pointer storage _)
  arrayType length stride _ := provides_assigns fun _ => assigns_typeId (.array _ length stride)
  functionType _ _ _ := provides_assigns fun _ => assigns_typeId _
  constant _ _ := provides_assigns fun _ => assigns_constant _ _
  composite _ hp hg _ _ := provides_assigns (fun _ => assigns_constant _ _) _ hp hg
  oneConstant {g s _} shape _ := by
    have hone : ∀ scalar, (parityLink m base).Provides g s fun _ => scalarOne scalar := by
      intro scalar
      unfold scalarOne
      cases oneBits? scalar with
      | none => exact .fail rfl (by rintro ⟨⟩)
      | some value =>
        exact .bind (provides_assigns fun _ => assigns_typeId (.scalar _)) fun _ =>
          provides_assigns fun _ => assigns_constant _ _
    cases shape with
    | scalar scalar => exact hone scalar
    | vector size scalar =>
      exact .bind (hone scalar) fun _ => provides_assigns fun _ => assigns_constant _ _
    | _ => exact .fail rfl (by rintro ⟨⟩)
  mathImport := sim_assigns (fun _ => assigns_mathImport) (fun _ => rfl) fun _ =>
    forall_mem_singleton.2 (.inl rfl)
  typeId {_ _ _ h} henv := sim_finds (fun _ => .plain) fun i _ hp => finds_typeId (henv.each i) h hp
  constantId {_ _ _ h} henv := sim_finds id fun i _ hp => finds_constantId (henv.each i) h hp
  overrideId h := sim_finds id fun _ _ hp => finds_overrideId h hp _
  functionId h := sim_functionOf hbase h
  nameTarget name _ := sim_adding fun _ => adding_nameTarget _ name
  newVariable _ _ _ _ h := .bind (provides_assigns fun _ => assigns_freshId) fun id =>
    .bind (sim_adding fun _ => adding_pushTo _ _) fun _ => .bind (sim_adding fun i =>
      adding_adorn (id i) _) fun _ => h id
  entryPoint _ _ _ _ _ _ := ⟨[], .nil, sim_adding fun _ => adding_pushTo _ _⟩
  executionMode _ _ _ _ := sim_adding fun _ => adding_pushTo _ _
  openFunction _ _ _ _ _ := sim_openFunction _
  addVariable {_ _ _ o _ _} _ _ _ _ := sim_onDraft id (fun _ _ => .inl) fun i d label hd hlabel =>
    ⟨d.addVariable _, rfl, by cases o <;> exact hd, hlabel⟩
  beginBlock {_ _ _ o label} ho hlabel := by
    refine sim_onDraft (fun _ => some label)
      (fun _ a ha => .inr (Option.mem_some_iff.1 ha ▸ hlabel)) fun i d _ hd _ => ?_
    have hblank : d.Is .blank := by
      rcases ho with rfl | rfl
      · exact hd
      · exact hd.1
    unfold Draft.beginBlock
    rw [show d.current = none from hblank]
    exact ⟨_, rfl, rfl, rfl⟩
  push _ hterminator _ _ := sim_push fun _ => hterminator
  pushResult hop _ _ _ _ := sim_push fun _ => Opcode.not_isTerminator_of_isTyped hop
  terminate _ _ _ := sim_onDraft (fun _ => none) nofun fun i d _ hd _ => by
    obtain ⟨d', hd', -, his⟩ := Draft.exists_terminate hd _
    exact ⟨d', hd', his, congrArg (Option.map OpenBlock.label) his.1⟩
  openLabel := drafting_parity.openLabel
  labelOr cause _ := drafting_parity.labelOr cause
  closeFunction := sim_closeFunction

end Shader.Emit
