import Shader.Proofs.Names
import Shader.Proofs.Concord

/-!
# Two emissions of one program

Two emissions of one program may differ in the debug names they write, in what their entry points
list, and in how deep they follow references (`Contrast`).  They correspond: up to that their states
are equal (`Progress.Apart`), and so is what they come to (`outcomes_assembleIn`).
-/

namespace Shader.IR.Module

open List

/-- The programs differ in what their functions are, if at all. -/
structure SharesDeclarations (m m' : Module) : Prop where
  types : m'.types = m.types
  overrides : m'.overrides = m.overrides
  globals : m'.globals = m.globals
  constants : m'.constants = m.constants
  functions : m'.functions.size = m.functions.size

lemma SharesDeclarations.refl (m : Module) : m.SharesDeclarations m := ⟨rfl, rfl, rfl, rfl, rfl⟩

end Shader.IR.Module

namespace Shader.Emit

open List Assembly
open Link (Sim Ensues Knows Descends Lists)
open Regime (plain)

variable {p p' : Progress} {α β γ ρ : Type} {n n' : Assembly.Module}

/-- A circle of references is among the faults. -/
def Failure.IsCircular : Failure → Prop
  | declaration fault => fault = .inconsistent .circular
  | functions faults => ∃ x ∈ faults, x.fault = .inconsistent .circular

/-- How two emissions of one program may differ. -/
structure Contrast where
  /-- Whether names are wanted, on either side. -/
  flag : Bool
  flag' : Bool
  /-- What the entry points of the second side list, in addition to those of the first. -/
  listed : List Id := []
  /-- All globals are declared, and are what is listed. -/
  settled : Bool := false
  /-- References are followed to different depths, and do not lead in a circle. -/
  acyclic : Bool := false

/-- Debug names are disregarded where they are not wanted on both sides. -/
def Contrast.silent (k : Contrast) : Bool := k.flag != k.flag'

/-- The instruction with more ids in the end. -/
def listing (ids : List Id) (i : Instruction) : Instruction :=
  { i with operands := i.operands ++ Operand.ids ids }

lemma map_listing_nil (is : Array Instruction) : is.map (listing []) = is := by
  have hid : listing [] = id := by
    funext i
    simp [listing, Operand.ids]
  rw [hid, Array.map_id]

namespace Progress

/-- The progress without entry points and, if so wanted, debug names. -/
def nameless (silent : Bool) (p : Progress) :
    Progress := { p with assembly := p.assembly.nameless silent }

/-- The states are the same up to what may differ. -/
structure Apart (k : Contrast) (p p' : Progress) : Prop where
  same : p'.nameless k.silent = p.nameless k.silent
  flag : p.assembly.debugNames = k.flag
  flag' : p'.assembly.debugNames = k.flag'
  neat : p.assembly.Neat
  neat' : p'.assembly.Neat
  entries : p'.assembly.sections.entryPoints = p.assembly.sections.entryPoints.map
    (listing k.listed)
  globals : k.settled = true → p.globals.toList.map GlobalPlace.id = k.listed
  faults : k.acyclic = true → ∀ x ∈ p.faults, x.fault ≠ .inconsistent .circular

variable {k : Contrast}

/-- What is the same without names and entry points, and does not depend on them, is the same. -/
lemma Apart.look (h : p.Apart k p') (f : Progress → α)
    (hf : ∀ silent (p : Progress), f (p.nameless silent) = f p) : f p' = f p := by
  rw [← hf k.silent p, ← hf k.silent p', h.same]

lemma Apart.assembly_eq (h : p.Apart k p') (hflag : k.flag' = k.flag) :
    p'.assembly = { p.assembly with sections := { p.assembly.sections with
      entryPoints := p.assembly.sections.entryPoints.map (listing k.listed) } } := by
  have hsilent : k.silent = false := by
    unfold Contrast.silent
    rw [hflag, bne_self_eq_false]
  have hsame := congrArg Progress.assembly h.same
  have hentries := h.entries
  rw [hsilent] at hsame
  unfold nameless Assembly.Module.nameless at hsame
  revert hsame hentries
  generalize p'.assembly = a'
  generalize p.assembly = a
  obtain ⟨_, ⟨⟩⟩ := a
  obtain ⟨_, ⟨⟩⟩ := a'
  simp +contextual

lemma Apart.eq (h : p.Apart k p') (hflag : k.flag' = k.flag) (hlisted : k.listed = []) :
    p' = p := by
  have hassembly := h.assembly_eq hflag
  rw [hlisted, map_listing_nil] at hassembly
  have hsame := h.same
  unfold nameless at hsame
  obtain ⟨_, _, _, _, _, _, _⟩ := p
  obtain ⟨_, _, _, _, _, _, _⟩ := p'
  simp only [mk.injEq] at hsame ⊢
  exact ⟨hassembly, hsame.2⟩

lemma Apart.withAssembly (hp : p.Apart k p') (hn : n'.nameless k.silent = n.nameless k.silent)
    (hneat : n.Neat) (hneat' : n'.Neat) (hflag : n.debugNames = p.assembly.debugNames)
    (hflag' : n'.debugNames = p'.assembly.debugNames)
    (hentries : n'.sections.entryPoints = n.sections.entryPoints.map (listing k.listed)) :
    Apart k { p with assembly := n } { p' with assembly := n' } where
  same := by
    have hp := hp.same
    unfold Progress.nameless at hp ⊢
    simp only [Progress.mk.injEq] at hp ⊢
    exact ⟨hn, hp.2⟩
  flag := hflag.trans hp.flag
  flag' := hflag'.trans hp.flag'
  neat := hneat
  neat' := hneat'
  entries := hentries
  globals := hp.globals
  faults := hp.faults

end Progress

/-- One for each of two emissions. -/
def pick (a b : α) : Bool → α
  | false => a
  | true => b

/-- The ids are the same on both sides. -/
def Even : Fact (Ids Bool) → Prop
  | .issued a | .global a => a true = a false

/-- Ids and faults are the same on both sides. -/
def Contrast.link (k : Contrast) : Link Bool (plain {} {} True True) where
  Rel _ _ p := (p false).Apart k (p true)
  Left p := (p false).Apart k (p true)
  Holds _ := Even
  Later _ _ := True
  Alike fault := fault true = fault false ∧
    (k.acyclic = true → fault false ≠ .inconsistent .circular)
  left h := h
  perm _ h := h
  begun _ h := h
  refl _ := trivial
  trans _ _ := trivial
  keep _ h := h
  issued _ h := h
  alike _ h := ⟨rfl, fun _ => h⟩

/-- The step does the same on both sides, up to what may differ. -/
abbrev Contrast.Agrees (k : Contrast) (g : List (Fact (Ids Bool))) (s : Phase Bool)
    (act : Bool → EmitM α) : Prop :=
  Sim k.link.emission g (fun (a : α) _ => a) s (fun _ => s) (fun _ => []) act

section

variable {k : Contrast} {g : List (Fact (Ids Bool))} {s t : Phase Bool} {a : Ids Bool}
    {terms : List (Term Bool)}

/-- A step that ignores names is the same in both emissions. -/
lemma agrees_step {act : BuildM α} (h : NamelessStep act) :
    k.Agrees g s fun _ => (liftM act : EmitM α) := by
  intro p hp _
  have hp : (p false).Apart k (p true) := hp
  have hsame : (p true).assembly.nameless k.silent = (p false).assembly.nameless k.silent :=
    congrArg Progress.assembly hp.same
  have herase : eraseNames k.silent (act (p true).assembly) = eraseNames k.silent
    (act (p false).assembly) := by
    rw [← h.erase, ← h.erase, hsame]
  have hneat := h.neat (p false).assembly hp.neat
  have hneat' := h.neat (p true).assembly hp.neat'
  obtain ⟨hflag, hentries⟩ := h.kept (p false).assembly
  obtain ⟨hflag', hentries'⟩ := h.kept (p true).assembly
  rw [hp.entries, ← hentries] at hentries'
  have hrun : ∀ i, (liftM act : EmitM α) (p i) = _ := fun i => liftBuild_run act (p i)
  revert herase hneat hneat' hflag hflag' hentries'
  cases hact : act (p false).assembly with
  | ok a n =>
    cases hact' : act (p true).assembly with
    | ok b n' =>
      intro herase hneat hneat' hflag hflag' hentries'
      obtain ⟨rfl, hn⟩ := EStateM.Result.ok.inj herase
      refine .inl ⟨b, pick ((p false).withAssembly n) ((p true).withAssembly n'), fun i => ?_,
        hp.withAssembly hn hneat hneat' hflag hflag' hentries', fun _ => trivial, .nil⟩
      cases i
      · exact (hrun false).trans (by rw [hact]; rfl)
      · exact (hrun true).trans (by rw [hact']; rfl)
    | error => exact fun herase => nomatch herase
  | error fault n =>
    cases hact' : act (p true).assembly with
    | ok => exact fun herase => nomatch herase
    | error fault' n' =>
      intro herase hneat hneat' hflag hflag' hentries'
      obtain ⟨rfl, hn⟩ := EStateM.Result.error.inj herase
      refine .inr ⟨fun _ => .construction fault', pick ((p false).withAssembly n)
        ((p true).withAssembly n'), fun i => ?_, hp.withAssembly hn hneat hneat' hflag hflag'
        hentries', fun _ => trivial, rfl, nofun⟩
      cases i
      · exact (hrun false).trans (by rw [hact]; rfl)
      · exact (hrun true).trans (by rw [hact']; rfl)

lemma agrees_nameless (h : Nameless act) : k.Agrees g s fun _ => (liftM act : EmitM α) :=
    agrees_step h.step

/-- What is the same on both sides may be told of in any way, in any phase. -/
lemma Contrast.Agrees.diagonal {act : Bool → EmitM α} {on : ρ → Bool → α} {t : ρ → Phase Bool}
    {f : ρ → List (Fact (Ids Bool))} (back : α → ρ) (hback : ∀ a i, on (back a) i = a)
    (hf : ∀ a, ∀ x ∈ f (back a), Even x) (h : k.Agrees g s act) :
    Sim k.link.emission g on s t f act := by
  intro p hp hg
  rcases h p hp hg with ⟨a, q, hrun, hq, hlater, -⟩ | hfailed
  · exact .inl ⟨back a, q, fun i => (hrun i).trans (by rw [hback]), hq, hlater, hf a⟩
  · exact .inr hfailed

lemma Contrast.Agrees.provides {act : Bool → EmitM Id} (h : k.Agrees g s act) :
    k.link.Provides g s act :=
  h.diagonal (fun a _ => a) (fun _ _ => rfl) fun _ => forall_mem_singleton.2 rfl

lemma Contrast.Agrees.leads {act : Bool → EmitM Unit} (h : k.Agrees g s act) :
    k.link.Leads g s t act :=
  h.diagonal id (fun _ _ => rfl) fun _ => forall_mem_nil _

lemma agrees_mapM {f : Bool → γ → EmitM α} {xs : List γ}
    (h : ∀ {g}, ∀ x ∈ xs, k.Agrees g s fun i => f i x) :
    k.Agrees g s fun i => xs.mapM (f i) :=
  .imp id (.mapM h) (fun rs _ => map_id rs) (fun _ => rfl) nofun

lemma agrees_modify (h : ∀ silent p, (change p).nameless silent = change (p.nameless silent) ∧
      (change p).assembly = p.assembly ∧ (change p).faults = p.faults)
    (hglobals : ∀ p, k.settled = true → (change p).globals = p.globals) :
    k.Agrees g s fun _ => (modify change : EmitM Unit) := by
  intro p hp _
  have hp : (p false).Apart k (p true) := hp
  refine .inl ⟨(), fun i => change (p i), fun _ => rfl, ?_, fun _ => trivial, .nil⟩
  obtain ⟨hsame, hassembly, hfaults⟩ := h k.silent (p false)
  obtain ⟨hsame', hassembly', -⟩ := h k.silent (p true)
  refine (show Progress.Apart _ _ _ from ?_)
  constructor
  · rw [hsame, hsame', hp.same]
  · exact hassembly ▸ hp.flag
  · exact hassembly' ▸ hp.flag'
  · exact hassembly ▸ hp.neat
  · exact hassembly' ▸ hp.neat'
  · rw [hassembly, hassembly']
    exact hp.entries
  · exact fun hsettled => hglobals (p false) hsettled ▸ hp.globals hsettled
  · exact hfaults ▸ hp.faults

/-- What is read is the same on both sides, or a fault. -/
def Contrast.Consults (k : Contrast) (x : Bool → Except Fault α) : Prop :=
  (∃ a, ∀ i, x i = .ok a) ∨ ∃ fault, (∀ i, x i = .error fault) ∧
    (k.acyclic = true → fault ≠ .inconsistent .circular)

namespace Contrast.Consults

lemma ok (a : α) : k.Consults fun _ => .ok a := .inl ⟨a, fun _ => rfl⟩

lemma fail {fault : Fault} (h : fault ≠ .inconsistent .circular) :
    k.Consults fun _ => (.error fault : Except Fault α) := .inr ⟨fault, fun _ => rfl, fun _ => h⟩

protected lemma bind {x : Bool → Except Fault α} {next : Bool → α → Except Fault β}
    (h : k.Consults x)
    (h' : ∀ a, k.Consults fun i => next i a) : k.Consults fun i => x i >>= next i := by
  rcases h with ⟨a, ha⟩ | ⟨fault, hfault, hcircular⟩
  · simp only [ha]
    exact h' a
  · simp only [hfault]
    exact .inr ⟨fault, fun _ => rfl, hcircular⟩

end Contrast.Consults

lemma agrees_consult {x : Bool → Except Fault α} {next : Bool → α → EmitM β} (hx : k.Consults x)
    (h : ∀ a, k.Agrees g s fun i => next i a) : k.Agrees g s fun i => liftM (x i) >>= next i := by
  rcases hx with ⟨a, ha⟩ | ⟨fault, hfault, hcircular⟩
  · simp only [ha]
    exact h a
  · simp only [hfault]
    have hthrow : k.Agrees g s fun _ => (throw fault : EmitM β) := .throw ⟨rfl, hcircular⟩
    exact fun p => hthrow p

/-! ### Types and constants -/

/-- No circle is met, and references are followed further than there are types and constants. -/
structure Env.Deep (env : Env) : Prop where
  types : IR.Acyclic env.module.TypeRefers
  constants : IR.Acyclic env.module.ConstantRefers
  typesDepth : env.module.types.size < env.depth
  constantsDepth : env.module.constants.size < env.depth

/-- The environments are of programs that share their declarations, and differ in what may
differ. -/
structure Env.SameCode (k : Contrast) (env env' : Env) : Prop where
  module : env.module.SharesDeclarations env'.module
  buffers : env'.options.hasStorageBuffers = env.options.hasStorageBuffers
  depth : k.acyclic = false → env'.depth = env.depth
  deep : k.acyclic = true → env.Deep ∧ env'.Deep

lemma Contrast.descends {Refers : Handle kind → Handle kind → Prop} {depth : Bool → Nat}
    (hsize : ∀ h c, Refers h c → h.index < size)
    (hsame : k.acyclic = false → depth true = depth false)
    (hdeep : k.acyclic = true → IR.Acyclic Refers ∧ ∀ i, size < depth i) :
    k.link.Descends Refers depth := by
  cases hk : k.acyclic with
  | false =>
    have halike : k.link.Alike fun _ => .inconsistent .circular :=
      ⟨rfl, fun hacyclic => absurd (hk.symm.trans hacyclic) Bool.false_ne_true⟩
    exact .same halike (depth false) (Bool.forall_bool.2 ⟨rfl, hsame hk⟩)
  | true =>
    obtain ⟨hacyclic, hdepth⟩ := hdeep hk
    exact fun _ _ succ => hacyclic.descend hsize succ hdepth

namespace Env.SameCode

variable {env : Bool → Env} (h : (env false).SameCode k (env true))

include h

lemma storageClass (i : Bool) (space : IR.AddressSpace) :
    (env i).options.storageClass space = (env false).options.storageClass space := by
  cases i
  · rfl
  · unfold Options.storageClass
    rw [h.buffers]

lemma blockDecoration (i : Bool) (space : IR.AddressSpace) :
    (env i).options.blockDecoration space = (env false).options.blockDecoration space := by
  cases i
  · rfl
  · unfold Options.blockDecoration
    rw [h.buffers]

lemma types (i : Bool) : (env i).module.types = (env false).module.types := by
  cases i
  · rfl
  · exact h.module.types

lemma constants (i : Bool) : (env i).module.constants = (env false).module.constants := by
  cases i
  · rfl
  · exact h.module.constants

lemma typeAt (i : Bool) (type : Handle .type) :
    (env i).module.typeAt type = (env false).module.typeAt type := by
  unfold IR.Module.typeAt
  rw [h.types]

lemma shapeAt (i : Bool) (type : Handle .type) :
    Emit.shapeAt (env i) type = Emit.shapeAt (env false) type := by
  unfold Emit.shapeAt
  rw [h.typeAt]

lemma deeps (hk : k.acyclic = true) (i : Bool) : (env i).Deep := by
  cases i
  · exact (h.deep hk).1
  · exact (h.deep hk).2

lemma descendsTypes : k.link.Descends (env false).module.TypeRefers fun i => (env i).depth :=
  k.descends (fun _ _ hc => hc.inside) h.depth fun hk =>
    ⟨(h.deep hk).1.types, fun i => h.types i ▸ (h.deeps hk i).typesDepth⟩

lemma descendsConstants : k.link.Descends (env false).module.ConstantRefers fun i =>
    (env i).depth :=
  k.descends (fun _ _ ⟨_, he, _⟩ => IR.ExpressionArena.index_lt he) h.depth fun hk =>
    ⟨(h.deep hk).1.constants, fun i => h.constants i ▸ (h.deeps hk i).constantsDepth⟩

lemma descendsWithin (hf : k.acyclic = true → IR.Acyclic f.Refers) :
    k.link.Descends f.Refers fun i => ((env i).within f).depth :=
  k.descends (fun _ _ ⟨_, he, _⟩ => IR.ExpressionArena.index_lt he)
    (fun hk => congrArg (· + f.expressions.size) (h.depth hk))
    fun hk => ⟨hf hk, fun i => Nat.lt_add_of_pos_left (Nat.zero_lt_of_lt (h.deeps hk i).typesDepth)⟩

lemma within (f : IR.Function) : ((env false).within f).SameCode k ((env true).within f) where
  module := h.module
  buffers := h.buffers
  depth hk := congrArg (· + f.expressions.size) (h.depth hk)
  deep hk := by
    have hwithin : ∀ {env : Env}, env.Deep → (env.within f).Deep := fun hdeep =>
      ⟨hdeep.types, hdeep.constants, Nat.lt_add_right _ hdeep.typesDepth, Nat.lt_add_right _
        hdeep.constantsDepth⟩
    exact ⟨hwithin (h.deep hk).1, hwithin (h.deep hk).2⟩

lemma matrixStride (type : Handle .type) : k.Consults fun i => Emit.matrixStride (env i) type := by
  refine h.descendsTypes (fun n type => k.Consults fun i =>
    matrixStrideWithin (env i).module (n i) type) (fun hcircular _ => .inr ⟨_, fun _ => rfl,
    hcircular.2⟩) (fun n type ih => ?_) type
  simp only [matrixStrideWithin, h.typeAt]
  cases htype : (env false).module.typeAt type with
  | error => exact .fail (by rintro ⟨⟩)
  | ok found =>
    dsimp only
    cases hshape : found.shape with
    | matrix => exact .ok _
    | array base _ _ => exact ih base ⟨found, htype, by simp [hshape, IR.TypeShape.components]⟩
    | _ => exact .ok _

lemma overrideLiteral (init : Handle .expression) :
    k.Consults fun i => overrideLiteralWithin (env i).module (env i).depth init := by
  refine h.descendsConstants (fun n init => k.Consults fun i => overrideLiteralWithin
    (env i).module (n i) init) (fun hcircular _ => .inr ⟨_, fun _ => rfl, hcircular.2⟩)
    (fun n init ih => ?_) init
  simp only [overrideLiteralWithin, h.constants, h.typeAt]
  cases hinit : (env false).module.constants.fetch init with
  | error => exact .fail (by rintro ⟨⟩)
  | ok e =>
    cases e with
    | literal literal => exact .ok _
    | constant value => exact ih value ⟨_, hinit, mem_singleton_self value⟩
    | zeroValue type =>
      dsimp only
      split
      · exact .fail (by rintro ⟨⟩)
      · split
        · exact .ok _
        · exact .fail (by rintro ⟨⟩)
      · exact .fail (by rintro ⟨⟩)
    | _ => exact .fail (by rintro ⟨⟩)

end Env.SameCode

variable {env : Bool → Env}

lemma agrees_typeKey {component : Bool → Handle .type → EmitM Id}
    (henv : (env false).SameCode k (env true))
    (hcomponent : ∀ {g}, ∀ h ∈ type.shape.components, k.Agrees g s fun i => component i h) :
    k.Agrees g s fun i => typeKey (env i) (component i) type := by
  simp only [typeKey, henv.storageClass]
  obtain ⟨name, shape⟩ := type
  cases shape with
  | scalar | atomic | vector | matrix => exact .pure (forall_mem_nil _)
  | pointer base space =>
    exact .bind (hcomponent base mem_cons_self) fun _ => .pure (forall_mem_nil _)
  | array base length stride =>
    cases length <;> exact .bind (hcomponent base mem_cons_self) fun _ => .pure (forall_mem_nil _)
  | struct members span =>
    exact .bind (agrees_mapM fun member hmember => .bind (hcomponent _ (mem_map_of_mem hmember))
      fun t => agrees_consult (henv.matrixStride _) fun stride => .pure (forall_mem_nil _))
        fun ms => .pure (forall_mem_nil _)

lemma agrees_typeId (henv : (env false).SameCode k (env true)) (h : Handle .type) :
    k.Agrees g s fun i => typeId (env i) h := by
  refine henv.descendsTypes (fun n h => ∀ g, k.Agrees g s fun i => typeIdWithin (env i) (n i) h)
    (fun hcircular _ _ => .throw hcircular) (fun n h ih g => ?_) h g
  simp only [typeIdWithin, henv.typeAt]
  refine .read fun p hp _ => ⟨[], .nil, ?_⟩
  have htypes : ∀ i, (p i).types = (p false).types :=
    Bool.forall_bool.2 ⟨rfl, Progress.Apart.look hp Progress.types fun _ _ => rfl⟩
  simp only [htypes]
  cases (p false).types.get? h with
  | some id => exact .pure (forall_mem_nil _)
  | none =>
    refine .ask (fun _ => rfl) fun type htype =>
      .bind (agrees_typeKey henv fun c hc => ih c ⟨type, htype, hc⟩ _) fun key =>
        .bind (agrees_nameless (nameless_typeId key)) fun id => ?_
    exact .bind (agrees_modify (fun _ _ => ⟨rfl, rfl, rfl⟩) fun _ _ => rfl) fun _ =>
      .pure (forall_mem_nil _)

lemma agrees_overrideId (h : Handle .override) : k.Agrees g s fun _ => overrideId h := by
  refine .read fun p hp _ => ⟨[], .nil, ?_⟩
  have hoverrides : ∀ i, (p i).overrides = (p false).overrides :=
    Bool.forall_bool.2 ⟨rfl, Progress.Apart.look hp Progress.overrides fun _ _ => rfl⟩
  simp only [hoverrides]
  cases (p false).overrides[h.index]? with
  | some id => exact .pure (forall_mem_nil _)
  | none => exact .fail rfl (by rintro ⟨⟩)

lemma agrees_constantOf {operand : Bool → Handle .expression → EmitM Id}
    (henv : (env false).SameCode k (env true))
    (hoperand : ∀ {g}, ∀ c ∈ e.parts, k.Agrees g s fun i => operand i c) (h : Handle .expression) :
    k.Agrees g s fun i => constantOf (env i) (operand i) h e := by
  cases e with
  | literal literal =>
    exact agrees_nameless (.bind (nameless_scalarType _) fun _ => nameless_constant _ _)
  | constant value => exact hoperand value mem_cons_self
  | override o => exact agrees_overrideId o
  | zeroValue type =>
    exact .bind (agrees_typeId henv _) fun t => agrees_nameless (nameless_nullConstant t)
  | compose type components =>
    refine .bind (agrees_typeId henv _) fun t => .bind (agrees_mapM hoperand) fun ps =>
      .read fun p hp _ => ⟨[], .nil, ?_⟩
    have hspecial : ∀ i, (p i).assembly.isSpecialization = (p false).assembly.isSpecialization :=
      Bool.forall_bool.2 ⟨rfl, Progress.Apart.look hp (fun q => q.assembly.isSpecialization)
        fun _ _ => rfl⟩
    simp only [hspecial]
    exact .ite (fun _ => .failing rfl (by rintro ⟨⟩)) fun _ =>
      agrees_nameless (nameless_constant _ _)
  | splat size value =>
    simp only [constantOf, henv.constants]
    exact .ask (fun _ => rfl) fun type _ => .bind (agrees_typeId henv _) fun t =>
      .bind (hoperand value mem_cons_self) fun x => agrees_nameless (nameless_constant _ _)
  | _ => exact .fail rfl (by rintro ⟨⟩)

lemma agrees_constantId (henv : (env false).SameCode k (env true)) (h : Handle .expression) :
    k.Agrees g s fun i => constantId (env i) h := by
  refine henv.descendsConstants (fun n h => ∀ g, k.Agrees g s fun i =>
    constantIdWithin (env i) (n i) h) (fun hcircular _ _ => .throw hcircular)
    (fun n h ih g => ?_) h g
  simp only [constantIdWithin, henv.constants]
  refine .read fun p hp _ => ⟨[], .nil, ?_⟩
  have hconstants : ∀ i, (p i).constants = (p false).constants :=
    Bool.forall_bool.2 ⟨rfl, Progress.Apart.look hp Progress.constants fun _ _ => rfl⟩
  simp only [hconstants]
  cases (p false).constants.get? h with
  | some id => exact .pure (forall_mem_nil _)
  | none =>
    refine .ask (fun _ => rfl) fun e he =>
      .bind (agrees_constantOf henv (fun c hc => ih c ⟨e, he, hc⟩ _) h) fun id => ?_
    exact .bind (agrees_modify (fun _ _ => ⟨rfl, rfl, rfl⟩) fun _ _ => rfl) fun _ =>
      .pure (forall_mem_nil _)

lemma agrees_oneConstant (type : Id) (shape : IR.TypeShape) :
    k.Agrees g s fun _ => oneConstant type shape := by
  have hone : ∀ scalar, k.Agrees g s fun _ => scalarOne scalar := by
    intro scalar
    unfold scalarOne
    cases oneBits? scalar with
    | none => exact .fail rfl (by rintro ⟨⟩)
    | some value =>
      exact .bind (agrees_nameless (nameless_scalarType _)) fun t =>
        agrees_nameless (nameless_constant t value)
  cases shape with
  | scalar scalar => exact hone scalar
  | vector size scalar =>
    exact .bind (hone scalar) fun one => agrees_nameless (nameless_constant _ _)
  | _ => exact .fail rfl (by rintro ⟨⟩)

lemma agrees_functionId (h : Handle .function) : k.Agrees g s fun _ => functionId h := by
  refine .read fun p hp _ => ⟨[], .nil, ?_⟩
  have hfunctions : ∀ i, (p i).functions = (p false).functions :=
    Bool.forall_bool.2 ⟨rfl, Progress.Apart.look hp Progress.functions fun _ _ => rfl⟩
  simp only [hfunctions]
  cases (p false).functions[h.index]? with
  | some id => exact .pure (forall_mem_nil _)
  | none => exact .fail rfl (by rintro ⟨⟩)

/-! ### The correspondence -/

lemma sim_of_even {on : ρ → Bool → α} {t : ρ → Phase Bool} {f : ρ → List (Fact (Ids Bool))}
    {act : Bool → EmitM α}
    (h : (∀ x ∈ g, Even x) → Sim k.link.emission g on s t f act) :
    Sim k.link.emission g on s t f act :=
  fun p hp hg => h hg p hp hg

lemma sim_of_known {on : ρ → Bool → α} {t : ρ → Phase Bool} {f : ρ → List (Fact (Ids Bool))}
    {act : Bool → EmitM α}
    (h : Sim k.link.emission (x :: g) on s t f act) (hx : Even x) :
    Sim k.link.emission g on s t f act :=
  fun p hp hg => h p hp (forall_mem_cons.2 ⟨hx, hg⟩)

lemma contrast_openLabel (t : Option (Ids Bool) → Openness) :
    Sim k.link.body g (fun (r : Option (Ids Bool)) i => r.map (· i))
      ⟨owed, flow, some o⟩ (fun r => ⟨owed, flow, some (t r)⟩) (·.toList.map .issued) fun _ =>
    openLabel? := by
  have hdraft : Sim k.link.emission g (fun (d : Draft) _ => d) ⟨owed, flow, some o⟩
      (fun d => ⟨owed, flow, some (t (d.label?.map fun a _ => a))⟩)
      (fun d => d.label?.toList.map fun a => .issued fun _ => a) fun _ =>
      (liftM currentDraft : EmitM Draft) :=
    (agrees_step namelessStep_currentDraft).diagonal id (fun _ _ => rfl) fun _ =>
      forall_mem_map.2 fun _ _ => rfl
  refine .bind (.lift hdraft) fun d => ?_
  cases d.label? with
  | none => exact .answer (r := none) (forall_mem_nil _) rfl
  | some a => exact .answer (r := some fun _ => a) (by simp) rfl

section

variable (hg : ∀ x ∈ g, Even x)
include hg

lemma exists_of_attested (h : Attested g a) : ∃ b, a = fun _ => b :=
  ⟨a false, funext (Bool.forall_bool.2 ⟨rfl, h.elim (hg _) (hg _)⟩)⟩

lemma exists_of_attested_all {as : List (Ids Bool)} (h : ∀ a ∈ as, Attested g a) :
    ∃ bs, ∀ i, as.map (· i) = bs := by
  refine ⟨as.map (· false), fun i => map_congr_left fun a ha => ?_⟩
  obtain ⟨b, rfl⟩ := exists_of_attested hg (h a ha)
  rfl

lemma exists_of_covered (h : Covered g terms) :
    ∃ operands, ∀ i, terms.map (Term.on i) = operands := by
  refine ⟨terms.map (Term.on false), fun i => map_congr_left fun term hterm => ?_⟩
  cases term with
  | id a =>
    obtain ⟨b, rfl⟩ := exists_of_attested hg (h a hterm)
    rfl
  | word | text => rfl

end

lemma agrees_entryPoint (hi : i.Regular) (hi' : (listing k.listed i).Regular) :
    k.Agrees g s fun side => (liftM (pushTo .entryPoints (pick i (listing k.listed i) side)) :
      EmitM Unit) := by
  intro p hp _
  have hp : (p false).Apart k (p true) := hp
  have hsame : (p true).assembly.nameless k.silent = (p false).assembly.nameless k.silent :=
    congrArg Progress.assembly hp.same
  have hneat := hp.neat.pushTo (s := .entryPoints) (by decide) hi
  have hneat' := hp.neat'.pushTo (s := .entryPoints) (by decide) hi'
  refine .inl ⟨(), fun side => (p side).withAssembly
    (pushTo .entryPoints (pick i (listing k.listed i) side) (p side).assembly).2, fun _ => rfl,
    hp.withAssembly hsame hneat hneat' rfl rfl ?_, fun _ => trivial, .nil⟩
  show (p true).assembly.sections.entryPoints.push _ =
    ((p false).assembly.sections.entryPoints.push i).map _
  rw [hp.entries, Array.map_push]
  rfl

end

/-- The entry points list the same on both sides, or on the second side the globals in addition. -/
def Contrast.Lists (k : Contrast) (env env' : Env) : Prop :=
  k.listed = [] ∧ env'.options.listsGlobals = env.options.listsGlobals ∨
    k.settled = true ∧ env.options.listsGlobals = false ∧ env'.options.listsGlobals = true

/-- A mode of execution is told in a short instruction. -/
lemma regular_executionMode (id : Id) (mode : ExecutionMode) {words : List UInt32}
    (h : words.length ≤ 9) :
    (⟨.executionMode, .id id :: .word mode.word :: Operand.words words⟩ : Instruction).Regular := by
  refine .inr ?_
  show 1 + (1 + (1 + ((Operand.words words).map Operand.wordCount).sum)) ≤ 12
  rw [Operand.wordCount_words]
  omega

/-- Emissions of one program that differ in what may differ. -/
def Contrast.correspondence (k : Contrast) : Correspondence Bool (plain {} {} True True) where
  toLink := k.link
  Akin env := (env false).SameCode k (env true) ∧ k.Lists (env false) (env true)
  akin_types h := h.1.types
  akin_constants h := h.1.constants
  akin_within f h := ⟨h.1.within f, h.2⟩
  suits _ := ⟨fun _ _ _ _ => .inl trivial⟩
  Fits f := k.acyclic = true → IR.Acyclic f.Refers
  descends h hf := h.1.descendsWithin hf
  isConstant {_ _ p a} hp ha := by
    have hp : (p false).Apart k (p true) := hp
    refine Bool.forall_bool.2 ⟨rfl, ?_⟩
    rw [show a true = a false from ha]
    exact hp.look (fun q => q.assembly.isConstant (a false)) fun _ _ => rfl
  isSpecialization {_ _ p a} hp ha := by
    have hp : (p false).Apart k (p true) := hp
    refine Bool.forall_bool.2 ⟨rfl, ?_⟩
    rw [show a true = a false from ha]
    exact hp.look (fun q => q.assembly.isSpecialization (a false)) fun _ _ => rfl
  recorded _ h _ := h
  globals {_ _ p} hp := by
    have hglobals : ∀ i, (p i).globals = (p false).globals :=
      Bool.forall_bool.2 ⟨rfl, Progress.Apart.look hp Progress.globals fun _ _ => rfl⟩
    exact .places _ hglobals fun _ _ _ _ => rfl
  freshId := (agrees_nameless nameless_freshId).diagonal (fun a _ => a) (fun _ _ => rfl) fun _ =>
    forall_mem_singleton.2 rfl
  scalarType _ := (agrees_nameless (nameless_scalarType _)).provides
  vectorType n _ := (agrees_nameless (nameless_vectorType _ n)).provides
  voidType := (agrees_nameless nameless_voidType).provides
  pointerType storage h := sim_of_even fun hg => by
    obtain ⟨b, rfl⟩ := exists_of_attested hg (.inr h)
    exact (agrees_nameless (nameless_pointerType storage b)).provides
  arrayType length stride h := sim_of_even fun hg => by
    obtain ⟨b, rfl⟩ := exists_of_attested hg (.inr h)
    exact (agrees_nameless (nameless_arrayType b length stride)).provides
  functionType ps hr hps := sim_of_even fun hg => by
    obtain ⟨r, rfl⟩ := exists_of_attested hg (.inr hr)
    obtain ⟨bs, hbs⟩ := exists_of_attested_all hg fun a ha => .inr (hps a ha)
    simp only [hbs]
    exact (agrees_nameless (nameless_typeId _)).provides
  constant ht _ := sim_of_even fun hg => by
    obtain ⟨b, rfl⟩ := exists_of_attested hg (.inr ht)
    exact (agrees_nameless (nameless_constant b _)).provides
  composite {g s t p} parts hp hg ht hparts := by
    obtain ⟨b, rfl⟩ := exists_of_attested hg (.inr ht)
    obtain ⟨bs, hbs⟩ := exists_of_attested_all hg fun a ha => .inr (hparts a ha).1
    simp only [hbs]
    exact (agrees_nameless (nameless_constant b _)).provides p hp hg
  oneConstant shape ht := sim_of_even fun hg => by
    obtain ⟨b, rfl⟩ := exists_of_attested hg (.inr ht)
    exact (agrees_oneConstant b shape).provides
  mathImport := (agrees_nameless nameless_mathImport).diagonal (fun a _ => a)
    (fun _ _ => rfl) fun _ => forall_mem_singleton.2 rfl
  typeId h := (agrees_typeId h.1 _).provides
  constantId h := (agrees_constantId h.1 _).provides
  overrideId h := (agrees_overrideId h).provides
  functionId h := (agrees_functionId h).diagonal (fun a _ => a) (fun _ _ => rfl) fun _ =>
    forall_mem_singleton.2 rfl
  nameTarget name ha := sim_of_even fun hg => by
    obtain ⟨b, rfl⟩ := exists_of_attested hg ha
    exact (agrees_nameless (nameless_nameTarget b name)).leads
  newVariable {_ _ _ _ _ pointer _ _ _} storage _ hpointer hds h := sim_of_even fun hg => by
    obtain ⟨b, rfl⟩ := exists_of_attested hg (.inr hpointer)
    exact .bind (agrees_nameless nameless_freshId) fun id =>
      .bind (agrees_nameless (nameless_pushTo (by decide) (.short rfl))) fun _ =>
        .bind (agrees_nameless ((nameless_adorns id).adorn _)) fun _ =>
          sim_of_known (h fun _ => id) rfl
  entryPoint {env _ _ p g s} terms ids henv hp hterms hids := by
    refine ⟨[], .nil, sim_of_even fun hg => ?_⟩
    have hp : (p false).Apart k (p true) := hp
    obtain ⟨operands, hoperands⟩ := exists_of_covered hg hterms
    obtain ⟨bs, hbs⟩ := exists_of_attested_all hg hids
    simp only [hoperands, hbs]
    obtain ⟨j, hj, hj', hlisting⟩ : ∃ j : Instruction, j.Regular ∧ (listing k.listed j).Regular ∧
        ∀ i, entryInstruction (env i) (p i) operands bs = pick j (listing k.listed j) i := by
      refine ⟨entryInstruction (env false) (p false) operands bs, .inl rfl, .inl rfl,
        Bool.forall_bool.2 ⟨rfl, ?_⟩⟩
      unfold pick entryInstruction listing
      rw [hp.look Progress.globals fun _ _ => rfl]
      rcases henv.2 with ⟨hnil, hlists⟩ | ⟨hsettled, hnot, hlists⟩
      · simp [hnil, hlists, Operand.ids]
      · simp [hnot, hlists, hp.globals hsettled, Operand.ids]
    simp only [hlisting]
    exact agrees_entryPoint hj hj'
  executionMode mode words hwords ha := sim_of_even fun hg => by
    obtain ⟨b, rfl⟩ := exists_of_attested hg ha
    exact (agrees_nameless (nameless_pushTo (by decide) (regular_executionMode b mode
      hwords))).leads
  openFunction ps hid htype hr hps := sim_of_even fun hg => by
    obtain ⟨b, rfl⟩ := exists_of_attested hg hid
    obtain ⟨c, rfl⟩ := exists_of_attested hg htype
    obtain ⟨d, rfl⟩ := exists_of_attested hg hr
    obtain ⟨qs, hqs⟩ : ∃ qs, ∀ i, ps.map (fun q => (⟨q.1 i, q.2 i⟩ : Parameter)) = qs := by
      refine ⟨ps.map fun q => ⟨q.1 false, q.2 false⟩, fun i => map_congr_left fun q hq => ?_⟩
      obtain ⟨⟨t, ht⟩, u, hu⟩ := And.intro (exists_of_attested hg (hps q hq).1)
        (exists_of_attested hg (hps q hq).2)
      rw [ht, hu]
    simp only [hqs]
    exact (agrees_step (namelessStep_openFunction rfl)).leads
  addVariable init hpointer hid hinit := sim_of_even fun hg => by
    obtain ⟨b, rfl⟩ := exists_of_attested hg hpointer
    obtain ⟨c, rfl⟩ := exists_of_attested hg hid
    cases init with
    | none =>
      exact (agrees_step (namelessStep_addVariable (i := .variable b c .function none)
        (.short rfl))).leads
    | some a =>
      obtain ⟨a, rfl⟩ := exists_of_attested hg (hinit a rfl)
      exact (agrees_step (namelessStep_addVariable (i := .variable b c .function (some a))
        (.short rfl))).leads
  beginBlock _ hlabel := sim_of_even fun hg => by
    obtain ⟨b, rfl⟩ := exists_of_attested hg hlabel
    exact (agrees_step (namelessStep_beginBlock b)).leads
  push _ _ hterms hregular := sim_of_even fun hg => by
    obtain ⟨operands, hoperands⟩ := exists_of_covered hg hterms
    simp only [hoperands] at hregular ⊢
    exact (agrees_step (namelessStep_pushInstruction (hregular false))).leads
  pushResult _ htype hid hterms hregular := sim_of_even fun hg => by
    obtain ⟨b, rfl⟩ := exists_of_attested hg htype
    obtain ⟨c, rfl⟩ := exists_of_attested hg hid
    obtain ⟨operands, hoperands⟩ := exists_of_covered hg hterms
    simp only [hoperands] at hregular ⊢
    exact (agrees_step (namelessStep_pushInstruction (hregular false))).leads
  terminate _ hterms hregular := sim_of_even fun hg => by
    obtain ⟨operands, hoperands⟩ := exists_of_covered hg hterms
    simp only [hoperands] at hregular ⊢
    exact (agrees_step (namelessStep_terminate (hregular false))).leads
  openLabel := contrast_openLabel _
  labelOr cause hcause := by
    refine .bind (contrast_openLabel fun _ => .opened) fun label => ?_
    cases label with
    | none => exact .throw ⟨rfl, fun _ h => hcause (Fault.inconsistent.inj h)⟩
    | some label => exact .pure (by simp)
  closeFunction := (agrees_step namelessStep_closeFunction).leads

/-! ### Everything outside the functions -/

section

variable {k : Contrast} {g : List (Fact (Ids Bool))} {s : Phase Bool} {env : Bool → Env}

section

variable (henv : (env false).SameCode k (env true))
include henv

lemma consults_checkedDefault (name : String) (o : IR.Override) :
    k.Consults fun i => checkedDefault (env i) name o := by
  have hdefault : ∀ scalar, k.Consults fun i => overrideDefault (env i) name scalar o.init := by
    intro scalar
    unfold overrideDefault
    cases o.init with
    | some init => exact henv.overrideLiteral init
    | none =>
      dsimp only
      split
      · exact .ok _
      · exact .fail (by rintro ⟨⟩)
  simp only [checkedDefault, henv.shapeAt]
  cases shapeAt (env false) o.type with
  | error error => exact .fail (by rintro ⟨⟩)
  | ok shape =>
    cases shape with
    | scalar scalar =>
      show k.Consults fun i => overrideDefault (env i) name scalar o.init >>= _
      refine .bind (hdefault scalar) fun default => ?_
      split
      · exact .ok _
      · exact .fail (by rintro ⟨⟩)
    | _ => exact .fail (by rintro ⟨⟩)

lemma agrees_declareOverride (number : Nat) (h : Handle .override) (o : IR.Override) :
    k.Agrees g s fun i => declareOverride (env i) number h o :=
  agrees_consult (consults_checkedDefault henv _ o) fun default =>
    .bind (agrees_nameless (nameless_specialization default)) fun _ =>
      .bind (agrees_nameless (nameless_decorate _ _ (by simp))) fun _ =>
        .bind (agrees_nameless (nameless_nameTarget _ _)) fun _ =>
          agrees_modify (fun _ _ => ⟨rfl, rfl, rfl⟩) fun _ _ => rfl

lemma agrees_declareOverrides : k.Agrees g s fun i => declareOverrides (env i) := by
  have hfrom : ∀ overrides claimed next g, k.Agrees g s fun i => declareOverridesFrom (env i)
    claimed next overrides := by
    intro overrides claimed
    induction overrides with
    | nil => exact fun _ _ => .pure (forall_mem_nil _)
    | cons entry rest ih =>
      exact fun _ _ => .bind (agrees_declareOverride henv _ _ _) fun _ => ih _ _
  have hoverrides : ∀ i, (env i).module.overrides = (env false).module.overrides :=
    Bool.forall_bool.2 ⟨rfl, henv.module.overrides⟩
  simp only [declareOverrides, hoverrides]
  exact hfrom _ _ _ _

lemma agrees_variableType (space : IR.AddressSpace) (type : Handle .type) (contents : Id) :
    k.Agrees g s fun i => variableType (env i) space type contents := by
  simp only [variableType, wrapper, henv.shapeAt, henv.blockDecoration]
  cases space.isBuffer with
  | false => exact .pure (forall_mem_nil _)
  | true =>
    refine .ask (fun _ => rfl) fun shape _ => ?_
    cases shape with
    | struct members span =>
      exact .bind (agrees_nameless (nameless_decorateBlock _ _)) fun _ => .pure (forall_mem_nil _)
    | _ =>
      exact agrees_consult (.bind (henv.matrixStride type) fun _ => .ok _) fun layout =>
        .bind (agrees_nameless (nameless_typeId _)) fun _ => .pure (forall_mem_nil _)

lemma agrees_globalInit (pointee : Id) (v : IR.GlobalVariable) :
    k.Agrees g s fun i => globalInit (env i) pointee v := by
  unfold globalInit
  split
  · exact .bind (agrees_constantId henv _) fun _ => .pure (forall_mem_nil _)
  · exact .bind (agrees_nameless (nameless_nullConstant _)) fun _ => .pure (forall_mem_nil _)
  · exact .pure (forall_mem_nil _)

end

lemma nameless_decorateGlobal (id : Id) (v : IR.GlobalVariable) :
    Nameless (decorateGlobal id v) := by
  rw [decorateGlobal_eq]
  exact .bind ((nameless_adorns id).adorn _) fun _ => nameless_nameTarget _ _

lemma agrees_declareGlobal (hk : k.settled = false) (henv : (env false).SameCode k (env true))
    (v : IR.GlobalVariable) :
    k.Agrees g s fun i => declareGlobal (env i) v := by
  simp only [declareGlobal, henv.storageClass]
  refine .bind (agrees_typeId henv v.type) fun contents =>
    .bind (agrees_nameless (nameless_pointerType _ _)) fun pointer =>
      .bind (agrees_variableType henv v.space v.type contents) fun pointee =>
        .bind (agrees_nameless (nameless_pointerType _ _)) fun type => .bind (agrees_globalInit henv
          pointee.1 v) fun init => .bind (agrees_nameless nameless_freshId) fun id => ?_
  exact .bind (agrees_nameless (nameless_pushTo (by decide) (by cases init <;> exact .short rfl)))
    fun _ => .bind (agrees_nameless (nameless_decorateGlobal _ _)) fun _ =>
      agrees_modify (fun _ _ => ⟨rfl, rfl, rfl⟩) fun _ hsettled => absurd (hk.symm.trans hsettled)
      Bool.false_ne_true

lemma mapM_const_eq {act : EmitM α} : ∀ {xs : List β} {ys : List γ}, xs.length = ys.length →
    xs.mapM (fun _ => act) = ys.mapM fun _ => act
  | [], [], _ => rfl
  | _ :: _, _ :: _, h => by rw [mapM_cons, mapM_cons, mapM_const_eq (Nat.succ.inj h)]

lemma agrees_declareModule (hk : k.settled = false) (henv : (env false).SameCode k (env true)) :
    k.Agrees g s fun i => declareModule (env i) := by
  have hpreamble : Nameless declarePreamble :=
    .bind (nameless_requireCapability _) fun _ => nameless_pushTo (by decide) (.short rfl)
  have hglobals : ∀ i, (env i).module.globals = (env false).module.globals :=
    Bool.forall_bool.2 ⟨rfl, henv.module.globals⟩
  obtain ⟨labels, hlabels, hfunctions⟩ : ∃ labels, k.Agrees g s (fun _ => labels) ∧
      ∀ i, ((env i).module.functions.toList.mapM fun _ => (liftM freshId : EmitM Id)) = labels := by
    refine ⟨_, agrees_mapM fun _ _ => agrees_nameless nameless_freshId,
      Bool.forall_bool.2 ⟨rfl, mapM_const_eq ?_⟩⟩
    simpa [Arena.toList, Arena.size] using henv.module.functions
  simp only [declareModule, declareGlobals, hglobals, hfunctions]
  exact .bind (agrees_nameless hpreamble) fun _ => .bind (agrees_declareOverrides henv) fun _ =>
    .bind (.forM fun v _ => agrees_declareGlobal hk henv v) fun _ => .bind hlabels fun ids =>
      agrees_modify (fun _ _ => ⟨rfl, rfl, rfl⟩) fun _ _ => rfl

end

/-! ### Whole modules -/

section

variable {k : Contrast} {env env' : Env} {r r' : Except Failure Assembly.Module}
    {f f' : Progress → α → Progress}

lemma apart_attempt {act : Bool → EmitM Unit} {s t : Phase Bool} (name : String)
    (h : k.link.Leads [] s t act)
    (hp : p.Apart k p') : (attempt name (act false) p).Apart k (attempt name (act true) p') := by
  unfold attempt
  rcases h (pick p p') hp .nil with ⟨_, q, hrun, hq, -⟩ | ⟨fault, q, hrun, hq, -, hsame, hcircular⟩
  · rw [show act false p = _ from hrun false, show act true p' = _ from hrun true]
    exact hq
  · have hq : (q false).Apart k (q true) := hq
    rw [show act false p = _ from hrun false, show act true p' = _ from hrun true, hsame]
    refine ⟨?_, hq.flag, hq.flag', hq.neat.withDraft nofun, hq.neat'.withDraft nofun,
      hq.entries, hq.globals, fun hk x hx => ?_⟩
    · exact congrArg (fun q =>
        { q with
          assembly := { q.assembly with draft := none }
          faults := q.faults.push ⟨name, fault false⟩ }) hq.same
    · obtain hx | rfl := Array.mem_push.1 hx
      · exact hq.faults hk x hx
      · exact hcircular hk

lemma apart_foldl (xs : List α)
    (h : ∀ p p', ∀ x ∈ xs, p.Apart k p' → (f p x).Apart k (f' p' x)) (hp : p.Apart k p') :
    (xs.foldl f p).Apart k (xs.foldl f' p') := by
  induction xs generalizing p p' with
  | nil => exact hp
  | cons x xs ih =>
    exact ih (fun p p' y hy => h p p' y (mem_cons_of_mem _ hy)) (h p p' x mem_cons_self hp)

lemma apart_attemptFunctions (henv : env.SameCode k env') (hmodule : env'.module = env.module)
    (hlists : k.Lists env env') (hacyclic : k.acyclic = true → env.module.Acyclic)
    (hp : p.Apart k p') :
    (attemptFunctions env p).Apart k (attemptFunctions env' p') := by
  have hvalues : ∀ entry ∈ env.module.functions.entries, entry.2 ∈ env.module.functions.toList := by
    simp only [Arena.entries, mem_map]
    rintro _ ⟨⟨f, n⟩, hf, rfl⟩
    exact fst_mem_of_mem_zipIdx hf
  have hakin : k.correspondence.Akin (pick env env') := ⟨henv, hlists⟩
  unfold attemptFunctions
  rw [hmodule]
  refine apart_foldl _ (fun p p' entry hentry hp => ?_)
    (apart_foldl _ (fun p p' entry hentry hp => ?_) hp)
  · have hleads : k.link.Leads [] ⟨[], [], none⟩ ⟨[], [], none⟩ fun i =>
      emitEntryPoint (pick env env' i) entry :=
      Correspondence.emitEntryPoint (C := k.correspondence) hakin trivial
        (fun hk => (hacyclic hk).entryPoints entry hentry)
    exact apart_attempt _ hleads hp
  · have hhelper (id : Id) : k.link.Leads [.issued fun _ => id] ⟨[fun _ => id], [], none⟩
        ⟨[], [], none⟩ fun i => emitHelper (pick env env' i) id
          (helperName entry.1 entry.2) entry.2 :=
      Correspondence.emitHelper (C := k.correspondence) hakin (.inl mem_cons_self) _
        (fun hk => (hacyclic hk).functions _ (hvalues entry hentry))
    have hleads : k.link.Leads [] ⟨[], [], none⟩ ⟨[], [], none⟩ (fun i => do
        emitHelper (pick env env' i) (← functionId entry.1) (helperName entry.1 entry.2) entry.2) :=
      .bind (agrees_functionId _) fun id p hp _ => hhelper id p hp (forall_mem_singleton.2 rfl)
    exact apart_attempt _ hleads hp

lemma apart_initial (hflag : env.options.debugNames = k.flag)
    (hflag' : env'.options.debugNames = k.flag')
    (hk : k.settled = false) (hmodule : env.module.SharesDeclarations env'.module) :
    (Progress.initial env).Apart k (Progress.initial env') := by
  have hneat : ∀ env, (Progress.initial env).assembly.Neat := by
    intro env
    refine ⟨fun s i hi => ?_, nofun, nofun, nofun, fun _ => rfl⟩
    have hempty : (Progress.initial env).assembly.sections.get s = #[] := by cases s <;> rfl
    rw [hempty] at hi
    exact absurd hi (Array.not_mem_empty i)
  refine ⟨?_, hflag, hflag', hneat env, hneat env', Array.map_empty.symm,
    fun hsettled => absurd (hk.symm.trans hsettled) Bool.false_ne_true,
    fun _ x hx => absurd hx (Array.not_mem_empty x)⟩
  obtain ⟨flag, flag', listed, settled, acyclic⟩ := k
  obtain rfl : _ = flag := hflag
  obtain rfl : _ = flag' := hflag'
  unfold Progress.initial Progress.nameless Contrast.silent Assembly.Module.nameless
  rw [hmodule.types, hmodule.constants]
  cases env.options.debugNames <;> cases env'.options.debugNames <;> rfl

/-- Both attempts fail with the same failure, or both give a module, up to what may differ. -/
inductive Outcomes (k : Contrast) :
    Except Failure Assembly.Module → Except Failure Assembly.Module → Prop where
  | failed {failure : Failure} : (k.acyclic = true → ¬failure.IsCircular) →
      Outcomes k (.error failure) (.error failure)
  | built {p p' : Progress} : p.Apart k p' → Outcomes k (.ok p.assembly) (.ok p'.assembly)

lemma outcomes_assembleIn (hk : k.settled = false) (henv : env.SameCode k env')
    (hmodule : env'.module = env.module)
    (hflag : env.options.debugNames = k.flag) (hflag' : env'.options.debugNames = k.flag')
    (hlists : k.listed = [] ∧ env'.options.listsGlobals = env.options.listsGlobals ∨
      env.options.listsGlobals = false ∧ env'.options.listsGlobals = true ∧
        ∀ p, declareModule env (.initial env) = .ok () p →
        p.globals.toList.map GlobalPlace.id = k.listed)
    (hacyclic : k.acyclic = true → env.module.Acyclic) :
    Outcomes k (assembleIn env) (assembleIn env') := by
  have hagrees : k.Agrees [] ⟨[], [], none⟩ fun i => declareModule (pick env env' i) :=
    agrees_declareModule hk henv
  unfold assembleIn
  rcases hagrees (fun i => .initial (pick env env' i)) (apart_initial hflag hflag' hk henv.module)
    .nil with
    ⟨_, p, hrun, hp, -⟩ | ⟨fault, p, hrun, -, -, hsame, hcircular⟩
  · have hdeclare : declareModule env (.initial env) = .ok () (p false) := hrun false
    rw [hdeclare, show declareModule env' (.initial env') = _ from hrun true]
    have hp : (p false).Apart k (p true) := hp
    have hend : (attemptFunctions env (p false)).Apart k (attemptFunctions env' (p true)) := by
      rcases hlists with hsame | ⟨hnot, hlists, hglobals⟩
      · exact apart_attemptFunctions henv hmodule (.inl hsame) hacyclic hp
      · -- from here on all globals are known
        have hsettled : (p false).Apart { k with settled := true } (p true) :=
          { hp with globals := fun _ => hglobals _ hdeclare }
        have hend := apart_attemptFunctions (k := { k with settled := true })
          ⟨henv.module, henv.buffers, henv.depth, henv.deep⟩ hmodule
          (.inr ⟨rfl, hnot, hlists⟩) hacyclic hsettled
        exact { hend with globals := fun _ => hend.globals rfl }
    have hfaults := hend.look Progress.faults fun _ _ => rfl
    dsimp only
    rw [hfaults]
    split
    · exact .built hend
    · refine .failed fun hk => ?_
      rintro ⟨x, hx, hcircular⟩
      exact hend.faults hk x (Array.mem_toList_iff.1 hx) hcircular
  · rw [show declareModule env (.initial env) = _ from hrun false, show declareModule env'
      (.initial env') = _ from hrun true, hsame]
    exact .failed hcircular

lemma Outcomes.neat (h : Outcomes k r r') (ha : r = .ok a) : a.Neat := by
  cases h with
  | failed => cases ha
  | built hp =>
    cases ha
    exact hp.neat

lemma outcomes_assemble (m : IR.Module) (options options' : Options)
    (hbuffers : options'.hasStorageBuffers = options.hasStorageBuffers)
    (hlists : options'.listsGlobals = options.listsGlobals) :
    Outcomes { flag := options.debugNames, flag' := options'.debugNames } (assemble m options)
      (assemble m options') :=
  outcomes_assembleIn rfl ⟨.refl m, hbuffers, fun _ => rfl, nofun⟩ rfl rfl rfl
    (.inl ⟨rfl, hlists⟩) nofun

end

end Shader.Emit
