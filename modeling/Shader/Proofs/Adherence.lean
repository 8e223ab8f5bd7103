import Shader.Proofs.Construction

/-!
# What the emission of modules obeys

The declarations of a program keep progress sound and obey a regime that admits it, and so do its
functions, one after another.  An attempt at a function that fails keeps its fault and leaves ids
behind that are not defined.
-/

namespace Shader.Emit

open List Assembly
open Link (Sim alone)

variable {α β : Type} {p base p' : Progress} {f : IR.Function} {m : IR.Module} {options : Options}
    {R : Regime m options}
  {id : Id} {ids : Array Id} {left left' pending : List Id} {act : EmitM Unit}

/-- What emission starts from, once the preamble is declared. -/
def Progress.opening (m : IR.Module) (options : Options) : Progress :=
  (Progress.initial (.of m options)).withAssembly
    (declarePreamble (Progress.initial (.of m options)).assembly).2

lemma assembly_opening (m : IR.Module) (options : Options) : (Progress.opening m options).assembly =
    { (Progress.initial (.of m options)).assembly with sections := {
        capabilities := #[⟨.capability, [.word Capability.shader.word]⟩]
        memoryModel := #[⟨.memoryModel, [.word logicalAddressing, .word shadingMemoryModel]⟩] }
        } := by
  have hrun (a : Assembly.Module) : (declarePreamble a).2 = (requireCapability .shader a).2.pushed
      .memoryModel ⟨.memoryModel, [.word logicalAddressing, .word shadingMemoryModel]⟩ := rfl
  have hempty : withCapability (Progress.initial (.of m options)).assembly.sections.capabilities
      (some .shader) = #[⟨.capability, [.word Capability.shader.word]⟩] :=
      if_neg (Array.not_mem_empty _)
  show (declarePreamble _).2 = _
  rw [hrun, requireCapability_apply, hempty]
  rfl

/-! ### Declarations -/

lemma sound_initial (env : Env) : (Progress.initial env).Sound [] := by
  refine ⟨⟨Nat.one_pos, .refl _, forall_mem_nil _, .nil, ?_, nofun⟩, fun h u hu => ?_,
    fun h u hu => ?_, fun u hu => absurd hu (Array.not_mem_empty u),
    fun place hplace => absurd hplace (Array.not_mem_empty place),
    fun u hu => absurd hu (Array.not_mem_empty u)⟩
  · rintro u (⟨key, hu⟩ | ⟨key, hu⟩ | hu) <;> cases hu
  · have hnone : (Progress.initial env).types.get? h = none := Slots.get?_empty _ h
    rw [hnone] at hu
    cases hu
  · have hnone : (Progress.initial env).constants.get? h = none := Slots.get?_empty _ h
    rw [hnone] at hu
    cases hu

lemma upholds_declarePreamble : Upholds g declarePreamble fun _ => [] :=
  .bind (upholds_requireCapability _) fun _ => upholds_pushTo nofun rfl nofun

lemma sound_opening (m : IR.Module) (options : Options) :
    (Progress.opening m options).Sound [] := by
  have hinitial := sound_initial (.of m options)
  obtain ⟨hsound, hgrows, -⟩ := upholds_declarePreamble (g := []) hinitial.assembly (.nil _)
  exact hinitial.withAssembly hsound hgrows

lemma alone_labels {g : List (Fact (Ids Unit))} {owed : List (Ids Unit)} (xs : List α) :
    Sim (alone R pending).emission g (fun (ids : List (Ids Unit)) i => ids.map (· i))
      ⟨owed, flow, o⟩
        (fun ids => ⟨ids ++ owed, flow, o⟩) (map .issued) fun _ => xs.mapM fun _ =>
      (liftM freshId : EmitM Id) := by
  induction xs generalizing g owed with
  | nil => exact .answer (r := []) (forall_mem_nil _) rfl
  | cons x xs ih =>
    simp only [mapM_cons]
    refine .bind alone_freshId fun id => .bind ih fun ids => ?_
    refine .perm _ (.answer (r := id :: ids) (fun z hz => ?_) rfl) perm_middle
    simp only [map_cons, mem_cons, mem_append, not_mem_nil, or_false] at hz ⊢
    tauto

lemma length_of_mapM {act : α → EmitM β} : ∀ {xs : List α} {ys : List β} {p p' : Progress},
    xs.mapM act p = .ok ys p' → ys.length = xs.length
  | [], ys, p, p', h => by
    obtain ⟨rfl, -⟩ := pure_eq_ok.1 h
    rfl
  | x :: xs, ys, p, p', h => by
    simp only [mapM_cons, bind_eq_ok, pure_eq_ok] at h
    obtain ⟨_, _, -, ys, _, hys, rfl, -⟩ := h
    exact congrArg (· + 1) (length_of_mapM hys)

/-- What holds while functions are tried, one after another.  The ids of those that are left are
owed; after a failure, others may be as well. -/
structure Progress.Trying (ids : Array Id) (left : List Id) (p : Progress) : Prop where
  sound : ∃ extra, p.Sound (extra ++ left) ∧ (p.faults = #[] → extra = [])
  draft : p.assembly.draft = none
  functions : p.functions = ids
  faults : ∀ f ∈ p.faults, f.fault.isStructural = false

/-- The attempt at a function pays what is owed for it, and obeys the regime. -/
def Regime.Tries (R : Regime m options) (left left' : List Id) (act : EmitM Unit) (p : Progress) :
    Prop :=
  ∀ extra, p.Sound (extra ++ left) → Ends act p
    (fun _ p' => p'.Sound (extra ++ left') ∧ p.Follows p' ∧ p'.assembly.draft = none ∧ R.Later p p')
    fun fault p' => p.Failed (extra ++ left') fault p' ∧ R.Later p p'

lemma Progress.Trying.attempt (hp : p.Trying ids left) (name : String)
    (hact : R.Tries left left' act p) :
    (attempt name act p).Trying ids left' := by
  obtain ⟨extra, hsound, hextra⟩ := hp.sound
  have hends := hact extra hsound
  unfold Ends at hends
  unfold Emit.attempt
  cases hrun : act p with
  | ok a p' =>
    rw [hrun] at hends
    obtain ⟨hp', hfollows, hdraft, -⟩ := hends
    refine ⟨⟨extra, hp', fun hnone => hextra (hfollows.faults ▸ hnone)⟩, hdraft,
      hfollows.functions.trans hp.functions, ?_⟩
    rw [hfollows.faults]
    exact hp.faults
  | error fault p' =>
    rw [hrun] at hends
    obtain ⟨⟨hfault, ⟨more, hp'⟩, hfollows⟩, -⟩ := hends
    obtain ⟨dropped, hsound'⟩ := hp'.assembly.abandon
    refine ⟨⟨dropped ++ (more ++ extra), ?_, fun hnone => absurd hnone Array.push_ne_empty⟩, rfl,
      hfollows.functions.trans hp.functions, fun f hf => ?_⟩
    · have hdropped := hp'.withAssembly hsound' ⟨Nat.le_refl _, fun _ => id⟩
      simp only [append_assoc] at hdropped ⊢
      exact { hdropped with }
    · rcases Array.mem_push.1 hf with hf | rfl
      · rw [hfollows.faults] at hf
        exact hp.faults f hf
      · exact hfault

namespace Regime

section

variable (hadmits : ∀ depth, R.Admits ⟨m, options, depth⟩)
include hadmits

lemma tries_helper (hp : p.Trying ids (id :: left)) (hid : ids[h.index]? = some id)
    (f : IR.Function) (depth : Nat) (name : String) : R.Tries (id :: left) left (do
      emitHelper ⟨m, options, depth⟩ (← functionId h) name f) p := by
  intro extra hsound
  have hfunction : functionId h p = .ok id p := by
    refine bind_eq_ok.2 ⟨p, p, rfl, ?_⟩
    rw [hp.functions, hid]
    rfl
  refine .bind (q := fun found p' => found = id ∧ p' = p) ?_ ?_
  · unfold Ends
    rw [hfunction]
    exact ⟨rfl, rfl⟩
  · rintro found p' ⟨hfound, hsame⟩
    rw [hfound, hsame]
    have hissued : p.assembly.Issued id := hsound.functions id (by
      rw [hp.functions]
      exact Array.mem_of_getElem? hid)
    have hsound' : p.Sound ([id] ++ (extra ++ left)) :=
      { hsound with assembly := hsound.assembly.perm perm_middle }
    have hleads : (alone R (extra ++ left)).Leads [.issued fun _ => id] ⟨[fun _ => id], [],
        none⟩ ⟨[], [], none⟩ fun _ => emitHelper ⟨m, options, depth⟩ id name f :=
      Correspondence.emitHelper (C := .alone hadmits _) ⟨rfl, rfl⟩
        (.inl (mem_singleton_self _)) name trivial
    refine (ends_of_sim hleads hsound' hp.draft (forall_mem_singleton.2 hissued)).mono
      ?_ fun _ _ h => h
    rintro _ p' ⟨_, -, hp', hdraft, hfollows, hlater, -⟩
    exact ⟨hp', hfollows, hdraft, hlater⟩

lemma tries_entryPoint (hp : p.Trying ids left) (hglobals : R.globals)
    (entry : IR.EntryPoint) (depth : Nat) :
    R.Tries left left (emitEntryPoint ⟨m, options, depth⟩ entry) p := by
  intro extra hsound
  have hleads : (alone R (extra ++ left)).Leads [] ⟨[], [], none⟩ ⟨[], [], none⟩
      fun _ => emitEntryPoint ⟨m, options, depth⟩ entry :=
    Correspondence.emitEntryPoint (C := .alone hadmits _) ⟨rfl, rfl⟩ hglobals trivial
  refine (ends_of_sim hleads hsound hp.draft (.nil _)).mono ?_ fun _ _ h => h
  rintro _ p' ⟨_, -, hp', hdraft, hfollows, hlater, -⟩
  exact ⟨hp', hfollows, hdraft, hlater⟩

end

/-- What holds of the progress of a program between functions: it was reached. -/
structure Attained (R : Regime m options) (base : Progress) (ids : Array Id) (left : List Id)
    (p : Progress) : Prop extends p.Trying ids left where
  reaches : base.assembly.Reaches R.toLaw p.assembly
  good : R.Good p

lemma Attained.attempt (hp : R.Attained base ids left p) (name : String)
    (hact : R.Tries left left' act p) :
    R.Attained base ids left' (attempt name act p) := by
  have htrying := hp.toTrying.attempt name hact
  obtain ⟨extra, hsound, -⟩ := hp.sound
  have hrun := hact extra hsound
  unfold Ends at hrun
  unfold Emit.attempt at htrying ⊢
  cases hact : act p with
  | ok _ p' =>
    rw [hact] at hrun htrying
    obtain ⟨-, -, -, hlater⟩ := hrun
    obtain ⟨hreaches, hp'⟩ := hlater.run hp.good
    exact ⟨htrying, hp.reaches.trans hreaches, hp'⟩
  | error fault p' =>
    rw [hact] at hrun htrying
    obtain ⟨-, hlater⟩ := hrun
    have hdropped : p'.assembly.Reaches R.toLaw { p'.assembly with draft := none } :=
      .single (.draft _ none _ R.drafting)
    obtain ⟨hreaches, hp'⟩ := hlater.run hp.good
    exact ⟨htrying, hp.reaches.trans (hreaches.trans hdropped), R.keep hdropped rfl rfl hp'.inv,
      hp'.keyed.reaches hdropped rfl⟩

/-! ### Programs -/

variable (hprogram : R.FitsProgram)
include hprogram

/-- When all is declared, each function has its id and none is tried yet. -/
lemma ends_declareModule (hblocks : R.blocks) (depth : Nat) :
    Ends (declareModule ⟨m, options, depth⟩) (.initial (.of m options))
      (fun _ p => R.Later (.opening m options) p ∧
        ∃ ids : Array Id, ids.size = m.functions.toList.length ∧ p.Trying ids ids.toList)
      fun fault _ => fault.isStructural = false := by
  have hsim : Sim (alone R []).emission [] (fun (ids : List (Ids Unit)) i =>
      ids.map (· i)) ⟨[], [], none⟩ (fun ids => ⟨ids ++ [], [], none⟩) (map .issued) (fun _ => do
        declareOverrides ⟨m, options, depth⟩
        declareGlobals ⟨m, options, depth⟩
        m.functions.toList.mapM fun _ => (liftM freshId : EmitM Id)) := by
    refine .bind (leads_of_sustains (sustains_declareOverridesFrom _ _ _ 0)) fun _ =>
      .bind (leads_of_sustains (.forM fun v _ => ?_)) fun _ => alone_labels _
    exact sustains_declareGlobal (hprogram.admits _) hblocks hprogram.declares v
  have hdraft : (Progress.opening m options).assembly.draft = none := by
    rw [assembly_opening]
    rfl
  have hends := (ends_of_sim hsim (sound_opening m options) hdraft (.nil _)).recorded
  have hsplit : declareModule ⟨m, options, depth⟩ (.initial (.of m options)) = (do
      let functions ← (do
        declareOverrides ⟨m, options, depth⟩
        declareGlobals ⟨m, options, depth⟩
        m.functions.toList.mapM fun _ => (liftM freshId : EmitM Id))
      modify fun p => { p with functions := functions.toArray } : EmitM Unit)
        (.opening m options) := by
    simp only [bind_assoc]
    rfl
  unfold Ends
  rw [hsplit]
  refine Ends.bind (hends.mono (fun _ _ => id) fun _ _ h => h.1.1) ?_
  rintro _ p ⟨⟨ids, rfl, hp, hdraft, hfollows, hlater, hissued⟩, hrun⟩
  have hfaults : p.faults = #[] := hfollows.faults
  refine ⟨hlater.trans (.of_reaches .refl rfl rfl rfl rfl), (ids.map (· ())).toArray, ?_,
    ⟨[], ?_, fun _ => rfl⟩, hdraft, rfl, ?_⟩
  · obtain ⟨_, _, -, hrun⟩ := bind_eq_ok.1 hrun
    obtain ⟨_, _, -, hrun⟩ := bind_eq_ok.1 hrun
    exact length_of_mapM hrun
  · refine { hp with assembly := ?_, functions := fun u hu => ?_ }
    · simpa using hp.assembly
    · obtain ⟨a, ha, rfl⟩ := mem_map.1 (mem_toArray.1 hu)
      exact hissued (.issued (a ())) (mem_map.2 ⟨.issued a, mem_map_of_mem ha, rfl⟩)
  · intro f hf
    rw [show p.faults = #[] from hfaults] at hf
    exact absurd hf (Array.not_mem_empty f)

lemma Attained.helpers (depth : Nat) :
    ∀ (functions : List IR.Function) (index : Nat) {p : Progress},
    index + functions.length ≤ ids.toList.length →
    R.Attained base ids (ids.toList.drop index) p →
    R.Attained base ids (ids.toList.drop (index + functions.length))
      (((functions.zipIdx index).map fun (f, i) => ((⟨i⟩ : Handle .function), f)).foldl
        (attemptHelper ⟨m, options, depth⟩) p)
  | [], _, _, _, hp => hp
  | f :: functions, index, p, hlength, hp => by
    rw [length_cons, Nat.add_comm _ 1, ← Nat.add_assoc] at hlength ⊢
    have hlt : index < ids.toList.length := by omega
    rw [drop_eq_getElem_cons] at hp
    refine Attained.helpers depth functions (index + 1) hlength
      (hp.attempt _ (tries_helper hprogram.admits hp.toTrying ?_ f depth _))
    rw [← Array.getElem?_toList]
    exact getElem?_eq_getElem hlt

lemma Attained.entryPoints (depth : Nat) (entries : List IR.EntryPoint) : ∀ {p : Progress},
    R.Attained base ids [] p →
      R.Attained base ids [] (entries.foldl (attemptEntryPoint ⟨m, options, depth⟩) p) := by
  induction entries with
  | nil => exact id
  | cons entry rest ih =>
    exact fun hp =>
      ih (hp.attempt _ (tries_entryPoint hprogram.admits hp.toTrying hprogram.declares entry depth))

/-- The progress between functions, after some helper functions and after some entry points. -/
lemma attained_attempts (depth : Nat) (hsize : ids.size = m.functions.toList.length)
    (hp : R.Attained base ids ids.toList p) :
    (∀ n, ∃ left, R.Attained base ids left
      ((m.functions.entries.take n).foldl (attemptHelper ⟨m, options, depth⟩) p)) ∧
    ∀ n, R.Attained base ids []
      ((m.entryPoints.take n).foldl (attemptEntryPoint ⟨m, options, depth⟩)
      (m.functions.entries.foldl (attemptHelper ⟨m, options, depth⟩) p)) := by
  have hlength : ids.toList.length = m.functions.toList.length := hsize
  constructor
  · intro n
    have hshort := (take_sublist n m.functions.toList).length_le
    have htake : m.functions.items.toList.zipIdx.take n = (m.functions.toList.take n).zipIdx := by
      refine ext_getElem? fun i => ?_
      rw [Arena.toList, getElem?_zipIdx, getElem?_take, getElem?_take, getElem?_zipIdx]
      split <;> rfl
    rw [Arena.entries, ← map_take, htake]
    exact ⟨_, .helpers hprogram depth _ 0 (by omega) hp⟩
  · intro n
    have hhelpers := Attained.helpers hprogram depth m.functions.toList 0 (by omega) hp
    rw [Nat.zero_add, ← hlength, drop_length] at hhelpers
    exact .entryPoints hprogram depth _ hhelpers

lemma attained_attemptFunctions (depth : Nat) (hsize : ids.size = m.functions.toList.length)
    (hp : R.Attained base ids ids.toList p) :
    R.Attained base ids [] (attemptFunctions ⟨m, options, depth⟩ p) := by
  have hall := (attained_attempts hprogram depth hsize hp).2 m.entryPoints.length
  rw [take_length] at hall
  exact hall

omit hprogram in
lemma keyed_opening : (Progress.opening m options).Keyed m options :=
  fun h _ hid => nomatch (Slots.get?_empty _ h).symm.trans hid

lemma attained_of_declareModule (hblocks : R.blocks) (hinv : R.Inv (.opening m options))
    {depth : Nat} (hrun : declareModule ⟨m, options, depth⟩ (.initial (.of m options)) = .ok () p) :
    ∃ ids : Array Id, ids.size = m.functions.toList.length ∧
      R.Attained (.opening m options) ids ids.toList p := by
  obtain ⟨hlater, ids, hsize, htrying⟩ := (ends_declareModule hprogram hblocks depth).of_ok hrun
  obtain ⟨hreaches, hp⟩ := hlater.run ⟨hinv, keyed_opening⟩
  exact ⟨ids, hsize, htrying, hreaches, hp⟩

/-- The module of a program is reached from the preamble. -/
lemma run_assemble (hblocks : R.blocks) (hinv : R.Inv (.opening m options))
    (h : assemble m options = .ok a) :
    ∃ p ids, R.Attained (.opening m options) ids [] p ∧ a = p.assembly := by
  unfold assemble assembleIn at h
  cases hdeclare : declareModule (.of m options) (.initial (.of m options)) with
  | error fault p =>
    rw [hdeclare] at h
    cases h
  | ok _ p =>
    obtain ⟨ids, hsize, hstart⟩ := attained_of_declareModule hprogram hblocks hinv hdeclare
    rw [hdeclare] at h
    dsimp only at h
    split at h
    · exact ⟨_, ids, attained_attemptFunctions hprogram (Env.depthOf m) hsize hstart,
        (Except.ok.inj h).symm⟩
    · cases h

end Regime

end Shader.Emit
