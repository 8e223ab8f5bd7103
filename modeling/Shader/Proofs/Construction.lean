import Shader.Proofs.Concord

/-!
# A single emission

While a single emission goes on, its progress is sound: the ids that are owed are known, and so is
how far the draft of the function is that is emitted.  Every step is taken in a phase that allows
it, so that no structural fault occurs; it also obeys every regime that the references of the
program fit.  The elementary steps of emission do (`alone`), so all of it does.
-/

namespace Shader.Emit

open List Assembly Link
open Regime (plain)

variable {m : IR.Module} {options : Options} {R : Regime m options} {pending : List Id} {α ρ : Type}

/-- What is drafted: nothing outside functions, and inside one a function that is as far. -/
def Drafts (m : Assembly.Module) : Option Openness → Prop
  | none => m.draft = none
  | some o => ∃ d, m.draft = some d ∧ d.Is o

/-- The label of the block that is open, if one is. -/
def Progress.label? (p : Progress) : Option Id := p.assembly.draft.bind Draft.label?

/-- What the link knows about drafts is how far they are, and which block is open. -/
structure Link.Drafting {ι : Type} (L : Link ι R) : Prop where
  drafts : ∀ {owed o p}, L.Rel owed o p → ∀ i, Drafts (p i).assembly o
  redraft : ∀ {owed o o' p}, L.Rel owed o p → (∀ i, Drafts (p i).assembly o') → L.Rel owed o' p
  label : ∀ {owed o p}, L.Rel owed o p → ∃ label : Option (Ids ι),
    (∀ i, (p i).label? = label.map (· i)) ∧ ∀ a ∈ label, L.Holds p (.issued a)

section

variable {ι : Type} {L : Link ι R} {g : List (Fact (Ids ι))} {owed : List (Ids ι)}
    {flow : List (Around ι)}

lemma Link.Drafting.exists_label (h : L.Drafting) {σ : ι → Body}
    (hσ : L.BodiesAgree ⟨owed, flow, some o⟩ σ) :
    ∃ label : Option (Ids ι), (∀ i, openLabel? (σ i) = .ok (label.map (· i)) (σ i)) ∧
      (∀ a ∈ label, L.Holds (fun i => (σ i).progress) (.issued a)) ∧
      ∀ i, ∃ d, (σ i).progress.assembly.draft = some d ∧ d.Is o ∧ d.label? = label.map (· i) := by
  obtain ⟨label, hlabel, hheld⟩ := h.label hσ.rel
  have hdraft : ∀ i, ∃ d, (σ i).progress.assembly.draft = some d ∧ d.Is o ∧ d.label? =
    label.map (· i) := by
    intro i
    obtain ⟨d, hd, his⟩ := h.drafts hσ.rel i
    refine ⟨d, hd, his, ?_⟩
    rw [← hlabel i, Progress.label?, hd]
    rfl
  refine ⟨label, fun i => ?_, hheld, hdraft⟩
  obtain ⟨d, hd, -, hd'⟩ := hdraft i
  rw [← hd']
  refine bind_eq_ok.2 ⟨d, σ i, build_eq_ok.2 ⟨(σ i).progress.assembly, ?_, rfl⟩, rfl⟩
  simp only [currentDraft, hd]

lemma Link.Drafting.openLabel (h : L.Drafting) :
    Sim L.body g (fun (r : Option (Ids ι)) i => r.map (· i))
    ⟨owed, flow, some .begun⟩ (fun r => ⟨owed, flow, some (if r.isSome then .opened else .closed)⟩)
    (·.toList.map .issued) fun _ => openLabel? := by
  intro σ hσ _
  have hσ : L.BodiesAgree ⟨owed, flow, some .begun⟩ σ := hσ
  obtain ⟨label, hrun, hheld, hdraft⟩ := h.exists_label hσ
  have hagree : L.BodiesAgree ⟨owed, flow, some (if label.isSome then .opened else .closed)⟩ σ := by
    refine { hσ with rel := h.redraft hσ.rel fun i => ?_ }
    obtain ⟨d, hd, his, hlabel⟩ := hdraft i
    refine ⟨d, hd, ?_⟩
    cases label with
    | some a =>
      obtain ⟨block, hblock, -⟩ := Option.map_eq_some_iff.1 hlabel
      exact Option.isSome_of_eq_some hblock
    | none =>
      have hcurrent : d.current = none := Option.map_eq_none_iff.1 hlabel
      refine ⟨hcurrent, his.resolve_left ?_⟩
      rw [hcurrent]
      exact Bool.false_ne_true
  exact .inl ⟨label, σ, hrun, hagree, fun _ => L.refl _, forall_mem_map.2 fun a ha => hheld a
    (Option.mem_toList.1 ha)⟩

lemma Link.Drafting.labelOr [Inhabited ι] (h : L.Drafting) (cause : Inconsistency) :
    L.Computes g owed flow fun _ => labelOr cause := by
  intro σ hσ _
  obtain ⟨label, hrun, hheld, hdraft⟩ := h.exists_label hσ
  cases label with
  | some a => exact .inl ⟨a, σ, fun i => bind_eq_ok.2 ⟨_, σ i, hrun i, rfl⟩, hσ, fun _ => L.refl _,
      forall_mem_singleton.2 (hheld a rfl)⟩
  | none =>
    obtain ⟨d, -, his, hlabel⟩ := hdraft default
    have hcurrent : d.current = none := Option.map_eq_none_iff.1 hlabel
    rw [show d.Is .opened ↔ d.current.isSome from Iff.rfl, hcurrent] at his
    cases his

end

/-- A fact about the ids of one emission. -/
def here : Fact (Ids Unit) → Fact Id
  | .issued a => .issued (a ())
  | .global a => .global (a ())

/-- A single emission, of a module that owes given ids to others. -/
def Link.alone (R : Regime m options) (pending : List Id) : Link Unit R where
  Rel owed o p := (p ()).Sound (owed.map (· ()) ++ pending) ∧ Drafts (p ()).assembly o
  Left p := ∃ extra, (p ()).Sound (extra ++ pending)
  Holds p x := (here x).Holds (p ()).assembly
  Later p q := p.Follows q ∧ R.Later p q
  Alike fault := (fault ()).isStructural = false
  left h := ⟨_, h.1⟩
  perm hperm h := ⟨{ h.1 with assembly := h.1.assembly.perm ((hperm.map _).append_right _) }, h.2⟩
  begun ho h := by
    obtain ⟨hsound, d, hd, his⟩ := h
    exact ⟨hsound, d, hd, his.begun ho⟩
  refl p := ⟨.refl p, .refl p⟩
  trans h h' := ⟨h.1.trans h'.1, h.2.trans h'.2⟩
  keep h hx := hx.grows (h ()).1.grows
  issued h ha := h.1.assembly.issued_of_global ha
  alike h _ := h

section

variable {g : List (Fact (Ids Unit))} {s : Phase Unit} {on : ρ → Unit → α} {t : ρ → Phase Unit}
  {k : ρ → List (Fact (Ids Unit))} {owed : List (Ids Unit)} {flow : List (Around Unit)}
  {o o' : Openness}
  {a type : Ids Unit}

lemma knows_alone {p : Unit → Progress} :
    (alone R pending).Knows p g ↔ (p ()).assembly.Knows (g.map here) := by
  unfold Link.Knows Module.Knows
  rw [forall_mem_map]
  rfl

lemma attested_here (h : Attested g a) : Attested (g.map here) (a ()) :=
  h.imp (fun h => mem_map.2 ⟨_, h, rfl⟩) fun h => mem_map.2 ⟨_, h, rfl⟩

lemma global_here (h : .global a ∈ g) : .global (a ()) ∈ g.map here := mem_map.2 ⟨_, h, rfl⟩

/-! ### Steps -/

lemma ensues_alone {act : Unit → EmitM α} {p : Unit → Progress}
    (hlater : Ends (act ()) (p ()) (fun _ p' => R.Later (p ()) p') fun _ p' => R.Later (p ()) p')
    (hends : Ends (act ()) (p ())
      (fun a p' => ∃ r, on r () = a ∧ p'.Sound ((t r).owed.map (· ()) ++ pending) ∧
      Drafts p'.assembly (t r).openness ∧ (p ()).Follows p' ∧ p'.assembly.Knows ((k r).map here))
      ((p ()).Failed pending)) :
    Ensues (alone R pending).emission on t k act p := by
  unfold Ends at hends hlater
  cases hact : act () (p ()) with
  | ok a p' =>
    rw [hact] at hends hlater
    obtain ⟨r, rfl, hsound, hdraft, hfollows, hk⟩ := hends
    exact .inl ⟨r, fun _ => p', fun _ => hact, ⟨hsound, hdraft⟩, fun _ => ⟨hfollows, hlater⟩,
      knows_alone.2 hk⟩
  | error fault p' =>
    rw [hact] at hends hlater
    obtain ⟨hfault, hleft, hfollows⟩ := hends
    exact .inr ⟨fun _ => fault, fun _ => p', fun _ => hact, hleft,
      fun _ => ⟨hfollows, hlater⟩, hfault⟩

lemma ends_of_sim {act : Unit → EmitM α} {p : Progress}
    (h : Sim (alone R pending).emission g on s t k act)
    (hp : p.Sound (s.owed.map (· ()) ++ pending)) (hdraft : Drafts p.assembly s.openness)
    (hg : p.assembly.Knows (g.map here)) : Ends (act ()) p
      (fun a p' => ∃ r, on r () = a ∧ p'.Sound ((t r).owed.map (· ()) ++ pending) ∧
        Drafts p'.assembly (t r).openness ∧
        p.Follows p' ∧ R.Later p p' ∧ p'.assembly.Knows ((k r).map here))
      fun fault p' => p.Failed pending fault p' ∧ R.Later p p' := by
  unfold Ends
  rcases h (fun _ => p) ⟨hp, hdraft⟩ (knows_alone.2 hg) with
    ⟨r, q, hrun, hq, hlater, hk⟩ | ⟨fault, q, hrun, hleft, hlater, hfault⟩ <;> rw [hrun ()]
  · exact ⟨r, rfl, hq.1, hq.2, (hlater ()).1, (hlater ()).2, knows_alone.1 hk⟩
  · exact ⟨⟨hfault, hleft, (hlater ()).1⟩, (hlater ()).2⟩

lemma sim_alone {act : Unit → EmitM α} (hobeys : R.Obeys (act ()))
    (hrun : ∀ p : Progress, p.Sound (s.owed.map (· ()) ++ pending) → Drafts p.assembly s.openness →
      p.assembly.Knows (g.map here) → Ends (act ()) p (fun a p' => ∃ r, on r () = a ∧
        p'.Sound ((t r).owed.map (· ()) ++ pending) ∧ Drafts p'.assembly
        (t r).openness ∧ p.Follows p' ∧
          p'.assembly.Knows ((k r).map here)) (p.Failed pending)) :
    Sim (alone R pending).emission g on s t k act :=
  fun p hp hg => ensues_alone (hobeys (p ())) (hrun (p ()) hp.1 hp.2 (knows_alone.1 hg))

lemma ends_of_preserves {act : EmitM α} {facts : α → List (Fact Id)} (back : α → ρ)
    (hback : ∀ a, on (back a) () = a) (hk : ∀ a, (k (back a)).map here = facts a)
    (h : Preserves (g.map here) act facts)
    {p : Progress} (hp : p.Sound (s.owed.map (· ()) ++ pending))
    (hdraft : Drafts p.assembly s.openness)
    (hg : p.assembly.Knows (g.map here)) : Ends act p (fun a p' => ∃ r, on r () = a ∧
      p'.Sound (s.owed.map (· ()) ++ pending) ∧ Drafts p'.assembly s.openness ∧ p.Follows p' ∧
        p'.assembly.Knows ((k r).map here)) (p.Failed pending) := by
  refine (h hp hg).mono ?_ fun _ _ => .frame
  rintro a p' ⟨hp', hfollows, hknown, hsame⟩
  refine ⟨back a, hback a, hp', ?_, hfollows, hk a ▸ hknown⟩
  unfold Drafts
  rw [hsame]
  exact hdraft

lemma sim_of_sustains {act : Unit → EmitM α} {facts : α → List (Fact Id)} (back : α → ρ)
    (hback : ∀ a, on (back a) () = a)
    (hk : ∀ a, (k (back a)).map here = facts a) (h : R.Sustains (g.map here) (act ()) facts) :
    Sim (alone R pending).emission g on s (fun _ => s) k act :=
  sim_alone h.obeys fun _ hp hdraft hg => ends_of_preserves back hback hk h.preserves hp hdraft hg

lemma provides_of_sustains {act : Unit → EmitM Id}
    (h : R.Sustains (g.map here) (act ()) ([.global ·])) :
    (alone R pending).Provides g s act :=
  sim_of_sustains (fun a _ => a) (fun _ => rfl) (fun _ => rfl) h

lemma issues_of_sustains {act : Unit → EmitM Id}
    (h : R.Sustains (g.map here) (act ()) ([.issued ·])) :
    Sim (alone R pending).emission g (fun a => a) s (fun _ => s) ([.issued ·]) act :=
  sim_of_sustains (fun a _ => a) (fun _ => rfl) (fun _ => rfl) h

lemma leads_of_sustains {act : Unit → EmitM Unit}
    (h : R.Sustains (g.map here) (act ()) fun _ => []) :
    (alone R pending).Leads g s s act := sim_of_sustains id (fun _ => rfl) (fun _ => rfl) h

lemma alone_freshId {o : Option Openness} :
    Sim (alone R pending).emission g (fun a => a) ⟨owed, flow, o⟩
    (fun a => ⟨a :: owed, flow, o⟩) ([.issued ·]) fun _ => (liftM freshId : EmitM Id) := by
  refine sim_alone (.declare changes_freshId) fun p hp hdraft _ => ?_
  have hgrows : p.assembly.Grows { p.assembly with bound := p.assembly.bound + 1 } :=
    ⟨Nat.le_succ _, fun _ => id⟩
  refine ⟨fun _ => ⟨p.assembly.bound⟩, rfl, hp.withAssembly hp.assembly.issue hgrows, ?_,
    ⟨hgrows, rfl, rfl⟩, forall_mem_singleton.2 ⟨hp.assembly.positive, Nat.lt_succ_self _⟩⟩
  cases o <;> exact hdraft

lemma alone_onDraft {i : Instruction} (new : List (Ids Unit)) {change : Unit → Draft →
    Except Assembly.Inconsistency Draft} (hdefined : definitions [i] = new.map (· ()))
    (hchange : ∀ d, d.Is o → ∃ d', change () d = .ok d' ∧ d'.written.Perm (d.written ++ [i]) ∧
      d'.Is o')
    (huses : ∀ u ∈ i.uses, Attested (g.map here) u) :
    (alone R pending).Leads g ⟨new ++ owed, flow, some o⟩ ⟨owed, flow, some o'⟩ fun i =>
      (liftM (onDraft (change i)) : EmitM Unit) := by
  refine sim_alone (.build (Regime.drafting_onDraft _)) fun p hp ⟨d, hd, his⟩ hg => ?_
  obtain ⟨d', hd', hwritten, his'⟩ := hchange d his
  have hrun : (liftM (onDraft (change ())) : EmitM Unit) p =
      .ok () (p.withAssembly { p.assembly with draft := some d' }) := by
    refine liftBuild_eq_ok.2 ⟨_, ?_, rfl⟩
    simp only [onDraft, hd, hd']
  unfold Ends
  rw [hrun]
  have hsound := hp.assembly
  rw [map_append, append_assoc, ← hdefined] at hsound
  have hsound' := hsound.draft hd (hwritten.trans (perm_append_singleton i d.written))
    (forall_mem_singleton.2 fun u hu => hp.assembly.attested hg (huses u hu))
  have hgrows : p.assembly.Grows { p.assembly with draft := some d' } :=
    ⟨Nat.le_refl _, fun _ => id⟩
  exact ⟨(), rfl, hp.withAssembly hsound' hgrows, ⟨d', rfl, his'⟩, ⟨hgrows, rfl, rfl⟩, .nil _⟩

lemma alone_push {i : Unit → Instruction} (new : List (Ids Unit)) (hi : (i ()).isTerminator = false)
    (hdefined : definitions [i ()] = new.map (· ()))
    (huses : ∀ u ∈ (i ()).uses, Attested (g.map here) u) :
    (alone R pending).Leads g ⟨new ++ owed, flow, some .opened⟩ ⟨owed, flow, some .opened⟩ fun j =>
      (liftM (pushInstruction (i j)) : EmitM Unit) := by
  refine alone_onDraft new hdefined (fun d hd => ?_) huses
  obtain ⟨d', hd', hwritten, his⟩ := Draft.exists_push hd hi
  exact ⟨d', hd', hwritten ▸ .refl _, his⟩

lemma filterMap_on (terms : List (Term Unit)) (hterms : Covered g terms) :
    ∀ u ∈ (terms.map (Term.on ())).filterMap Operand.id?, Attested (g.map here) u := by
  intro u hu
  rw [filterMap_map] at hu
  obtain ⟨term, hterm, hid⟩ := mem_filterMap.1 hu
  cases term with
  | id a =>
    cases hid
    exact attested_here (hterms a hterm)
  | word | text => cases hid

lemma drafting_alone : (alone R pending).Drafting where
  drafts h _ := h.2
  redraft h h' := ⟨h.1, h' ()⟩
  label {_ _ p} h := by
    refine ⟨(p ()).label?.map fun a _ => a, fun i => by simp [Function.comp_def], fun a ha => ?_⟩
    obtain ⟨u, hu, rfl⟩ := Option.map_eq_some_iff.1 ha
    obtain ⟨d, hd, hlabel⟩ := Option.bind_eq_some_iff.1 hu
    exact h.1.assembly.issued_label hd hlabel

/-! ### Functions -/

lemma alone_openFunction {id type r : Ids Unit} (ps : List (Ids Unit × Ids Unit))
    (htype : Attested g type) (hr : Attested g r) (hps : ∀ q ∈ ps, Attested g q.1) :
    (alone R pending).Leads g ⟨id :: ps.map Prod.snd ++ owed, flow, none⟩
      ⟨owed, flow, some .blank⟩ fun i =>
      (liftM (openFunction ⟨id i, type i, r i, (ps.map fun q => ⟨q.1 i, q.2 i⟩).toArray, #[]⟩) :
        EmitM Unit) := by
  refine sim_alone (.build (Regime.drafting_openFunction _)) fun p hp hdraft hg => ?_
  set head : FunctionHead := ⟨id (), type (), r (), (ps.map fun q => ⟨q.1 (), q.2 ()⟩).toArray,
    #[]⟩ with hhead
  have hrun : (liftM (openFunction head) : EmitM Unit) p =
      .ok () (p.withAssembly { p.assembly with draft := some { toFunctionHead := head } }) := by
    refine liftBuild_eq_ok.2 ⟨_, ?_, rfl⟩
    simp only [openFunction, show p.assembly.draft = none from hdraft]
  have hattested : ∀ {u : Ids Unit}, Attested g u → p.assembly.Issued (u ()) := fun hu =>
    hp.assembly.attested hg (attested_here hu)
  have hsound : ({ p.assembly with draft := some { toFunctionHead := head } } :
      Assembly.Module).Sound (owed.map (· ()) ++ pending) := by
    refine Assembly.Module.Sound.openFunction hdraft rfl ?_ (hattested htype)
      (hattested hr) fun q hq => ?_
    · simpa [hhead, Function.comp_def] using hp.assembly
    · obtain ⟨q, hmem, rfl⟩ := mem_map.1 (mem_toArray.1 hq)
      exact hattested (hps q hmem)
  have hgrows : p.assembly.Grows { p.assembly with draft := some { toFunctionHead := head } } :=
    ⟨Nat.le_refl _, fun _ h => h⟩
  unfold Ends
  rw [hrun]
  exact ⟨(), rfl, hp.withAssembly hsound hgrows, ⟨_, rfl, rfl⟩, ⟨hgrows, rfl, rfl⟩, .nil _⟩

lemma alone_closeFunction :
    (alone R pending).Leads g ⟨owed, flow, some .closed⟩ ⟨owed, flow, none⟩ fun _ =>
    (liftM closeFunction : EmitM Unit) := by
  refine sim_alone (.build Regime.drafting_closeFunction) fun p hp ⟨d, hd, his⟩ hg => ?_
  obtain ⟨f, hf, hperm⟩ := Draft.exists_finish his
  have hrun : (liftM closeFunction : EmitM Unit) p =
      .ok () (p.withAssembly { p.assembly with
      draft := none, functions := p.assembly.functions.push f }) := by
    refine liftBuild_eq_ok.2 ⟨_, ?_, rfl⟩
    simp only [closeFunction, hd, hf]
  have hgrows : p.assembly.Grows { p.assembly with
    draft := none, functions := p.assembly.functions.push f } :=
    ⟨Nat.le_refl _, fun _ => id⟩
  unfold Ends
  rw [hrun]
  exact ⟨(), rfl, hp.withAssembly (hp.assembly.closeFunction hd hperm) hgrows, rfl,
    ⟨hgrows, rfl, rfl⟩, .nil _⟩

lemma Regime.obeys_functionId (h : Handle .function) : R.Obeys (functionId h) := by
  refine .get fun p => ?_
  split
  · exact .pure _
  · exact .throw _

lemma alone_newVariable {ds : Adornment} {next : Unit → Id → EmitM α} {pointer : Ids Unit}
    (storage : StorageClass) (hglobals : R.globals)
    (hpointer : .global pointer ∈ g) (hds : ds.Plain)
    (h : ∀ id : Ids Unit, Sim (alone R pending).emission (.global id :: g) on s (fun _ => s) k
      fun i => next i (id i)) :
    Sim (alone R pending).emission g on s (fun _ => s) k (fun i => do
      let id ← (liftM Assembly.freshId : EmitM Id)
      (liftM (pushTo .globals (.variable (pointer i) id storage none)) : EmitM Unit)
      (liftM (adorn id ds) : EmitM Unit)
      next i id) := by
  have hnew : (alone R pending).Provides g s (fun i => do
      let id ← (liftM Assembly.freshId : EmitM Id)
      (liftM (pushTo .globals (.variable (pointer i) id storage none)) : EmitM Unit)
      (liftM (adorn id ds) : EmitM Unit)
      return id) := provides_of_sustains (.newVariable hglobals (global_here hpointer) storage
        (by simp) hds fun id =>
    .pure (by simp))
  have hsim := Sim.bind hnew h
  simpa only [bind_assoc, pure_bind] using hsim

/-- A single emission of a program that the regime admits. -/
def Correspondence.alone (hadmits : ∀ depth, R.Admits ⟨m, options, depth⟩) (pending : List Id) :
    Correspondence Unit R where
  toLink := .alone R pending
  Akin env := (env ()).module = m ∧ (env ()).options = options
  akin_types _ _ := rfl
  akin_constants _ _ := rfl
  akin_within _ h := h
  suits h := by
    have htypes : R.SuitsTypes m := (hadmits 0).types.toSuitsTypes
    exact h.1.symm ▸ htypes
  Fits _ := True
  descends {env f} _ _ := by
    have halike : (Link.alone R pending).Alike fun _ => .inconsistent .circular := rfl
    exact .same halike ((env ()).within f).depth fun _ => rfl
  isConstant _ _ _ := rfl
  isSpecialization _ _ _ := rfl
  recorded h _ hconstant := by
    obtain ⟨⟨key, _⟩, hkey, hid⟩ := any_eq_true.1 hconstant
    obtain rfl := beq_iff_eq.1 hid
    exact h.1.assembly.recorded _ (.inr (.inl ⟨key, hkey⟩))
  globals {_ _ p} h := by
    refine .places (p ()).globals (fun _ => rfl) ?_
    rintro place hplace u (rfl | hu)
    · exact (h.1.globals place hplace).1
    · exact (h.1.globals place hplace).2 u hu
  freshId := alone_freshId
  scalarType h := provides_of_sustains (.declare (upholds_scalarType _) (changes_scalarType h))
  vectorType n h :=
    provides_of_sustains (.declare (upholds_vectorType _ n) (changes_vectorType _ h))
  voidType := provides_of_sustains (.declare upholds_voidType changes_voidType)
  pointerType storage h :=
    provides_of_sustains (.declare (upholds_pointerType (global_here h) storage)
    (changes_pointerType _ _))
  arrayType length stride h :=
    provides_of_sustains (.declare (upholds_arrayType (global_here h) length stride)
    (changes_arrayType _ _ _))
  functionType ps hr hps := by
    refine provides_of_sustains (.declare (upholds_typeId (forall_mem_cons.2 ⟨global_here hr, ?_⟩))
      fun _ => reaches_typeId nofun)
    simp only [map_map, forall_mem_map]
    exact fun a ha => global_here (hps a ha)
  constant {_ _ _ v} ht hv := by
    refine provides_of_sustains (.declare (upholds_constant (global_here ht) ?_)
      (changes_constant _ hv))
    cases hvalue : v with
    | composite parts => exact absurd hvalue (hv parts)
    | _ => exact forall_mem_nil _
  composite {g s t p} parts hp hg ht hparts := by
    refine ensues_alone (Regime.later_declare (reaches_constant ?_))
      (ends_of_preserves (g := g) (fun a _ => a) (fun _ => rfl) (fun _ => rfl)
      (.declare (upholds_constant (global_here ht) ?_)) hp.1 hp.2 (knows_alone.1 hg))
    · rintro _ ⟨⟩
      refine R.made (forall_mem_map.2 fun a ha => (hparts a ha).2)
    · exact forall_mem_map.2 fun a ha => global_here (hparts a ha).1
  oneConstant shape ht := provides_of_sustains ⟨preserves_oneConstant (global_here ht) shape,
    Regime.obeys_oneConstant _ _⟩
  mathImport := issues_of_sustains (.declare upholds_mathImport (changes_mathImport R.importing))
  typeId h := by
    obtain ⟨rfl, rfl⟩ := h
    exact provides_of_sustains (Regime.sustains_typeId (hadmits _).types _)
  constantId h := by
    obtain ⟨rfl, rfl⟩ := h
    exact provides_of_sustains ⟨preserves_constantId _ _, (hadmits _).constants _⟩
  overrideId h := provides_of_sustains ⟨preserves_overrideId h, Regime.obeys_overrideId h⟩
  functionId h := issues_of_sustains ⟨preserves_functionId h, Regime.obeys_functionId h⟩
  nameTarget name ha := leads_of_sustains (.declare (upholds_nameTarget (attested_here ha) name)
    (changes_nameTarget _ _))
  newVariable storage hglobals hpointer hds h := alone_newVariable storage hglobals hpointer hds h
  entryPoint {env _ _ p _ _} terms ids _ hp hterms hids := by
    refine ⟨(p ()).globals.toList.map fun place => .global fun _ => place.id, ?_, leads_of_sustains
      (.declare (upholds_pushTo (by simp) rfl ?_) (changes_pushTo _ (by simp) (by simp) (by simp)))⟩
    · exact forall_mem_map.2 fun place hplace =>
        (hp.1.globals place (Array.mem_toList_iff.1 hplace)).1
    · intro u hu
      simp only [entryInstruction, filterMap_append, Operand.filterMap_id?_ids, mem_append] at hu
      rw [map_append]
      rcases hu with hu | hu | hu
      · exact (filterMap_on terms hterms u hu).append _
      · obtain ⟨a, ha, rfl⟩ := mem_map.1 hu
        exact (attested_here (hids a ha)).append _
      · split at hu
        · obtain ⟨place, hplace, rfl⟩ := mem_map.1 hu
          refine .inr (mem_append_left _ ?_)
          simp only [map_map]
          exact mem_map.2 ⟨place, hplace, rfl⟩
        · cases hu
  executionMode mode words _ ha := by
    refine leads_of_sustains (.declare (upholds_pushTo (by simp) rfl ?_) (changes_pushTo _ (by simp)
      (by simp) (by simp)))
    simp only [Emit.executionMode, filterMap_cons, Operand.id?, Operand.filterMap_id?_words]
    exact forall_mem_singleton.2 (attested_here ha)
  openFunction ps _ htype hr hps := alone_openFunction ps htype hr fun q hq => (hps q hq).1
  addVariable {_ _ _ o pointer id} init hpointer _ hinit := by
    refine alone_onDraft [id] (i := .variable (pointer ()) (id ()) .function (init.map (· ())))
      (definitions_result rfl ..) (fun d hd => ⟨d.addVariable _, rfl, ?_, ?_⟩) ?_
    · simp only [Draft.written, Draft.addVariable, Array.toList_push, append_assoc,
        cons_append, nil_append]
      refine Perm.cons _ (Perm.append_left _ (Perm.append_left _ ?_))
      exact (perm_append_singleton _ _).symm.trans (by rw [append_assoc])
    · cases o <;> exact hd
    · rw [uses_variable]
      refine forall_mem_cons.2 ⟨attested_here hpointer, fun u hu => ?_⟩
      obtain ⟨a, ha, rfl⟩ := Option.map_eq_some_iff.1 (Option.mem_toList.1 hu)
      exact attested_here (hinit a ha)
  beginBlock {_ _ _ _ label} ho _ := by
    refine alone_onDraft [label] (i := .label (label ())) rfl (fun d hd => ?_) nofun
    have hblank : d.Is .blank := by
      rcases ho with rfl | rfl
      · exact hd
      · exact hd.1
    obtain ⟨d', hd'⟩ := Draft.exists_beginBlock hblank (label ())
    obtain ⟨hwritten, his⟩ := Draft.written_beginBlock hd'
    exact ⟨d', hd', hwritten ▸ .refl _, his⟩
  push hop hterminator hterms _ := by
    refine alone_push [] hterminator (definitions_of_resultless hop) ?_
    rw [Instruction.uses_of_resultless hop]
    exact filterMap_on _ hterms
  pushResult {_ _ _ _ _ id _} hop htype _ hterms _ := by
    refine alone_push [id] (Opcode.not_isTerminator_of_isTyped hop) (definitions_result hop ..) ?_
    rw [Instruction.uses_result hop]
    exact forall_mem_cons.2 ⟨attested_here htype, filterMap_on _ hterms⟩
  terminate {_ _ _ op terms} hop hterms _ := by
    have hdefined := definitions_of_resultless (i := ⟨op, terms.map (Term.on ())⟩) hop
    refine alone_onDraft [] hdefined (fun d hd => ?_) ?_
    · obtain ⟨d', hd', hwritten, his⟩ := Draft.exists_terminate hd _
      exact ⟨d', hd', hwritten ▸ .refl _, his⟩
    · rw [Instruction.uses_of_resultless hop]
      exact filterMap_on _ hterms
  openLabel := drafting_alone.openLabel
  labelOr cause _ := drafting_alone.labelOr cause
  closeFunction := alone_closeFunction

end

end Shader.Emit
