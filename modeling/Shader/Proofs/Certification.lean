import Shader.Proofs.Availability

/-!
# Operands are available in the code of statements

A construct says for its blocks that all is available at their start that is available at its
header.  That is enough, because behind a construct only the expressions that were in scope before
it are in scope, and their values have not changed.  Branches out of a construct go to blocks of
constructs around it, which need less.
-/

namespace Shader.Assembly.ControlStack

open List

variable {s : ControlStack} {l : Id}

/-- The blocks that can be gone to from inside the constructs. -/
def targets (s : ControlStack) : List Id :=
  s.frames.flatMap fun frame => frame.merge :: frame.continuing.toList

lemma mem_targets_of_breakTarget (h : s.breakTarget = .ok l) : l ∈ s.targets := by
  unfold breakTarget breakable? at h
  split at h
  · cases h
    exact mem_flatMap.2 ⟨_, mem_of_find?_eq_some ‹_›, mem_cons_self⟩
  · cases h

lemma mem_targets_of_loop (h : s.loop?.bind Frame.continuing = some l) : l ∈ s.targets := by
  obtain ⟨frame, hframe, hl⟩ := Option.bind_eq_some_iff.1 h
  exact mem_flatMap.2 ⟨frame, mem_of_find?_eq_some hframe, by simp [hl]⟩

lemma mem_targets_of_continueTarget (h : s.continueTarget = .ok l) : l ∈ s.targets := by
  unfold continueTarget at h
  split at h
  · cases h
    exact mem_targets_of_loop ‹_›
  · cases h

lemma targets_pushSwitch_subset (s : ControlStack) (merge : Id) :
    (s.pushSwitch merge).targets ⊆ merge :: s.targets := by
  intro l hl
  simp only [targets, pushSwitch, flatMap_cons, mem_append, mem_cons] at hl ⊢
  rcases hl with (hl | hl) | hl
  · exact .inl hl
  · exact .inr (mem_targets_of_loop (Option.mem_toList.1 hl))
  · exact .inr hl

end Shader.Assembly.ControlStack

namespace Shader.Emit

open List Assembly
open IR (Expression Statement SwitchCase)

variable {env : FunctionEnv} {inner produced' scope scope' : Handles} {t t' : Situation}
  {h g condition selector : Handle .expression} {default id label l target u : Id}
  {labels : List Id} {rank : Nat} {flow : ControlStack} {p q : Point}
  {live' : Set (Handle .expression)} {s' : Site}

/-! ### Settings -/

/-- The expressions that may be asked for where `scope` is in scope. -/
def FunctionEnv.live (env : FunctionEnv) (scope : Handles) :
    Set (Handle .expression) := {h | env.function.inScope scope h}

lemma hereditary_live (hclosed : env.function.Closed scope) : env.Hereditary (env.live scope) := by
  intro h hh g hg
  by_cases hproduced : env.function.isProduced h
  · exact hclosed.operands h (IR.Function.mem_of_inScope hh hproduced) g hg
  · exfalso
    simp only [IR.Function.isProduced, IR.Function.operandsOf] at hproduced hg
    cases he : env.function.expressions.get? h with
    | none => simp [he] at hg
    | some e => cases e <;> simp_all [Expression.operands, Expression.isReference]

lemma live_mono (h : scope ⊆ scope') : env.live scope ⊆ env.live scope' :=
  fun _ hh => IR.Function.inScope_mono h hh

/-- Control may go to the block from here. -/
def Situation.LeadsTo (t : Situation) (l : Id) : Prop :=
  t.Usable l ∧ ∃ A, t.certificate l = some A ∧ A ⊆ t.available

lemma Situation.LeadsTo.later (h : t.LeadsTo l) (h' : t.Later t') : t'.LeadsTo l := by
  obtain ⟨husable, A, hA, hsub⟩ := h
  exact ⟨husable.later h', A, h'.certificate l A hA, hsub.trans h'.available⟩

/-- A good situation in front of statements: what is in scope has values, and what they will produce
has none, or one that can be used everywhere in the function. -/
structure Setting (env : FunctionEnv) (base : Set Id) (flow : ControlStack)
    (scope produced : Handles) (t : Situation) : Prop where
  ok : t.Ok env base (env.live scope)
  scene : Scene env scope t.site.body.values [] t.site.body.values
  early : ∀ h ∈ produced, ∀ id, t.site.body.values.get? h = some id → Usable t.site.outside base id
  apart : ∀ h ∈ produced, h ∉ scope
  nodup : produced.Nodup
  targets : ∀ l ∈ flow.targets, t.LeadsTo l

/-- The situation is later, and a setting like the first. -/
abbrev Proceeds (env : FunctionEnv) (base : Set Id) (flow : ControlStack) (scope produced : Handles)
    (t t' : Situation) : Prop := t.Later t' ∧ Setting env base flow scope produced t'

namespace Setting

variable {base : Set Id} {produced : Handles}

lemma step (h : Setting env base flow scope produced t) (hok : t'.Ok env base (env.live scope))
    (hlater : t.Later t')
    (huntouched : Untouched env.function t.site.body.values t'.site.body.values) :
    Setting env base flow scope produced t' where
  ok := hok
  scene := (h.scene.untouched huntouched).restart []
  early g hg id hid := by
    by_cases hproduced : env.function.isProduced g
    · rw [huntouched.same g hproduced] at hid
      exact (h.early g hg id hid).mono (subset_refl _) hlater.outside
    · exact hok.references g (Bool.eq_false_iff.2 hproduced) id hid
  apart := h.apart
  nodup := h.nodup
  targets l hl := (h.targets l hl).later hlater

lemma next (h : Setting env base flow scope (produced ++ produced') t)
    (hok : t'.Ok env base (env.live inner)) (hlater : t.Later t')
    (hscene : Scene env inner t.site.body.values produced t'.site.body.values)
    (hinner : inner ⊆ produced ++ scope) : Setting env base flow inner produced' t' where
  ok := hok
  scene := hscene.restart []
  early g hg id hid := by
    by_cases hproduced : env.function.isProduced g
    · have hnot : g ∉ produced := fun hmem => (nodup_append.1 h.nodup).2.2 g hmem g hg rfl
      rw [hscene.spared g hproduced hnot] at hid
      exact (h.early g (mem_append_right _ hg) id hid).mono (subset_refl _) hlater.outside
    · exact hok.references g (Bool.eq_false_iff.2 hproduced) id hid
  apart g hg hmem := by
    rcases mem_append.1 (hinner hmem) with hmem | hmem
    · exact (nodup_append.1 h.nodup).2.2 g hmem g hg rfl
    · exact h.apart g (mem_append_right _ hg) hmem
  nodup := (nodup_append.1 h.nodup).2.1
  targets l hl := (h.targets l hl).later hlater

lemma left (h : Setting env base flow scope (produced ++ produced') t) :
    Setting env base flow scope produced t :=
  ⟨h.ok, h.scene, fun g hg => h.early g (mem_append_left _ hg),
    fun g hg => h.apart g (mem_append_left _ hg), (nodup_append.1 h.nodup).1, h.targets⟩

lemma relive (h : Setting env base flow scope (g :: produced) t) :
    t.Ok env base (env.live (g :: scope)) := by
  refine h.ok.relive fun g' hg' id hid => ?_
  by_cases hproduced : env.function.isProduced g'
  · rcases mem_cons.1 (IR.Function.mem_of_inScope hg' hproduced) with rfl | hmem
    · exact h.ok.usable_of_base (h.early g' mem_cons_self id hid)
    · exact h.ok.values g' (by simp [FunctionEnv.live, IR.Function.inScope, hmem]) id hid
  · exact h.ok.usable_of_base (h.ok.references g' (Bool.eq_false_iff.2 hproduced) id hid)

end Setting

/-! ### Expressions in a setting -/

section

variable {base A' : Set Id} {outer : ControlStack} {produced reads inner' hs : Handles}
    {Γ Γ' : Certificate}
 {A : Set Id} {P Q P' : List Id} {σ σ' σ₁ : Body} {r : Record} {cases : List SwitchCase}
 {i j : Instruction} {breakIf result : Option (Handle .expression)} {fallback : Option Id}

lemma Setting.ready (h : Setting env base flow scope produced ⟨Γ, A, ⟨σ, P, Q⟩⟩)
    (hready : Ready σ r σ') : ∃ Γ', Proceeds env base flow scope produced
      ⟨Γ, A, ⟨σ, P, Q⟩⟩ ⟨Γ', A, ⟨σ', P, Q⟩⟩ := by
  cases hready with
  | already _ => exact ⟨Γ, .refl _, h⟩
  | fresh _ hopen =>
    obtain ⟨hok, hext⟩ := h.ok.issueLabel A
    have hmoves : Moves false ⟨σ.issue, σ.nextId :: P, Q⟩ [⟨.frame, .label σ.nextId⟩] ⟨σ', P, Q⟩ :=
      .one (.open (.refl _) hopen)
    have hissue : Moves false ⟨σ, P, Q⟩ [] ⟨σ.issue, σ.nextId :: P, Q⟩ := .one .issueLabel
    have hok' := hok.open hmoves hopen (Function.update_self ..) hok.grounded hok.values
    have hlater : Situation.Later ⟨Γ, A, ⟨σ, P, Q⟩⟩ ⟨_, A, ⟨σ', P, Q⟩⟩ :=
      ⟨hext, subset_refl _, (hissue.trans hmoves).outside_subset⟩
    exact ⟨_, hlater, h.step hok' hlater (hopen.same.values ▸ .refl _ _)⟩

lemma Setting.evaluate (hset : Setting env base flow scope produced ⟨Γ, A, ⟨σ, P, Q⟩⟩)
    (hreads : Readable env scope [h]) (heval : Evaluated env env.depth h σ r id σ') :
    ∃ Γ' A', Situation.Later ⟨Γ, A, ⟨σ, P, Q⟩⟩ ⟨Γ', A', ⟨σ', P, Q⟩⟩ ∧
      Setting env base flow scope produced ⟨Γ', A', ⟨σ', P, Q⟩⟩ ∧
      Situation.Usable ⟨Γ', A', ⟨σ', P, Q⟩⟩ id := by
  obtain ⟨hin, hlazy⟩ := hreads h mem_cons_self
  obtain ⟨Γ', A', hlater, hok, hid⟩ :=
    grounded_evaluated (hereditary_live hset.scene.closed) base env.depth heval hin hset.ok
  exact ⟨Γ', A', hlater, hset.step hok hlater (hset.scene.settled hin hlazy heval).2,
    hid id mem_cons_self⟩

lemma Setting.straight (hphi : allowed .phi = false)
    (hset : Setting env base flow scope produced ⟨Γ, A, ⟨p.body, P, p.pending ++ Q⟩⟩)
    (hreads : Readable env scope reads)
    (hknown : ∀ u ∈ p.known, Situation.Usable ⟨Γ, A, ⟨p.body, P, p.pending ++ Q⟩⟩ u)
    (hchain : Chain env source allowed reads p r q) :
    ∃ Γ' A', Situation.Later ⟨Γ, A, ⟨p.body, P, p.pending ++ Q⟩⟩
      ⟨Γ', A', ⟨q.body, P, q.pending ++ Q⟩⟩ ∧
      Setting env base flow scope produced ⟨Γ', A', ⟨q.body, P, q.pending ++ Q⟩⟩ ∧
      ∀ u ∈ q.known, Situation.Usable ⟨Γ', A', ⟨q.body, P, q.pending ++ Q⟩⟩ u := by
  have heval := grounded_evaluated (hereditary_live hset.scene.closed) base env.depth
  obtain ⟨Γ', A', hlater, hok, hids⟩ :=
    goes_of_straight hphi heval (fun g hg => (hreads g hg).1) hchain hset.ok hknown
  exact ⟨Γ', A', hlater, hset.step hok hlater (hset.scene.straight hreads hchain).1, hids⟩

lemma Setting.emit (hanalysis : env.deferred = deferred env.function)
    (hset : Setting env base flow scope (h :: produced) ⟨Γ, A, ⟨σ, P, Q⟩⟩)
    (hh : env.function.isComputed h) (hnot : env.deferred.getD h.index false = false)
    (hoperands : ∀ g ∈ env.function.operandsOf h, env.function.inScope scope g)
    (heval : Evaluated env env.depth h σ r id σ') :
    ∃ Γ' A', Situation.Later ⟨Γ, A, ⟨σ, P, Q⟩⟩ ⟨Γ', A', ⟨σ', P, Q⟩⟩ ∧
      Setting env base flow (h :: scope) produced ⟨Γ', A', ⟨σ', P, Q⟩⟩ := by
  have hclosed := hset.scene.closed.cons (IR.Function.isProduced_of_isComputed hh) hoperands
  have hok := hset.relive
  obtain ⟨Γ', A', hlater, hok, -⟩ := grounded_evaluated (hereditary_live hclosed) base
    env.depth heval (by simp [FunctionEnv.live, IR.Function.inScope]) hok
  have hscene := (hset.scene.restart [h]).emit hanalysis hh hnot hoperands mem_cons_self heval
  have hset : Setting env base flow scope ([h] ++ produced) ⟨Γ, A, ⟨σ, P, Q⟩⟩ := hset
  exact ⟨Γ', A', hlater, hset.next hok hlater hscene (Subset.refl _)⟩

lemma Setting.skip (hset : Setting env base flow scope (h :: produced) t) (hlazy : env.isLazy h)
    (hoperands : ∀ g ∈ env.function.operandsOf h, env.function.inScope scope g) :
    Setting env base flow (h :: scope) produced t := by
  have hscene := (hset.scene.restart [h]).skip hlazy hoperands
  have hok := hset.relive
  have hset : Setting env base flow scope ([h] ++ produced) t := hset
  exact hset.next hok (.refl _) hscene (Subset.refl _)

lemma Setting.mention (hset : Setting env base flow scope produced ⟨Γ, A, ⟨σ, P, Q⟩⟩)
    (hh : env.function.isComputed h = false) (heval : Evaluated env env.depth h σ r id σ') :
    ∃ Γ' A', Proceeds env base flow scope produced ⟨Γ, A, ⟨σ, P, Q⟩⟩ ⟨Γ', A', ⟨σ', P, Q⟩⟩ := by
  have huntouched := (untouched_of_not_isComputed hh heval).2
  have hcases : σ' = σ ∨ env.function.isProduced h = false := by
    rcases heval.inv with ⟨-, -, rfl⟩ | ⟨-, _, e, σ₁, he, hcomputed, -⟩
    · exact .inl rfl
    · exact .inr (not_isProduced_of_computed he hh hcomputed).2
  rcases hcases with rfl | hproduced
  · exact ⟨Γ, A, .refl _, hset⟩
  · obtain ⟨Γ', A', hlater, hok, -⟩ :=
      grounded_evaluated (hereditary_live hset.scene.closed) base env.depth heval
        (by simp [FunctionEnv.live, IR.Function.inScope, hproduced]) hset.ok
    exact ⟨Γ', A', hlater, hset.step hok hlater huntouched⟩

/-- An emission keeps situations good, and what it brings into scope can be used. -/
def Emission.Certifies (env : FunctionEnv) (base : Set Id) (flow : ControlStack)
    (scope inner produced : Handles) (emission : Emission) : Prop :=
  ∀ ⦃σ r σ'⦄, emission σ r σ' → ∀ {Γ A P Q}, Setting env base flow scope produced
    ⟨Γ, A, ⟨σ, P, Q⟩⟩ → Situation.Goes env base (env.live inner) ⟨Γ, A, ⟨σ, P, Q⟩⟩ ⟨σ', P, Q⟩ []

lemma certifies_run (hanalysis : env.deferred = deferred env.function)
    (hrun : EmitRun env scope hs σ r σ') (hset : Setting env base flow scope hs ⟨Γ, A, ⟨σ, P, Q⟩⟩) :
    Situation.Goes env base (env.live (hs ++ scope)) ⟨Γ, A, ⟨σ, P, Q⟩⟩ ⟨σ', P, Q⟩ [] := by
  induction hrun generalizing Γ A with
  | done => exact ⟨Γ, A, .refl _, hset.ok, nofun⟩
  | mention hh heval _ ih =>
    obtain ⟨Γ₁, A₁, hlater₁, hset₁⟩ := hset.mention hh heval
    obtain ⟨Γ', A', hlater, hok, hids⟩ := ih hset₁
    exact ⟨Γ', A', hlater₁.trans hlater, hok, hids⟩
  | skip hlazy hoperands _ ih =>
    obtain ⟨Γ', A', hlater, hok, hids⟩ := ih (hset.skip hlazy hoperands)
    exact ⟨Γ', A', hlater,
      hok.relive fun g hg => hok.values g (live_mono perm_middle.symm.subset hg), hids⟩
  | emit hh hnot hoperands _ heval _ ih =>
    obtain ⟨Γ₁, A₁, hlater₁, hset₁⟩ := hset.emit hanalysis hh hnot hoperands heval
    obtain ⟨Γ', A', hlater, hok, hids⟩ := ih hset₁
    exact ⟨Γ', A', hlater₁.trans hlater,
      hok.relive fun g hg => hok.values g (live_mono perm_middle.symm.subset hg), hids⟩

lemma certifies_affects (hreads : Readable env scope reads)
    (hresult : ∀ h ∈ result, env.function.isProduced h) :
    Emission.Certifies env base flow scope (result.toList ++ scope) result.toList
      (Affects env rank reads result) := by
  rintro σ r σ' ⟨hchain, hemits, hchain', hpending, hremembers⟩ Γ A P Q hset
  rename_i p q q' r₁ r₂ r₃
  obtain ⟨Γ₁, A₁, hlater₁, hset₁, hknown₁⟩ := hset.straight rfl hreads (forall_mem_nil _) hchain
  obtain ⟨Γ₂, A₂, hlater₂, hok₂, hknown₂⟩ := goes_of_emits rfl hemits hset₁.ok hknown₁
  have hset₂ := hset₁.step hok₂ hlater₂ (values_of_emits hemits ▸ .refl _ _)
  obtain ⟨Γ₃, A₃, hlater₃, hset₃, hknown₃⟩ :=
    hset₂.straight rfl (fun _ hg => absurd hg not_mem_nil) hknown₂ hchain'
  have hlater := hlater₁.trans (hlater₂.trans hlater₃)
  rw [hpending] at hlater hset₃ hknown₃
  cases result with
  | none =>
    obtain rfl : σ' = q'.body := hremembers
    exact ⟨Γ₃, A₃, hlater, hset₃.ok, nofun⟩
  | some h =>
    obtain ⟨id, hid, rfl⟩ := hremembers
    refine ⟨Γ₃, A₃, ⟨hlater.certificate, hlater.available, hlater.outside⟩, ?_, nofun⟩
    refine Situation.Ok.value (hset₃.relive) (fun g hg u hu => ?_) fun g hg u hu => ?_
    · rcases Valuation.get?_set_eq_some hu with ⟨-, rfl⟩ | hu
      · exact hknown₃ u hid
      · exact hset₃.relive.values g hg u hu
    · rcases Valuation.get?_set_eq_some hu with ⟨rfl, -⟩ | hu
      · rw [hresult g rfl] at hg
        cases hg
      · exact hset₃.ok.references g hg u hu

lemma certifies_branches {target : Except Assembly.Fault Id}
    (htarget : ∀ l, target = .ok l → l ∈ flow.targets) :
    Emission.Certifies env base flow scope scope [] (Branches target) := by
  rintro σ r σ' ⟨hl, hclose⟩ Γ A P Q hset
  have hleads := hset.targets _ (htarget _ hl)
  obtain ⟨hlater, hok⟩ := hset.ok.closeBare rfl hclose
    (forall_mem_singleton.2 hleads.1) (forall_mem_singleton.2 hleads.2)
  exact ⟨Γ, A, hlater, hok, nofun⟩

lemma certifies_returns (hreads : Readable env scope value.toList) :
    Emission.Certifies env base flow scope scope [] fun σ r σ' => Returns env σ value r σ' := by
  intro σ r σ' hreturns Γ A P Q hset
  cases hreturns with
  | nothing hclose =>
    obtain ⟨hlater, hok⟩ := hset.ok.closeBare rfl hclose nofun nofun
    exact ⟨Γ, A, hlater, hok, nofun⟩
  | value _ heval hclose =>
    obtain ⟨Γ₁, A₁, hlater₁, hset₁, hid⟩ := hset.evaluate hreads heval
    obtain ⟨hlater, hok⟩ := hset₁.ok.closeBare rfl hclose (forall_mem_singleton.2 hid) nofun
    exact ⟨Γ₁, A₁, hlater₁.trans hlater, hok, nofun⟩
  | outputs _ heval hchain hpending hclose =>
    obtain ⟨Γ₁, A₁, hlater₁, hset₁, hid⟩ := hset.evaluate hreads heval
    obtain ⟨Γ₂, A₂, hlater₂, hset₂, -⟩ := hset₁.straight rfl
      (fun _ hg => absurd hg not_mem_nil) (forall_mem_singleton.2 hid) hchain
    rw [hpending] at hlater₂ hset₂
    obtain ⟨hlater, hok⟩ := hset₂.ok.closeBare rfl hclose nofun nofun
    exact ⟨Γ₂, A₂, hlater₁.trans (hlater₂.trans hlater), hok, nofun⟩

/-! ### Constructs in a setting -/

lemma Situation.Ok.reset (hok : Situation.Ok env base live ⟨Γ, A, s⟩)
    (hnone : s.body.current? = none) (hbase : base ⊆ A')
    (hlive : ∀ h ∈ live', ∀ id, s.body.values.get? h = some id → Assembly.Usable s.outside A' id) :
    Situation.Ok env base live' ⟨Γ, A', s⟩ where
  sound := hok.sound
  keys := hok.keys
  closed := hok.closed
  current b hb := by
    rw [hnone] at hb
    cases hb
  grounded := hbase
  held := hok.held
  values := hlive
  references := hok.references

/-- Behind a part, the values of what is in scope are those before it, and what was available before
it is said to be available. -/
lemma Setting.leave (h : Setting env base flow scope (produced ++ produced') t)
    (hlater : t.Later ⟨Γ', A', s'⟩) (hok : Situation.Ok env base (env.live inner) ⟨Γ', A', s'⟩)
    (hnone : s'.body.current? = none)
    (hscene : Scene env inner t.site.body.values produced s'.body.values)
    (hsub : scope ⊆ inner) : Proceeds env base flow scope produced' t ⟨Γ', t.available, s'⟩ := by
  have hlater' : t.Later ⟨Γ', t.available, s'⟩ :=
    ⟨hlater.certificate, subset_refl _, hlater.outside⟩
  have hscene' := hscene.restrict h.scene.closed hsub
  have hok' : Situation.Ok env base (env.live scope) ⟨Γ', t.available, s'⟩ := by
    refine hok.reset hnone h.ok.grounded fun g hg id hid => ?_
    by_cases hproduced : env.function.isProduced g
    · have hmem := IR.Function.mem_of_inScope hg hproduced
      have hnot : g ∉ produced := fun h' => h.apart g (mem_append_left _ h') hmem
      rw [hscene.spared g hproduced hnot] at hid
      exact (h.ok.values g hg id hid).mono (subset_refl _) hlater.outside
    · exact (hok.references g (Bool.eq_false_iff.2 hproduced) id hid).mono h.ok.grounded
        (subset_refl _)
  exact ⟨hlater', h.next hok' hlater' hscene' (subset_append_right _ _)⟩

lemma Setting.open (hset : Setting env base flow scope produced ⟨Γ, A, ⟨σ, P', Q⟩⟩)
    (hP : P'.Perm (label :: P)) (hlabel : Γ label = some A) (hopen : σ.Opens label σ') :
    Proceeds env base flow scope produced ⟨Γ, A, ⟨σ, P', Q⟩⟩ ⟨Γ, A, ⟨σ', P, Q⟩⟩ := by
  have hmoves : Moves true ⟨σ, P', Q⟩ [⟨.frame, .label label⟩] ⟨σ', P, Q⟩ := .one (.open hP hopen)
  have hlater : Situation.Later ⟨Γ, A, ⟨σ, P', Q⟩⟩ ⟨Γ, A, ⟨σ', P, Q⟩⟩ :=
    ⟨.refl _, subset_refl _, hmoves.outside_subset⟩
  have hok := hset.ok.open hmoves hopen hlabel hset.ok.grounded hset.ok.values
  exact ⟨hlater, hset.step hok hlater (hopen.same.values ▸ .refl _ _)⟩

lemma current?_of_closesTo (h : ClosesTo target σ r σ') : σ'.current? = none := by
  cases h with
  | ended hlabel => simpa [Body.label?] using hlabel
  | branch hclose =>
    obtain ⟨_, -, hnone, -⟩ := hclose.current
    exact hnone

lemma Setting.part (hset : Setting env base flow scope (produced ++ produced') ⟨Γ, A, ⟨σ, P', Q⟩⟩)
    (hP : P'.Perm (label :: P)) (hlabel : Γ label = some A)
    (htarget : Situation.LeadsTo ⟨Γ, A, ⟨σ, P', Q⟩⟩ target)
    (hcertifies : emission.Certifies env base flow scope inner produced)
    (hstages : ∀ start, emission.Stages env start produced scope inner) (hsub : scope ⊆ inner)
    (hpart : Part label target emission σ r σ') :
    ∃ Γ', Proceeds env base flow scope produced' ⟨Γ, A, ⟨σ, P', Q⟩⟩ ⟨Γ', A, ⟨σ', P, Q⟩⟩ := by
  obtain ⟨hopen, hinner, hcloses⟩ := hpart
  rename_i σ₁ σ₂ r₁ r₂
  obtain ⟨hlater₁, hset₁⟩ := hset.open hP hlabel hopen
  have hscene : Scene env inner σ.values produced σ'.values := by
    rw [values_of_closesTo hcloses, ← hopen.same.values]
    exact hstages _ (hset₁.scene.restart produced) hinner
  obtain ⟨Γ₂, A₂, hlater₂, hok₂, -⟩ := hcertifies hinner hset₁.left
  have hleads₂ := (htarget.later hlater₁).later hlater₂
  have hok₃ : Situation.Later ⟨Γ₂, A₂, ⟨σ₂, P, Q⟩⟩ ⟨Γ₂, A₂, ⟨σ', P, Q⟩⟩ ∧
      Situation.Ok env base (env.live inner) ⟨Γ₂, A₂, ⟨σ', P, Q⟩⟩ := by
    cases hcloses with
    | ended _ => exact ⟨.refl _, hok₂⟩
    | branch hclose =>
      exact hok₂.closeBare rfl hclose (forall_mem_singleton.2 hleads₂.1)
        (forall_mem_singleton.2 hleads₂.2)
  obtain ⟨hlater₃, hok₃⟩ := hok₃
  exact ⟨Γ₂, hset.leave (hlater₁.trans (hlater₂.trans hlater₃)) hok₃
    (current?_of_closesTo hcloses) hscene hsub⟩

lemma Setting.merge {merge : Id}
    (hset : Setting env base flow scope produced ⟨Γ, A, ⟨σ, merge :: P, Q⟩⟩)
    (hmerge : Γ merge = some A) (hopen : (σ.withFlow outer).Opens merge σ') :
    Situation.Later ⟨Γ, A, ⟨σ, merge :: P, Q⟩⟩ ⟨Γ, A, ⟨σ', P, Q⟩⟩ ∧
      Situation.Ok env base (env.live scope) ⟨Γ, A, ⟨σ', P, Q⟩⟩ := by
  have hleave : Moves true ⟨σ, merge :: P, Q⟩ [] ⟨σ.withFlow outer, merge :: P, Q⟩ :=
    .one (.stack outer rfl)
  have hmoves : Moves true ⟨σ.withFlow outer, merge :: P, Q⟩ [⟨.frame, .label merge⟩] ⟨σ', P, Q⟩ :=
    .one (.open (.refl _) hopen)
  have hok := hset.ok.quiet hleave rfl rfl rfl
  exact ⟨⟨.refl _, subset_refl _, (hleave.trans hmoves).outside_subset⟩,
    hok.open hmoves hopen hmerge hok.grounded hok.values⟩

lemma Setting.issue (hset : Setting env base flow scope produced ⟨Γ, A, ⟨σ, P, Q⟩⟩) :
    ∃ Γ', Γ' σ.nextId = some A ∧ Proceeds env base flow scope produced
      ⟨Γ, A, ⟨σ, P, Q⟩⟩ ⟨Γ', A, ⟨σ.issue, σ.nextId :: P, Q⟩⟩ := by
  obtain ⟨hok, hext⟩ := hset.ok.issueLabel A
  have hmoves : Moves false ⟨σ, P, Q⟩ [] ⟨σ.issue, σ.nextId :: P, Q⟩ := .one .issueLabel
  have hlater : Situation.Later ⟨Γ, A, ⟨σ, P, Q⟩⟩ ⟨_, A, ⟨σ.issue, σ.nextId :: P, Q⟩⟩ :=
    ⟨hext, subset_refl _, hmoves.outside_subset⟩
  exact ⟨_, Function.update_self .., hlater, hset.step hok hlater (.refl _ _)⟩

lemma Setting.leadsTo (hset : Setting env base flow scope produced t) (hpending : l ∈ t.site.labels)
    (hl : t.certificate l = some t.available) : t.LeadsTo l :=
  ⟨hset.ok.usable_label l hpending, _, hl, subset_refl _⟩

section

variable (hset : Setting env base flow scope produced ⟨Γ, A, ⟨σ, P, Q⟩⟩)
include hset

lemma Setting.push (hi : Opcode.resultless.contains i.opcode) (hpush : σ.Pushes i σ')
    (huses : ∀ u ∈ i.operands.filterMap Operand.id?, Situation.Usable ⟨Γ, A, ⟨σ, P, Q⟩⟩ u) :
    Proceeds env base flow scope produced ⟨Γ, A, ⟨σ, P, Q⟩⟩ ⟨Γ, A, ⟨σ', P, Q⟩⟩ := by
  obtain ⟨hlater, hok⟩ := hset.ok.pushBare hi hpush huses
  exact ⟨hlater, hset.step hok hlater (hpush.same.values ▸ .refl _ _)⟩

lemma Setting.close (hi : Opcode.resultless.contains i.opcode) (hclose : σ.Closes i σ')
    (huses : ∀ u ∈ i.operands.filterMap Operand.id?, Situation.Usable ⟨Γ, A, ⟨σ, P, Q⟩⟩ u)
    (htargets : ∀ l ∈ i.targets, Situation.LeadsTo ⟨Γ, A, ⟨σ, P, Q⟩⟩ l) :
    Proceeds env base flow scope produced ⟨Γ, A, ⟨σ, P, Q⟩⟩ ⟨Γ, A, ⟨σ', P, Q⟩⟩ := by
  obtain ⟨hlater, hok⟩ := hset.ok.closeBare hi hclose huses fun l hl => (htargets l hl).2
  exact ⟨hlater, hset.step hok hlater (hclose.same.values ▸ .refl _ _)⟩

lemma Setting.enter (inner : ControlStack)
    (htargets : ∀ l ∈ inner.targets, l ∈ flow.targets ∨ Situation.LeadsTo ⟨Γ, A, ⟨σ, P, Q⟩⟩ l) :
    Proceeds env base inner scope produced ⟨Γ, A, ⟨σ, P, Q⟩⟩ ⟨Γ, A, ⟨σ.withFlow inner, P, Q⟩⟩ := by
  have hmoves : Moves true ⟨σ, P, Q⟩ [] ⟨σ.withFlow inner, P, Q⟩ := .one (.stack inner rfl)
  have hlater : Situation.Later ⟨Γ, A, ⟨σ, P, Q⟩⟩ ⟨Γ, A, ⟨σ.withFlow inner, P, Q⟩⟩ :=
    ⟨.refl _, subset_refl _, hmoves.outside_subset⟩
  have hset' := hset.step (hset.ok.quiet hmoves rfl rfl rfl) hlater (.refl _ _)
  refine ⟨hlater, { hset' with targets := fun l hl => ?_ }⟩
  exact (htargets l hl).elim (hset'.targets l) (·.later hlater)

end

/-- A part of a construct, in whatever constructs. -/
structure Emission.Sound (env : FunctionEnv) (base : Set Id)
    (scope inner produced : Handles) (part : ControlStack → Emission) : Prop where
  certifies : ∀ flow, (part flow).Certifies env base flow scope inner produced
  stages : ∀ flow start, (part flow).Stages env start produced scope inner
  subset : scope ⊆ inner
  within : inner ⊆ produced ++ scope

lemma Setting.issues (hissues : Issues as σ labels σ')
    (hset : Setting env base flow scope produced ⟨Γ, A, ⟨σ, P, Q⟩⟩) :
    ∃ Γ', (∀ l ∈ labels, Γ' l = some A) ∧
      Proceeds env base flow scope produced ⟨Γ, A, ⟨σ, P, Q⟩⟩
        ⟨Γ', A, ⟨σ', labels.reverse ++ P, Q⟩⟩ := by
  induction hissues generalizing Γ P with
  | nil => exact ⟨Γ, forall_mem_nil _, .refl _, hset⟩
  | cons _ ih =>
    obtain ⟨Γ₁, hfirst, hlater₁, hset₁⟩ := hset.issue
    obtain ⟨Γ', hrest, hlater, hset'⟩ := ih hset₁
    rw [reverse_cons, append_assoc]
    refine ⟨Γ', forall_mem_cons.2 ⟨hlater.certificate _ _ hfirst, hrest⟩,
      hlater₁.trans hlater, hset'⟩

lemma Setting.header (hset : Setting env base flow scope produced ⟨Γ, A, ⟨σ, P, Q⟩⟩)
    (hi : Opcode.resultless.contains i.opcode) (hj : Opcode.resultless.contains j.opcode)
    (hpush : σ.Pushes i σ₁) (hclose : σ₁.Closes j σ')
    (huses : ∀ u ∈ i.operands.filterMap Operand.id?, u ∈ P)
    (huses' : ∀ u ∈ j.operands.filterMap Operand.id?, Situation.Usable ⟨Γ, A, ⟨σ, P, Q⟩⟩ u ∨ u ∈ P)
    (htargets : ∀ l ∈ j.targets, l ∈ P ∧ Γ l = some A) :
    Proceeds env base flow scope produced ⟨Γ, A, ⟨σ, P, Q⟩⟩ ⟨Γ, A, ⟨σ', P, Q⟩⟩ := by
  obtain ⟨hlater₁, hset₁⟩ := hset.push hi hpush fun u hu => hset.ok.usable_label u (huses u hu)
  obtain ⟨hlater₂, hset₂⟩ := hset₁.close hj hclose
    (fun u hu => (huses' u hu).elim (·.later hlater₁) (hset₁.ok.usable_label u))
    (fun l hl => hset₁.leadsTo (htargets l hl).1 (htargets l hl).2)
  exact ⟨hlater₁.trans hlater₂, hset₂⟩

/-- A selection keeps situations good if its branches do. -/
lemma certifies_selects (hreads : Readable env scope [condition])
    (haccept : Emission.Sound env base scope inner produced accept)
    (hreject : ∀ part ∈ reject, Emission.Sound env base scope inner' produced' part) :
    Emission.Certifies env base flow scope scope (produced ++ produced')
      (Selects env flow condition accept reject) := by
  intro σ r σ' hselects Γ A P Q hset
  cases hselects with
  | @both _ c merge first second r r₁ r₂ _ σ₁ σ₂ σ₃ σ₄ σ₅ _ heval hmerge hfirst hsecond hpush hclose
      hpart hpart' hopen =>
    obtain ⟨Γ₁, A₁, hlater₁, hset₁, hc⟩ := hset.evaluate hreads heval
    have hissues : Issues [(), (), ()] σ₁ [merge, first, second] σ₁.issue.issue.issue := by
      subst hmerge hfirst hsecond
      exact .cons (.cons (.cons .nil))
    obtain ⟨Γ₂, hΓ, hlater₂, hset₂⟩ := hset₁.issues hissues
    change Situation.Later _ ⟨Γ₂, A₁, ⟨_, second :: first :: merge :: P, Q⟩⟩ at hlater₂
    simp only [forall_mem_cons] at hΓ
    obtain ⟨hΓmerge, hΓfirst, hΓsecond, -⟩ := hΓ
    obtain ⟨hlater₃, hset₃⟩ := hset₂.header rfl rfl hpush hclose (by simp)
      (by simp [hc.later hlater₂]) (by simp [hΓfirst, hΓsecond])
    have hmerge₃ := hset₃.leadsTo (by simp) hΓmerge
    obtain ⟨hlater₄, hset₄⟩ := hset₃.enter (flow.pushSelection merge)
      (forall_mem_cons.2 ⟨.inr hmerge₃, fun l hl => .inl hl⟩)
    have hmerge₄ := hmerge₃.later hlater₄
    obtain ⟨Γ₅, hlater₅, hset₅⟩ := hset₄.part (.swap ..) hΓfirst hmerge₄
      (haccept.certifies _) (haccept.stages _) haccept.subset hpart
    rw [← append_nil produced'] at hset₅
    have hreject := hreject _ rfl
    obtain ⟨Γ₆, hlater₆, hset₆⟩ := hset₅.part (.refl _) (hlater₅.certificate _ _ hΓsecond)
      (hmerge₄.later hlater₅) (hreject.certifies _) (hreject.stages _) hreject.subset hpart'
    obtain ⟨hlater₇, hok⟩ := hset₆.merge ((hlater₅.trans hlater₆).certificate _ _ hΓmerge) hopen
    exact ⟨Γ₆, A₁, hlater₁.trans (hlater₂.trans (hlater₃.trans (hlater₄.trans (hlater₅.trans
      (hlater₆.trans hlater₇))))), hok, forall_mem_nil _⟩
  | @one c merge first r r₁ _ σ₁ σ₂ σ₃ σ₄ _ heval hmerge hfirst hpush hclose hpart hopen =>
    obtain ⟨Γ₁, A₁, hlater₁, hset₁, hc⟩ := hset.evaluate hreads heval
    have hissues : Issues [(), ()] σ₁ [merge, first] σ₁.issue.issue := by
      subst hmerge hfirst
      exact .cons (.cons .nil)
    obtain ⟨Γ₂, hΓ, hlater₂, hset₂⟩ := hset₁.issues hissues
    change Situation.Later _ ⟨Γ₂, A₁, ⟨_, first :: merge :: P, Q⟩⟩ at hlater₂
    simp only [forall_mem_cons] at hΓ
    obtain ⟨hΓmerge, hΓfirst, -⟩ := hΓ
    obtain ⟨hlater₃, hset₃⟩ := hset₂.header rfl rfl hpush hclose (by simp)
      (by simp [hc.later hlater₂]) (by simp [hΓfirst, hΓmerge])
    have hmerge₃ := hset₃.leadsTo (by simp) hΓmerge
    obtain ⟨hlater₄, hset₄⟩ := hset₃.enter (flow.pushSelection merge)
      (forall_mem_cons.2 ⟨.inr hmerge₃, fun l hl => .inl hl⟩)
    obtain ⟨Γ₅, hlater₅, hset₅⟩ := hset₄.part (.refl _) hΓfirst (hmerge₃.later hlater₄)
      (haccept.certifies _) (haccept.stages _) haccept.subset hpart
    obtain ⟨hlater₆, hok⟩ := hset₅.merge (hlater₅.certificate _ _ hΓmerge) hopen
    exact ⟨Γ₅, A₁, hlater₁.trans (hlater₂.trans (hlater₃.trans (hlater₄.trans
      (hlater₅.trans hlater₆)))), hok, forall_mem_nil _⟩

lemma current?_of_repeats {merge : Id} (h : Repeats env header merge σ breakIf r σ') :
    σ'.current? = none := by
  cases h with
  | ended hlabel => simpa [Body.label?] using hlabel
  | always hclose | «unless» _ _ hclose =>
    obtain ⟨_, -, hnone, -⟩ := hclose.current
    exact hnone

lemma certifies_repeats {merge : Id} (hreads : Readable env scope breakIf.toList)
    (hset : Setting env base flow scope produced ⟨Γ, A, ⟨σ, P, Q⟩⟩)
    (hheader : Situation.LeadsTo ⟨Γ, A, ⟨σ, P, Q⟩⟩ header)
    (hmerge : Situation.LeadsTo ⟨Γ, A, ⟨σ, P, Q⟩⟩ merge)
    (hrepeats : Repeats env header merge σ breakIf r σ') :
    Situation.Goes env base (env.live scope) ⟨Γ, A, ⟨σ, P, Q⟩⟩ ⟨σ', P, Q⟩ [] := by
  cases hrepeats with
  | ended _ => exact ⟨Γ, A, .refl _, hset.ok, forall_mem_nil _⟩
  | always hclose =>
    obtain ⟨hlater, hset'⟩ := hset.close rfl hclose (forall_mem_singleton.2 hheader.1)
      (forall_mem_singleton.2 hheader)
    exact ⟨Γ, A, hlater, hset'.ok, forall_mem_nil _⟩
  | «unless» _ heval hclose =>
    obtain ⟨Γ₁, A₁, hlater₁, hset₁, hc⟩ := hset.evaluate hreads heval
    have hheader₁ := hheader.later hlater₁
    have hmerge₁ := hmerge.later hlater₁
    obtain ⟨hlater, hset'⟩ := hset₁.close rfl hclose (by simp [hc, hheader₁.1, hmerge₁.1])
      (by simp [hheader₁, hmerge₁])
    exact ⟨Γ₁, A₁, hlater₁.trans hlater, hset'.ok, forall_mem_nil _⟩

/-- A loop keeps situations good if its body and its continuing do. -/
lemma certifies_loops (hbody : Emission.Sound env base scope inner produced body)
    (hcontinuing : Emission.Sound env base scope inner' produced' continuing)
    (hreads : Readable env inner' breakIf.toList) :
    Emission.Certifies env base flow scope scope (produced ++ produced')
      (Loops env flow body continuing breakIf) := by
  rintro σ r σ' ⟨hheader, hfirst, hnext, hmerge, hclose, hopen, hpush, hclose', hpart,
    hopen', hinner, hrepeats, hopen''⟩ Γ A P Q hset
  rename_i header first next merge r₁ r₂ r₃ σ₁ σ₂ σ₃ σ₄ σ₅ σ₆ σ₇ σ₈
  -- the header
  have hissues : Issues [(), (), (), ()] σ [header, first, next, merge]
    σ.issue.issue.issue.issue := by
    subst hheader hfirst hnext hmerge
    exact .cons (.cons (.cons (.cons .nil)))
  obtain ⟨Γ₀, hΓ, hlater₀, hset₀⟩ := hset.issues hissues
  simp only [forall_mem_cons] at hΓ
  obtain ⟨hΓheader, hΓfirst, hΓnext, hΓmerge, -⟩ := hΓ
  have hheader₀ := hset₀.leadsTo (by simp) hΓheader
  obtain ⟨hlater₁, hset₁⟩ := hset₀.close rfl hclose (forall_mem_singleton.2 hheader₀.1)
    (forall_mem_singleton.2 hheader₀)
  obtain ⟨hlater₂, hset₂⟩ :=
    hset₁.open (@perm_middle _ header [merge, next, first] P) hΓheader hopen
  obtain ⟨hlater₄, hset₄⟩ := hset₂.header rfl rfl hpush hclose' (by simp) (by simp)
    (by simp [hΓfirst])
  have hheader₄ := (hheader₀.later hlater₁).later (hlater₂.trans hlater₄)
  -- the body
  have hmerge₄ := hset₄.leadsTo (by simp) hΓmerge
  have hnext₄ := hset₄.leadsTo (by simp) hΓnext
  obtain ⟨hlater₄', hset₄'⟩ := hset₄.enter (flow.pushLoop merge next)
    (forall_mem_cons.2 ⟨.inr hmerge₄, forall_mem_cons.2 ⟨.inr hnext₄, fun l hl => .inl hl⟩⟩)
  obtain ⟨Γ₅, hlater₅, hset₅⟩ := hset₄'.part (@perm_middle _ first [merge, next] P) hΓfirst
    (hnext₄.later hlater₄') (hbody.certifies _) (hbody.stages _) hbody.subset hpart
  -- the part that starts the next round
  obtain ⟨hlater₆, hset₆⟩ := hset₅.open (.swap ..) (hlater₅.certificate _ _ hΓnext) hopen'
  obtain ⟨Γ₇, A₇, hlater₇, hok₇, -⟩ := hcontinuing.certifies _ hinner hset₆
  have hscene₇ := hcontinuing.stages _ _ (hset₆.scene.restart produced') hinner
  rw [← append_nil produced'] at hset₆
  have hset₇ := hset₆.next hok₇ hlater₇ hscene₇ hcontinuing.within
  have hlater₄₇ := hlater₄'.trans (hlater₅.trans (hlater₆.trans hlater₇))
  obtain ⟨Γ₈, A₈, hlater₈, hok₈, -⟩ := certifies_repeats hreads hset₇ (hheader₄.later hlater₄₇)
    (hmerge₄.later hlater₄₇) hrepeats
  obtain ⟨hlater₈', hset₈⟩ := hset₆.leave (hlater₇.trans hlater₈) hok₈
    (current?_of_repeats hrepeats) (hscene₇.repeats hreads hrepeats) hcontinuing.subset
  -- the block behind
  obtain ⟨hlater₉, hok⟩ := hset₈.merge
    (hlater₈'.certificate _ _ (hlater₅.certificate _ _ hΓmerge)) hopen''
  exact ⟨Γ₈, A, hlater₀.trans (hlater₁.trans (hlater₂.trans (hlater₄.trans (hlater₄'.trans
    (hlater₅.trans (hlater₆.trans (hlater₈'.trans hlater₉))))))), hok, forall_mem_nil _⟩

lemma mem_of_mem_caseTargets (h : u ∈ (caseTargets c label).filterMap Operand.id?) : u = label := by
  simp only [caseTargets, filterMap_flatMap, mem_flatMap] at h
  obtain ⟨word, -, hu⟩ := h
  exact mem_singleton.1 hu

lemma mem_of_mem_switchInstruction :
    ∀ l ∈ (switchInstruction value default cases labels).targets, l = default ∨ l ∈ labels := by
  intro l hl
  rcases mem_cons.1 hl with rfl | hl
  · exact .inl rfl
  · simp only [filterMap_flatMap, mem_flatMap] at hl
    obtain ⟨⟨c, label⟩, hzip, hl⟩ := hl
    exact .inr (mem_of_mem_caseTargets hl ▸ (of_mem_zip hzip).2)

lemma mem_of_defaults (h : Defaults cases labels σ default fallback σ') :
    default ∈ labels ∨ fallback = some default := by
  cases h with
  | case hlabel =>
    obtain ⟨⟨c, label⟩, hfind, rfl⟩ := Option.map_eq_some_iff.1 hlabel
    exact .inl (of_mem_zip (mem_of_find?_eq_some hfind)).2
  | block _ => exact .inr rfl

lemma Setting.defaults (hset : Setting env base flow scope produced ⟨Γ, A, ⟨σ, P, Q⟩⟩)
    (h : Defaults cases labels σ default fallback σ') : ∃ Γ', (∀ l ∈ fallback, Γ' l = some A) ∧
      Proceeds env base flow scope produced ⟨Γ, A, ⟨σ, P, Q⟩⟩
        ⟨Γ', A, ⟨σ', fallback.toList ++ P, Q⟩⟩ := by
  cases h with
  | case _ => exact ⟨Γ, nofun, .refl _, hset⟩
  | block _ =>
    obtain ⟨Γ', hΓ, hlater, hset'⟩ := hset.issue
    refine ⟨Γ', fun l hl => ?_, hlater, hset'⟩
    cases hl
    exact hΓ

lemma Setting.fallsBack {merge : Id}
    (hset : Setting env base flow scope produced ⟨Γ, A, ⟨σ, fallback.toList ++ P, Q⟩⟩)
    (hfallback : ∀ l ∈ fallback, Γ l = some A)
    (hmerge : Situation.LeadsTo ⟨Γ, A, ⟨σ, fallback.toList ++ P, Q⟩⟩ merge)
    (h : FallsBack merge σ fallback r σ') :
    Proceeds env base flow scope produced ⟨Γ, A, ⟨σ, fallback.toList ++ P, Q⟩⟩
      ⟨Γ, A, ⟨σ', P, Q⟩⟩ := by
  cases h with
  | none => exact ⟨.refl _, hset⟩
  | @some label σ₁ _ hopen hclose =>
    obtain ⟨hlater₁, hset₁⟩ := hset.open (.refl _) (hfallback label rfl) hopen
    have hmerge₁ := hmerge.later hlater₁
    obtain ⟨hlater₂, hset₂⟩ := hset₁.close rfl hclose (forall_mem_singleton.2 hmerge₁.1)
      (forall_mem_singleton.2 hmerge₁)
    exact ⟨hlater₁.trans hlater₂, hset₂⟩

lemma Setting.reorder (hP : P.Perm P')
    (hset : Setting env base flow scope produced ⟨Γ, A, ⟨σ, P, Q⟩⟩) :
    Proceeds env base flow scope produced ⟨Γ, A, ⟨σ, P, Q⟩⟩ ⟨Γ, A, ⟨σ, P', Q⟩⟩ := by
  have hmoves : Moves false ⟨σ, P, Q⟩ [] ⟨σ, P', Q⟩ := .one (.reorder hP)
  have hlater : Situation.Later ⟨Γ, A, ⟨σ, P, Q⟩⟩ ⟨Γ, A, ⟨σ, P', Q⟩⟩ :=
    ⟨.refl _, subset_refl _, hmoves.outside_subset⟩
  exact ⟨hlater, hset.step (hset.ok.quiet hmoves rfl rfl rfl) hlater (.refl _ _)⟩

/-- The cases of a switch, each with a label that has what is available at its header. -/
def Emission.CertifiesCases (env : FunctionEnv) (base : Set Id) (scope produced : Handles)
    (labels : List Id) (parts : ControlStack → Id → Emission) : Prop :=
  ∀ {flow merge σ r σ' Γ A P Q produced'}, parts flow merge σ r σ' →
    Setting env base flow scope (produced ++ produced') ⟨Γ, A, ⟨σ, labels ++ P, Q⟩⟩ →
    (∀ l ∈ labels, Γ l = some A) → Situation.LeadsTo ⟨Γ, A, ⟨σ, labels ++ P, Q⟩⟩ merge →
    ∃ Γ', Proceeds env base flow scope produced' ⟨Γ, A, ⟨σ, labels ++ P, Q⟩⟩ ⟨Γ', A, ⟨σ', P, Q⟩⟩

/-- A switch keeps situations good if its cases do. -/
lemma certifies_switches (hreads : Readable env scope [selector])
    (hparts : ∀ labels, labels.length = cases.length →
      Emission.CertifiesCases env base scope produced labels fun flow merge => parts flow
      merge labels) :
    Emission.Certifies env base flow scope scope produced
      (Switches env flow selector cases parts) := by
  rintro σ r σ' ⟨hchain, hvalue, hmerge, hissues, hdefaults, hpush, hclose, hinner, hfallsBack,
    hopen⟩ Γ A P Q hset
  rename_i value merge default labels known fallback r₁ r₂ r₃ σ₁ σ₂ σ₃ σ₄ σ₅ σ₆ σ₇
  obtain ⟨Γ₁, A₁, hlater₁, hset₁, hknown⟩ := hset.straight rfl hreads (forall_mem_nil _) hchain
  have hvalue := hknown value hvalue
  -- the labels
  obtain ⟨Γ₂, hΓmerge, hlater₂, hset₂⟩ := hset₁.issue
  rw [← hmerge] at hΓmerge hlater₂ hset₂
  obtain ⟨Γ₃, hΓlabels, hlater₃, hset₃⟩ := hset₂.issues hissues
  obtain ⟨Γ₄, hΓfallback, hlater₄, hset₄⟩ := hset₃.defaults hdefaults
  replace hΓlabels : ∀ l ∈ labels, Γ₄ l = some A₁ :=
    fun l hl => hlater₄.certificate _ _ (hΓlabels l hl)
  replace hΓmerge : Γ₄ merge = some A₁ := (hlater₃.trans hlater₄).certificate _ _ hΓmerge
  have hperm : (fallback.toList ++ (labels.reverse ++ merge :: P)).Perm
      (labels ++ (fallback.toList ++ merge :: P)) := by
    refine ((reverse_perm labels).append_right _).append_left _ |>.trans ?_
    simp only [← append_assoc]
    exact perm_append_comm.append_right _
  obtain ⟨hlater₅, hset₅⟩ := hset₄.reorder hperm
  have hvalue₅ := ((hvalue.later hlater₂).later hlater₃).later (hlater₄.trans hlater₅)
  -- the header
  have htargets : ∀ l ∈ (switchInstruction value default cases labels).targets,
      l ∈ labels ++ (fallback.toList ++ merge :: P) ∧ Γ₄ l = some A₁ := by
    have hlabels : ∀ l ∈ labels, l ∈ labels ++ (fallback.toList ++ merge :: P) ∧ Γ₄ l = some A₁ :=
      fun l hl => ⟨mem_append_left _ hl, hΓlabels l hl⟩
    intro l hl
    rcases mem_of_mem_switchInstruction l hl with rfl | hl
    · rcases mem_of_defaults hdefaults with hl | hl
      · exact hlabels l hl
      · exact ⟨by simp [hl], hΓfallback l hl⟩
    · exact hlabels l hl
  obtain ⟨hlater₆, hset₆⟩ := hset₅.header rfl rfl hpush hclose (by simp)
    (forall_mem_cons.2 ⟨.inl hvalue₅, fun u hu => .inr (htargets u hu).1⟩) htargets
  -- the cases
  have hmerge₆ := hset₆.leadsTo (by simp) hΓmerge
  obtain ⟨hlater₇, hset₇⟩ := hset₆.enter (flow.pushSwitch merge) fun l hl =>
    (mem_cons.1 (flow.targets_pushSwitch_subset merge hl)).elim (fun h => .inr (h ▸ hmerge₆)) .inl
  rw [← append_nil produced] at hset₇
  obtain ⟨Γ₈, hlater₈, hset₈⟩ := hparts labels (Emission.Moving.length_of_issues hissues) hinner
    hset₇ hΓlabels (hmerge₆.later hlater₇)
  -- the block without a case, and the block behind
  obtain ⟨hlater₉, hset₉⟩ := hset₈.fallsBack
    (fun l hl => hlater₈.certificate _ _ (hΓfallback l hl)) ((hmerge₆.later hlater₇).later hlater₈)
    hfallsBack
  obtain ⟨hlater₁₀, hok⟩ := hset₉.merge (hlater₈.certificate _ _ hΓmerge) hopen
  exact ⟨Γ₈, A₁, hlater₁.trans (hlater₂.trans (hlater₃.trans (hlater₄.trans (hlater₅.trans
    (hlater₆.trans (hlater₇.trans (hlater₈.trans (hlater₉.trans hlater₁₀)))))))), hok,
    forall_mem_nil _⟩

end

/-! ### All statements -/

lemma body_sound (hanalysis : env.deferred = deferred env.function) (base : Set Id)
    (hs : IR.bodyScoped env.function scope body) (hreads : Undeferred env (IR.bodyReads body))
    (hcertifies : ∀ flow, Emission.Certifies env base flow scope
      (IR.bodyIntroduces env.function body ++ scope) (IR.bodyProduces env.function body)
      (StatedAll env flow rank body)) :
    Emission.Sound env base scope (IR.bodyIntroduces env.function body ++ scope)
      (IR.bodyProduces env.function body) fun flow => StatedAll env flow rank body where
  certifies := hcertifies
  stages _ start := stages_statedAll hanalysis start _ body hs hreads (Subset.refl _)
  subset := subset_append_right _ _
  within := append_subset.2 ⟨fun _ hh => mem_append_left _
      (IR.mem_bodyProduces_of_mem_bodyIntroduces hh), subset_append_right _ _⟩

mutual

/-- A statement keeps situations good: one case per statement. -/
lemma certifies_stated (hanalysis : env.deferred = deferred env.function) (base : Set Id)
      (s : Statement) : ∀ {flow rank scope}, s.isScoped env.function scope →
      Undeferred env s.reads → Emission.Certifies env base flow scope
        (s.introduces env.function ++ scope) (s.produces env.function)
          (Stated env flow rank s) := by
  intro flow rank scope hs hreads σ r σ' hstated Γ A P Q hset
  have hresult : ∀ h ∈ s.result?, env.function.isProduced h :=
    fun h hh => (IR.isResult_of_isScoped hs hh).isProduced
  unfold Stated at hstated
  obtain ⟨hready, hstated⟩ := hstated
  obtain ⟨Γ₁, hlater₁, hset⟩ := hset.ready hready
  suffices hgoes : Situation.Goes env base (env.live (s.introduces env.function ++ scope))
      ⟨Γ₁, A, ⟨_, P, Q⟩⟩ ⟨σ', P, Q⟩ [] by
    obtain ⟨Γ', A', hlater, hok, hids⟩ := hgoes
    exact ⟨Γ', A', hlater₁.trans hlater, hok, hids⟩
  match s with
  | .emit range => exact certifies_run hanalysis (emitRun_of_emitted _ hs hstated) hset
  | .block body =>
    obtain ⟨Γ', A', hlater, hok, hids⟩ := certifies_statedAll hanalysis base body hs
      hreads hstated hset
    exact ⟨Γ', A', hlater, hok.relive fun g hg => hok.values g
      (live_mono (subset_append_right _ _) hg), hids⟩
  | .store pointer value =>
    simp only [Statement.isScoped, Bool.and_eq_true] at hs
    exact certifies_affects (hreads.readable (by simpa [Statement.reads] using hs))
      hresult hstated hset
  | .ifElse condition accept reject =>
    simp only [Statement.isScoped, Bool.and_eq_true] at hs
    obtain ⟨hcondition, hparts⟩ := Undeferred.append (l := [condition]) hreads
    refine certifies_selects (hcondition.readable (by simpa using hs.1.1))
      (body_sound hanalysis base hs.1.2 hparts.append.1 fun flow =>
        certifies_statedAll hanalysis base accept hs.1.2 hparts.append.1)
      (fun part hpart => ?_ : ∀ part ∈ _, Emission.Sound env base scope
        (IR.bodyIntroduces env.function reject ++ scope) _ part) hstated hset
    split at hpart
    · cases hpart
    · cases hpart
      exact body_sound hanalysis base hs.2 hparts.append.2 fun flow =>
        certifies_statedAll hanalysis base reject hs.2 hparts.append.2
  | .switch selector cases =>
    simp only [Statement.isScoped, Bool.and_eq_true] at hs
    obtain ⟨hselector, hcases⟩ := Undeferred.append (l := [selector]) hreads
    exact certifies_switches (hselector.readable (by simpa using hs.1))
      (fun labels hlength => certifies_statedCases hanalysis base cases hs.2 hcases hlength)
      hstated hset
  | .loop body continuing breakIf =>
    simp only [Statement.isScoped, Bool.and_eq_true] at hs
    simp only [Statement.reads] at hreads
    obtain ⟨hparts, hbreakIf⟩ := hreads.append
    refine certifies_loops (body_sound hanalysis base hs.1.1 hparts.append.1 fun flow =>
        certifies_statedAll hanalysis base body hs.1.1 hparts.append.1)
      (body_sound hanalysis base hs.1.2 hparts.append.2 fun flow =>
        certifies_statedAll hanalysis base continuing hs.1.2 hparts.append.2)
      (hbreakIf.readable ?_) hstated hset
    cases breakIf <;> simp_all
  | .call _ _ result | .atomic _ _ _ result =>
    simp only [Statement.isScoped, Bool.and_eq_true, all_eq_true] at hs
    exact certifies_affects (hreads.readable hs.1) hresult hstated hset
  | .break =>
    exact certifies_branches (fun _ => ControlStack.mem_targets_of_breakTarget) hstated hset
  | .continue =>
    exact certifies_branches (fun _ => ControlStack.mem_targets_of_continueTarget) hstated hset
  | .return value =>
    refine certifies_returns (hreads.readable fun h hh => ?_) hstated hset
    obtain rfl : value = some h := Option.mem_toList.1 hh
    exact hs
  | .kill =>
    obtain ⟨hclose, -⟩ := hstated
    obtain ⟨hlater, hok⟩ := hset.close rfl hclose nofun nofun
    exact ⟨Γ₁, A, hlater, hok.ok, forall_mem_nil _⟩
  | .barrier b =>
    dsimp only at hstated
    split at hstated
    · obtain ⟨-, rfl⟩ := hstated
      exact ⟨Γ₁, A, .refl _, hset.ok, forall_mem_nil _⟩
    · exact certifies_affects (fun _ hg => absurd hg not_mem_nil) hresult hstated hset

lemma certifies_statedAll (hanalysis : env.deferred = deferred env.function) (base : Set Id)
      (body : List Statement) : ∀ {flow rank scope},
      IR.bodyScoped env.function scope body → Undeferred env (IR.bodyReads body) →
      Emission.Certifies env base flow scope (IR.bodyIntroduces env.function body ++ scope)
        (IR.bodyProduces env.function body) (StatedAll env flow rank body) := by
  intro flow rank scope hs hreads σ r σ' hstated Γ A P Q hset
  match body with
  | [] =>
    obtain ⟨-, rfl⟩ := hstated
    exact ⟨Γ, A, .refl _, hset.ok, forall_mem_nil _⟩
  | s :: rest =>
    simp only [IR.bodyScoped, Bool.and_eq_true] at hs
    simp only [IR.bodyReads] at hreads
    simp only [IR.bodyProduces] at hset
    obtain ⟨hfirst, hrest⟩ := hstated
    obtain ⟨Γ₁, A₁, hlater₁, hok₁, -⟩ := certifies_stated hanalysis base s hs.1 hreads.append.1
      hfirst hset.left
    have hscene₁ := stages_stated hanalysis _ _ s hs.1 hreads.append.1 (Subset.refl _)
      (hset.scene.restart _) hfirst
    have hset₁ := hset.next hok₁ hlater₁ hscene₁ (append_subset.2
      ⟨fun _ hh => mem_append_left _ (IR.mem_produces_of_mem_introduces hh),
      subset_append_right _ _⟩)
    obtain ⟨Γ', A', hlater, hok, hids⟩ := certifies_statedAll hanalysis base rest hs.2
      hreads.append.2 hrest hset₁
    refine ⟨Γ', A', hlater₁.trans hlater, hok.relive fun g hg => hok.values g ?_, hids⟩
    refine live_mono (fun h hh => ?_) hg
    simp only [IR.bodyIntroduces, flatMap_cons, mem_append] at hh ⊢
    tauto

lemma certifies_statedCases (hanalysis : env.deferred = deferred env.function) (base : Set Id)
      (cases : List SwitchCase) : ∀ {rank scope labels},
      IR.casesScoped env.function scope cases → Undeferred env (IR.casesReads cases) →
      labels.length = cases.length → Emission.CertifiesCases env base scope
        (IR.casesProduces env.function cases) labels fun flow merge =>
          StatedCases env flow rank merge cases labels := by
  intro rank scope labels hs hreads hlength flow merge σ r σ' Γ A P Q produced' hstated hset
    hlabels hmerge
  match cases, labels, hstated with
  | [], [], hstated =>
    obtain ⟨-, rfl⟩ := hstated
    exact ⟨Γ, .refl _, hset⟩
  | c :: rest, label :: labels, hstated =>
    simp only [IR.casesScoped, Bool.and_eq_true] at hs
    simp only [IR.casesReads] at hreads
    simp only [IR.casesProduces, append_assoc] at hset
    obtain ⟨hpart, hrest⟩ := hstated
    obtain ⟨Γ₁, hlater₁, hset₁⟩ := hset.part (.refl _) (hlabels label mem_cons_self) hmerge
      (certifies_statedCase hanalysis base c hs.1 hreads.append.1)
      (fun start => stages_statedCase hanalysis start _ c hs.1 hreads.append.1 (Subset.refl _))
      (subset_append_right _ _) hpart
    obtain ⟨Γ', hlater, hset'⟩ := certifies_statedCases hanalysis base rest hs.2 hreads.append.2
      (Nat.succ.inj hlength) hrest hset₁
      (fun l hl => hlater₁.certificate _ _ (hlabels l (mem_cons_of_mem _ hl)))
      (hmerge.later hlater₁)
    exact ⟨Γ', hlater₁.trans hlater, hset'⟩

lemma certifies_statedCase (hanalysis : env.deferred = deferred env.function) (base : Set Id)
      (c : SwitchCase) : ∀ {flow rank scope}, IR.caseScoped env.function scope c →
      Undeferred env (IR.caseReads c) → Emission.Certifies env base flow scope
        (IR.bodyIntroduces env.function c.body ++ scope) (IR.caseProduces env.function c)
        (StatedCase env flow rank c) := by
  intro flow rank scope hs hreads
  match c with
  | ⟨_, body⟩ => exact certifies_statedAll hanalysis base body hs hreads

end

end Shader.Emit
