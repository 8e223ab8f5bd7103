import Shader.Proofs.Certification
import Shader.Proofs.Module

/-!
# Operands are available in emitted modules

What leads the first block of a function is available everywhere in the function: pointers to the
contents of global variables, and in an entry point the arguments.  The local variables are put in
front of it; they are made of what is declared elsewhere.  With that, a function that is well scoped
becomes one in which every operand is available where it is used.
-/

namespace Shader.Emit

open List Assembly
open IR (LocalVariable)

variable {r : Record} {env : FunctionEnv} {σ σ' : Body} {inputs : List EntryArgument} {A base :
    Set Id} {Γ : Certificate} {P Q ids known known' : List Id} {restack : Bool} {s s' : Site}

/-! ### Variables -/

/-- The variables that lead the first block: their ids are not used for anything else, and what they
are made of is outside of the function. -/
structure Led (s : Site) : Prop where
  nodup : (definitions s.body.lead).Nodup
  apart : ∀ u ∈ definitions s.body.lead, u.number < s.body.bound ∧ u ∉ s.taken ∧
    ¬ s.body.progress.Declared u
  uses : ∀ i ∈ s.body.lead, i.phiPairs = [] ∧ ∀ u ∈ i.usesHere, Outside s u ∧
    u ∉ definitions s.body.lead

lemma Moves.not_mem_taken (h : Moves restack s r s') (hissued : u.number < s.body.bound)
    (hu : u ∉ s.taken) : u ∉ s'.taken := by
  induction h with
  | nil => exact hu
  | cons hmove _ ih =>
    refine ih (Nat.lt_of_lt_of_le hissued hmove.keeps.bound) fun hmem => ?_
    rcases hmove.taken with hperm | ⟨hperm, -⟩
    · exact hu (hperm.mem_iff.1 hmem)
    · rcases mem_cons.1 (hperm.mem_iff.1 hmem) with rfl | hmem
      · exact Nat.lt_irrefl _ hissued
      · exact hu hmem

namespace Led

lemma moves (hled : Led s) (h : Moves restack s r s') : Led s' where
  nodup := h.lead ▸ hled.nodup
  apart u hu := by
    rw [h.lead] at hu
    obtain ⟨hissued, htaken, hdeclared⟩ := hled.apart u hu
    refine ⟨Nat.lt_of_lt_of_le hissued h.keeps.bound, h.not_mem_taken hissued htaken, fun hu => ?_⟩
    rcases h.keeps.declared u hu with hu | hu
    · exact hdeclared hu
    · exact Nat.lt_irrefl _ (Nat.lt_of_lt_of_le hissued hu)
  uses i hi := by
    rw [h.lead] at hi ⊢
    obtain ⟨hphi, huses⟩ := hled.uses i hi
    exact ⟨hphi, fun u hu => ⟨h.outside (huses u hu).1, (huses u hu).2⟩⟩

lemma same (hled : Led ⟨σ, P, Q⟩) (h : σ.SameCode σ') (hlead : σ'.lead = σ.lead) :
    Led ⟨σ', P, Q⟩ where
  nodup := by simpa only [hlead] using hled.nodup
  apart := by simpa only [hlead, Site.taken, h.bound, h.code, h.declared] using hled.apart
  uses := by simpa only [hlead, Outside, h.bound, h.code] using hled.uses

lemma leads (hled : Led ⟨σ, P, Q⟩) (hsound : Sound ⟨σ, P, Q⟩) (h : σ.issue.Leads i σ')
    (hi : definitions [i] = [σ.nextId]) (hphi : i.phiPairs = [])
    (huses : ∀ u ∈ i.usesHere, Outside ⟨σ, P, Q⟩ u ∧ u ∉ definitions σ.lead) : Led ⟨σ', P, Q⟩ := by
  have hmove : Moves false ⟨σ, P, Q⟩ [] ⟨σ.issue, P, Q⟩ := .one (.extend (Body.extends_issue σ))
  have hissued := hled.moves hmove
  have hlead : definitions σ'.lead = definitions σ.lead ++ [σ.nextId] := by
    rw [h.lead, definitions_append, hi]
    rfl
  have hnew : ∀ u, u.number < σ.bound → u ≠ σ.nextId := by
    rintro u hu rfl
    exact Nat.lt_irrefl _ hu
  have hbound : σ'.bound = σ.bound + 1 := h.same.bound
  have hcode : σ'.code = σ.code := h.same.code
  have houtside : ∀ u, Outside ⟨σ, P, Q⟩ u → Outside ⟨σ', P, Q⟩ u := by
    rintro u ⟨hu, hnot, hpending⟩
    refine ⟨?_, by simpa only [hcode] using hnot, hpending⟩
    simpa only [hbound] using Nat.lt_succ_of_lt hu
  refine ⟨?_, fun u hu => ?_, fun j hj => ?_⟩
  · rw [hlead]
    refine nodup_append.2 ⟨hled.nodup, nodup_singleton _, fun u hu v hv => ?_⟩
    rw [mem_singleton.1 hv]
    exact hnew u (hled.apart u hu).1
  · simp only [hlead, mem_append, mem_singleton] at hu
    simp only [Site.taken, hbound, hcode, h.same.declared]
    rcases hu with hu | rfl
    · obtain ⟨hlt, htaken, hdeclared⟩ := hissued.apart u hu
      exact ⟨hlt, htaken, hdeclared⟩
    · refine ⟨Nat.lt_succ_self _, fun hmem => ?_, fun hdeclared => ?_⟩
      · exact Nat.lt_irrefl _ (hsound.issued _ hmem)
      · exact Nat.lt_irrefl _ (hsound.declared _ hdeclared).1
  · simp only [h.lead, mem_append, mem_singleton] at hj
    simp only [hlead, mem_append, mem_singleton, not_or]
    rcases hj with hj | rfl
    · obtain ⟨hphi, huses⟩ := hled.uses j hj
      exact ⟨hphi, fun u hu => ⟨houtside u (huses u hu).1, (huses u hu).2, hnew u (huses u hu).1.1⟩⟩
    · exact ⟨hphi, fun u hu => ⟨houtside u (huses u hu).1, (huses u hu).2, hnew u (huses u hu).1.1⟩⟩

end Led

/-! ### The first block -/

namespace Situation.Ok

variable {t : Situation}

/-- As long as every expression may be asked for, all that is available counts as available
everywhere. -/
lemma rebase (hok : t.Ok env base Set.univ) : t.Ok env t.available Set.univ :=
  { hok with
    grounded := subset_refl _
    held := fun id hid => (hok.held id hid).mono hok.grounded (subset_refl _)
    references := fun h _ id hid => hok.values h (Set.mem_univ h) id hid }

lemma hold (hok : Ok env A Set.univ ⟨Γ, A, ⟨σ, P, Q⟩⟩) (h : σ.SameCode σ')
    (hheld : ∀ id, σ'.Held id → σ.Held id ∨ Situation.Usable ⟨Γ, A, ⟨σ, P, Q⟩⟩ id) :
    Ok env A Set.univ ⟨Γ, A, ⟨σ', P, Q⟩⟩ := by
  have houtside : Site.outside ⟨σ', P, Q⟩ = Site.outside ⟨σ, P, Q⟩ := by
    ext u
    exact outside_same h
  have hbound := h.bound
  have hclosed := h.closed
  have hcurrent := h.current?
  have hvalues := h.values
  refine ⟨hok.sound.same h, ?_, ?_, ?_, hok.grounded, fun id hid => ?_, ?_, ?_⟩
  · simpa only [hbound] using hok.keys
  · simpa only [hclosed, houtside] using hok.closed
  · simpa only [hclosed, houtside, hcurrent] using hok.current
  · simp only [houtside]
    rcases hid with hid | hid
    · rcases hheld id hid with hid | hid
      · exact hok.held id (.inl hid)
      · exact hid
    · exact hok.held id (.inr hid)
  · simpa only [hvalues, Situation.Usable, houtside] using hok.values
  · simpa only [hvalues, houtside] using hok.references

end Situation.Ok

lemma ok_of_fresh (hfresh : Fresh env σ) :
    Situation.Ok env ∅ Set.univ ⟨fun _ => none, ∅, ⟨σ, [], []⟩⟩ := by
  have hvalues : ∀ h id, σ.values.get? h ≠ some id := by
    intro h id hid
    rw [hfresh.values] at hid
    cases (Slots.get?_empty _ h).symm.trans hid
  refine ⟨hfresh.sound, nofun, fun b hb => ?_, fun b hb => ?_, subset_refl _,
    fun id hid => ?_, ?_, ?_⟩
  · rw [hfresh.closed] at hb
    cases hb
  · rw [hfresh.current] at hb
    cases hb
  · exact .inr ⟨hfresh.issued id (.inr hid), by simp [hfresh.code], not_mem_nil⟩
  · exact fun h _ id hid => absurd hid (hvalues h id)
  · exact fun h _ id hid => absurd hid (hvalues h id)

lemma led_of_fresh (hfresh : Fresh env σ) : Led ⟨σ, [], []⟩ := by
  refine ⟨?_, fun u hu => ?_, fun i hi => ?_⟩
  · simp [hfresh.lead]
  · simp [hfresh.lead] at hu
  · simp [hfresh.lead] at hi

/-- A good situation in the first block, as long as it is led in. -/
structure Opening (env : FunctionEnv) (first : Id) (t : Situation) : Prop where
  ok : t.Ok env t.available Set.univ
  first : t.certificate first = some ∅
  led : Led t.site
  size : t.site.body.values.size = env.function.expressions.size

namespace Opening

variable {first : Id}

lemma of_fresh (hfresh : Fresh env σ) (hopen : σ.issue.Opens σ.nextId σ') :
    ∃ Γ, Opening env σ.nextId ⟨Γ, ∅, ⟨σ', [], []⟩⟩ := by
  obtain ⟨hok, -⟩ := (ok_of_fresh hfresh).issueLabel ∅
  have hmoves : Moves false ⟨σ.issue, [σ.nextId], []⟩ [⟨.frame, .label σ.nextId⟩] ⟨σ', [], []⟩ :=
    .one (.open (.refl _) hopen)
  have hfirst : Function.update (fun _ => none : Certificate) σ.nextId (some ∅) σ.nextId = some ∅ :=
    Function.update_self ..
  have hok' := hok.open hmoves hopen hfirst (subset_refl _) hok.values
  refine ⟨_, hok', hfirst, ?_, ?_⟩
  · have hissue : Moves false ⟨σ, [], []⟩ [] ⟨σ.issue, [σ.nextId], []⟩ := .one .issueLabel
    exact (led_of_fresh hfresh).moves (hissue.trans hmoves)
  · simp only [hopen.same.values, Body.values_issue, hfresh.values]
    simp [Valuation.size, Slots.empty]

section

variable (h : Opening env first ⟨Γ, A, ⟨σ, [], []⟩⟩)
include h

lemma goes (hgoes : Situation.Goes env A Set.univ ⟨Γ, A, ⟨σ, [], []⟩⟩ ⟨σ', [], []⟩ ids)
    (hmoves : Moves restack ⟨σ, [], []⟩ r ⟨σ', [], []⟩)
    (hgrows : ∃ new, σ.values.Grows σ'.values new) :
    ∃ Γ' A', Situation.Later ⟨Γ, A, ⟨σ, [], []⟩⟩ ⟨Γ', A', ⟨σ', [], []⟩⟩ ∧
      Opening env first ⟨Γ', A', ⟨σ', [], []⟩⟩ ∧
      ∀ id ∈ ids, Situation.Usable ⟨Γ', A', ⟨σ', [], []⟩⟩ id := by
  obtain ⟨Γ', A', hlater, hok, hids⟩ := hgoes
  obtain ⟨new, hgrows⟩ := hgrows
  exact ⟨Γ', A', hlater, ⟨hok.rebase, hlater.certificate _ _ h.first, h.led.moves hmoves,
    hgrows.size.trans h.size⟩, hids⟩

lemma extend (hext : σ.Extends σ') : Opening env first ⟨Γ, A, ⟨σ', [], []⟩⟩ := by
  have hmoves : Moves false ⟨σ, [], []⟩ [] ⟨σ', [], []⟩ := .one (.extend hext)
  refine ⟨h.ok.quiet hmoves hext.closed hext.current? hext.values, h.first,
    h.led.moves hmoves, ?_⟩
  simpa only [hext.values] using h.size

lemma hold (hsame : σ.SameCode σ') (hlead : σ'.lead = σ.lead)
    (hheld : ∀ id, σ'.Held id → σ.Held id ∨ Situation.Usable ⟨Γ, A, ⟨σ, [], []⟩⟩ id) :
    Opening env first ⟨Γ, A, ⟨σ', [], []⟩⟩ := by
  refine ⟨h.ok.hold hsame hheld, h.first, h.led.same hsame hlead, ?_⟩
  simpa only [hsame.values] using h.size

end

lemma grounded_univ (env : FunctionEnv) (base : Set Id) :
    (Evaluated env env.depth).Grounded env base Set.univ :=
  grounded_evaluated (fun _ _ g _ => Set.mem_univ g) base env.depth

section

variable (h : Opening env first ⟨Γ, A, ⟨σ, [], []⟩⟩)
include h

lemma straight (hphi : allowed .phi = false)
    (hknown : ∀ u ∈ known, Situation.Usable ⟨Γ, A, ⟨σ, [], []⟩⟩ u)
    (hchain : Chain env source allowed [] ⟨σ, known, []⟩ r
      ⟨σ', known', []⟩) : ∃ Γ' A', Situation.Later ⟨Γ, A, ⟨σ, [], []⟩⟩ ⟨Γ', A', ⟨σ', [], []⟩⟩ ∧
      Opening env first ⟨Γ', A', ⟨σ', [], []⟩⟩ ∧
      ∀ id ∈ known', Situation.Usable ⟨Γ', A', ⟨σ', [], []⟩⟩ id := by
  exact h.goes (goes_of_straight hphi (grounded_univ env A) (forall_mem_nil _) hchain h.ok hknown)
    (moves_of_straight (moving_evaluated env env.depth) hchain [] [])
    (grows_of_straight (growing_evaluated env env.depth) hchain)

lemma initializes {id : Option Id} (hinit : Initializes env σ init r id σ') :
    ∃ Γ' A', Situation.Later ⟨Γ, A, ⟨σ, [], []⟩⟩ ⟨Γ', A', ⟨σ', [], []⟩⟩ ∧
      Opening env first ⟨Γ', A', ⟨σ', [], []⟩⟩ ∧ σ'.lead = σ.lead ∧
      ∀ u ∈ id, σ'.progress.Declared u := by
  cases hinit with
  | none => exact ⟨Γ, A, .refl _, h, rfl, nofun⟩
  | @some g r id σ' heval hdeclared =>
    have hmoves := moving_evaluated env env.depth heval [] []
    obtain ⟨Γ', A', hlater, hopening, -⟩ := h.goes (grounded_univ env A heval (Set.mem_univ g) h.ok)
      hmoves (growing_evaluated env env.depth heval)
    refine ⟨Γ', A', hlater, hopening, hmoves.lead, fun u hu => ?_⟩
    cases hu
    exact hdeclared

/-- Declaring a local variable leaves a good situation in the first block. -/
lemma declares (hdeclares : Declares env v σ r σ') :
    ∃ Γ' A', Situation.Later ⟨Γ, A, ⟨σ, [], []⟩⟩ ⟨Γ', A', ⟨σ', [], []⟩⟩ ∧
      Opening env first ⟨Γ', A', ⟨σ', [], []⟩⟩ := by
  obtain ⟨hext, hpointer, hinit, hlead, hext'⟩ := hdeclares
  rename_i pointer init σ₁ σ₂ σ₃ σ₄
  have h₁ := h.extend hext
  obtain ⟨Γ', A', hlater, h₂, hsame, hinit⟩ := h₁.initializes hinit
  have hnot : ∀ u, σ₂.progress.Declared u → Outside ⟨σ₂, [], []⟩ u ∧ u ∉ definitions σ₂.lead :=
    fun u hu => ⟨h₂.ok.sound.declared u hu, fun hmem => (h₂.led.apart u hmem).2.2 hu⟩
  have hpointer' : Outside ⟨σ₂, [], []⟩ pointer ∧ pointer ∉ definitions σ₂.lead := by
    refine ⟨hlater.outside (h₁.ok.sound.declared pointer hpointer), ?_⟩
    rw [hsame]
    exact fun hmem => (h₁.led.apart pointer hmem).2.2 hpointer
  have hled : Led ⟨σ₃, [], []⟩ := by
    refine h₂.led.leads h₂.ok.sound hlead (definitions_result rfl _ _ _) rfl fun u hu => ?_
    have hu : u = pointer ∨ init = some u := by
      rw [Instruction.variable, Instruction.usesHere_result rfl (by decide),
        filterMap_cons_none rfl, Operand.filterMap_id?_ids] at hu
      simpa using hu
    rcases hu with rfl | hu
    · exact hpointer'
    · exact hnot u (hinit u hu)
  have hissue := h₂.extend (Body.extends_issue σ₂)
  have h₃ : Opening env first ⟨Γ', A', ⟨σ₃, [], []⟩⟩ := by
    refine ⟨hissue.ok.hold hlead.same fun id hid => .inl ?_, hissue.first, hled, ?_⟩
    · obtain ⟨_⟩ := hlead
      exact hid
    · simpa only [hlead.same.values] using hissue.size
  have hid : Outside ⟨σ₃, [], []⟩ σ₂.nextId := by
    have hmem : σ₂.nextId ∈ definitions σ₃.lead := by
      rw [hlead.lead, definitions_append, Instruction.variable, definitions_result rfl]
      simp
    obtain ⟨hlt, hnot, -⟩ := hled.apart _ hmem
    refine ⟨hlt, fun hresult => hnot ?_, not_mem_nil⟩
    exact mem_append_left _ (mem_definitions_of_mem_results hresult)
  have hmoves : Moves false ⟨σ₃, [], []⟩ [] ⟨σ₄, [], []⟩ := .one (.extend hext')
  have hsub : Site.outside ⟨σ₁, [], []⟩ ⊆ Site.outside ⟨σ₃, [], []⟩ := by
    intro u hu
    have hmove : Moves false ⟨σ₂, [], []⟩ [] ⟨σ₂.issue, [], []⟩ :=
      .one (.extend (Body.extends_issue σ₂))
    exact (outside_same hlead.same).2 (hmove.outside (hlater.outside hu))
  refine ⟨Γ', A', ⟨hlater.certificate, hlater.available, ?_⟩,
    (h₃.extend hext').hold (Body.sameCode_withLocals _ _) rfl fun id hid' => ?_⟩
  · have hmove : Moves false ⟨σ, [], []⟩ [] ⟨σ₁, [], []⟩ := .one (.extend hext)
    exact fun u hu => hmoves.outside (hsub (hmove.outside hu))
  · rcases hid' with hid' | hid' | hid'
    · exact .inl (.inl hid')
    · rcases Array.mem_push.1 hid' with hid' | rfl
      · exact .inl (.inr (.inl hid'))
      · exact .inr (.inr (hmoves.outside hid))
    · exact .inl (.inr (.inr hid'))

end

lemma declaresAll (hdeclares : DeclaresAll env vs σ r σ') :
      ∀ {Γ A}, Opening env first ⟨Γ, A, ⟨σ, [], []⟩⟩ →
      ∃ Γ' A', Situation.Later ⟨Γ, A, ⟨σ, [], []⟩⟩ ⟨Γ', A', ⟨σ', [], []⟩⟩ ∧
        Opening env first ⟨Γ', A', ⟨σ', [], []⟩⟩ := by
  induction vs generalizing σ r with
  | nil =>
    obtain ⟨-, rfl⟩ := hdeclares
    exact fun h => ⟨_, _, .refl _, h⟩
  | cons v rest ih =>
    intro Γ A h
    obtain ⟨hfirst, hrest⟩ := hdeclares
    obtain ⟨Γ₁, A₁, hlater₁, h₁⟩ := h.declares hfirst
    obtain ⟨Γ', A', hlater, h'⟩ := ih hrest h₁
    exact ⟨Γ', A', hlater₁.trans hlater, h'⟩

lemma begins (hfresh : Fresh env σ) (hbegins : Begins env σ r σ') :
    ∃ Γ A, Opening env σ.nextId ⟨Γ, A, ⟨σ', [], []⟩⟩ ∧
      Site.outside ⟨σ, [], []⟩ ⊆ Site.outside ⟨σ', [], []⟩ := by
  obtain ⟨hopen, hlocals, hchain, hcontents⟩ := hbegins
  rename_i r₁ r₂ σ₁ σ₂ σ₃ known contents
  obtain ⟨Γ₁, h₁⟩ := of_fresh hfresh hopen
  obtain ⟨Γ₂, A₂, hlater₂, h₂⟩ := declaresAll hlocals h₁
  obtain ⟨Γ₃, A₃, hlater₃, h₃, hknown⟩ := h₂.straight rfl (forall_mem_nil _) hchain
  have hlabel : Moves false ⟨σ, [], []⟩ [⟨.frame, .label σ.nextId⟩] ⟨σ₁, [], []⟩ :=
    .cons .issueLabel (.one (.open (.refl _) hopen))
  refine ⟨Γ₃, A₃, h₃.hold (Body.sameCode_withContents _ _) rfl fun id hid => ?_, fun u hu => ?_⟩
  · rcases hid with hid | hid | hid
    · exact .inl (.inl hid)
    · exact .inl (.inr (.inl hid))
    · exact .inr (hknown id (hcontents id hid))
  · exact (outside_same (Body.sameCode_withContents _ _)).2
      (hlater₃.outside (hlater₂.outside (hlabel.outside hu)))

lemma loadsAll (hloads : LoadsAll env inputs σ r σ') :
      ∀ {Γ A}, Opening env first ⟨Γ, A, ⟨σ, [], []⟩⟩ →
      (∀ u ∈ inputs.flatMap EntryArgument.ids, Outside ⟨σ, [], []⟩ u) →
      ∃ Γ' A', Opening env first ⟨Γ', A', ⟨σ', [], []⟩⟩ := by
  induction inputs generalizing σ r with
  | nil =>
    obtain ⟨-, rfl⟩ := hloads
    exact fun h _ => ⟨_, _, h⟩
  | cons argument rest ih =>
    intro Γ A h hinputs
    obtain ⟨⟨hchain, hvalue⟩, hrest⟩ := hloads
    rw [flatMap_cons] at hinputs
    obtain ⟨hargument, hothers⟩ := forall_mem_append.1 hinputs
    obtain ⟨Γ₁, A₁, hlater, h₁, hknown⟩ := h.straight rfl (fun u hu => .inr (hargument u hu)) hchain
    refine ih hrest (h₁.hold (Body.sameCode_withArguments _ _) rfl fun id hid => ?_) fun u hu =>
      (outside_same (Body.sameCode_withArguments _ _)).2 (hlater.outside (hothers u hu))
    rcases hid with hid | hid | hid
    · rcases Array.mem_push.1 hid with hid | rfl
      · exact .inl (.inl hid)
      · exact .inr (hknown id hvalue)
    · exact .inl (.inr (.inl hid))
    · exact .inl (.inr (.inr hid))

end Opening

/-! ### Functions -/

lemma Opening.setting {first : Id} {t : Situation} (h : Opening env first t)
    (hscoped : env.function.WellScoped) :
    Setting env t.available {} [] (IR.bodyProduces env.function env.function.body) t where
  ok := h.ok.relive fun g _ => h.ok.values g (Set.mem_univ g)
  scene := ⟨.nil _, h.size, forall_mem_nil _, fun _ _ _ => rfl⟩
  early g _ id hid := h.ok.values g (Set.mem_univ g) id hid
  apart _ _ := not_mem_nil
  nodup := hscoped.nodup
  targets := forall_mem_nil _

lemma Situation.Goes.fallsOff {t : Situation} (h : t.Goes env base live ⟨σ, P, Q⟩ [])
    (hend : FallsOff env σ r σ') : t.Goes env base live ⟨σ', P, Q⟩ [] := by
  obtain ⟨Γ, A, hlater, hok, -⟩ := h
  cases hend with
  | ended _ => exact ⟨Γ, A, hlater, hok, forall_mem_nil _⟩
  | nothing _ hclose =>
    obtain ⟨hlater', hok'⟩ := hok.closeBare rfl hclose (by simp) (by simp)
    exact ⟨Γ, A, hlater.trans hlater', hok', forall_mem_nil _⟩
  | @null type null σ₁ σ' _ hext hnull hclose =>
    have hmoves : Moves false ⟨σ, P, Q⟩ [] ⟨σ₁, P, Q⟩ := .one (.extend hext)
    have hok₁ := hok.quiet hmoves hext.closed hext.current? hext.values
    have hlater₁ : Later ⟨Γ, A, ⟨σ, P, Q⟩⟩ ⟨Γ, A, ⟨σ₁, P, Q⟩⟩ :=
      ⟨.refl _, subset_refl _, hmoves.outside_subset⟩
    have husable : Usable ⟨Γ, A, ⟨σ₁, P, Q⟩⟩ null := .inr (hok₁.sound.declared null hnull)
    obtain ⟨hlater', hok'⟩ := hok₁.closeBare rfl hclose (by simpa using husable) (by simp)
    exact ⟨Γ, A, (hlater.trans hlater₁).trans hlater', hok', forall_mem_nil _⟩

lemma Written.head (h : Written env inputs σ r σ') : r.code.head? = some (.label σ.nextId) := by
  obtain ⟨⟨_, _, _, _⟩, _, _, _⟩ := h
  rfl

lemma label_of_written (hfresh : Fresh env σ) (hwritten : Written env inputs σ r σ')
    (hb : σ'.closed.head? = some b) : b.label = σ.nextId := by
  obtain ⟨rest, hrest⟩ := head?_eq_some_iff.1 hb
  have hcode : σ'.code = r.code := by rw [(carries_written hwritten).code, hfresh.code, nil_append]
  have hhead := hwritten.head
  rw [← hcode, Body.code, hrest, flatMap_cons] at hhead
  simpa [Block.instructions, Instruction.label] using hhead

/-- In the code of a function every operand is available. -/
lemma allAvailable_of_lowers {p : Progress} {fn : Function}
    (hanalysis : env.deferred = deferred env.function) (hscoped : env.function.WellScoped)
    (hp : p.Bounded) (h : Lowers env inputs p r fn p') : AllAvailable fn.layout := by
  obtain ⟨-, hissued, -, hwritten, hfinishes, -⟩ := h
  obtain ⟨hfresh, hinputs⟩ := hissued hp
  rename_i σ σ' p₁
  have hlabel : ∀ b, σ'.closed.head? = some b → b.label = σ.nextId := fun b =>
    label_of_written hfresh hwritten
  obtain ⟨hbegins, hloads, hbody, hend⟩ := hwritten
  rename_i r₁ r₂ r₃ r₄ σ₁ σ₂ σ₃
  obtain ⟨Γ₁, A₁, h₁, houtside⟩ := Opening.begins hfresh hbegins
  have hinputs₁ : ∀ u ∈ inputs.flatMap EntryArgument.ids, Outside ⟨σ₁, [], []⟩ u := fun u hu =>
    houtside ⟨hinputs u hu, by simp [hfresh.code], not_mem_nil⟩
  obtain ⟨Γ₂, A₂, h₂⟩ := Opening.loadsAll hloads h₁ hinputs₁
  have hreads := undeferred_bodyReads hanalysis
  have hgoes := certifies_statedAll hanalysis A₂ env.function.body hscoped.uses hreads hbody
    (h₂.setting hscoped)
  obtain ⟨Γ, A, hlater, hok, -⟩ := hgoes.fallsOff hend
  have hled : Led ⟨σ', [], []⟩ := (h₂.led.moves
    (moving_statedAll env env.function.body _ _ hbody [] [])).moves (moving_fallsOff hend [] [])
  have hblocks : ∀ b ∈ fn.blocks.toList, BlockOk Γ (Site.outside ⟨σ', [], []⟩)
    fn.blocks.toList b := by
    simpa only [hfinishes.blocks] using hok.closed
  refine Function.allAvailable hblocks ?_ ?_ ?_ ?_
  · intro b hb
    rw [hfinishes.blocks] at hb
    rw [hlabel b hb]
    exact hlater.certificate _ _ h₂.first
  · rw [hfinishes.lead, hfinishes.code]
    have hdistinct : (definitions σ'.code).Nodup := by simpa [Site.taken] using hok.sound.distinct
    refine nodup_append.2 ⟨hled.nodup, hdistinct, ?_⟩
    rintro u hu v hv rfl
    exact (hled.apart u hu).2.1 (by simpa [Site.taken] using hv)
  · intro u hu
    rw [hfinishes.code]
    exact hu.2.1
  · intro i hi
    rw [hfinishes.lead] at hi ⊢
    obtain ⟨hphi, huses⟩ := hled.uses i hi
    exact ⟨hphi, fun u hu => ⟨(huses u hu).1, fun hmem =>
      (huses u hu).2 (mem_definitions_of_mem_results hmem)⟩⟩

/-! ### Modules -/

/-- If all functions of a program are well scoped and it is emitted, then in every emitted function
each operand that is the result of an instruction of the function is available where it is used, in
all blocks that control can get to. -/
theorem operands_available {m : IR.Module} (hscoped : m.WellScoped) {options : Options}
    {ws : List UInt32} (hrun : words m options = .ok ws) :
    ∃ assembly, assemble m options = .ok assembly ∧
      ws = assembly.encode options.version options.generator ∧
      ∀ fn ∈ assembly.functions, AllAvailable fn.layout ∧
        fn.instructions = fn.declaration :: fn.parameterInstructions ++
          fn.layout.flatMap Assembly.Block.instructions := by
  obtain ⟨assembly, hassembly, hws⟩ := words_eq_ok.1 hrun
  refine ⟨assembly, hassembly, hws, fun fn hfn => ⟨?_, fn.instructions_eq⟩⟩
  obtain ⟨p, p', hp, env, inputs, r, hlowers, hanalysis, hfunction⟩ :=
    emitsFor_of_assemble hassembly fn hfn
  refine allAvailable_of_lowers hanalysis ?_ hp hlowers
  rcases hfunction with hmem | ⟨entry, hentry, heq⟩
  · exact hscoped.functions _ hmem
  · exact heq ▸ hscoped.entryPoints entry hentry

/-- A loop that ends when a nested short circuit says so, and stores its value otherwise. -/
def shortCircuitLoop : IR.Module where
  types := IR.flagTypes
  globals := ⟨#[⟨none, .private, none, ⟨0⟩, none⟩, ⟨none, .private, none, ⟨0⟩, none⟩]⟩
  functions := ⟨#[{
    expressions := ⟨⟨#[.globalVariable ⟨0⟩, .load ⟨0⟩, .globalVariable ⟨1⟩, .load ⟨2⟩, .load ⟨0⟩,
      .binary .logicalOr ⟨3⟩ ⟨4⟩, .binary .logicalAnd ⟨1⟩ ⟨5⟩]⟩,
      #[⟨1⟩, ⟨0⟩, ⟨1⟩, ⟨0⟩, ⟨0⟩, ⟨0⟩, ⟨0⟩]⟩
    body := [.loop [.emit ⟨0, 7⟩, .ifElse ⟨6⟩ [.break] [], .store ⟨2⟩ ⟨6⟩] [] none] }]⟩

theorem operands_available_shortCircuitLoop : ∃ ws, words shortCircuitLoop {} = .ok ws ∧
    ∃ assembly, assemble shortCircuitLoop {} = .ok assembly ∧ ws = assembly.encode ⟨1, 3⟩ 0 ∧
      ∀ fn ∈ assembly.functions, AllAvailable fn.layout ∧
        fn.instructions = fn.declaration :: fn.parameterInstructions ++
          fn.layout.flatMap Assembly.Block.instructions := by
  have hsome : (words shortCircuitLoop {}).toOption.isSome = true := by decide +kernel
  cases hrun : words shortCircuitLoop {} with
  | error failure =>
    rw [hrun] at hsome
    cases hsome
  | ok ws =>
    have hscoped : shortCircuitLoop.WellScoped := by decide +kernel
    exact ⟨ws, rfl, operands_available hscoped hrun⟩

end Shader.Emit
