import Shader.Proofs.Dominance
import Shader.Proofs.Move
import Shader.Proofs.Scene

/-!
# Operands are available while code is emitted

While a body is emitted, the certificate for its blocks grows: when a label is issued, it is said
what will be available at the start of its block.  That is what is available where the label is
issued, or at a place that control comes through to get there.

A situation is a state of the emission with the certificate so far and what is available.  In a
good situation (`Ok`) the code so far is as the certificate says, and the values of the expressions
that may be asked for are available.  The emission of expressions keeps it good.
-/

namespace Shader.Emit

open List Assembly
open IR (Expression Statement SwitchCase)

variable {r : Record} {id u type label l leftEnd : Id} {i : Instruction} {A : Set Id}
    {σ σ' σ'' : Body} {restack : Bool} {left right h : Handle .expression}

/-- What is outside of the code. -/
def Site.outside (s : Site) : Set Id := {u | Outside s u}

lemma Moves.outside_subset (h : Moves restack s r s') : s.outside ⊆ s'.outside :=
    fun _ hu => h.outside hu

/-- A state of the emission with a certificate for the code so far, and what is available. -/
structure Situation where
  certificate : Certificate
  available : Set Id
  site : Site

variable {t t' t₁ : Situation}

namespace Situation

/-- The id may be used here. -/
def Usable (t : Situation) (u : Id) : Prop := Assembly.Usable t.site.outside t.available u

/-- The instruction may be put here. -/
def Takes (t : Situation) (i : Instruction) : Prop :=
  InstructionOk t.certificate t.site.outside t.site.body.closed t.available i

/-- What is certified, available or outside stays so. -/
structure Later (t t' : Situation) : Prop where
  certificate : t.certificate.Extends t'.certificate
  available : t.available ⊆ t'.available
  outside : t.site.outside ⊆ t'.site.outside

lemma Later.refl (t : Situation) : t.Later t := ⟨.refl _, subset_refl _, subset_refl _⟩

lemma Later.trans (h : t.Later t₁) (h' : t₁.Later t') : t.Later t' :=
  ⟨h.certificate.trans h'.certificate, h.available.trans h'.available, h.outside.trans h'.outside⟩

lemma Usable.later (h : t.Usable u) (h' : t.Later t') :
    t'.Usable u := h.mono h'.available h'.outside

/-- The code so far is as certified, and the values of the expressions `live` can be used.  The
ids `base` are available everywhere in the function. -/
structure Ok (env : FunctionEnv) (base : Set Id) (live : Set (Handle .expression))
    (t : Situation) : Prop where
  sound : Sound t.site
  keys : ∀ l A, t.certificate l = some A → l.number < t.site.body.bound
  closed : ∀ b ∈ t.site.body.closed, BlockOk t.certificate t.site.outside t.site.body.closed b
  current : ∀ b, t.site.body.current? = some b → ∃ A, t.certificate b.label = some A ∧
    CodeOk t.certificate t.site.outside t.site.body.closed A b.body.toList ∧
    plus A b.body.toList = t.available
  grounded : base ⊆ t.available
  held : ∀ id, t.site.body.Held id ∨ env.Held id → Assembly.Usable t.site.outside base id
  values : ∀ h ∈ live, ∀ id, t.site.body.values.get? h = some id → t.Usable id
  references : ∀ h, env.function.isProduced h = false → ∀ id,
    t.site.body.values.get? h = some id → Assembly.Usable t.site.outside base id

namespace Ok

variable {env : FunctionEnv} {base : Set Id} {live live' : Set (Handle .expression)} {s' : Site}
    {Γ : Certificate} {P Q : List Id}

section

variable (hok : t.Ok env base live)
include hok

lemma usable_of_known (h : Known env t.site.body id) : Assembly.Usable t.site.outside base id := by
  rcases h with h | h | h
  · exact .inr (hok.sound.declared id h)
  · exact hok.held id (.inl h)
  · exact hok.held id (.inr h)

lemma usable_of_base (h : Assembly.Usable t.site.outside base id) : t.Usable id :=
  h.mono hok.grounded (subset_refl _)

lemma usable_label (label : Id) (h : label ∈ t.site.labels) :
    t.Usable label := .inr (hok.sound.outside_label h)

section

variable (hmoves : Moves restack t.site r s')
include hmoves

lemma held_of_moves : ∀ id, s'.body.Held id ∨ env.Held id → Assembly.Usable s'.outside base id := by
  intro id hid
  have hkeeps := hmoves.keeps
  simp only [Body.Held, hkeeps.arguments, hkeeps.locals, hkeeps.contents] at hid
  exact (hok.held id hid).mono (subset_refl _) hmoves.outside_subset

/-- A move that leaves the values as they are: the blocks that it closes and the one that is open
after it have to be as certified, and the values have to be usable with what is available then. -/
lemma moved (hvalues : s'.body.values = t.site.body.values)
    (hsub : t.site.body.closed ⊆ s'.body.closed)
    (hadded : ∀ b ∈ s'.body.closed, b ∈ t.site.body.closed ∨
      BlockOk t.certificate s'.outside s'.body.closed b)
    (hcurrent : ∀ b, s'.body.current? = some b → ∃ B, t.certificate b.label = some B ∧
      CodeOk t.certificate s'.outside s'.body.closed B b.body.toList ∧ plus B b.body.toList = A)
    (hbase : base ⊆ A)
    (hlive : ∀ h ∈ live', ∀ id, t.site.body.values.get? h = some id →
      Assembly.Usable t.site.outside A id) : Ok env base live' ⟨t.certificate, A, s'⟩ where
  sound := hmoves.sound hok.sound
  keys l B hB := Nat.lt_of_lt_of_le (hok.keys l B hB) hmoves.keeps.bound
  closed b hb := (hadded b hb).elim
    (fun hb => (hok.closed b hb).mono (.refl _) hmoves.outside_subset hsub) fun hb => hb
  current := hcurrent
  grounded := hbase
  held := hok.held_of_moves hmoves
  values h hh id hid := by
    simp only [hvalues] at hid
    exact (hlive h hh id hid).mono (subset_refl _) hmoves.outside_subset
  references h hh id hid := by
    simp only [hvalues] at hid
    exact (hok.references h hh id hid).mono (subset_refl _) hmoves.outside_subset

lemma quiet
    (hclosed : s'.body.closed = t.site.body.closed)
    (hcurrent : s'.body.current? = t.site.body.current?)
    (hvalues : s'.body.values = t.site.body.values) :
    Ok env base live ⟨t.certificate, t.available, s'⟩ := by
  have hsub : t.site.body.closed ⊆ s'.body.closed := fun _ hb => hclosed ▸ hb
  refine hok.moved hmoves hvalues hsub (fun _ hb => .inl (hclosed ▸ hb)) (fun b hb => ?_)
    hok.grounded hok.values
  rw [hcurrent] at hb
  obtain ⟨B, hB, hcode, havailable⟩ := hok.current b hb
  exact ⟨B, hB, hcode.mono (.refl _) hmoves.outside_subset hsub, havailable⟩

lemma push (hpush : t.site.body.Pushes i s'.body) (hi : t.Takes i) :
    Ok env base live ⟨t.certificate, plus t.available [i], s'⟩ := by
  obtain ⟨b, hb, hb', hclosed⟩ := hpush.current
  have hsub : t.site.body.closed ⊆ s'.body.closed := fun _ hb => hclosed ▸ hb
  have hplus := Assembly.subset_plus t.available [i]
  refine hok.moved hmoves hpush.same.values hsub (fun _ hb => .inl (hclosed ▸ hb)) (fun c hc => ?_)
    (hok.grounded.trans hplus) fun h hh id hid => (hok.values h hh id hid).mono hplus
    (subset_refl _)
  cases hb'.symm.trans hc
  obtain ⟨B, hB, hcode, havailable⟩ := hok.current b hb
  refine ⟨B, hB, ?_, ?_⟩
  · rw [Array.toList_push]
    refine (hcode.mono (.refl _) hmoves.outside_subset hsub).concat ?_
    rw [havailable]
    exact hi.mono (.refl _) hmoves.outside_subset hsub (subset_refl _)
  · rw [Array.toList_push, Assembly.plus_append, havailable]

/-- The open block is closed, when what is available here is enough for the blocks it leads to. -/
lemma close (hclose : t.site.body.Closes i s'.body) (hi : t.Takes i) (hnone : i.result? = none)
    (htargets : ∀ l ∈ i.targets, ∃ A, t.certificate l = some A ∧ A ⊆ t.available) :
    Ok env base live ⟨t.certificate, t.available, s'⟩ := by
  obtain ⟨b, hb, hb', hclosed⟩ := hclose.current
  have hsub : t.site.body.closed ⊆ s'.body.closed := hclosed ▸ subset_append_left _ _
  refine hok.moved hmoves hclose.same.values hsub (fun c hc => ?_) (fun c hc => ?_)
    hok.grounded hok.values
  · rw [hclosed] at hc
    refine (mem_append.1 hc).imp_right fun hc => ?_
    obtain rfl := mem_singleton.1 hc
    obtain ⟨B, hB, hcode, havailable⟩ := hok.current b hb
    refine ⟨B, hB, hcode.mono (.refl _) hmoves.outside_subset hsub, ?_, hnone, ?_⟩
    · rw [OpenBlock.close, havailable]
      exact hi.mono (.refl _) hmoves.outside_subset hsub (subset_refl _)
    · rw [OpenBlock.close, havailable]
      exact htargets
  · rw [hb'] at hc
    cases hc

lemma «open» (hopen : t.site.body.Opens label s'.body) (hA : t.certificate label = some A)
    (hbase : base ⊆ A) (hlive : ∀ h ∈ live', ∀ id, t.site.body.values.get? h = some id →
      Assembly.Usable t.site.outside A id) : Ok env base live' ⟨t.certificate, A, s'⟩ := by
  obtain ⟨-, hb', hclosed⟩ := hopen.current
  refine hok.moved hmoves hopen.same.values (fun _ hb => hclosed ▸ hb)
    (fun _ hb => .inl (hclosed ▸ hb)) (fun c hc => ?_) hbase hlive
  cases hb'.symm.trans hc
  exact ⟨A, hA, .nil A, by simp⟩

end

lemma relive (hlive : ∀ h ∈ live', ∀ id, t.site.body.values.get? h = some id → t.Usable id) :
    t.Ok env base live' := { hok with values := hlive }

end

lemma issueLabel (hok : Ok env base live ⟨Γ, A, ⟨σ, P, Q⟩⟩) (A₀ : Set Id) :
    Ok env base live ⟨Function.update Γ σ.nextId (some A₀), A, ⟨σ.issue, σ.nextId :: P, Q⟩⟩ ∧
      Γ.Extends (Function.update Γ σ.nextId (some A₀)) := by
  have hmoves : Moves false ⟨σ, P, Q⟩ [] ⟨σ.issue, σ.nextId :: P, Q⟩ := .one .issueLabel
  have hext : Γ.Extends (Function.update Γ σ.nextId (some A₀)) := by
    intro l B hB
    have hne : l ≠ σ.nextId := by
      rintro rfl
      exact Nat.lt_irrefl _ (hok.keys _ B hB)
    rw [Function.update_of_ne hne]
    exact hB
  have hquiet := hok.quiet hmoves rfl rfl rfl
  refine ⟨⟨hquiet.sound, ?_, ?_, ?_, hquiet.grounded, hquiet.held, hquiet.values,
    hquiet.references⟩, hext⟩
  · intro l B hB
    by_cases hl : l = σ.nextId
    · subst hl
      exact Nat.lt_succ_self _
    · simp only [Function.update_of_ne hl] at hB
      exact hquiet.keys l B hB
  · exact fun b hb => (hquiet.closed b hb).mono hext (subset_refl _) (Subset.refl _)
  · intro b hb
    obtain ⟨B, hB, hcode, havailable⟩ := hquiet.current b hb
    exact ⟨B, hext _ _ hB, hcode.mono hext (subset_refl _) (Subset.refl _), havailable⟩

lemma value {values : Valuation} (hok : Ok env base live ⟨Γ, A, ⟨σ, P, Q⟩⟩)
    (hvalues : ∀ h ∈ live, ∀ id, values.get? h = some id → Situation.Usable ⟨Γ, A, ⟨σ, P, Q⟩⟩ id)
    (hreferences : ∀ h, env.function.isProduced h = false → ∀ id, values.get? h = some id →
      Assembly.Usable (Site.outside ⟨σ, P, Q⟩) base id) :
    Ok env base live ⟨Γ, A, ⟨σ.withValues values, P, Q⟩⟩ :=
  ⟨⟨⟨hok.sound.distinct, hok.sound.issued⟩, hok.sound.declared⟩, hok.keys, hok.closed, hok.current,
    hok.grounded, hok.held, hvalues, hreferences⟩

end Ok

end Situation

/-! ### Instructions -/

lemma Situation.takes_result (htyped : op.isTyped) (hphi : op ≠ .phi) (htype : t.Usable type)
    (huses : ∀ u ∈ operands.filterMap Operand.id?, t.Usable u) :
    t.Takes (.result op type id operands) := by
  have hpairs : (Instruction.result op type id operands).phiPairs = [] := if_neg hphi
  refine ⟨fun u hu => ?_, by simp [hpairs]⟩
  rw [Instruction.usesHere_result htyped hphi] at hu
  rcases mem_cons.1 hu with rfl | hu
  · exact htype
  · exact huses u hu

lemma Situation.takes_bare (hi : Opcode.resultless.contains i.opcode)
    (huses : ∀ u ∈ i.operands.filterMap Operand.id?, t.Usable u) : t.Takes i := by
  have hphi : i.opcode ≠ .phi := by
    intro heq
    rw [heq] at hi
    cases hi
  have hhere : i.usesHere = i.operands.filterMap Operand.id? := by
    rw [Instruction.usesHere, Instruction.uses_of_resultless hi]
    exact if_neg hphi
  have hpairs : i.phiPairs = [] := if_neg hphi
  exact ⟨hhere ▸ huses, by simp [hpairs]⟩

lemma plus_of_resultless (hi : Opcode.resultless.contains i.opcode) (A : Set Id) :
    plus A [i] = A := by
  simp [plus, results_of_resultless hi]

namespace Situation.Ok

variable {env : FunctionEnv} {base : Set Id} {live : Set (Handle .expression)} {Γ : Certificate} 
 {P Q : List Id}

section

variable (hok : Ok env base live ⟨Γ, A, ⟨σ, P, Q⟩⟩)
include hok

lemma pushBare (hi : Opcode.resultless.contains i.opcode)
    (hpush : σ.Pushes i σ')
    (huses : ∀ u ∈ i.operands.filterMap Operand.id?, Usable ⟨Γ, A, ⟨σ, P, Q⟩⟩ u) :
    Later ⟨Γ, A, ⟨σ, P, Q⟩⟩ ⟨Γ, A, ⟨σ', P, Q⟩⟩ ∧ Ok env base live ⟨Γ, A, ⟨σ', P, Q⟩⟩ := by
  have hmoves : Moves false ⟨σ, P, Q⟩ [⟨.frame, i⟩] ⟨σ', P, Q⟩ := .one (.push hi hpush)
  have hpushed := hok.push hmoves hpush (takes_bare hi huses)
  rw [plus_of_resultless hi] at hpushed
  exact ⟨⟨.refl _, subset_refl _, hmoves.outside_subset⟩, hpushed⟩

lemma closeBare (hi : Opcode.resultless.contains i.opcode)
    (hclose : σ.Closes i σ')
    (huses : ∀ u ∈ i.operands.filterMap Operand.id?, Usable ⟨Γ, A, ⟨σ, P, Q⟩⟩ u)
    (htargets : ∀ l ∈ i.targets, ∃ A₀, Γ l = some A₀ ∧ A₀ ⊆ A) :
    Later ⟨Γ, A, ⟨σ, P, Q⟩⟩ ⟨Γ, A, ⟨σ', P, Q⟩⟩ ∧ Ok env base live ⟨Γ, A, ⟨σ', P, Q⟩⟩ := by
  have hmoves : Moves false ⟨σ, P, Q⟩ [⟨.frame, i⟩] ⟨σ', P, Q⟩ := .one (.close hi hclose)
  exact ⟨⟨.refl _, subset_refl _, hmoves.outside_subset⟩,
    hok.close hmoves hclose (takes_bare hi huses) (Instruction.result?_eq_none hi) htargets⟩

lemma exists_closed (hclose : σ.Closes i σ') (hlabel : σ.label? = some label) :
    ∃ b ∈ σ'.closed, b.label = label ∧ ∃ A₀, Γ b.label = some A₀ ∧ plus A₀ b.body.toList = A := by
  obtain ⟨b, hb, -, hclosed⟩ := hclose.current
  obtain ⟨A₀, hA₀, -, hA⟩ := hok.current b hb
  have hlabel' : b.label = label := by simpa [Body.label?, hb] using hlabel
  exact ⟨b.close i, by simp [hclosed], hlabel', A₀, hA₀, hA⟩

end

end Situation.Ok

/-! ### Expressions -/

/-- A step that takes a good situation to a later one. -/
def Situation.Goes (env : FunctionEnv) (base : Set Id) (live : Set (Handle .expression))
    (t : Situation) (s' : Site) (ids : List Id) : Prop :=
  ∃ Γ A, t.Later ⟨Γ, A, s'⟩ ∧ Situation.Ok env base live ⟨Γ, A, s'⟩ ∧
    ∀ id ∈ ids, Situation.Usable ⟨Γ, A, s'⟩ id

/-- An evaluation keeps situations good and answers with an id that can be used. -/
def Evaluation.Grounded (env : FunctionEnv) (base : Set Id) (live : Set (Handle .expression))
    (evaluate : Evaluation) : Prop :=
  ∀ ⦃h σ r id σ'⦄, evaluate h σ r id σ' → h ∈ live → ∀ {Γ A P Q},
    Situation.Ok env base live ⟨Γ, A, ⟨σ, P, Q⟩⟩ →
    Situation.Goes env base live ⟨Γ, A, ⟨σ, P, Q⟩⟩ ⟨σ', P, Q⟩ [id]

section

variable {env : FunctionEnv} {base : Set Id} {live : Set (Handle .expression)}
    {evaluate : Evaluation}
 {Γ : Certificate} {P Q : List Id} {allowed : Opcode → Bool} {source : Source} {p q : Point}
 {operands : Handles} {op : IR.BinaryOp}

lemma goes_of_emits (hphi : allowed .phi = false) (hemits : Emits source allowed p r q)
    (hok : Situation.Ok env base live ⟨Γ, A, ⟨p.body, P, p.pending ++ Q⟩⟩)
    (hknown : ∀ u ∈ p.known, Situation.Usable ⟨Γ, A, ⟨p.body, P, p.pending ++ Q⟩⟩ u) :
    Situation.Goes env base live ⟨Γ, A, ⟨p.body, P, p.pending ++ Q⟩⟩
      ⟨q.body, P, q.pending ++ Q⟩ q.known := by
  have hmoves := moves_of_emits hemits P Q
  cases hemits with
  | @result σ σ' known pending op type id operands hop htyped htype huses hpush =>
    have hne : op ≠ .phi := by
      rintro rfl
      rw [hphi] at hop
      cases hop
    have htakes : Situation.Takes ⟨Γ, A, ⟨σ, P, id :: pending ++ Q⟩⟩
      (.result op type id operands) :=
      Situation.takes_result htyped hne (hknown type htype) fun u hu => hknown u (huses u hu)
    have hlater : Situation.Later ⟨Γ, A, ⟨σ, P, id :: pending ++ Q⟩⟩
        ⟨Γ, plus A [.result op type id operands], ⟨σ', P, pending ++ Q⟩⟩ :=
      ⟨.refl _, Assembly.subset_plus _ _, hmoves.outside_subset⟩
    refine ⟨Γ, _, hlater, hok.push hmoves hpush htakes, fun u hu => ?_⟩
    rcases mem_cons.1 hu with rfl | hu
    · refine .inl (.inr ?_)
      rw [results_result htyped]
      exact mem_cons_self
    · exact (hknown u hu).later hlater
  | @bare σ σ' known pending i hop hi huses hpush =>
    have htakes := Situation.takes_bare hi fun u hu => hknown u (huses u hu)
    have hlater : Situation.Later ⟨Γ, A, ⟨σ, P, pending ++ Q⟩⟩ ⟨Γ, plus A [i],
      ⟨σ', P, pending ++ Q⟩⟩ :=
      ⟨.refl _, Assembly.subset_plus _ _, hmoves.outside_subset⟩
    exact ⟨Γ, _, hlater, hok.push hmoves hpush htakes, fun u hu => (hknown u hu).later hlater⟩

lemma goes_of_step (hphi : allowed .phi = false) (heval : evaluate.Grounded env base live)
    (hlive : ∀ g ∈ operands, g ∈ live) (hstep : Step env evaluate source allowed operands p r q)
    (hok : Situation.Ok env base live ⟨Γ, A, ⟨p.body, P, p.pending ++ Q⟩⟩)
    (hknown : ∀ u ∈ p.known, Situation.Usable ⟨Γ, A, ⟨p.body, P, p.pending ++ Q⟩⟩ u) :
    Situation.Goes env base live ⟨Γ, A, ⟨p.body, P, p.pending ++ Q⟩⟩
      ⟨q.body, P, q.pending ++ Q⟩ q.known := by
  cases hstep with
  | @declare σ σ' known pending ids hext hids =>
    have hmoves : Moves false ⟨σ, P, pending ++ Q⟩ [] ⟨σ', P, pending ++ Q⟩ := .one (.extend hext)
    have hok' := hok.quiet hmoves hext.closed hext.current? hext.values
    have hlater : Situation.Later ⟨Γ, A, ⟨σ, P, pending ++ Q⟩⟩ ⟨Γ, A, ⟨σ', P, pending ++ Q⟩⟩ :=
      ⟨.refl _, subset_refl _, hmoves.outside_subset⟩
    refine ⟨Γ, A, hlater, hok', fun u hu => ?_⟩
    rcases mem_append.1 hu with hu | hu
    · exact hok'.usable_of_base (hok'.usable_of_known (hids u hu))
    · exact (hknown u hu).later hlater
  | @issue σ known pending =>
    have hmoves : Moves false ⟨σ, P, pending ++ Q⟩ [] ⟨σ.issue, P, σ.nextId :: pending ++ Q⟩ :=
      .one .issueResult
    have hlater : Situation.Later ⟨Γ, A, ⟨σ, P, pending ++ Q⟩⟩
        ⟨Γ, A, ⟨σ.issue, P, σ.nextId :: pending ++ Q⟩⟩ :=
      ⟨.refl _, subset_refl _, hmoves.outside_subset⟩
    exact ⟨Γ, A, hlater, hok.quiet hmoves rfl rfl rfl, fun u hu => (hknown u hu).later hlater⟩
  | @evaluate σ σ' known pending h r id hh hevaluate =>
    obtain ⟨Γ', A', hlater, hok', hid⟩ := heval hevaluate (hlive h hh) hok
    refine ⟨Γ', A', hlater, hok', fun u hu => ?_⟩
    rcases mem_cons.1 hu with rfl | hu
    · exact hid _ mem_cons_self
    · exact (hknown u hu).later hlater
  | emit hemits => exact goes_of_emits hphi hemits hok hknown

lemma goes_of_straight (hphi : allowed .phi = false) (heval : evaluate.Grounded env base live)
    (hlive : ∀ g ∈ operands, g ∈ live)
    (hchain : Straight env evaluate source allowed operands p r q) :
    ∀ {Γ A}, Situation.Ok env base live ⟨Γ, A, ⟨p.body, P, p.pending ++ Q⟩⟩ →
      (∀ u ∈ p.known, Situation.Usable ⟨Γ, A, ⟨p.body, P, p.pending ++ Q⟩⟩ u) →
      Situation.Goes env base live ⟨Γ, A, ⟨p.body, P, p.pending ++ Q⟩⟩ ⟨q.body, P, q.pending ++ Q⟩
        q.known := by
  induction hchain with
  | nil => exact fun hok hknown => ⟨_, _, .refl _, hok, hknown⟩
  | cons hstep _ ih =>
    intro Γ A hok hknown
    obtain ⟨Γ₁, A₁, hlater, hok₁, hknown₁⟩ := goes_of_step hphi heval hlive hstep hok hknown
    obtain ⟨Γ', A', hlater', hok', hknown'⟩ := ih hok₁ hknown₁
    exact ⟨Γ', A', hlater.trans hlater', hok', hknown'⟩

lemma Situation.Ok.issueTwo (hok : Situation.Ok env base live ⟨Γ, A, ⟨σ, P, Q⟩⟩) :
    ∃ Γ', Γ' σ.nextId = some A ∧ Γ' σ.issue.nextId = some A ∧ Situation.Later ⟨Γ, A, ⟨σ, P, Q⟩⟩
        ⟨Γ', A, ⟨σ.issue.issue, σ.issue.nextId :: σ.nextId :: P, Q⟩⟩ ∧
      Situation.Ok env base live ⟨Γ', A, ⟨σ.issue.issue, σ.issue.nextId :: σ.nextId :: P, Q⟩⟩ := by
  obtain ⟨hok₁, hext₁⟩ := hok.issueLabel A
  obtain ⟨hok₂, hext₂⟩ := hok₁.issueLabel A
  have hmoves : Moves false ⟨σ, P, Q⟩ [] ⟨σ.issue.issue, σ.issue.nextId :: σ.nextId :: P, Q⟩ :=
    .cons .issueLabel (.one .issueLabel)
  refine ⟨_, ?_, ?_, ⟨hext₁.trans hext₂, subset_refl _, hmoves.outside_subset⟩, hok₂⟩
  · exact hext₂ _ _ (Function.update_self ..)
  · exact Function.update_self ..

lemma Situation.takes_phi {type l r leftEnd rightEnd : Id} (htype : t.Usable type)
    (hpairs : ∀ pair ∈ [(l, leftEnd), (r, rightEnd)], ∃ b ∈ t.site.body.closed, b.label = pair.2 ∧
      ∃ A, t.certificate b.label = some A ∧ Assembly.Usable t.site.outside
      (plus A b.body.toList) pair.1) :
    t.Takes (.result .phi type id (Operand.ids [l, leftEnd, r, rightEnd])) := by
  refine ⟨fun u hu => ?_, hpairs⟩
  obtain rfl : u = type := mem_singleton.1 hu
  exact htype

lemma Situation.Ok.shortCircuitHeader (hok : Situation.Ok env base live ⟨Γ, A, ⟨σ, P, Q⟩⟩)
    (hl : Situation.Usable ⟨Γ, A, ⟨σ, P, Q⟩⟩ l) (hlabel : σ.label? = some leftEnd)
    (hpush : σ.issue.issue.Pushes (.selectionMerge σ.issue.nextId) σ')
    (hclose : σ'.Closes (shortCircuitBranch op l σ.nextId σ.issue.nextId) σ'') :
    ∃ Γ', Γ' σ.nextId = some A ∧ Γ' σ.issue.nextId = some A ∧
      Situation.Later ⟨Γ, A, ⟨σ, P, Q⟩⟩ ⟨Γ', A, ⟨σ'', σ.issue.nextId :: σ.nextId :: P, Q⟩⟩ ∧
      Situation.Ok env base live ⟨Γ', A, ⟨σ'', σ.issue.nextId :: σ.nextId :: P, Q⟩⟩ ∧
      ∃ b ∈ σ''.closed, b.label = leftEnd ∧ ∃ A₀, Γ' b.label = some A₀ ∧
      plus A₀ b.body.toList = A := by
  obtain ⟨Γ', hright, hmerge, hlater₁, hok₁⟩ := hok.issueTwo
  have hmergeUsable := hok₁.usable_label σ.issue.nextId mem_cons_self
  obtain ⟨hlater₂, hok₂⟩ := hok₁.pushBare rfl hpush (by simp [hmergeUsable])
  have hl₂ := (hl.later hlater₁).later hlater₂
  have hright₂ := hok₂.usable_label σ.nextId (mem_cons_of_mem _ mem_cons_self)
  have hmerge₂ := hok₂.usable_label σ.issue.nextId mem_cons_self
  have hbranch : Opcode.resultless.contains (shortCircuitBranch op l σ.nextId
    σ.issue.nextId).opcode := by
    unfold shortCircuitBranch
    split <;> rfl
  obtain ⟨hlater₃, hok₃⟩ := hok₂.closeBare hbranch hclose
    (by unfold shortCircuitBranch; split <;> simp [hl₂, hright₂, hmerge₂])
    (by unfold shortCircuitBranch; split <;> simp [hright, hmerge])
  exact ⟨Γ', hright, hmerge, hlater₁.trans (hlater₂.trans hlater₃), hok₃,
    hok₂.exists_closed hclose (hpush.label?.trans hlabel)⟩

/-- A short circuit: the right operand and the block behind it have what is available after the
left operand. -/
lemma goes_of_shortCircuits (heval : evaluate.Grounded env base live) (hmoving : evaluate.Moving)
    (hgrowing : evaluate.Growing) (hleft : left ∈ live)
    (hright : right ∈ live) {σ' : Body}
    (hshort : ShortCircuits env evaluate h op left right σ r id σ')
    (hok : Situation.Ok env base live ⟨Γ, A, ⟨σ, P, Q⟩⟩) :
    Situation.Goes env base live ⟨Γ, A, ⟨σ, P, Q⟩⟩ ⟨σ', P, Q⟩ [id] := by
  have hall := moves_of_shortCircuits hmoving hshort P Q
  obtain ⟨hext, htype, hl, hleftEnd, rfl, rfl, hpush, hclose, hopen, hr, hrightEnd, hclose',
    hopen', hphi⟩ := hshort
  rename_i σ₁ σ₂ σ₃ σ₄ σ₅ σ₆ σ₇ σ₈ r₁ r₂ type l x leftEnd rightEnd
  -- the left operand and the header
  have hmoves₁ : Moves false ⟨σ, P, Q⟩ [] ⟨σ₁, P, Q⟩ := .one (.extend hext)
  have hok₁ := hok.quiet hmoves₁ hext.closed hext.current? hext.values
  obtain ⟨Γ₂, A₂, hlater₂, hok₂, hl₂⟩ := heval hl hleft hok₁
  obtain ⟨Γ₄, hrightΓ, hmergeΓ, hlater₄, hok₄, left, hleftMem, hleftLabel, Aₗ, hAₗ,
    hleftAvailable⟩ :=
    hok₂.shortCircuitHeader (hl₂ l mem_cons_self) hleftEnd hpush hclose
  -- the right operand
  have hmoves₅ : Moves false ⟨σ₄, σ₂.issue.nextId :: σ₂.nextId :: P, Q⟩ [⟨.frame, .label σ₂.nextId⟩]
      ⟨σ₅, σ₂.issue.nextId :: P, Q⟩ := .one (.open (.swap ..) hopen)
  have hok₅ := hok₄.open hmoves₅ hopen hrightΓ hok₄.grounded hok₄.values
  obtain ⟨Γ₆, A₆, hlater₆, hok₆, hx₆⟩ := heval hr hright hok₅
  have hmergeΓ₆ := hlater₆.certificate _ _ hmergeΓ
  have hmergeUsable := hok₆.usable_label σ₂.issue.nextId mem_cons_self
  obtain ⟨hlater₇, hok₇⟩ := hok₆.closeBare rfl hclose' (by simp [hmergeUsable])
    (forall_mem_singleton.2 ⟨A₂, hmergeΓ₆, hlater₆.available⟩)
  obtain ⟨right, hrightMem, hrightLabel, Aᵣ, hAᵣ, hrightAvailable⟩ :=
    hok₆.exists_closed hclose' hrightEnd
  have hlater₅ := hlater₆.trans hlater₇
  -- the values are those after the left operand again
  obtain ⟨new, hgrows⟩ := hgrowing hr
  have hback : σ₇.values.rewind σ₅.values.mark = σ₅.values := by
    rw [hclose'.same.values]
    exact Valuation.rewind_eq hgrows
  rw [hback] at hopen'
  have hok₇ : Situation.Ok env base live
    ⟨Γ₆, A₆, ⟨σ₇.withValues σ₅.values, σ₂.issue.nextId :: P, Q⟩⟩ :=
    hok₇.value (fun g hg u hu => (hok₅.values g hg u hu).later hlater₅)
      (fun g hg u hu => (hok₅.references g hg u hu).mono (subset_refl _) hlater₅.outside)
  -- the block behind
  have hmoves₈ : Moves false ⟨σ₇.withValues σ₅.values, σ₂.issue.nextId :: P, Q⟩
      [⟨.frame, .label σ₂.issue.nextId⟩] ⟨σ₈, P, Q⟩ := .one (.open (.refl _) hopen')
  have hok₈ : Situation.Ok env base live ⟨Γ₆, A₂, ⟨σ₈, P, Q⟩⟩ :=
    hok₇.open hmoves₈ hopen' hmergeΓ₆ hok₅.grounded fun g hg u hu =>
      (hok₅.values g hg u hu).mono (subset_refl _) hlater₅.outside
  -- both operands are available at the ends of their blocks
  have hmoves₆ : Moves false ⟨σ₆, σ₂.issue.nextId :: P, Q⟩
      [⟨.frame, .branch σ₂.issue.nextId⟩, ⟨.frame, .label σ₂.issue.nextId⟩] ⟨σ₈, P, Q⟩ :=
    .cons (.close rfl hclose') (.cons (.value _) (.one (.open (.refl _) hopen')))
  have hmoves₄ := hmoves₅.trans ((hmoving hr (σ₂.issue.nextId :: P) Q).trans hmoves₆)
  have htype : Usable (Site.outside ⟨σ₈, P, Q⟩) base type :=
    (hok₁.usable_of_known htype).mono (subset_refl _)
      (hlater₂.outside.trans (hlater₄.outside.trans hmoves₄.outside_subset))
  have hl : Usable (Site.outside ⟨σ₈, P, Q⟩) A₂ l :=
    (hl₂ l mem_cons_self).mono (subset_refl _) (hlater₄.outside.trans hmoves₄.outside_subset)
  have hx : Usable (Site.outside ⟨σ₈, P, Q⟩) A₆ x :=
    (hx₆ x mem_cons_self).mono (subset_refl _) hmoves₆.outside_subset
  have hissue : Moves false ⟨σ₈, P, Q⟩ [] ⟨σ₈.issue, P, σ₈.nextId :: Q⟩ := .one .issueResult
  have htakes : Situation.Takes ⟨Γ₆, A₂, ⟨σ₈.issue, P, σ₈.nextId :: Q⟩⟩
      (.result .phi type σ₈.nextId (Operand.ids [l, leftEnd, x, rightEnd])) := by
    refine Situation.takes_phi (htype.mono hok₈.grounded hissue.outside_subset) ?_
    simp only [forall_mem_cons, not_mem_nil, false_imp_iff, forall_true_iff, and_true]
    refine ⟨⟨left, hmoves₄.closed_subset hleftMem, hleftLabel, Aₗ,
      hlater₆.certificate _ _ hAₗ, ?_⟩, ⟨right, hmoves₈.closed_subset hrightMem,
      hrightLabel, Aᵣ, hAᵣ, ?_⟩⟩
    · rw [hleftAvailable]
      exact hl.mono (subset_refl _) hissue.outside_subset
    · rw [hrightAvailable]
      exact hx.mono (subset_refl _) hissue.outside_subset
  have hphiMoves : Moves false ⟨σ₈.issue, P, σ₈.nextId :: Q⟩ [⟨.frame, .result .phi type σ₈.nextId
      (Operand.ids [l, leftEnd, x, rightEnd])⟩] ⟨σ', P, Q⟩ := .one (.result rfl hphi)
  have hok' := (hok₈.quiet hissue rfl rfl rfl).push hphiMoves hphi htakes
  have hcertificate := hlater₂.certificate.trans (hlater₄.certificate.trans hlater₆.certificate)
  have havailable := hlater₂.available.trans (subset_plus A₂ [.result .phi type σ₈.nextId
    (Operand.ids [l, leftEnd, x, rightEnd])])
  refine ⟨Γ₆, _, ⟨hcertificate, havailable, hall.outside_subset⟩, hok', ?_⟩
  refine forall_mem_singleton.2 (.inl (.inr ?_))
  exact mem_cons_self

/-- The operands of expressions that may be asked for may be asked for. -/
def FunctionEnv.Hereditary (env : FunctionEnv) (live : Set (Handle .expression)) : Prop :=
  ∀ h ∈ live, ∀ g ∈ env.function.operandsOf h, g ∈ live

/-- To whatever depth, an expression is computed from what is available. -/
lemma grounded_evaluated (hlive : env.Hereditary live) (base : Set Id) :
    ∀ depth, (Evaluated env depth).Grounded env base live := by
  intro depth
  induction depth with
  | zero => exact fun _ _ _ _ _ h => h.elim
  | succ depth ih =>
    intro h σ r id σ' heval hh Γ A P Q hok
    rcases heval with ⟨hvalue, -, rfl⟩ | ⟨-, e, σ₁, he, hcomputed, hext⟩
    · exact ⟨Γ, A, .refl _, hok, forall_mem_singleton.2 (hok.values h hh id hvalue)⟩
    have hoperands : ∀ g ∈ e.operands, g ∈ live := by
      have := hlive h hh
      rwa [IR.Function.operandsOf, he] at this
    -- references add no code, straight code uses the operands, a short circuit opens blocks
    have hgoes : Situation.Goes env base live ⟨Γ, A, ⟨σ, P, Q⟩⟩ ⟨σ₁, P, Q⟩ [id] ∧
        (e.isReference → Known env σ₁ id) := by
      rcases hcomputed.forms with ⟨-, rfl, hrefers, hknown⟩ | ⟨hnot, -, known, hchain⟩ |
        ⟨op, left, right, rfl, -, hshort⟩
      · have hmoves : Moves false ⟨σ, P, Q⟩ [] ⟨σ₁, P, Q⟩ := .one (.extend hrefers)
        have hok₁ := hok.quiet hmoves hrefers.closed hrefers.current? hrefers.values
        exact ⟨⟨Γ, A, ⟨.refl _, subset_refl _, hmoves.outside_subset⟩, hok₁,
          forall_mem_singleton.2 (hok₁.usable_of_base (hok₁.usable_of_known hknown))⟩,
          fun _ => hknown⟩
      · obtain ⟨Γ₁, A₁, hlater, hok₁, hids⟩ := goes_of_straight rfl ih hoperands hchain hok
          (forall_mem_nil _)
        exact ⟨⟨Γ₁, A₁, hlater, hok₁, forall_mem_singleton.2 (hids id mem_cons_self)⟩,
          fun href => absurd href (by simp [hnot])⟩
      · exact ⟨goes_of_shortCircuits ih (moving_evaluated env depth) (growing_evaluated env depth)
          (hoperands left (by simp [Expression.operands]))
          (hoperands right (by simp [Expression.operands])) hshort hok, fun h => by cases h⟩
    obtain ⟨⟨Γ₁, A₁, hlater₁, hok₁, hid⟩, hknown⟩ := hgoes
    have hid := hid id mem_cons_self
    have hreference : env.function.isProduced h = false → e.isReference := by
      simp only [IR.Function.isProduced, he, Option.any_some]
      cases e.isReference <;> simp
    have hok₂ : Situation.Ok env base live
      ⟨Γ₁, A₁, ⟨σ₁.withValues (σ₁.values.set h id), P, Q⟩⟩ := by
      refine hok₁.value (fun g hg u hu => ?_) (fun g hg u hu => ?_)
      · rcases Valuation.get?_set_eq_some hu with ⟨rfl, rfl⟩ | hu
        · exact hid
        · exact hok₁.values g hg u hu
      · rcases Valuation.get?_set_eq_some hu with ⟨rfl, rfl⟩ | hu
        · exact hok₁.usable_of_known (hknown (hreference hg))
        · exact hok₁.references g hg u hu
    have hmoves : Moves false ⟨σ₁.withValues (σ₁.values.set h id), P, Q⟩ [] ⟨σ', P, Q⟩ :=
      .one (.extend hext)
    have hlater₂ : Situation.Later ⟨Γ₁, A₁, ⟨σ₁, P, Q⟩⟩ ⟨Γ₁, A₁, ⟨σ', P, Q⟩⟩ :=
      ⟨.refl _, subset_refl _, hmoves.outside_subset⟩
    exact ⟨Γ₁, A₁, hlater₁.trans hlater₂, hok₂.quiet hmoves hext.closed hext.current? hext.values,
      forall_mem_singleton.2 (hid.later hlater₂)⟩

end

end Shader.Emit
