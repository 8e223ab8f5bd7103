import Shader.Proofs.Emission

/-!
# Moves

Whatever is emitted, expression or statement, is a sequence of moves: something is declared, an
id is issued for a label or for a result, an instruction is pushed, a block is closed or opened,
or what is known about values or constructs is set.  A move knows the ids that were issued and are
not defined yet.  What holds for every move holds for the emission of everything.

The main fact is that each id is issued once and defined at most once (`Sound`), and that an id
that belongs to something outside the code of the function will never be defined in it
(`Outside`).
-/

namespace Shader.Emit

open List Assembly
open IR (Statement SwitchCase)

variable {σ σ' σ₁ : Body} {r r' : Record} {restack : Bool} {labels P P' : List Id}
    {env : FunctionEnv} {allowed : Opcode → Bool} {p q : Point} {u label target : Id}
    {left right condition selector : Handle .expression}

/-- A state of the emission of a body, with the ids that are issued for labels and for results
and are not defined yet. -/
structure Site where
  body : Body
  labels : List Id
  results : List Id

variable {s s' : Site}

/-- One move.  Only the moves of statements set the constructs around. -/
inductive Move (restack : Bool) : Site → Record → Site → Prop where
  | extend {σ σ' : Body} {P Q : List Id} : σ.Extends σ' → Move restack ⟨σ, P, Q⟩ [] ⟨σ', P, Q⟩
  | issueLabel {σ : Body} {P Q : List Id} :
      Move restack ⟨σ, P, Q⟩ [] ⟨σ.issue, σ.nextId :: P, Q⟩
  | issueResult {σ : Body} {P Q : List Id} :
      Move restack ⟨σ, P, Q⟩ [] ⟨σ.issue, P, σ.nextId :: Q⟩
  | result {source : Source} {op : Opcode} {type id : Id} {operands : List Operand} {σ σ' : Body}
      {P Q : List Id} : op.isTyped → σ.Pushes (.result op type id operands) σ' →
      Move restack ⟨σ, P, id :: Q⟩ [⟨source, .result op type id operands⟩] ⟨σ', P, Q⟩
  | push {source : Source} {i : Instruction} {σ σ' : Body} {P Q : List Id} :
      Opcode.resultless.contains i.opcode → σ.Pushes i σ' →
      Move restack ⟨σ, P, Q⟩ [⟨source, i⟩] ⟨σ', P, Q⟩
  | close {source : Source} {i : Instruction} {σ σ' : Body} {P Q : List Id} :
      Opcode.resultless.contains i.opcode → σ.Closes i σ' →
      Move restack ⟨σ, P, Q⟩ [⟨source, i⟩] ⟨σ', P, Q⟩
  | open {source : Source} {label : Id} {σ σ' : Body} {P P' Q : List Id} :
      P.Perm (label :: P') → σ.Opens label σ' →
      Move restack ⟨σ, P, Q⟩ [⟨source, .label label⟩] ⟨σ', P', Q⟩
  | reorder {σ : Body} {P P' Q : List Id} : P.Perm P' → Move restack ⟨σ, P, Q⟩ [] ⟨σ, P', Q⟩
  | value {σ : Body} {P Q : List Id} (values : Valuation) :
      Move restack ⟨σ, P, Q⟩ [] ⟨σ.withValues values, P, Q⟩
  | stack {σ : Body} {P Q : List Id} (flow : ControlStack) : restack →
      Move restack ⟨σ, P, Q⟩ [] ⟨σ.withFlow flow, P, Q⟩

/-- A sequence of moves. -/
inductive Moves (restack : Bool) : Site → Record → Site → Prop where
  | nil {s : Site} : Moves restack s [] s
  | cons {s s₁ s' : Site} {r r' : Record} : Move restack s r s₁ → Moves restack s₁ r' s' →
      Moves restack s (r ++ r') s'

namespace Moves

variable {s₁ : Site}

lemma trans (h : Moves restack s r s₁) (h' : Moves restack s₁ r' s') :
    Moves restack s (r ++ r') s' := by
  induction h with
  | nil => exact h'
  | cons hmove _ ih =>
    rw [append_assoc]
    exact .cons hmove (ih h')

lemma one (h : Move restack s r s') : Moves restack s r s' := by
  have := Moves.cons h .nil
  rwa [append_nil] at this

lemma restacking (h : Moves false s r s') : Moves restack s r s' := by
  induction h with
  | nil => exact .nil
  | cons hmove _ ih =>
    refine .cons ?_ ih
    cases hmove with
    | extend h => exact .extend h
    | issueLabel => exact .issueLabel
    | issueResult => exact .issueResult
    | result h h' => exact .result h h'
    | push h h' => exact .push h h'
    | close h h' => exact .close h h'
    | «open» h h' => exact .open h h'
    | reorder h => exact .reorder h
    | value v => exact .value v
    | stack f h => cases h

end Moves

/-! ### What moves leave as it is -/

/-- The code goes on with that of the record, and what belongs to the function as a whole stays. -/
structure Keeps (σ : Body) (r : Record) (σ' : Body) : Prop where
  code : σ'.code = σ.code ++ r.code
  bound : σ.bound ≤ σ'.bound
  finished : σ'.progress.outcome = σ.progress.outcome
  arguments : σ'.arguments = σ.arguments
  locals : σ'.locals = σ.locals
  contents : σ'.contents = σ.contents
  /-- An id that is declared was declared, or is new. -/
  declared : ∀ u, σ'.progress.Declared u → σ.progress.Declared u ∨ σ.bound ≤ u.number

namespace Keeps

lemma refl (σ : Body) : Keeps σ [] σ :=
  ⟨(append_nil _).symm, Nat.le_refl _, rfl, rfl, rfl, rfl, fun _ h => .inl h⟩

lemma trans (h : Keeps σ r σ₁) (h' : Keeps σ₁ r' σ') : Keeps σ (r ++ r') σ' where
  code := by rw [h'.code, h.code, Record.code_append, append_assoc]
  bound := Nat.le_trans h.bound h'.bound
  finished := h'.finished.trans h.finished
  arguments := h'.arguments.trans h.arguments
  locals := h'.locals.trans h.locals
  contents := h'.contents.trans h.contents
  declared u hu := by
    rcases h'.declared u hu with hu | hu
    · exact h.declared u hu
    · exact .inr (Nat.le_trans h.bound hu)

lemma of_extends (h : σ.Extends σ') : Keeps σ [] σ' where
  code := by rw [h.code, Record.code_nil, append_nil]
  bound := h.bound
  finished := h.progress.finished
  arguments := h.arguments
  locals := h.locals
  contents := h.contents
  declared u hu := (h.progress.fresh u hu).imp_right And.left

lemma of_sameButCode (h : σ.SameButCode σ') (hcode : σ'.code = σ.code ++ [e.instruction]) :
    Keeps σ [e] σ' where
  code := hcode
  bound := h.bound ▸ Nat.le_refl _
  finished := h.finished
  arguments := h.arguments
  locals := h.locals
  contents := h.contents
  declared u hu := .inl ((h.declared u).1 hu)

end Keeps

lemma Move.keeps (h : Move restack s r s') : Keeps s.body r s'.body := by
  cases h with
  | extend h => exact .of_extends h
  | issueLabel | issueResult => exact .of_extends (Body.extends_issue _)
  | result _ h | push _ h | close _ h | «open» _ h => exact .of_sameButCode h.same h.code
  | reorder _ | value _ | stack _ => exact { Keeps.refl _ with }

lemma Moves.keeps (h : Moves restack s r s') : Keeps s.body r s'.body := by
  induction h with
  | nil => exact .refl _
  | cons hmove _ ih => exact hmove.keeps.trans ih

lemma Moves.flow (h : Moves false s r s') : s'.body.flow = s.body.flow := by
  induction h with
  | nil => rfl
  | cons hmove _ ih =>
    rw [ih]
    cases hmove with
    | extend h => exact h.flow
    | issueLabel | issueResult | reorder _ | value _ => rfl
    | result _ h | push _ h | close _ h | «open» _ h => exact h.same.flow
    | stack _ h => cases h

lemma Moves.closed_subset (h : Moves restack s r s') : s.body.closed ⊆ s'.body.closed := by
  induction h with
  | nil => exact Subset.refl _
  | cons hmove _ ih =>
    refine Subset.trans ?_ ih
    cases hmove with
    | extend h => exact h.closed ▸ Subset.refl _
    | issueLabel | issueResult | reorder _ | value _ | stack _ => exact Subset.refl _
    | result _ h | push _ h =>
      obtain ⟨_, -, -, hclosed⟩ := h.current
      exact hclosed ▸ Subset.refl _
    | close _ h =>
      obtain ⟨_, -, -, hclosed⟩ := h.current
      exact hclosed ▸ subset_append_left _ _
    | «open» _ h =>
      obtain ⟨-, -, hclosed⟩ := h.current
      exact hclosed ▸ Subset.refl _

/-! ### Every id is defined at most once -/

/-- The ids that are defined in the code or wait for their definition. -/
def Site.taken (s : Site) : List Id := definitions s.body.code ++ (s.labels ++ s.results)

/-- The id belongs to something outside the code of the function, or to a label. -/
def Outside (s : Site) (u : Id) :
    Prop := u.number < s.body.bound ∧ u ∉ results s.body.code ∧ u ∉ s.results

/-- The ids that are defined or wait for their definition are distinct and issued. -/
structure Numbered (s : Site) : Prop where
  distinct : s.taken.Nodup
  issued : ∀ u ∈ s.taken, u.number < s.body.bound

/-- Moreover, what is declared is outside. -/
structure Sound (s : Site) : Prop extends Numbered s where
  declared : ∀ u, s.body.progress.Declared u → Outside s u

section

variable (h : Move restack s r s')
include h

lemma Move.outside (hu : Outside s u) : Outside s' u := by
  obtain ⟨hbound, hcode, hpending⟩ := hu
  refine ⟨Nat.lt_of_lt_of_le hbound h.keeps.bound, ?_, ?_⟩
  · rw [h.keeps.code, results_append, mem_append, not_or]
    refine ⟨hcode, ?_⟩
    cases h with
    | result htyped _ =>
      show u ∉ results [_]
      rw [results_result htyped, mem_singleton]
      exact fun heq => hpending (heq ▸ mem_cons_self)
    | push hi _ | close hi _ =>
      show u ∉ results [_]
      rw [results_of_resultless hi]
      exact not_mem_nil
    | extend _ | issueLabel | issueResult | «open» _ _ | reorder _ | value _ | stack _ =>
      exact not_mem_nil
  · cases h with
    | issueResult =>
      rw [mem_cons, not_or]
      refine ⟨?_, hpending⟩
      rintro rfl
      exact Nat.lt_irrefl _ hbound
    | result _ _ => exact fun hu => hpending (mem_cons_of_mem _ hu)
    | _ => exact hpending

lemma Move.taken : s'.taken.Perm s.taken ∨
      (s'.taken.Perm (s.body.nextId :: s.taken) ∧ s'.body.bound = s.body.bound + 1) := by
  have hcode := h.keeps.code
  unfold Site.taken
  rw [hcode, definitions_append]
  cases h with
  | extend _ | value _ | stack _ => exact .inl (by simp)
  | issueLabel =>
    refine .inr ⟨?_, rfl⟩
    simp
  | issueResult =>
    refine .inr ⟨?_, rfl⟩
    simpa using (perm_middle.append_left _).trans perm_middle
  | result htyped _ =>
    refine .inl ?_
    simp only [Record.code_cons, Record.code_nil, definitions_result htyped, append_assoc,
      singleton_append]
    exact perm_middle.symm.append_left _
  | push hi _ | close hi _ =>
    refine .inl ?_
    simp [definitions_of_resultless hi]
  | «open» hperm _ =>
    refine .inl ?_
    simp only [Record.code_cons, Record.code_nil, definitions_label, append_assoc]
    exact (hperm.symm.append_right _).append_left _
  | reorder hperm =>
    refine .inl ?_
    simp only [Record.code_nil, definitions_nil, append_nil]
    exact (hperm.symm.append_right _).append_left _

lemma Move.numbered (hs : Numbered s) : Numbered s' where
  distinct := by
    rcases h.taken with hperm | ⟨hperm, -⟩
    · exact hperm.nodup_iff.2 hs.distinct
    · refine hperm.nodup_iff.2 (nodup_cons.2 ⟨fun hmem => ?_, hs.distinct⟩)
      exact Nat.lt_irrefl _ (hs.issued _ hmem)
  issued u hu := by
    rcases h.taken with hperm | ⟨hperm, hbound⟩
    · exact Nat.lt_of_lt_of_le (hs.issued u (hperm.mem_iff.1 hu)) h.keeps.bound
    · rw [hbound]
      rcases mem_cons.1 (hperm.mem_iff.1 hu) with rfl | hu
      · exact Nat.lt_succ_self _
      · exact Nat.lt_succ_of_lt (hs.issued u hu)

lemma Move.sound (hs : Sound s) : Sound s' where
  toNumbered := h.numbered hs.toNumbered
  declared u hu := by
    have hold : s.body.progress.Declared u → Outside s' u := fun hu => h.outside (hs.declared u hu)
    cases h with
    | extend hext =>
      rcases hext.progress.fresh u hu with hu | ⟨hlower, hupper⟩
      · exact hold hu
      · have hnew : u ∉ Site.taken ⟨_, _, _⟩ := fun hmem =>
          Nat.lt_irrefl _ (Nat.lt_of_lt_of_le (hs.issued u hmem) hlower)
        rw [Site.taken, mem_append, mem_append, not_or, not_or] at hnew
        refine ⟨hupper, ?_, hnew.2.2⟩
        rw [hext.code]
        exact fun hmem => hnew.1 (mem_definitions_of_mem_results hmem)
    | issueLabel | issueResult | reorder _ | value _ | stack _ => exact hold hu
    | result _ h | push _ h | close _ h | «open» _ h => exact hold ((h.same.declared u).1 hu)

end

lemma Sound.outside_label (hs : Sound s) (hlabel : label ∈ s.labels) : Outside s label := by
  have hmem : label ∈ s.taken := by simp [Site.taken, hlabel]
  have hdistinct := hs.distinct
  rw [Site.taken, nodup_append] at hdistinct
  obtain ⟨-, hpending, happart⟩ := hdistinct
  refine ⟨hs.issued _ hmem, fun hresult => ?_, fun hresult => ?_⟩
  · exact happart label (mem_definitions_of_mem_results hresult) label (by simp [hlabel]) rfl
  · exact (nodup_append.1 hpending).2.2 label hlabel label hresult rfl

lemma Moves.outside (h : Moves restack s r s') (hu : Outside s u) : Outside s' u := by
  induction h with
  | nil => exact hu
  | cons hmove _ ih => exact ih (hmove.outside hu)

lemma Moves.numbered (h : Moves restack s r s') (hs : Numbered s) : Numbered s' := by
  induction h with
  | nil => exact hs
  | cons hmove _ ih => exact ih (hmove.numbered hs)

lemma Moves.sound (h : Moves restack s r s') (hs : Sound s) : Sound s' := by
  induction h with
  | nil => exact hs
  | cons hmove _ ih => exact ih (hmove.sound hs)

/-! ### Expressions move -/

section

variable {evaluate : Evaluation} {source : Source} {operands : Handles}

/-- An evaluation is a sequence of moves, whatever ids wait for their definition. -/
def Evaluation.Moving (evaluate : Evaluation) : Prop :=
  ∀ ⦃h σ r id σ'⦄, evaluate h σ r id σ' → ∀ P Q, Moves false ⟨σ, P, Q⟩ r ⟨σ', P, Q⟩

lemma moves_of_emits (h : Emits source allowed p r q) (P Q : List Id) :
    Moves false ⟨p.body, P, p.pending ++ Q⟩ r ⟨q.body, P, q.pending ++ Q⟩ := by
  cases h with
  | result _ htyped _ _ hpush => exact .one (.result htyped hpush)
  | bare _ hi _ hpush => exact .one (.push hi hpush)

lemma moves_of_straight (heval : evaluate.Moving)
    (h : Straight env evaluate source allowed operands p r q) (P Q : List Id) :
    Moves false ⟨p.body, P, p.pending ++ Q⟩ r ⟨q.body, P, q.pending ++ Q⟩ := by
  induction h with
  | nil => exact .nil
  | cons hstep _ ih =>
    refine .trans ?_ ih
    cases hstep with
    | declare hext _ => exact .one (.extend hext)
    | issue => exact .one .issueResult
    | evaluate _ hevaluate => exact heval hevaluate P _
    | emit hemits => exact moves_of_emits hemits P Q

lemma moves_of_shortCircuits (heval : evaluate.Moving) {id : Id}
    (hshort : ShortCircuits env evaluate h op left right σ r id σ') (P Q : List Id) :
      Moves false ⟨σ, P, Q⟩ r ⟨σ', P, Q⟩ := by
  obtain ⟨hext, -, hl, -, rfl, rfl, hpush, hclose, hopen, hr, -, hclose', hopen', hphi⟩ := hshort
  rename_i σ₁ σ₂ σ₃ σ₄ σ₅ σ₆ σ₇ σ₈ r₁ r₂ type l x leftEnd rightEnd
  have hbranch : Opcode.resultless.contains (shortCircuitBranch op l σ₂.nextId
    σ₂.issue.nextId).opcode := by
    unfold shortCircuitBranch
    split <;> rfl
  have hleft : Moves false ⟨σ, P, Q⟩ r₁ ⟨σ₂, P, Q⟩ := .cons (.extend hext) (heval hl P Q)
  have hheader : Moves false ⟨σ₂, P, Q⟩ (.of (.expression h) [.selectionMerge σ₂.issue.nextId,
      shortCircuitBranch op l σ₂.nextId σ₂.issue.nextId, .label σ₂.nextId])
      ⟨σ₅, σ₂.issue.nextId :: P, Q⟩ :=
    .cons .issueLabel (.cons .issueLabel (.cons (.push rfl hpush) (.cons (.close hbranch hclose)
      (.one (.open (.swap ..) hopen)))))
  have hmerge : Moves false ⟨σ₆, σ₂.issue.nextId :: P, Q⟩ (.of (.expression h)
      [.branch σ₂.issue.nextId, .label σ₂.issue.nextId,
        .result .phi type σ₈.nextId (Operand.ids [l, leftEnd, x, rightEnd])]) ⟨σ', P, Q⟩ :=
    .cons (.close rfl hclose') (.cons (.value _) (.cons (.open (.refl _) hopen')
      (.cons .issueResult (.one (.result rfl hphi)))))
  exact ((hleft.trans hheader).trans (heval hr _ _)).trans hmerge

lemma moving_evaluated (env : FunctionEnv) : ∀ depth, Evaluation.Moving (Evaluated env depth) := by
  intro depth
  induction depth with
  | zero => exact fun _ _ _ _ _ h => h.elim
  | succ depth ih =>
    intro h σ r id σ' heval P Q
    rcases heval with ⟨-, rfl, rfl⟩ | ⟨-, e, σ₁, -, hcomputed, hext⟩
    · exact .nil
    · have hkept : Moves false ⟨σ₁, P, Q⟩ [] ⟨σ', P, Q⟩ := .cons (.value _) (.one (.extend hext))
      rw [← append_nil r]
      refine .trans ?_ hkept
      rcases hcomputed.forms with ⟨-, rfl, hrefers, -⟩ | ⟨-, -, known, hchain⟩ | ⟨_, _,
        _, -, -, hshort⟩
      · exact .one (.extend hrefers)
      · exact moves_of_straight ih hchain P Q
      · exact moves_of_shortCircuits ih hshort P Q

end

/-! ### Statements move -/

/-- An emission is a sequence of moves, whatever ids wait for their definition. -/
def Emission.Moving (emission : Emission) : Prop :=
  ∀ ⦃σ r σ'⦄, emission σ r σ' → ∀ P Q, Moves true ⟨σ, P, Q⟩ r ⟨σ', P, Q⟩

namespace Emission.Moving

variable {emission first second : Emission} {flow : ControlStack} {cases : List SwitchCase}
    {fallback : Option Id} {accept body continuing : ControlStack → Emission}

lemma skip : Moving skip := by
  rintro σ r σ' ⟨rfl, rfl⟩ P Q
  exact .nil

lemma andThen (h : Moving first) (h' : Moving second) : Moving (Then first second) := by
  rintro σ r σ' ⟨hfirst, hsecond⟩ P Q
  exact (h hfirst P Q).trans (h' hsecond P Q)

lemma ready : Moving Ready := by
  intro σ r σ' hready P Q
  cases hready with
  | already _ => exact .nil
  | fresh _ hopen => exact .cons .issueLabel (.one (.open (.refl _) hopen))

lemma closesTo (target : Id) : Moving (ClosesTo target) := by
  intro σ r σ' hcloses P Q
  cases hcloses with
  | ended _ => exact .nil
  | branch hclose => exact .one (.close rfl hclose)

lemma part (h : Moving emission) (hpart : Part label target emission σ r σ')
    (hP : P.Perm (label :: P')) (Q : List Id) : Moves true ⟨σ, P, Q⟩ r ⟨σ', P', Q⟩ := by
  obtain ⟨hopen, hinner, hcloses⟩ := hpart
  exact ((Moves.one (.open hP hopen)).trans (h hinner P' Q)).trans (closesTo target hcloses P' Q)

lemma evaluated {id : Id} (heval : Evaluated env env.depth h σ r id σ') (P Q : List Id) :
    Moves true ⟨σ, P, Q⟩ r ⟨σ', P, Q⟩ := (moving_evaluated env env.depth heval P Q).restacking

lemma straight (h : Chain env source allowed operands p r q) (P Q : List Id) :
    Moves true ⟨p.body, P, p.pending ++ Q⟩ r ⟨q.body, P, q.pending ++ Q⟩ :=
  (moves_of_straight (moving_evaluated env env.depth) h P Q).restacking

lemma emitted (count : Nat) : ∀ start, Moving (Emitted env start count) := by
  induction count with
  | zero => exact fun _ => skip
  | succ count ih =>
    intro start
    unfold Emitted
    split
    · exact ih (start + 1)
    · refine andThen ?_ (ih (start + 1))
      rintro σ r σ' ⟨id, heval⟩ P Q
      exact evaluated heval P Q

lemma affects (rank : Nat) (reads : Handles)
    (result : Option (Handle .expression)) : Moving (Affects env rank reads result) := by
  rintro σ r σ' ⟨hreads, hemits, hresult, hpending, hremembers⟩ P Q
  rename_i p q q' r₁ r₂ r₃
  have hall := ((straight hreads P Q).trans (moves_of_emits hemits P Q).restacking).trans
    (straight hresult P Q)
  rw [hpending] at hall
  unfold Remembers at hremembers
  split at hremembers
  · exact hremembers ▸ hall
  · obtain ⟨id, -, rfl⟩ := hremembers
    rw [← append_nil (r₁ ++ r₂ ++ r₃)]
    exact hall.trans (.one (.value _))

lemma branches (target : Except Assembly.Fault Id) : Moving (Branches target) := by
  rintro σ r σ' ⟨-, hclose⟩ P Q
  exact .one (.close rfl hclose)

lemma returns (value : Option (Handle .expression)) :
    Moving fun σ r σ' => Returns env σ value r σ' := by
  intro σ r σ' hreturns P Q
  cases hreturns with
  | nothing hclose => exact .one (.close rfl hclose)
  | value _ heval hclose => exact (evaluated heval P Q).trans (.one (.close rfl hclose))
  | outputs _ heval hchain hpending hclose =>
    have hstore := straight hchain P Q
    rw [hpending] at hstore
    exact ((evaluated heval P Q).trans hstore).trans (.one (.close rfl hclose))

lemma selects (haccept : ∀ inner, Moving (accept inner))
    (hreject : ∀ part ∈ reject, ∀ inner, Moving (part inner)) :
    Moving (Selects env flow condition accept reject) := by
  intro σ r σ' hselects P Q
  cases hselects with
  | @both _ c merge first second r r₁ r₂ _ σ₁ σ₂ σ₃ σ₄ σ₅ _ heval hmerge hfirst hsecond hpush hclose
      hpart hpart' hopen =>
    have hheader : Moves true ⟨σ₁, P, Q⟩ (.of .frame [.selectionMerge merge,
        .branchConditional c first second])
        ⟨σ₃.withFlow (flow.pushSelection merge), second :: first :: merge :: P, Q⟩ := by
      subst hmerge hfirst hsecond
      exact .cons .issueLabel (.cons .issueLabel (.cons .issueLabel (.cons (.push rfl hpush)
        (.cons (.close rfl hclose) (.one (.stack _ rfl))))))
    have hparts := (part (haccept _) hpart (.swap ..) Q).trans
      (part (hreject _ rfl _) hpart' (.refl (second :: merge :: P)) Q)
    have hmerge : Moves true ⟨σ₅, merge :: P, Q⟩ (.of .frame [.label merge]) ⟨σ', P, Q⟩ :=
      .cons (.stack _ rfl) (.one (.open (.refl _) hopen))
    have hall := (((evaluated heval P Q).trans hheader).trans hparts).trans hmerge
    simpa only [append_assoc] using hall
  | @one c merge first r r₁ _ σ₁ σ₂ σ₃ σ₄ _ heval hmerge hfirst hpush hclose hpart hopen =>
    have hheader : Moves true ⟨σ₁, P, Q⟩ (.of .frame [.selectionMerge merge,
        .branchConditional c first merge])
        ⟨σ₃.withFlow (flow.pushSelection merge), first :: merge :: P, Q⟩ := by
      subst hmerge hfirst
      exact .cons .issueLabel (.cons .issueLabel (.cons (.push rfl hpush)
        (.cons (.close rfl hclose) (.one (.stack _ rfl)))))
    have hmerge : Moves true ⟨σ₄, merge :: P, Q⟩ (.of .frame [.label merge]) ⟨σ', P, Q⟩ :=
      .cons (.stack _ rfl) (.one (.open (.refl _) hopen))
    exact (((evaluated heval P Q).trans hheader).trans (part (haccept _) hpart (.refl _) Q)).trans
      hmerge

lemma repeats (header merge : Id) (breakIf : Option (Handle .expression)) :
    Moving fun σ r σ' => Repeats env header merge σ breakIf r σ' := by
  intro σ r σ' hrepeats P Q
  cases hrepeats with
  | ended _ => exact .nil
  | always hclose => exact .one (.close rfl hclose)
  | «unless» _ heval hclose => exact (evaluated heval P Q).trans (.one (.close rfl hclose))

lemma loops (hbody : ∀ inner, Moving (body inner))
    (hcontinuing : ∀ inner, Moving (continuing inner)) :
    Moving (Loops env flow body continuing breakIf) := by
  rintro σ r σ' ⟨hheader, hfirst, hnext, hmerge, hclose, hopen, hpush, hclose', hpart,
    hopen', hinner, hrepeats, hopen''⟩ P Q
  rename_i header first next merge r₁ r₂ r₃ σ₁ σ₂ σ₃ σ₄ σ₅ σ₆ σ₇ σ₈
  have henter : Moves true ⟨σ, P, Q⟩
      (.of .frame [.branch header, .label header, .loopMerge merge next, .branch first])
      ⟨σ₄.withFlow (flow.pushLoop merge next), [merge, next] ++ first :: P, Q⟩ := by
    subst hheader hfirst hnext hmerge
    exact .cons .issueLabel (.cons .issueLabel (.cons .issueLabel (.cons .issueLabel
      (.cons (.close rfl hclose) (.cons (.open (@perm_middle _ σ.nextId [_, _, _] P) hopen)
        (.cons (.push rfl hpush) (.cons (.close rfl hclose') (.one (.stack _ rfl)))))))))
  have hbody := part (hbody _) hpart (@perm_middle _ first [merge, next] P) Q
  have hnext : Moves true ⟨σ₅, merge :: next :: P, Q⟩ (.of .frame [.label next])
      ⟨σ₆, merge :: P, Q⟩ := .one (.open (.swap ..) hopen')
  have hmerge : Moves true ⟨σ₈, merge :: P, Q⟩ (.of .frame [.label merge]) ⟨σ', P, Q⟩ :=
    .cons (.stack _ rfl) (.one (.open (.refl _) hopen''))
  exact ((((henter.trans hbody).trans hnext).trans (hcontinuing _ hinner _ Q)).trans
    (repeats header merge breakIf hrepeats _ Q)).trans hmerge

lemma issues (h : Issues as σ labels σ') (P Q : List Id) :
    Moves true ⟨σ, P, Q⟩ [] ⟨σ', labels.reverse ++ P, Q⟩ := by
  induction h generalizing P with
  | nil => exact .nil
  | cons _ ih =>
    rw [reverse_cons, append_assoc]
    exact .cons .issueLabel (ih _)

lemma defaults {default : Id} (h : Defaults cases labels σ default fallback σ') (P Q : List Id) :
    Moves true ⟨σ, P, Q⟩ [] ⟨σ', fallback.toList ++ P, Q⟩ := by
  cases h with
  | case _ => exact .nil
  | block _ => exact .one .issueLabel

lemma fallsBack {merge : Id} (h : FallsBack merge σ fallback r σ') (P Q : List Id) :
    Moves true ⟨σ, fallback.toList ++ P, Q⟩ r ⟨σ', P, Q⟩ := by
  cases h with
  | none => exact .nil
  | some hopen hclose => exact .cons (.open (.refl _) hopen) (.one (.close rfl hclose))

lemma length_of_issues (h : Issues as σ labels σ') : labels.length = as.length := by
  induction h with
  | nil => rfl
  | cons _ ih => exact congrArg (· + 1) ih

lemma switches (hparts : ∀ inner merge labels, labels.length = cases.length → ∀ ⦃σ r σ'⦄,
      parts inner merge labels σ r σ' → ∀ P Q, Moves true ⟨σ, labels ++ P, Q⟩ r ⟨σ', P, Q⟩) :
    Moving (Switches env flow selector cases parts) := by
  rintro σ r σ' ⟨hselector, -, rfl, hissues, hdefaults, hpush, hclose, hinner,
    hfallsBack, hopen⟩ P Q
  rename_i value default labels known fallback r₁ r₂ r₃ σ₁ σ₂ σ₃ σ₄ σ₅ σ₆ σ₇
  have hheader : Moves true ⟨σ₁, P, Q⟩ (.of .frame [.selectionMerge σ₁.nextId,
      switchInstruction value default cases labels])
      ⟨σ₅.withFlow (flow.pushSwitch σ₁.nextId), fallback.toList ++
      (labels.reverse ++ σ₁.nextId :: P), Q⟩ :=
    .cons .issueLabel ((issues hissues _ Q).trans ((defaults hdefaults _ Q).trans
      (.cons (.push rfl hpush) (.cons (.close rfl hclose) (.one (.stack _ rfl))))))
  have hperm : (fallback.toList ++ (labels.reverse ++ σ₁.nextId :: P)).Perm
      (labels ++ (fallback.toList ++ σ₁.nextId :: P)) := by
    refine ((reverse_perm labels).append_right _).append_left _ |>.trans ?_
    simp only [← append_assoc]
    exact perm_append_comm.append_right _
  have hmerge : Moves true ⟨σ₇, σ₁.nextId :: P, Q⟩ (.of .frame [.label σ₁.nextId]) ⟨σ', P, Q⟩ :=
    .cons (.stack _ rfl) (.one (.open (.refl _) hopen))
  exact ((((straight hselector P Q).trans hheader).trans
    (.cons (.reorder hperm) (hparts _ _ _ (length_of_issues hissues) hinner _ Q))).trans
      (fallsBack hfallsBack _ Q)).trans hmerge

end Emission.Moving

open Emission

section

variable (env : FunctionEnv)

mutual

/-- The code of a statement is a sequence of moves: one case per statement. -/
lemma moving_stated (s : Statement) : ∀ flow rank, Moving (Stated env flow rank s) := by
  intro flow rank
  unfold Stated
  refine .andThen .ready ?_
  match s with
  | .emit range => exact .emitted _ _
  | .block body => exact moving_statedAll body flow rank
  | .store .. | .call .. | .atomic .. => exact .affects ..
  | .ifElse condition accept reject =>
    refine .selects (fun inner => moving_statedAll accept inner _) ?_
    intro part hpart inner
    split at hpart
    · cases hpart
    · cases hpart
      exact moving_statedAll reject inner _
  | .switch selector cases =>
    exact .switches fun inner merge labels hlength => moving_statedCases cases inner rank
      merge labels hlength
  | .loop body continuing breakIf =>
    exact .loops (fun inner => moving_statedAll body inner _) fun inner =>
      moving_statedAll continuing inner _
  | .break | .continue => exact .branches _
  | .return value => exact .returns value
  | .kill =>
    rintro σ r σ' ⟨hclose, rfl⟩ P Q
    exact .one (.close rfl hclose)
  | .barrier b =>
    dsimp only
    split
    · exact .skip
    · exact .affects ..

lemma moving_statedAll (body : List Statement) :
    ∀ flow rank, Moving (StatedAll env flow rank body) := by
  intro flow rank
  match body with
  | [] => exact .skip
  | s :: rest => exact .andThen (moving_stated s flow rank) (moving_statedAll rest flow _)

lemma moving_statedCases (cases : List SwitchCase) :
    ∀ flow rank merge labels, labels.length = cases.length → ∀ ⦃σ r σ'⦄,
      StatedCases env flow rank merge cases labels σ r σ' →
      ∀ P Q, Moves true ⟨σ, labels ++ P, Q⟩ r ⟨σ', P, Q⟩ := by
  intro flow rank merge labels hlength σ r σ' hcases P Q
  match cases, labels, hcases with
  | [], [], hcases =>
    obtain ⟨rfl, rfl⟩ := hcases
    exact .nil
  | c :: rest, label :: labels, hcases =>
    obtain ⟨hpart, hrest⟩ := hcases
    exact (Emission.Moving.part (moving_statedCase c flow rank) hpart (.refl _) Q).trans
      (moving_statedCases rest flow _ merge labels (Nat.succ.inj hlength) hrest P Q)

lemma moving_statedCase (c : SwitchCase) : ∀ flow rank, Moving (StatedCase env flow rank c) := by
  intro flow rank
  match c with
  | ⟨_, body⟩ => exact moving_statedAll body flow rank

end

end

end Shader.Emit
