import Shader.Proofs.Deferral
import Shader.Proofs.Emission
import Shader.Proofs.Valuation

/-!
# Which expressions have a value

In a well-scoped function the expressions in scope have values, apart from those that are computed
only when they are needed.  So a statement that uses an expression finds its value, and a statement
gives values only to what it produces itself, and to references.  What is computed on the right of a
short circuit is forgotten behind it.
-/

namespace Shader.Emit

open List Assembly
open IR (Expression Statement SwitchCase)

variable {r : Record} {h left right g condition selector : Handle .expression} {σ σ' : Body}
    {source : Source} {allowed : Opcode → Bool} {p q : Point} {operands : Handles}
    {v v₁ v' : Valuation} {result value : Option (Handle .expression)}

/-! ### Values only grow -/

/-- An evaluation gives values to expressions that had none. -/
def Evaluation.Growing (evaluate : Evaluation) : Prop :=
  ∀ ⦃h σ r id σ'⦄, evaluate h σ r id σ' → ∃ new, σ.values.Grows σ'.values new

section

variable {env : FunctionEnv} {evaluate : Evaluation}

lemma values_of_emits (h : Emits source allowed p r q) : q.body.values = p.body.values := by
  cases h with
  | result _ _ _ _ hpush | bare _ _ _ hpush => exact hpush.same.values

lemma grows_of_straight (heval : evaluate.Growing)
    (h : Straight env evaluate source allowed operands p r q) :
    ∃ new, p.body.values.Grows q.body.values new := by
  induction h with
  | nil => exact ⟨[], .refl _⟩
  | @cons p q _ r _ hstep _ ih =>
    have hfirst : ∃ new, p.body.values.Grows q.body.values new := by
      cases hstep with
      | declare hext _ => exact ⟨[], hext.values ▸ .refl _⟩
      | issue => exact ⟨[], .refl _⟩
      | evaluate _ hevaluate => exact heval hevaluate
      | emit hemits => exact ⟨[], values_of_emits hemits ▸ .refl _⟩
    obtain ⟨_, hgrows⟩ := hfirst
    obtain ⟨_, hgrows'⟩ := ih
    exact ⟨_, hgrows.trans hgrows'⟩

lemma values_of_shortCircuits (heval : evaluate.Growing) {id : Id}
    (hshort : ShortCircuits env evaluate h op left right σ r id σ') :
    ∃ σ₁ σ₂ r₁ l, σ₁.values = σ.values ∧ evaluate left σ₁ r₁ l σ₂ ∧ σ'.values = σ₂.values := by
  obtain ⟨hext, -, hl, -, -, -, hpush, hclose, hopen, hr, -, hclose', hopen', hphi⟩ := hshort
  rename_i σ₁ σ₂ σ₃ σ₄ σ₅ σ₆ σ₇ σ₈ _ _ _ _ _ _ _ _ _
  refine ⟨σ₁, σ₂, _, _, hext.values, hl, ?_⟩
  obtain ⟨new, hgrows⟩ := heval hr
  have hback : σ₇.values.rewind σ₅.values.mark = σ₅.values := by
    rw [hclose'.same.values]
    exact Valuation.rewind_eq hgrows
  calc σ'.values = σ₈.values := hphi.same.values
    _ = σ₇.values.rewind σ₅.values.mark := hopen'.same.values
    _ = σ₅.values := hback
    _ = σ₂.values := by
      rw [hopen.same.values, hclose.same.values, hpush.same.values]
      rfl

lemma growing_evaluated (env : FunctionEnv) :
    ∀ depth, Evaluation.Growing (Evaluated env depth) := by
  intro depth
  induction depth with
  | zero => exact fun _ _ _ _ _ h => h.elim
  | succ depth ih =>
    intro h σ r id σ' heval
    rcases heval with ⟨-, -, rfl⟩ | ⟨hnone, e, σ₁, -, hcomputed, hext⟩
    · exact ⟨[], .refl _⟩
    · have hgrows : ∃ new, σ.values.Grows σ₁.values new := by
        rcases hcomputed.forms with ⟨-, -, hrefers, -⟩ | ⟨-, -, known, hchain⟩ | ⟨_, _,
          _, -, -, hshort⟩
        · exact ⟨[], hrefers.values ▸ .refl _⟩
        · exact grows_of_straight ih hchain
        · obtain ⟨_, _, _, _, hvalues, hl, hvalues'⟩ := values_of_shortCircuits ih hshort
          rw [hvalues', ← hvalues]
          exact ih hl
      obtain ⟨new, hgrows⟩ := hgrows
      obtain ⟨new', hset⟩ := hgrows.set hnone id
      exact ⟨new', hext.values ▸ hset⟩

end

/-! ### Scenes -/

/-- The expression is computed only when it is needed. -/
def FunctionEnv.isLazy (env : FunctionEnv) (h : Handle .expression) : Bool :=
  env.function.isComputed h && env.deferred.getD h.index false

/-- The expressions that have to be produced keep their values. -/
structure Untouched (f : IR.Function) (v v' : Valuation) : Prop where
  size : v'.size = v.size
  same : ∀ h, f.isProduced h → v'.get? h = v.get? h

lemma Untouched.refl (f : IR.Function) (v : Valuation) : Untouched f v v := ⟨rfl, fun _ _ => rfl⟩

lemma Untouched.trans (h : Untouched f v v₁) (h' : Untouched f v₁ v') : Untouched f v v' :=
  ⟨h'.size.trans h.size, fun g hg => (h'.same g hg).trans (h.same g hg)⟩

/-- What is in scope has a value, unless it is lazy, and since the values were `start`, only
`made` got values. -/
structure Scene (env : FunctionEnv) (scope : Handles) (start : Valuation)
    (made : Handles) (v : Valuation) : Prop where
  closed : env.function.Closed scope
  size : v.size = env.function.expressions.size
  kept : ∀ h ∈ scope, env.isLazy h = false → ∃ id, v.get? h = some id
  spared : ∀ h, env.function.isProduced h → h ∉ made → v.get? h = start.get? h

namespace Scene

variable {env : FunctionEnv} {scope made scope' : Handles} {start : Valuation}

lemma untouched (hscene : Scene env scope start made v) (h : Untouched env.function v v') :
    Scene env scope start made v' where
  closed := hscene.closed
  size := h.size.trans hscene.size
  kept g hg hlazy := by
    rw [h.same g (hscene.closed.produced g hg)]
    exact hscene.kept g hg hlazy
  spared g hg hmade := (h.same g hg).trans (hscene.spared g hg hmade)

lemma restrict {inner : Handles} (hinner : Scene env inner start made v')
    (hscope : env.function.Closed scope) (hsub : scope ⊆ inner) :
    Scene env scope start made v' where
  closed := hscope
  size := hinner.size
  kept h hh hlazy := hinner.kept h (hsub hh) hlazy
  spared := hinner.spared

section

variable (hscene : Scene env scope start made v)
include hscene

lemma set (id : Id) (hclosed : env.function.Closed (h :: scope))
    (hlt : h.index < v.size) (hmade : h ∈ made) :
    Scene env (h :: scope) start made (v.set h id) where
  closed := hclosed
  size := Valuation.size_set.trans hscene.size
  kept g hg hlazy := by
    by_cases hgh : g = h
    · subst hgh
      exact ⟨id, Valuation.get?_set_self hlt⟩
    · rw [Valuation.get?_set_of_ne hgh]
      exact hscene.kept g ((mem_cons.1 hg).resolve_left hgh) hlazy
  spared g hg hnot := by
    have hne : g ≠ h := by
      rintro rfl
      exact hnot hmade
    rw [Valuation.get?_set_of_ne hne]
    exact hscene.spared g hg hnot

lemma congr (hiff : ∀ h, h ∈ scope ↔ h ∈ scope') : Scene env scope' start made v :=
  hscene.restrict (hscene.closed.congr hiff) fun h hh => (hiff h).2 hh

lemma restart (made' : Handles) : Scene env scope v made' v :=
  ⟨hscene.closed, hscene.size, hscene.kept, fun _ _ _ => rfl⟩

end

end Scene

/-! ### Evaluation in a scene -/

section

variable {env : FunctionEnv} {scope made : Handles} {start : Valuation} {id : Id} {depth : Nat}
    {e : Expression}

/-- What is evaluated without being computed is a reference, and not the result of a statement. -/
lemma not_isProduced_of_computed (he : env.function.expressions.get? h = some e)
    (hh : env.function.isComputed h = false) (hcomputed : Computed env evaluate h e σ r id σ') :
    e.isReference ∧ env.function.isProduced h = false := by
  have hreference : e.isReference := by simpa [IR.Function.isComputed, he] using hh
  have hresult : e.isResult = false := by
    cases e <;> first | rfl | exact hcomputed.elim
  exact ⟨hreference, by simp [IR.Function.isProduced, he, hreference, hresult]⟩

lemma untouched_of_not_isComputed (hh : env.function.isComputed h = false)
    (heval : Evaluated env depth h σ r id σ') :
    r = [] ∧ Untouched env.function σ.values σ'.values := by
  rcases heval.inv with ⟨-, rfl, rfl⟩ | ⟨-, _, e, σ₁, he, hcomputed, hext⟩
  · exact ⟨rfl, .refl _ _⟩
  · obtain ⟨hreference, hproduced⟩ := not_isProduced_of_computed he hh hcomputed
    rcases hcomputed.forms with ⟨-, rfl, hrefers, -⟩ | ⟨hnot, -⟩ | ⟨_, _, _, rfl, -⟩
    · refine ⟨rfl, ?_, fun g hg => ?_⟩
      · rw [hext.values, ← hrefers.values]
        exact Valuation.size_set
      · have hne : g ≠ h := by
          rintro rfl
          rw [hproduced] at hg
          cases hg
        rw [hext.values, ← hrefers.values]
        exact Valuation.get?_set_of_ne hne
    · rw [hreference] at hnot
      cases hnot
    · cases hreference

/-- What is in scope has a value, unless it is lazy. -/
def Kept (env : FunctionEnv) (scope : Handles) (v : Valuation) : Prop :=
  ∀ h ∈ scope, env.isLazy h = false → ∃ id, v.get? h = some id

lemma Kept.settled (hkept : Kept env scope σ.values) (hin : env.function.inScope scope h)
    (hlazy : env.isLazy h = false) (heval : Evaluated env depth h σ r id σ') :
    r = [] ∧ Untouched env.function σ.values σ'.values := by
  by_cases hh : env.function.isComputed h
  · have hmem := IR.Function.mem_of_inScope hin (IR.Function.isProduced_of_isComputed hh)
    obtain ⟨value, hvalue⟩ := hkept h hmem hlazy
    rcases heval.inv with ⟨-, rfl, rfl⟩ | ⟨hnone, -⟩
    · exact ⟨rfl, .refl _ _⟩
    · rw [hvalue] at hnone
      cases hnone
  · exact untouched_of_not_isComputed (Bool.eq_false_iff.2 hh) heval

lemma Scene.settled (hscene : Scene env scope start made σ.values)
    (hin : env.function.inScope scope h)
    (hlazy : env.isLazy h = false) (heval : Evaluated env depth h σ r id σ') :
    r = [] ∧ Untouched env.function σ.values σ'.values := Kept.settled hscene.kept hin hlazy heval

lemma Scene.straight (hscene : Scene env scope start made p.body.values)
    (hoperands : ∀ g ∈ operands, env.function.inScope scope g ∧ env.isLazy g = false)
    (hchain : Straight env (Evaluated env depth) source allowed operands p r q) :
    Untouched env.function p.body.values q.body.values ∧
      ∀ e ∈ r, e.source = source ∧ allowed e.instruction.opcode := by
  induction hchain with
  | nil => exact ⟨.refl _ _, nofun⟩
  | @cons p q q' r r' hstep _ ih =>
    have hfirst : Untouched env.function p.body.values q.body.values ∧
        ∀ e ∈ r, e.source = source ∧ allowed e.instruction.opcode := by
      cases hstep with
      | declare hext _ => exact ⟨hext.values ▸ .refl _ _, nofun⟩
      | issue => exact ⟨.refl _ _, nofun⟩
      | evaluate hh heval =>
        obtain ⟨rfl, huntouched⟩ := hscene.settled (hoperands _ hh).1 (hoperands _ hh).2 heval
        exact ⟨huntouched, nofun⟩
      | emit hemits =>
        refine ⟨values_of_emits hemits ▸ .refl _ _, ?_⟩
        cases hemits with
        | result hop _ _ _ _ | bare hop _ _ _ =>
          intro e he
          obtain rfl := mem_singleton.1 he
          exact ⟨rfl, hop⟩
    obtain ⟨huntouched, hentries⟩ := hfirst
    obtain ⟨huntouched', hentries'⟩ := ih (hscene.untouched huntouched)
    refine ⟨huntouched.trans huntouched', fun e he => ?_⟩
    rcases mem_append.1 he with he | he
    · exact hentries e he
    · exact hentries' e he

section

variable (hanalysis : env.deferred = deferred env.function)
include hanalysis

/-- An operand of what is not deferred is not lazy, unless it stands on the right of a short
circuit. -/
lemma not_isLazy_of_operand
    (he : env.function.expressions.get? h = some e) (hnot : env.deferred.getD h.index false = false)
    (hg : g ∈ e.operands) (hright : onRightOnly g e = false) : env.isLazy g = false := by
  by_contra hlazy
  rw [Bool.not_eq_false, FunctionEnv.isLazy, Bool.and_eq_true, hanalysis] at hlazy
  rcases (user_of_deferred hlazy.2 he hg).2 with honRight | ⟨-, hdeferred⟩
  · rw [hright] at honRight
    cases honRight
  · rw [hanalysis, hdeferred] at hnot
    cases hnot

lemma Scene.computed
    (hscene : Scene env scope start made σ.values) (he : env.function.expressions.get? h = some e)
    (hnot : env.deferred.getD h.index false = false)
    (hoperands : ∀ g ∈ e.operands, env.function.inScope scope g)
    (hcomputed : Computed env (Evaluated env depth) h e σ r id σ') :
    Untouched env.function σ.values σ'.values := by
  rcases hcomputed.forms with ⟨-, -, hrefers, -⟩ | ⟨-, hop, known, hchain⟩ | ⟨op, left, right,
    rfl, -, hshort⟩
  · exact hrefers.values ▸ .refl _ _
  · refine (hscene.straight (fun g hg => ⟨hoperands g hg, ?_⟩) hchain).1
    refine not_isLazy_of_operand hanalysis he hnot hg ?_
    cases e <;> first | rfl | simp_all [onRightOnly, Expression.isShortCircuit]
  · obtain ⟨σ₁, σ₂, r₁, l, hvalues, hl, hvalues'⟩ :=
      values_of_shortCircuits (growing_evaluated env depth) hshort
    have hlazy := not_isLazy_of_operand hanalysis he hnot mem_cons_self (by simp [onRightOnly])
    rw [← hvalues] at hscene
    rw [hvalues', ← hvalues]
    exact (hscene.settled (hoperands left mem_cons_self) hlazy hl).2

lemma Scene.emit (hscene : Scene env scope start made σ.values) (hh : env.function.isComputed h)
    (hnot : env.deferred.getD h.index false = false)
    (hoperands : ∀ g ∈ env.function.operandsOf h, env.function.inScope scope g) (hmade : h ∈ made)
    (heval : Evaluated env depth h σ r id σ') : Scene env (h :: scope) start made σ'.values := by
  have hclosed := hscene.closed.cons (IR.Function.isProduced_of_isComputed hh) hoperands
  rcases heval.inv with ⟨hvalue, -, rfl⟩ | ⟨-, _, e, σ₁, he, hcomputed, hext⟩
  · refine ⟨hclosed, hscene.size, fun g hg hlazy => ?_, hscene.spared⟩
    rcases mem_cons.1 hg with rfl | hg
    · exact ⟨id, hvalue⟩
    · exact hscene.kept g hg hlazy
  · have hoperands' : ∀ g ∈ e.operands, env.function.inScope scope g := by
      simpa [IR.Function.operandsOf, he] using hoperands
    have huntouched := hscene.untouched (hscene.computed hanalysis he hnot hoperands' hcomputed)
    have hlt : h.index < σ₁.values.size := by
      rw [huntouched.size]
      exact Arena.get?_eq_some_lt he
    rw [hext.values]
    exact huntouched.set id hclosed hlt hmade

end

end

/-! ### Statements in a scene -/

section

variable {env : FunctionEnv} {start : Valuation} {made scope reads hs : Handles}
    {flow : ControlStack} {rank first : Nat} {target label header merge : Id} {ls labels : List Id}
    {cases : List SwitchCase} {fallback : Option Id}

/-- The run of an emit, by the expressions that it brings into scope: some are only mentioned, and
lazy ones get no value. -/
inductive EmitRun (env : FunctionEnv) : Handles → Handles → Body → Record → Body → Prop where
  | done {scope : Handles} {σ : Body} : EmitRun env scope [] σ [] σ
  | mention {scope hs : Handles} {h : Handle .expression} {id : Id} {σ σ₁ σ' : Body}
      {r r' : Record} :
      env.function.isComputed h = false → Evaluated env env.depth h σ r id σ₁ →
      EmitRun env scope hs σ₁ r' σ' → EmitRun env scope hs σ (r ++ r') σ'
  | skip {scope hs : Handles} {h : Handle .expression} {σ σ' : Body} {r : Record} : env.isLazy h →
      (∀ g ∈ env.function.operandsOf h, env.function.inScope scope g) →
      EmitRun env (h :: scope) hs σ r σ' → EmitRun env scope (h :: hs) σ r σ'
  | emit {scope hs : Handles} {h : Handle .expression} {id : Id} {σ σ₁ σ' : Body} {r r' : Record} :
      env.function.isComputed h → env.deferred.getD h.index false = false →
      (∀ g ∈ env.function.operandsOf h, env.function.inScope scope g) → h ∉ hs →
      Evaluated env env.depth h σ r id σ₁ → EmitRun env (h :: scope) hs σ₁ r' σ' →
      EmitRun env scope (h :: hs) σ (r ++ r') σ'

lemma emitRun_of_emitted (count : Nat) : ∀ {first scope σ r σ'},
      env.function.emitScoped scope
        (((range' first count).map Handle.mk).filter env.function.isComputed) →
      Emitted env first count σ r σ' →
      EmitRun env scope (((range' first count).map Handle.mk).filter env.function.isComputed) σ r
        σ' := by
  induction count with
  | zero =>
    rintro first scope σ r σ' - ⟨rfl, rfl⟩
    exact .done
  | succ count ih =>
    intro first scope σ r σ' hscoped hemitted
    unfold Emitted at hemitted
    simp only [range'_succ, map_cons, filter_cons] at hscoped ⊢
    by_cases hh : env.function.isComputed ⟨first⟩
    · simp only [hh, if_true, IR.Function.emitScoped, Bool.and_eq_true, all_eq_true] at hscoped
      simp only [hh, if_true]
      split at hemitted
      · exact .skip (by simp [FunctionEnv.isLazy, *]) hscoped.1 (ih hscoped.2 hemitted)
      · obtain ⟨⟨id, heval⟩, hrest⟩ := hemitted
        refine .emit hh (Bool.eq_false_iff.2 ‹_›) hscoped.1 (fun hmem => ?_) heval
          (ih hscoped.2 hrest)
        -- the rest of the run lies behind its first expression
        obtain ⟨i, hi, hfirst⟩ := mem_map.1 (mem_filter.1 hmem).1
        have := Handle.mk.inj hfirst
        have := (mem_range'_1.1 hi).1
        omega
    · simp only [hh, Bool.false_eq_true, if_false] at hscoped ⊢
      split at hemitted
      · exact ih hscoped hemitted
      · obtain ⟨⟨id, heval⟩, hrest⟩ := hemitted
        exact .mention (Bool.eq_false_iff.2 hh) heval (ih hscoped hrest)

lemma Scene.skip (hscene : Scene env scope start made v) (hlazy : env.isLazy h)
    (hoperands : ∀ g ∈ env.function.operandsOf h, env.function.inScope scope g) :
    Scene env (h :: scope) start made v := by
  have hh := (Bool.and_eq_true_iff.1 hlazy).1
  refine ⟨hscene.closed.cons (IR.Function.isProduced_of_isComputed hh) hoperands, hscene.size,
    fun g hg hnot => ?_, hscene.spared⟩
  rcases mem_cons.1 hg with rfl | hg
  · rw [hlazy] at hnot
    cases hnot
  · exact hscene.kept g hg hnot

lemma Scene.run (hanalysis : env.deferred = deferred env.function)
    (hscene : Scene env scope start made σ.values) (hmade : hs ⊆ made)
    (hrun : EmitRun env scope hs σ r σ') :
    Scene env (hs ++ scope) start made σ'.values := by
  induction hrun with
  | done => exact hscene
  | mention hh heval _ ih =>
    exact ih (hscene.untouched (untouched_of_not_isComputed hh heval).2) hmade
  | skip hlazy hoperands _ ih =>
    rw [cons_subset] at hmade
    exact (ih (hscene.skip hlazy hoperands) hmade.2).congr fun _ => perm_middle.mem_iff
  | emit hh hnot hoperands _ heval _ ih =>
    rw [cons_subset] at hmade
    exact (ih (hscene.emit hanalysis hh hnot hoperands hmade.1 heval) hmade.2).congr fun _ =>
      perm_middle.mem_iff

/-- What statements read is in scope and not lazy. -/
def Readable (env : FunctionEnv) (scope reads : Handles) : Prop :=
  ∀ h ∈ reads, env.function.inScope scope h ∧ env.isLazy h = false

lemma Scene.affects (hscene : Scene env scope start made σ.values)
    (hreads : Readable env scope reads) (hresult : ∀ h ∈ result, env.function.IsResult h ∧ h ∈ made)
    (haffects : Affects env rank reads result σ r σ') :
    Scene env (result.toList ++ scope) start made σ'.values := by
  obtain ⟨hchain, hemits, hchain', -, hremembers⟩ := haffects
  rename_i p q q' _ _ _
  have hbefore := hscene.untouched (hscene.straight hreads hchain).1
  have hafter : Scene env scope start made q'.body.values := by
    rw [← values_of_emits hemits] at hbefore
    exact hbefore.untouched (hbefore.straight (fun _ hg => absurd hg not_mem_nil) hchain').1
  cases result with
  | none =>
    obtain rfl : σ' = q'.body := hremembers
    exact hafter
  | some h =>
    obtain ⟨id, -, rfl⟩ := hremembers
    obtain ⟨hh, hmade⟩ := hresult h rfl
    refine hafter.set id (hafter.closed.cons hh.isProduced (by simp [hh.operandsOf])) ?_ hmade
    obtain ⟨e, he, -⟩ := hh
    rw [hafter.size]
    exact Arena.get?_eq_some_lt he

lemma values_of_ready (h : Ready σ r σ') : σ'.values = σ.values := by
  cases h with
  | already _ => rfl
  | fresh _ hopen => exact hopen.same.values

lemma values_of_closesTo (h : ClosesTo target σ r σ') : σ'.values = σ.values := by
  cases h with
  | ended _ => rfl
  | branch hclose => exact hclose.same.values

lemma values_of_issues (h : Issues as σ ls σ') : σ'.values = σ.values := by
  induction h with
  | nil => rfl
  | cons _ ih => exact ih

lemma values_of_defaults {default : Id}
    (h : Defaults cases ls σ default fallback σ') : σ'.values = σ.values := by
  cases h with
  | case _ | block _ => rfl

lemma values_of_fallsBack {merge : Id} (h : FallsBack merge σ fallback r σ') :
    σ'.values = σ.values := by
  cases h with
  | none => rfl
  | some hopen hclose => exact hclose.same.values.trans hopen.same.values

/-- A part takes a scene to one in which more is in scope. -/
def Emission.Stages (env : FunctionEnv) (start : Valuation) (made scope inner : Handles)
    (emission : Emission) : Prop :=
  ∀ ⦃σ r σ'⦄, Scene env scope start made σ.values → emission σ r σ' → Scene env inner
    start made σ'.values

variable {inner inner' l l' : Handles} {accept body continuing : ControlStack → Emission}

lemma Part.scene (hpart : Part label target emission σ r σ')
    (hscene : Scene env scope start made σ.values)
    (hemission : emission.Stages env start made scope inner)
    (hsub : scope ⊆ inner) : Scene env scope start made σ'.values := by
  obtain ⟨hopen, hinner, hcloses⟩ := hpart
  rw [← hopen.same.values] at hscene
  rw [values_of_closesTo hcloses]
  exact (hemission hscene hinner).restrict hscene.closed hsub

section

variable (hscene : Scene env scope start made σ.values) {breakIf : Option (Handle .expression)}
include hscene

lemma Scene.evaluated {id : Id}
    (hreads : Readable env scope [h]) (heval : Evaluated env env.depth h σ r id σ') :
    Scene env scope start made σ'.values := by
  obtain ⟨hin, hlazy⟩ := hreads h mem_cons_self
  exact hscene.untouched (hscene.settled hin hlazy heval).2

lemma Scene.returns (hreads : Readable env scope value.toList)
    (hreturns : Returns env σ value r σ') :
    Scene env scope start made σ'.values := by
  cases hreturns with
  | nothing hclose => exact hclose.same.values ▸ hscene
  | value _ heval hclose => exact hclose.same.values ▸ hscene.evaluated hreads heval
  | outputs _ heval hchain _ hclose =>
    have hvalue := hscene.evaluated hreads heval
    rw [hclose.same.values]
    exact hvalue.untouched (hvalue.straight (fun _ hg => absurd hg not_mem_nil) hchain).1

lemma Scene.selects (hreads : Readable env scope [condition])
    (haccept : ∀ flow, (accept flow).Stages env start made scope inner) (hsub : scope ⊆ inner)
    (hreject : ∀ part ∈ reject, ∀ flow, (part flow).Stages env start made scope inner')
    (hsub' : scope ⊆ inner') (hselects : Selects env flow condition accept reject σ r σ') :
    Scene env scope start made σ'.values := by
  cases hselects with
  | @both _ _ _ _ _ _ _ _ _ σ₁ σ₂ σ₃ σ₄ σ₅ _ heval _ _ _ hpush hclose hpart hpart' hopen =>
    have hcondition := hscene.evaluated hreads heval
    have hheader : Scene env scope start made σ₃.values := by
      rw [hclose.same.values, hpush.same.values]
      exact hcondition
    have hparts : Scene env scope start made σ₅.values :=
      hpart'.scene (hpart.scene hheader (haccept _) hsub) (hreject _ rfl _) hsub'
    exact hopen.same.values ▸ hparts
  | @one _ _ _ _ _ _ σ₁ σ₂ σ₃ σ₄ _ heval _ _ hpush hclose hpart hopen =>
    have hcondition := hscene.evaluated hreads heval
    have hheader : Scene env scope start made σ₃.values := by
      rw [hclose.same.values, hpush.same.values]
      exact hcondition
    have hpart : Scene env scope start made σ₄.values := hpart.scene hheader (haccept _) hsub
    exact hopen.same.values ▸ hpart

lemma Scene.repeats {merge : Id}
    (hreads : Readable env scope breakIf.toList)
    (hrepeats : Repeats env header merge σ breakIf r σ') :
      Scene env scope start made σ'.values := by
  cases hrepeats with
  | ended _ => exact hscene
  | always hclose => exact hclose.same.values ▸ hscene
  | «unless» _ heval hclose => exact hclose.same.values ▸ hscene.evaluated hreads heval

lemma Scene.loops (hbody : ∀ flow, (body flow).Stages env start made scope inner)
    (hsub : scope ⊆ inner)
    (hcontinuing : ∀ flow, (continuing flow).Stages env start made scope inner')
    (hsub' : scope ⊆ inner')
    (hreads : Readable env inner' breakIf.toList)
    (hloops : Loops env flow body continuing breakIf σ r σ') :
    Scene env scope start made σ'.values := by
  obtain ⟨-, -, -, -, hclose, hopen, hpush, hclose', hpart, hopen', hinner, hrepeats, hopen''⟩ :=
    hloops
  rename_i σ₁ σ₂ σ₃ σ₄ σ₅ σ₆ σ₇ σ₈
  have hheader : Scene env scope start made σ₄.values := by
    rw [hclose'.same.values, hpush.same.values, hopen.same.values, hclose.same.values]
    exact hscene
  have hnext : Scene env scope start made σ₆.values := by
    rw [hopen'.same.values]
    exact hpart.scene hheader (hbody _) hsub
  have hend := (hcontinuing _ hnext hinner).repeats hreads hrepeats
  exact hopen''.same.values ▸ hend.restrict hscene.closed hsub'

lemma Scene.switches (hreads : Readable env scope [selector])
    (hparts : ∀ flow merge labels, (parts flow merge labels).Stages env start made scope scope)
    (hswitches : Switches env flow selector cases parts σ r σ') :
    Scene env scope start made σ'.values := by
  obtain ⟨hchain, -, -, hissues, hdefaults, hpush, hclose, hinner, hfallsBack, hopen⟩ := hswitches
  rename_i σ₁ σ₂ σ₃ σ₄ σ₅ σ₆ σ₇
  have hheader : Scene env scope start made σ₅.values := by
    rw [hclose.same.values, hpush.same.values, values_of_defaults hdefaults,
      values_of_issues hissues]
    exact hscene.untouched (hscene.straight hreads hchain).1
  have hend : Scene env scope start made σ₇.values := by
    rw [values_of_fallsBack hfallsBack]
    exact (hparts _ _ _ · hinner) hheader
  exact hopen.same.values ▸ hend

end

/-- None of the expressions is deferred. -/
def Undeferred (env : FunctionEnv) (reads : Handles) : Prop :=
  ∀ h ∈ reads, env.deferred.getD h.index false = false

lemma Undeferred.readable (hreads : Undeferred env reads)
    (hin : ∀ h ∈ reads, env.function.inScope scope h) : Readable env scope reads :=
  fun h hh => ⟨hin h hh, by simp only [FunctionEnv.isLazy, hreads h hh, Bool.and_false]⟩

lemma Undeferred.append (hreads : Undeferred env (l ++ l')) :
    Undeferred env l ∧ Undeferred env l' :=
  ⟨fun h hh => hreads h (mem_append_left _ hh), fun h hh => hreads h (mem_append_right _ hh)⟩

lemma undeferred_bodyReads (hanalysis : env.deferred = deferred env.function) :
    Undeferred env (IR.bodyReads env.function.body) := by
  intro h hh
  rw [hanalysis]
  exact Bool.eq_false_iff.2 fun hdeferred => not_mem_reads_of_deferred hdeferred hh

mutual

/-- A statement takes a scene to one with what it introduces: one case per statement. -/
lemma stages_stated (hanalysis : env.deferred = deferred env.function) (start : Valuation)
    (made : Handles) (s : Statement) :
    ∀ {flow rank scope}, s.isScoped env.function scope → Undeferred env s.reads →
      s.produces env.function ⊆ made →
      (Stated env flow rank s).Stages env start made scope
        (s.introduces env.function ++ scope) := by
  intro flow rank scope hs hreads hmade σ r σ' hscene hstated
  have hresult : ∀ h ∈ s.result?, h ∈ s.produces env.function →
    env.function.IsResult h ∧ h ∈ made :=
    fun h hh hproduces => ⟨IR.isResult_of_isScoped hs hh, hmade hproduces⟩
  unfold Stated at hstated
  obtain ⟨hready, hstated⟩ := hstated
  rw [← values_of_ready hready] at hscene
  match s with
  | .emit range => exact hscene.run hanalysis hmade (emitRun_of_emitted _ hs hstated)
  | .block body =>
    have hbody := stages_statedAll hanalysis start made body hs hreads hmade hscene hstated
    exact hbody.restrict hscene.closed (subset_append_right _ _)
  | .store pointer value =>
    simp only [Statement.isScoped, Bool.and_eq_true] at hs
    exact hscene.affects (hreads.readable (by simpa [Statement.reads] using hs))
      (fun h hh => absurd hh (Option.not_mem_none h)) hstated
  | .ifElse condition accept reject =>
    simp only [Statement.isScoped, Bool.and_eq_true] at hs
    simp only [Statement.produces, append_subset] at hmade
    obtain ⟨hcondition, hparts⟩ := Undeferred.append (l := [condition]) hreads
    refine hscene.selects (hcondition.readable (by simpa using hs.1.1))
      (fun flow => stages_statedAll hanalysis start made accept hs.1.2 hparts.append.1 hmade.1)
      (subset_append_right _ _) ?_
      (subset_append_right (IR.bodyIntroduces env.function reject) _) hstated
    intro part hpart flow
    split at hpart
    · cases hpart
    · cases hpart
      exact stages_statedAll hanalysis start made reject hs.2 hparts.append.2 hmade.2
  | .switch selector cases =>
    simp only [Statement.isScoped, Bool.and_eq_true] at hs
    obtain ⟨hselector, hcases⟩ := Undeferred.append (l := [selector]) hreads
    exact hscene.switches (hselector.readable (by simpa using hs.1))
      (fun _ _ _ => stages_statedCases hanalysis start made cases hs.2 hcases hmade) hstated
  | .loop body continuing breakIf =>
    simp only [Statement.isScoped, Bool.and_eq_true, Option.all_eq_true_iff_get] at hs
    simp only [Statement.reads] at hreads
    simp only [Statement.produces, append_subset] at hmade
    obtain ⟨hparts, hbreakIf⟩ := hreads.append
    refine hscene.loops (fun flow => stages_statedAll hanalysis start made body hs.1.1
      hparts.append.1 hmade.1) (subset_append_right _ _)
      (fun flow => stages_statedAll hanalysis start made continuing hs.1.2 hparts.append.2 hmade.2)
      (subset_append_right _ _) (hbreakIf.readable ?_) hstated
    cases breakIf <;> simp_all
  | .call _ _ result | .atomic _ _ _ result =>
    simp only [Statement.isScoped, Bool.and_eq_true, all_eq_true] at hs
    exact hscene.affects (hreads.readable hs.1) (fun h hh => hresult h hh (Option.mem_toList.2 hh))
      hstated
  | .break | .continue =>
    obtain ⟨-, hclose⟩ := hstated
    exact hclose.same.values ▸ hscene
  | .return value =>
    refine hscene.returns (hreads.readable fun h hh => ?_) hstated
    obtain rfl : value = some h := Option.mem_toList.1 hh
    exact hs
  | .kill =>
    obtain ⟨hclose, -⟩ := hstated
    exact hclose.same.values ▸ hscene
  | .barrier b =>
    dsimp only at hstated
    split at hstated
    · obtain ⟨-, rfl⟩ := hstated
      exact hscene
    · exact hscene.affects (fun _ hg => absurd hg not_mem_nil)
        (fun h hh => absurd hh (Option.not_mem_none h)) hstated

lemma stages_statedAll (hanalysis : env.deferred = deferred env.function) (start : Valuation)
    (made : Handles) (body : List Statement) :
    ∀ {flow rank scope}, IR.bodyScoped env.function scope body → Undeferred env
      (IR.bodyReads body) →
      IR.bodyProduces env.function body ⊆ made → (StatedAll env flow rank body).Stages env start
        made scope (IR.bodyIntroduces env.function body ++ scope) := by
  intro flow rank scope hs hreads hmade σ r σ' hscene hstated
  match body with
  | [] =>
    obtain ⟨-, rfl⟩ := hstated
    exact hscene
  | s :: rest =>
    simp only [IR.bodyScoped, Bool.and_eq_true] at hs
    simp only [IR.bodyReads] at hreads
    simp only [IR.bodyProduces, append_subset] at hmade
    obtain ⟨hfirst, hrest⟩ := hstated
    have hscene' := stages_stated hanalysis start made s hs.1 hreads.append.1 hmade.1 hscene hfirst
    refine (stages_statedAll hanalysis start made rest hs.2 hreads.append.2 hmade.2 hscene'
      hrest).congr fun h => ?_
    simp only [IR.bodyIntroduces, flatMap_cons, mem_append]
    tauto

lemma stages_statedCases (hanalysis : env.deferred = deferred env.function) (start : Valuation)
    (made : Handles) (cases : List SwitchCase) :
    ∀ {flow rank merge labels scope}, IR.casesScoped env.function scope cases →
      Undeferred env (IR.casesReads cases) → IR.casesProduces env.function cases ⊆ made →
      (StatedCases env flow rank merge cases labels).Stages env start made scope scope := by
  intro flow rank merge labels scope hs hreads hmade σ r σ' hscene hstated
  match cases, labels with
  | [], _ | _ :: _, [] =>
    obtain ⟨-, rfl⟩ := hstated
    exact hscene
  | c :: rest, label :: labels =>
    simp only [IR.casesScoped, Bool.and_eq_true] at hs
    simp only [IR.casesReads] at hreads
    simp only [IR.casesProduces, append_subset] at hmade
    obtain ⟨hpart, hrest⟩ := hstated
    have hscene' := hpart.scene hscene (stages_statedCase hanalysis start made c hs.1
      hreads.append.1 hmade.1) (subset_append_right _ _)
    exact stages_statedCases hanalysis start made rest hs.2 hreads.append.2 hmade.2 hscene' hrest

lemma stages_statedCase (hanalysis : env.deferred = deferred env.function) (start : Valuation)
    (made : Handles) (c : SwitchCase) :
    ∀ {flow rank scope}, IR.caseScoped env.function scope c → Undeferred env (IR.caseReads c) →
      IR.caseProduces env.function c ⊆ made → (StatedCase env flow rank c).Stages env start made
        scope (IR.bodyIntroduces env.function c.body ++ scope) := by
  intro flow rank scope hs hreads hmade
  match c with
  | ⟨_, body⟩ => exact stages_statedAll hanalysis start made body hs hreads hmade

end

end

end Shader.Emit
