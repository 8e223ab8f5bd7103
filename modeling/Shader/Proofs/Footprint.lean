import Shader.Proofs.Scene
import Shader.Proofs.Statement

/-!
# What emission gives values to

The operands of an expression are all that its emission asks for, and so are the reads of a
statement: where they have values, the expression, or the result of the statement, gets one and
nothing else does.  Behind a short circuit the values are those behind its left operand: what was
computed on the right is forgotten, and nothing else is.
-/

/-- The statement stores, calls, is an atomic operation, or returns. -/
def Shader.IR.Statement.isDirect : Statement → Bool
  | .store .. | .call .. | .atomic .. | .return _ => true
  | _ => false

namespace Shader.Emit

open List Assembly
open IR (Expression Statement BinaryOp)

variable {env : FunctionEnv} {σ σ' : Body} {r : Record} {g h : Handle .expression} {id : Id}
    {gs reads : Handles} {p q : Point} {rank : Nat} {result value : Option (Handle .expression)}

/-! ### Where all that is asked for has a value -/

/-- Of the expressions, those that the function has have values. -/
def Cached (env : FunctionEnv) (v : Valuation) (gs : Handles) : Prop :=
  ∀ g ∈ gs, g.index < env.function.expressions.size → ∃ id, v.get? g = some id

namespace Cached

variable {depth : Nat}

lemma evaluated (hcached : Cached env σ.values gs) (hg : g ∈ gs)
    (heval : Evaluated env depth g σ r id σ') : σ' = σ := by
  rcases heval.inv with ⟨-, -, rfl⟩ | ⟨hnone, _, e, _, he, -⟩
  · rfl
  · obtain ⟨_, hvalue⟩ := hcached g hg (Arena.get?_eq_some_lt he)
    rw [hvalue] at hnone
    cases hnone

lemma straight (hcached : Cached env p.body.values gs)
    (hchain : Straight env (Evaluated env depth) source allowed gs p r q) :
    q.body.values = p.body.values := by
  induction hchain with
  | nil => rfl
  | @cons p q _ _ _ hstep _ ih =>
    have hfirst : q.body.values = p.body.values := by
      cases hstep with
      | declare hext _ => exact hext.values
      | issue => rfl
      | evaluate hg heval => exact congrArg Body.values (hcached.evaluated hg heval)
      | emit hemits => exact values_of_emits hemits
    rw [← hfirst] at hcached
    exact (ih hcached).trans hfirst

lemma computed (hcached : Cached env σ.values e.operands)
    (hcomputed : Computed env (Evaluated env depth) h e σ r id σ') : σ'.values = σ.values := by
  rcases hcomputed.forms with ⟨-, -, hrefers, -⟩ | ⟨-, -, _, hchain⟩ | ⟨_, _, _, rfl, -, hshort⟩
  · exact hrefers.values
  · exact hcached.straight hchain
  · obtain ⟨σ₁, σ₂, _, _, hvalues, hl, hvalues'⟩ :=
      values_of_shortCircuits (growing_evaluated env depth) hshort
    rw [← hvalues] at hcached
    rw [hvalues', hcached.evaluated mem_cons_self hl, hvalues]

lemma affects (hcached : Cached env σ.values reads) (h : Affects env rank reads result σ r σ') :
    ∃ id, σ'.values = result.elim σ.values (σ.values.set · id) := by
  obtain ⟨hchain, hemits, hchain', -, hremembers⟩ := h
  rename_i p q q' _ _ _
  have hvalues : q'.body.values = σ.values := calc
    q'.body.values = q.body.values := straight (fun _ hg => absurd hg not_mem_nil) hchain'
    _ = p.body.values := values_of_emits hemits
    _ = σ.values := hcached.straight hchain
  cases result with
  | none =>
    obtain rfl : σ' = q'.body := hremembers
    exact ⟨q'.body.nextId, hvalues⟩
  | some h =>
    obtain ⟨id, -, rfl⟩ := hremembers
    exact ⟨id, congrArg (Valuation.set · h id) hvalues⟩

lemma returns (hcached : Cached env σ.values value.toList) (h : Returns env σ value r σ') :
    σ'.values = σ.values := by
  cases h with
  | nothing hclose => exact hclose.same.values
  | value _ heval hclose =>
    obtain rfl := hcached.evaluated mem_cons_self heval
    exact hclose.same.values
  | outputs _ heval hchain _ hclose =>
    obtain rfl := hcached.evaluated mem_cons_self heval
    exact hclose.same.values.trans (straight (fun _ hg => absurd hg not_mem_nil) hchain)

end Cached

/-- Where the operands of an expression without a value have values, its emission gives a value to
it and to nothing else.  Where what a store, a call, an atomic operation or a return reads has
values, its emission gives a value to its result and to nothing else. -/
theorem uses_cover_emission (env : FunctionEnv) (σ σ' : Body) :
    (∀ h e id, env.function.expressions.get? h = some e → Cached env σ.values e.operands →
      σ.values.get? h = none → expression env h σ = .ok id σ' → σ'.values = σ.values.set h id ∧
        (h.index < σ.values.size → σ'.values.get? h = some id) ∧
        ∀ g, g ≠ h → σ'.values.get? g = σ.values.get? g) ∧
    ∀ s : Statement, s.isDirect → Cached env σ.values s.reads → statement env s σ = .ok () σ' →
      (∃ id, σ'.values = s.result?.elim σ.values (σ.values.set · id)) ∧
        ∀ g, s.result? ≠ some g → σ'.values.get? g = σ.values.get? g := by
  refine ⟨fun h e id he hcached hnone hrun => ?_, fun s hs hcached hrun => ?_⟩
  · obtain ⟨r, heval⟩ := evaluated_of_expression hrun
    rcases heval.inv with ⟨hsome, -⟩ | ⟨-, _, e', σ₁, he', hcomputed, hext⟩
    · cases hnone.symm.trans hsome
    · cases he.symm.trans he'
      have hvalues : σ'.values = σ.values.set h id :=
        hext.values.trans (congrArg (Valuation.set · h id) (hcached.computed hcomputed))
      rw [hvalues]
      exact ⟨rfl, Valuation.get?_set_self, fun g hg => Valuation.get?_set_of_ne hg⟩
  · obtain ⟨⟨r, hstated⟩, -⟩ := told_statement env s 0 hrun
    unfold Stated at hstated
    obtain ⟨hready, hstated⟩ := hstated
    rw [← values_of_ready hready] at hcached ⊢
    rename_i σ₁ _ _
    have hdone : ∃ id, σ'.values = s.result?.elim σ₁.values (σ₁.values.set · id) := by
      cases s with
      | store | call | atomic => exact hcached.affects hstated
      | «return» value => exact ⟨σ.nextId, hcached.returns hstated⟩
      | _ => cases hs
    refine ⟨hdone, fun g hg => ?_⟩
    obtain ⟨id, hvalues⟩ := hdone
    rw [hvalues]
    cases hresult : s.result? with
    | none => rfl
    | some h =>
      exact Valuation.get?_set_of_ne fun heq => hg (hresult.trans (congrArg some heq.symm))

/-- An operator with a short circuit on its right, and the result of a call. -/
def choice : IR.Function where
  expressions := ⟨⟨#[.argument 0, .argument 1, .argument 2, .binary .logicalOr ⟨1⟩ ⟨2⟩,
    .binary .logicalAnd ⟨0⟩ ⟨3⟩, .callResult ⟨0⟩]⟩, .replicate 6 ⟨0⟩⟩

def choiceEnv : FunctionEnv where
  toEnv := (Env.of { types := .ofList [⟨none, .scalar .bool⟩] } {}).within choice
  function := choice
  name := "choice"
  result := none
  outputs := []
  deferred := deferred choice

/-- In a block of the function, with the values of some of its expressions. -/
def inChoice (values : Valuation) : Body where
  progress := { Progress.initial choiceEnv.toEnv with
    assembly := { bound := 9, draft := some {
      id := ⟨1⟩, typeId := ⟨2⟩, returnType := ⟨3⟩, current := some { label := ⟨4⟩ } } }
    functions := #[⟨8⟩] }
  values
  arguments := #[⟨5⟩, ⟨6⟩, ⟨7⟩]

theorem uses_cover_emission_choice :
    ∃ v id σ σ', v = ((⟨.empty 6, []⟩ : Valuation).set ⟨1⟩ ⟨6⟩).set ⟨2⟩ ⟨7⟩ ∧
    expression choiceEnv ⟨3⟩ (inChoice v) = .ok id σ ∧ σ.values = v.set ⟨3⟩ id ∧
    statement choiceEnv (.call ⟨0⟩ [⟨1⟩, ⟨2⟩] (some ⟨5⟩)) (inChoice v) = .ok () σ' ∧
    ∃ id, σ'.values = v.set ⟨5⟩ id := by
  let v : Valuation := ((⟨.empty 6, []⟩ : Valuation).set ⟨1⟩ ⟨6⟩).set ⟨2⟩ ⟨7⟩
  let call : Statement := .call ⟨0⟩ [⟨1⟩, ⟨2⟩] (some ⟨5⟩)
  have hcached : Cached choiceEnv v [⟨1⟩, ⟨2⟩] :=
    forall_mem_cons.2 ⟨fun _ => ⟨⟨6⟩, by decide⟩, forall_mem_singleton.2 fun _ => ⟨⟨7⟩, by decide⟩⟩
  obtain ⟨id, σ, hexpression⟩ :=
    exists_of_succeeded (r := expression choiceEnv ⟨3⟩ (inChoice v)) (by decide +kernel)
  obtain ⟨_, σ', hstatement⟩ := exists_of_succeeded (r := statement choiceEnv call (inChoice v))
    (by decide +kernel)
  have hvalues := (uses_cover_emission choiceEnv (inChoice v) σ).1 ⟨3⟩ _ id rfl hcached
    rfl hexpression
  have hresult := (uses_cover_emission choiceEnv (inChoice v) σ').2 call rfl hcached hstatement
  exact ⟨v, id, σ, σ', rfl, hexpression, hvalues.1, hstatement, hresult.1⟩

/-! ### Behind a short circuit -/

/-- Behind a short circuit the values, and the order they were found in, are those behind its left
operand: the values before it are kept, and those found for its right operand are gone. -/
theorem short_circuits_rewind {depth : Nat} {op : BinaryOp} {left right : Handle .expression}
    (hrun : computeShortCircuit env (expressionWithin env depth) h op left right σ = .ok id σ') :
    ∃ type σ₁ l σ₂ σ₃ x σ₄, (liftM (expressionType env h) : BodyM Id) σ = .ok type σ₁ ∧
      expressionWithin env depth left σ₁ = .ok l σ₂ ∧ σ'.values = σ₂.values ∧
      (∀ g id, σ.values.get? g = some id → σ'.values.get? g = some id) ∧
      expressionWithin env depth right σ₃ = .ok x σ₄ ∧ σ₃.values = σ₂.values ∧
      ∀ g, σ₃.values.get? g = none → σ'.values.get? g = none := by
  simp only [computeShortCircuit, bind_eq_ok] at hrun
  obtain ⟨type, σ₁, htype, l, _, hl, _, σ₂, hleft, _, _, hright, _, _, hmerge, _, _, hpush, hrun⟩ :=
    hrun
  obtain ⟨-, rfl⟩ := labelOr_eq_ok hleft
  obtain ⟨-, rfl⟩ := freshId_eq_ok.1 hright
  obtain ⟨-, rfl⟩ := freshId_eq_ok.1 hmerge
  rw [ite_bind] at hrun
  simp only [bind_eq_ok, get_eq_ok, modify_eq_ok] at hrun
  obtain ⟨_, _, hbranch, _, σ₃, hopen, _, _, ⟨rfl, rfl⟩, x, _, hr, _, σ₄, hrightEnd, _, σ₅,
    hclose, _, _, rfl,
    _, σ₆, hopen', hphi⟩ := hrun
  obtain ⟨-, rfl⟩ := labelOr_eq_ok hrightEnd
  rw [← apply_ite] at hbranch
  -- nothing between the operands gives a value
  have hvalues : σ₃.values = σ₂.values := calc
    σ₃.values = _ := (opens_of_beginBlock hopen).same.values
    _ = _ := (closes_of_terminate hbranch).same.values
    _ = σ₂.values := (pushes_of_emit rfl hpush).same.values
  obtain ⟨_, hgrows⟩ := growing_evaluated env depth
    (evaluated_of_expressionWithin depth hr).choose_spec
  have hback : σ'.values = σ₃.values := calc
    σ'.values = σ₆.values := (emitResult_eq_ok rfl hphi).2.same.values
    _ = σ₅.values.rewind σ₃.values.mark := (opens_of_beginBlock hopen').same.values
    _ = σ₄.values.rewind σ₃.values.mark := by rw [(closes_of_terminate hclose).same.values]
    _ = σ₃.values := Valuation.rewind_eq hgrows
  obtain ⟨_, hgrows'⟩ := growing_evaluated env depth
    (evaluated_of_expressionWithin depth hl).choose_spec
  rw [(declared_of_emit (declaring_expressionType env h) htype).1.values] at hgrows'
  refine ⟨type, σ₁, l, σ₂, σ₃, x, σ₄, htype, hl, hback.trans hvalues,
    fun g id hg => ?_, hr, hvalues, fun g hg => hback ▸ hg⟩
  rw [hback, hvalues]
  exact hgrows'.get?_of_some hg

theorem short_circuits_rewind_nested : ∃ σ id σ' type σ₁ l σ₂, σ = inChoice ⟨.empty 6, []⟩ ∧
    computeShortCircuit choiceEnv (expressionWithin choiceEnv 3) ⟨4⟩ .logicalAnd ⟨0⟩ ⟨3⟩ σ =
      .ok id σ' ∧
    (liftM (expressionType choiceEnv ⟨4⟩) : BodyM Id) σ = .ok type σ₁ ∧
    expressionWithin choiceEnv 3 ⟨0⟩ σ₁ = .ok l σ₂ ∧ σ'.values = σ₂.values ∧
    σ'.values.trail = [⟨0⟩] := by
  have hok : (match computeShortCircuit choiceEnv (expressionWithin choiceEnv 3) ⟨4⟩
        .logicalAnd ⟨0⟩ ⟨3⟩ (inChoice ⟨.empty 6, []⟩) with
      | .ok _ σ' => σ'.values.trail == [⟨0⟩]
      | .error .. => false) = true := by decide +kernel
  split at hok
  · rename_i id σ' hrun
    obtain ⟨type, σ₁, l, σ₂, _, _, _, htype, hl, hvalues, -⟩ := short_circuits_rewind hrun
    exact ⟨_, id, σ', type, σ₁, l, σ₂, rfl, hrun, htype, hl, hvalues, beq_iff_eq.1 hok⟩
  · cases hok

end Shader.Emit
