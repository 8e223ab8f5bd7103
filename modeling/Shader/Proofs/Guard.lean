import Shader.Proofs.Reads

/-!
# Deferred expressions are guarded

The instructions for an expression that is deferred stand between the label of the block that
computes the right operand of a short circuit and the branch from there to its merge block.  What
statements read, and what is emitted where it stands, is not deferred; an expression that is not
deferred has operands that are not, except on the right of a short circuit.
-/

namespace Shader.Emit

open List Assembly
open IR (Expression)

variable {env : FunctionEnv} {σ σ' : Body} {r r' : Record} {h left right g : Handle .expression}
    {allowed : Opcode → Bool} {q : Point} {p' : Progress}

/-! ### Guarded entries -/

/-- The entry stands in the record of the right operand of a short circuit. -/
def Guarded (env : FunctionEnv) (before : Record) (entry : Entry) (after : Record) : Prop :=
  ∃ (h : Handle .expression) (op : IR.BinaryOp) (left right : Handle .expression),
    env.function.expressions.get? h = some (.binary op left right) ∧ op.isShortCircuit ∧
    ∃ (depth : Nat) (l label merge : Id) (start inner inner' rest : Record) (σ : Body) (id : Id)
      (σ' : Body),
      before = start ++ .of (.expression h) [.selectionMerge merge,
      shortCircuitBranch op l label merge,
        .label label] ++ inner ∧
      after = inner' ++ .of (.expression h) [.branch merge, .label merge] ++ rest ∧
      Evaluated env depth right σ (inner ++ entry :: inner') id σ'

/-- What the record has for deferred expressions is guarded. -/
def Guards (env : FunctionEnv) (r : Record) : Prop :=
  ∀ before entry after, r = before ++ entry :: after → ∀ h, entry.source = .expression h →
    env.deferred.getD h.index false → Guarded env before entry after

section

variable {before after : Record} {entry : Entry} (hguarded : Guarded env before entry after)
include hguarded

lemma Guarded.appendLeft (r : Record) : Guarded env (r ++ before) entry after := by
  obtain ⟨h, op, left, right, hh, hop, depth, l, label, merge, start, inner, inner', rest,
    σ, id, σ', rfl, rfl, heval⟩ := hguarded
  refine ⟨h, op, left, right, hh, hop, depth, l, label, merge, r ++ start, inner, inner',
    rest, σ, id, σ', ?_, rfl, heval⟩
  simp only [append_assoc]

lemma Guarded.appendRight (r : Record) : Guarded env before entry (after ++ r) := by
  obtain ⟨h, op, left, right, hh, hop, depth, l, label, merge, start, inner, inner', rest,
    σ, id, σ', rfl, rfl, heval⟩ := hguarded
  refine ⟨h, op, left, right, hh, hop, depth, l, label, merge, start, inner, inner', rest ++ r,
    σ, id, σ', rfl, ?_, heval⟩
  simp only [append_assoc]

end

namespace Guards

lemma nil : Guards env [] := fun _ _ _ h => absurd h (by simp)

lemma append (h : Guards env r) (h' : Guards env r') : Guards env (r ++ r') := by
  intro before entry after hsplit g hsource hdeferred
  rcases Record.split_append hsplit with ⟨rest, hr, rfl⟩ | ⟨rest, rfl, hr'⟩
  · exact (h before entry rest hr g hsource hdeferred).appendRight r'
  · exact (h' rest entry after hr' g hsource hdeferred).appendLeft r

lemma plain (hr : ∀ e ∈ r, ∀ h, e.source = .expression h → env.deferred.getD h.index
    false = false) :
    Guards env r := by
  rintro before entry after rfl h hsource hdeferred
  rw [hr entry (by simp) h hsource] at hdeferred
  cases hdeferred

lemma silent (h : r.Silent) : Guards env r := plain fun e he g hsource => absurd hsource (h e he g)

lemma frame (is : List Instruction) : Guards env (.of .frame is) := silent (Record.silent_frame is)

end Guards

/-! ### Evaluation -/

section

variable {depth : Nat} {source : Source} {p : Point}

lemma guards_of_emits (h : Emits source allowed p r q)
    (hsource : ∀ h, source = .expression h → env.deferred.getD h.index false = false) :
    Guards env r := by
  cases h with
  | result _ _ _ _ _ | bare _ _ _ _ => exact .plain (forall_mem_singleton.2 hsource)

lemma guards_of_straight (h : Straight env (Evaluated env depth) source allowed operands p r q)
    (heval : ∀ h ∈ operands, ∀ {σ r id σ'}, Evaluated env depth h σ r id σ' → Guards env r)
    (hsource : ∀ h, source = .expression h → env.deferred.getD h.index false = false) :
    Guards env r := by
  induction h with
  | nil => exact .nil
  | cons hstep _ ih =>
    refine .append ?_ ih
    cases hstep with
    | declare _ _ | issue => exact .nil
    | evaluate hg hevaluate => exact heval _ hg hevaluate
    | emit hemits => exact guards_of_emits hemits hsource

lemma guards_of_shortCircuits {id : Id}
    (he : env.function.expressions.get? h = some (.binary op left right)) (hop : op.isShortCircuit)
    (hnot : env.deferred.getD h.index false = false)
    (hleft : ∀ {σ r id σ'}, Evaluated env depth left σ r id σ' → Guards env r)
    (hshort : ShortCircuits env (Evaluated env depth) h op left right σ r id σ') :
    Guards env r := by
  obtain ⟨-, -, hl, -, -, -, -, -, -, hr, -, -, -, -⟩ := hshort
  have hown : ∀ is, Guards env (.of (.expression h) is) := by
    refine fun is => .plain fun e he g hsource => ?_
    obtain ⟨i, -, rfl⟩ := mem_map.1 he
    exact Source.expression.inj hsource ▸ hnot
  intro before entry after hsplit g hsource hdeferred
  rcases Record.split_append hsplit with ⟨rest, hfirst, rfl⟩ | ⟨rest, rfl, hlast⟩
  · rcases Record.split_append hfirst with ⟨rest', hfront, rfl⟩ | ⟨rest', rfl, hinner⟩
    · -- the left operand, and what branches on it
      have hfront := (hleft hl).append (hown _) before entry rest' hfront g hsource hdeferred
      exact (hfront.appendRight _).appendRight _
    · exact ⟨h, op, left, right, he, hop, depth, _, _, _, _, rest', rest, _, _, _, _, rfl, by
        rw [append_assoc]; rfl, hinner ▸ hr⟩
  · exact (hown _ rest entry after hlast g hsource hdeferred).appendLeft _

variable (hanalysis : env.deferred = deferred env.function)
include hanalysis

/-- The operands of what is not deferred are not deferred, except on the right of a short
circuit. -/
lemma undeferred_operand (he : env.function.expressions.get? h = some e)
    (hnot : env.deferred.getD h.index false = false) (hg : g ∈ e.operands)
    (hright : onRightOnly g e = false) : env.deferred.getD g.index false = false := by
  rw [hanalysis] at hnot ⊢
  refine Bool.eq_false_iff.2 fun hdeferred => ?_
  rcases (user_of_deferred hdeferred he hg).2 with honRight | ⟨-, huser⟩
  · exact Bool.eq_false_iff.1 hright honRight
  · exact Bool.eq_false_iff.1 hnot huser

lemma guards_of_evaluated (depth : Nat) : ∀ {h σ r id σ'}, Evaluated env depth h σ r id σ' →
    env.deferred.getD h.index false = false → Guards env r := by
  induction depth with
  | zero => exact fun h => h.elim
  | succ depth ih =>
    intro h σ r id σ' heval hnot
    rcases heval with ⟨-, rfl, -⟩ | ⟨-, e, σ₁, he, hcomputed, -⟩
    · exact .nil
    · have hown : ∀ g, Source.expression h = .expression g → env.deferred.getD g.index
        false = false := by
        rintro g hg
        obtain rfl := Source.expression.inj hg
        exact hnot
      rcases hcomputed.forms with ⟨-, rfl, -⟩ | ⟨-, hplain, known, hchain⟩ |
        ⟨op, left, right, rfl, hop, hshort⟩
      · exact .nil
      · refine guards_of_straight hchain (fun g hg _ _ _ _ heval => ih heval ?_) hown
        refine undeferred_operand hanalysis he hnot hg ?_
        unfold onRightOnly
        split
        · rw [show IR.BinaryOp.isShortCircuit _ = false from hplain]
          rfl
        · rfl
      · refine guards_of_shortCircuits he hop hnot (fun heval => ih heval ?_) hshort
        refine undeferred_operand hanalysis he hnot mem_cons_self ?_
        simp [onRightOnly]

end

/-! ### Statements -/

lemma guards_of_made (h : Chain env .frame allowed [] p r q) : Guards env r := by
  refine .silent fun e he g => ?_
  rw [(same_of_straight h).2 e he]
  exact nofun

lemma additive_guards (hanalysis : env.deferred = deferred env.function) :
    Additive env (fun h => env.deferred.getD h.index false = false) fun _ _ r => Guards env r where
  append := .append
  frame _ := .frame _
  effect hemits := guards_of_emits hemits nofun
  evaluated hnot heval := guards_of_evaluated hanalysis _ heval hnot
  emitted hnot := hnot
  outputs _ hchain := guards_of_made hchain

/-! ### Functions -/

section

variable (hanalysis : env.deferred = deferred env.function) {inputs : List EntryArgument}

lemma eq_nil_of_isReference {id : Id}
    (hh : ∀ e, env.function.expressions.get? h = some e → e.isReference)
    (heval : Evaluated env depth h σ r id σ') : r = [] := by
  rcases heval.inv with ⟨-, rfl, -⟩ | ⟨-, _, e, σ₁, he, hcomputed, -⟩
  · rfl
  · rcases hcomputed.forms with ⟨-, hrefers⟩ | ⟨hnot, -⟩ | ⟨op, left, right, rfl, -⟩
    · exact hrefers.1
    · exact absurd (hh e he) (Bool.eq_false_iff.1 hnot)
    · exact nomatch hh _ he

lemma eq_nil_of_declaresAll (hlocals : ∀ v ∈ locals, ∀ h ∈ v.init, ∀ e,
      env.function.expressions.get? h = some e → e.isReference) :
    ∀ {σ r σ'}, DeclaresAll env locals σ r σ' → r = [] := by
  induction locals with
  | nil =>
    rintro σ r σ' ⟨rfl, -⟩
    rfl
  | cons v rest ih =>
    obtain ⟨hv, hrest⟩ := forall_mem_cons.1 hlocals
    rintro σ r σ' ⟨⟨-, -, hinit, -, -⟩, hdeclares⟩
    rw [ih hrest hdeclares, append_nil]
    generalize hsame : v.init = init at hinit
    cases hinit with
    | none => rfl
    | some heval _ => exact eq_nil_of_isReference (hv _ hsame) heval

lemma guards_of_loadsAll : ∀ {σ r σ'}, LoadsAll env inputs σ r σ' → Guards env r := by
  induction inputs with
  | nil =>
    rintro σ r σ' ⟨rfl, -⟩
    exact .nil
  | cons input rest ih =>
    rintro σ r σ' ⟨⟨hchain, -⟩, hrest⟩
    exact (guards_of_made hchain).append (ih hrest)

include hanalysis in
lemma guards_of_written (hlocals : ∀ v ∈ env.function.locals.toList,
      ∀ h ∈ v.init, ∀ e, env.function.expressions.get? h = some e → e.isReference)
    (h : Written env inputs σ r σ') : Guards env r := by
  obtain ⟨⟨-, hdeclares, hchain, -⟩, hloads, hbody, hend⟩ := h
  obtain rfl := eq_nil_of_declaresAll hlocals hdeclares
  refine (((((Guards.frame _).append .nil).append (guards_of_made hchain)).append
    (guards_of_loadsAll hloads)).append ?_).append (.silent (silent_fallsOff hend).1)
  exact yields_statedAll (additive_guards hanalysis) _ (undeferred_bodyReads hanalysis) _ _ hbody

include hanalysis in
lemma guards_of_lowers (hlocals : ∀ v ∈ env.function.locals.toList, ∀ h ∈ v.init, ∀ e,
      env.function.expressions.get? h = some e → e.isReference) (h : Lowers env inputs p r fn p') :
    p'.assembly.functions = p.assembly.functions.push fn ∧ fn.code = r.code ∧ Guards env r := by
  refine ⟨(Prod.ext_iff.1 h.outcome).1, ?_⟩
  obtain ⟨hblank, -, -, hwritten, hfinishes, -⟩ := h
  refine ⟨?_, guards_of_written hanalysis hlocals hwritten⟩
  rw [hfinishes.code, (carries_written hwritten).code, hblank.code, nil_append]

end

/-- In the code of a helper function or of an entry point whose local variables start with
references, the instructions for what is deferred are guarded by short circuits. -/
theorem deferred_guarded {env : Env} {f : IR.Function} {p p' : Progress}
    (hlocals : ∀ v ∈ f.locals.toList, ∀ h ∈ v.init, ∀ e, f.expressions.get? h = some e →
      e.isReference) :
    (∀ id name, emitHelper env id name f p = .ok () p' → ∃ result r fn,
      Lowers (helperEnv env name f result) [] p r fn p' ∧
      p'.assembly.functions = p.assembly.functions.push fn ∧ fn.code = r.code ∧
      ∀ before entry after, r = before ++ entry :: after → ∀ h, entry.source = .expression h →
        (deferred f).getD h.index false →
        Guarded (helperEnv env name f result) before entry after) ∧
    ∀ entryPoint : IR.EntryPoint, entryPoint.function = f →
      emitEntryPoint env entryPoint p = .ok () p' →
      ∃ outputs inputs r fn, Lowers (entryEnv env entryPoint outputs) inputs p r fn p' ∧
      p'.assembly.functions = p.assembly.functions.push fn ∧ fn.code = r.code ∧
      ∀ before entry after, r = before ++ entry :: after → ∀ h, entry.source = .expression h →
        (deferred f).getD h.index false →
        Guarded (entryEnv env entryPoint outputs) before entry after := by
  refine ⟨fun id name hrun => ?_, ?_⟩
  · obtain ⟨result, r, fn, hlowers⟩ := lowers_of_emitHelper hrun
    exact ⟨result, r, fn, hlowers, guards_of_lowers rfl hlocals hlowers⟩
  · rintro entryPoint rfl hrun
    obtain ⟨outputs, inputs, r, fn, hlowers⟩ := lowers_of_emitEntryPoint hrun
    exact ⟨outputs, inputs, r, fn, hlowers, guards_of_lowers rfl hlocals hlowers⟩

theorem deferred_guarded_swap : ∃ p p' result r fn,
    (deferred swapFunction).getD 5 false = true ∧
    emitHelper (.of swapModule {}) ⟨1⟩ "swap" swapFunction p = .ok () p' ∧
    Lowers (helperEnv (.of swapModule {}) "swap" swapFunction result) [] p r fn p' ∧
    p'.assembly.functions = p.assembly.functions.push fn ∧ fn.code = r.code ∧
    ∀ before entry after, r = before ++ entry :: after → ∀ h, entry.source = .expression h →
      (deferred swapFunction).getD h.index false →
      Guarded (helperEnv (.of swapModule {}) "swap" swapFunction result) before entry after := by
  obtain ⟨p, p', -, hrun⟩ := run_swap
  obtain ⟨result, r, fn, hguards⟩ := (deferred_guarded (by decide)).1 ⟨1⟩ "swap" hrun
  exact ⟨p, p', result, r, fn, by decide +kernel, hrun, hguards⟩

end Shader.Emit
