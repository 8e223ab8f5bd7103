import Shader.Proofs.Effects
import Shader.Proofs.Module
import Shader.Proofs.Scene

/-!
# Reads stay in place

The events of a body are its emits and its side effects in preorder, with the boundaries that the
analysis of epochs sees besides.  Two emits of one epoch come after the same side effects.  So an
expression that is deferred to a user is computed after the same side effects as where it is
emitted, and a read in the code of a helper function follows the side effects that come before the
emit of its expression.
-/

variable {before : List Event}

variable {scope : Handles}

namespace Shader.IR

open List

variable {h : Handle .expression} {epoch : Nat}

/-! ### Events -/

inductive Event where
  | emit (range : HandleRange .expression)
  | effect
  | boundary
deriving DecidableEq, Repr

def Event.mark : Event → Mark
  | emit range => .emit range
  | effect | boundary => .boundary

mutual

/-- What happens in a statement, in preorder. -/
def Statement.events : Statement → List Event
  | .emit range => [.emit range]
  | .store .. | .call .. | .atomic .. => [.effect]
  | .barrier b => if b.isEmpty then [.boundary] else [.effect]
  | .block body => .boundary :: (bodyEvents body ++ [.boundary])
  | .ifElse _ accept reject =>
    .boundary :: (bodyEvents accept ++ .boundary :: (bodyEvents reject ++ [.boundary]))
  | .switch _ cases => casesEvents cases ++ [.boundary]
  | .loop body continuing _ =>
    .boundary :: (bodyEvents body ++ .boundary :: (bodyEvents continuing ++ [.boundary]))
  | .break | .continue | .return _ | .kill => []
termination_by structural s => s

def bodyEvents : List Statement → List Event
  | [] => []
  | s :: rest => s.events ++ bodyEvents rest
termination_by structural body => body

def casesEvents : List SwitchCase → List Event
  | [] => []
  | c :: rest => .boundary :: (caseEvents c ++ casesEvents rest)
termination_by structural cases => cases

def caseEvents : SwitchCase → List Event
  | ⟨_, body⟩ => bodyEvents body
termination_by structural c => c

end

/-- How many side effects are among the events. -/
def effectsIn (events : List Event) : Nat := events.countP (· = .effect)

/-- How many events are boundaries for the analysis of epochs. -/
def boundariesIn (events : List Event) : Nat := events.countP (·.mark = .boundary)

@[simp] lemma effectsIn_nil : effectsIn [] = 0 := rfl

@[simp] lemma effectsIn_append (l l' : List Event) :
    effectsIn (l ++ l') = effectsIn l + effectsIn l' :=
  countP_append

@[simp] lemma effectsIn_cons_boundary (l : List Event) : effectsIn (.boundary :: l) = effectsIn l :=
  countP_cons_of_neg (by decide)

lemma boundariesIn_cons (h : event.mark = .boundary) (l : List Event) :
    boundariesIn (event :: l) = boundariesIn l + 1 := countP_cons_of_pos (decide_eq_true h)

@[simp] lemma boundariesIn_append (l l' : List Event) :
    boundariesIn (l ++ l') = boundariesIn l + boundariesIn l' := countP_append

mutual

lemma events_spec (s : Statement) :
    s.events.map Event.mark = s.marks ∧ effectsIn s.events = s.effectCount := by
  cases s with
  | barrier b =>
    unfold Statement.events Statement.marks Statement.effectCount
    split <;> exact ⟨rfl, rfl⟩
  | block body =>
    simp [Statement.events, Statement.marks, Statement.effectCount, Event.mark,
      bodyEvents_spec body]
  | ifElse _ first second | loop first second _ =>
    simp [Statement.events, Statement.marks, Statement.effectCount, Event.mark,
      bodyEvents_spec first, bodyEvents_spec second]
  | «switch» _ cases =>
    simp [Statement.events, Statement.marks, Statement.effectCount, Event.mark,
      casesEvents_spec cases]
  | _ => exact ⟨rfl, rfl⟩

lemma bodyEvents_spec (body : List Statement) :
    (bodyEvents body).map Event.mark = bodyMarks body ∧ effectsIn (bodyEvents body) =
      bodyEffectCount body := by
  cases body with
  | nil => exact ⟨rfl, rfl⟩
  | cons s rest => simp [bodyEvents, bodyMarks, bodyEffectCount, events_spec, bodyEvents_spec]

lemma casesEvents_spec (cases : List SwitchCase) :
    (casesEvents cases).map Event.mark = casesMarks cases ∧
    effectsIn (casesEvents cases) = casesEffectCount cases := by
  match cases with
  | [] => exact ⟨rfl, rfl⟩
  | c :: rest =>
    simp [casesEvents, casesMarks, casesEffectCount, Event.mark, caseEvents_spec, casesEvents_spec]

lemma caseEvents_spec (c : SwitchCase) :
    (caseEvents c).map Event.mark = caseMarks c ∧ effectsIn (caseEvents c) = caseEffectCount c := by
  match c with
  | ⟨_, body⟩ => exact bodyEvents_spec body

end

/-- The expressions that the emits among the events compute. -/
def emittedIn (f : Function) (events : List Event) : Handles :=
  events.flatMap fun
    | .emit range => f.computedIn range
    | _ => []

@[simp] lemma emittedIn_nil (f : Function) : emittedIn f [] = [] := rfl

@[simp] lemma emittedIn_append (f : Function) (l l' : List Event) :
    emittedIn f (l ++ l') = emittedIn f l ++ emittedIn f l' := flatMap_append

@[simp] lemma emittedIn_cons_boundary (f : Function) (l : List Event) :
    emittedIn f (.boundary :: l) = emittedIn f l := rfl

mutual

lemma emittedIn_events (s : Statement) : ∀ {scope},
    s.isScoped f scope → emittedIn f s.events = (s.produces f).filter f.isComputed := by
  intro scope hs
  have hresult : s.result?.toList.filter f.isComputed = [] := by
    refine filter_eq_nil_iff.2 fun h hh => ?_
    rw [(isResult_of_isScoped hs (Option.mem_toList.1 hh)).not_isComputed]
    decide
  cases s with
  | emit range => simp [Statement.events, Statement.produces, emittedIn, Function.computedIn]
  | call _ _ result | atomic _ _ _ result => exact hresult.symm
  | barrier b =>
    unfold Statement.events
    split <;> rfl
  | block body =>
    simp only [Statement.events, Statement.produces, emittedIn_cons_boundary, emittedIn_append,
      emittedIn_bodyEvents body hs]
    exact append_nil _
  | ifElse _ accept reject =>
    simp only [Statement.isScoped, Bool.and_eq_true] at hs
    simp only [Statement.events, Statement.produces, emittedIn_cons_boundary, emittedIn_append,
      filter_append, emittedIn_bodyEvents accept hs.1.2, emittedIn_bodyEvents reject hs.2]
    exact congrArg _ (append_nil _)
  | «switch» _ cases =>
    simp only [Statement.isScoped, Bool.and_eq_true] at hs
    simp only [Statement.events, Statement.produces, emittedIn_append,
      emittedIn_casesEvents cases hs.2]
    exact append_nil _
  | loop body continuing _ =>
    simp only [Statement.isScoped, Bool.and_eq_true] at hs
    simp only [Statement.events, Statement.produces, emittedIn_cons_boundary, emittedIn_append,
      filter_append, emittedIn_bodyEvents body hs.1.1, emittedIn_bodyEvents continuing hs.1.2]
    exact congrArg _ (append_nil _)
  | _ => rfl

lemma emittedIn_bodyEvents (body : List Statement) : ∀ {scope}, bodyScoped f scope body →
      emittedIn f (bodyEvents body) = (bodyProduces f body).filter f.isComputed := by
  intro scope hs
  match body with
  | [] => rfl
  | s :: rest =>
    simp only [bodyScoped, Bool.and_eq_true] at hs
    simp only [bodyEvents, bodyProduces, emittedIn_append, filter_append, emittedIn_events s hs.1,
      emittedIn_bodyEvents rest hs.2]

lemma emittedIn_casesEvents (cases : List SwitchCase) : ∀ {scope}, casesScoped f scope cases →
      emittedIn f (casesEvents cases) = (casesProduces f cases).filter f.isComputed := by
  intro scope hs
  match cases with
  | [] => rfl
  | c :: rest =>
    simp only [casesScoped, Bool.and_eq_true] at hs
    simp only [casesEvents, casesProduces, emittedIn_cons_boundary, emittedIn_append, filter_append,
      emittedIn_caseEvents c hs.1, emittedIn_casesEvents rest hs.2]

lemma emittedIn_caseEvents (c : SwitchCase) : ∀ {scope}, caseScoped f scope c →
      emittedIn f (caseEvents c) = (caseProduces f c).filter f.isComputed := by
  intro scope hs
  match c with
  | ⟨_, body⟩ => exact emittedIn_bodyEvents body hs

end

lemma Function.isComputed_of_load {f : Function}
    (hh : f.expressions.get? h = some (.load pointer)) :
    f.isComputed h := by
  simp only [Function.isComputed, hh]
  rfl

namespace Function.WellScoped

variable {f : Function} (hf : f.WellScoped)
include hf

lemma nodup_emittedIn : (emittedIn f (bodyEvents f.body)).Nodup := by
  rw [emittedIn_bodyEvents f.body hf.uses]
  exact hf.nodup.filter _

lemma mem_emittedIn (hh : f.isComputed h) : h ∈ emittedIn f (bodyEvents f.body) := by
  rw [emittedIn_bodyEvents f.body hf.uses]
  refine mem_filter.2 ⟨?_, hh⟩
  obtain ⟨e, he⟩ : ∃ e, f.expressions.get? h = some e := by
    cases he : f.expressions.get? h with
    | none => simp [Function.isComputed, he] at hh
    | some e => exact ⟨e, rfl⟩
  refine count_pos_iff.1 ?_
  rw [hf.once (h, e) (Arena.mem_entries.2 he) (isProduced_of_isComputed hh)]
  exact Nat.one_pos

end Function.WellScoped

/-! ### Places -/

/-- The events are a part of what happens in the body, which starts after `rank` side effects. -/
def Function.Happens (f : Function) (rank : Nat) (events : List Event) : Prop :=
  ∃ before after, bodyEvents f.body = before ++ (events ++ after) ∧ effectsIn before = rank

namespace Function.Happens

variable {f : Function} {rank : Nat} {l l' : List Event}

lemma left (h : f.Happens rank (l ++ l')) : f.Happens rank l := by
  obtain ⟨before, after, hsplit, hrank⟩ := h
  exact ⟨before, l' ++ after, by rw [hsplit, append_assoc], hrank⟩

lemma right (h : f.Happens rank (l ++ l')) : f.Happens (rank + effectsIn l) l' := by
  obtain ⟨before, after, hsplit, hrank⟩ := h
  refine ⟨before ++ l, after, by simp only [hsplit, append_assoc], ?_⟩
  rw [effectsIn_append, hrank]

lemma tail (h : f.Happens rank (.boundary :: l)) : f.Happens rank l := h.right (l := [.boundary])

lemma disjoint (h : f.Happens rank (l ++ l')) (hf : f.WellScoped) :
    ∀ g ∈ emittedIn f l', g ∉ emittedIn f l := by
  obtain ⟨before, after, hsplit, -⟩ := h
  have hnodup := hf.nodup_emittedIn
  simp only [hsplit, emittedIn_append, append_assoc] at hnodup
  have hdisjoint := (nodup_append'.1 (nodup_append'.1 hnodup).2.1).2.2
  exact fun g hg hmem => hdisjoint hmem (mem_append_left _ hg)

end Function.Happens

/-- An emit that covers the expression comes after `rank` side effects. -/
def Function.EmittedAfter (f : Function) (h : Handle .expression) (rank : Nat) : Prop :=
  ∃ before range after, bodyEvents f.body = before ++ .emit range :: after ∧ h ∈ range.handles ∧
    effectsIn before = rank

lemma covers_iff {range : HandleRange .expression} : range.covers h ↔ h ∈ range.handles := by
  rw [HandleRange.mem_handles]
  simp [HandleRange.covers]

lemma epochFrom_append (h : Handle .expression) (epoch : Nat) (found : Option Nat)
    (l l' : List Event) : epochFrom h epoch found ((l ++ l').map Event.mark) =
      epochFrom h (epoch + boundariesIn l) (epochFrom h epoch found (l.map Event.mark))
        (l'.map Event.mark) := by
  induction l generalizing epoch found with
  | nil => rfl
  | cons event rest ih =>
    cases event with
    | emit range => exact ih epoch _
    | effect | boundary =>
      rw [boundariesIn_cons rfl, Nat.add_comm _ 1, ← Nat.add_assoc]
      exact ih (epoch + 1) found

lemma epochFrom_of_not_mem {l : List Event} (hl : ∀ range, .emit range ∈ l → h ∉ range.handles) :
    epochFrom h epoch found (l.map Event.mark) = found := by
  induction l generalizing epoch found with
  | nil => rfl
  | cons event rest ih =>
    have hrest := fun range hrange => hl range (mem_cons_of_mem _ hrange)
    cases event with
    | emit range =>
      refine (ih hrest).trans (if_neg ?_)
      rw [covers_iff]
      exact hl range mem_cons_self
    | effect | boundary => exact ih hrest

lemma effectsIn_eq {after : List Event} {range range' : HandleRange .expression}
    (h : l = before ++ .emit range :: after) (h' : l = before' ++ .emit range' :: after')
    (hepoch : boundariesIn before = boundariesIn before') :
    effectsIn before = effectsIn before' := by
  have hnone : ∀ {m}, boundariesIn m = 0 → effectsIn m = 0 := by
    intro m hm
    refine countP_eq_zero.2 fun event hevent heffect => ?_
    refine countP_eq_zero.1 hm event hevent ?_
    rw [of_decide_eq_true heffect]
    rfl
  rcases append_eq_append_iff.1 (h.symm.trans h') with ⟨m, rfl, -⟩ | ⟨m, rfl, -⟩ <;>
  · rw [boundariesIn_append] at hepoch
    have hm : effectsIn m = 0 := hnone (by omega)
    rw [effectsIn_append, hm, Nat.add_zero]

end Shader.IR

namespace Shader.Emit

open List Assembly
open IR (Expression Statement SwitchCase Event bodyEvents casesEvents caseEvents emittedIn effectsIn
  boundariesIn)

variable {depth rank n : Nat} {source : Source} {r r' : Record}
    {h condition selector g : Handle .expression} {σ σ' : Body}
  {flow : ControlStack} {env : FunctionEnv} {made operands : Handles} {e : Expression}
  {v start v' : Valuation} {allowed last : Opcode → Bool} {p q : Point} {id target header merge :
  Id} {labels ids : List Id} {init : Option (Handle .expression)} {a b : List Source}

/-! ### Epochs -/

lemma epochOf_of_last (hlt : h.index < f.expressions.size) {after : List Event}
    {range : HandleRange .expression} (hsplit : bodyEvents f.body = before ++ .emit range :: after)
    (hcovers : h ∈ range.handles) (hlater : ∀ range', .emit range' ∈ after → h ∉ range'.handles) :
    epochOf f h = some (boundariesIn before) := by
  rw [epochOf, if_pos hlt, IR.epoch?, ← (IR.bodyEvents_spec _).1, hsplit, IR.epochFrom_append]
  refine (IR.epochFrom_of_not_mem hlater).trans ?_
  rw [if_pos (IR.covers_iff.2 hcovers), Nat.zero_add]

section

variable {f : IR.Function} (hf : f.WellScoped)
include hf

lemma epochOf_eq_some (hh : f.isComputed h) {after : List Event} {range : HandleRange .expression}
    (hsplit : bodyEvents f.body = before ++ .emit range :: after) (hcovers : h ∈ range.handles) :
      epochOf f h = some (boundariesIn before) := by
  have hlt : h.index < f.expressions.size := by
    cases he : f.expressions.get? h with
    | none => simp [IR.Function.isComputed, he] at hh
    | some e => exact Arena.get?_eq_some_lt he
  have hlater : ∀ range', .emit range' ∈ after → h ∉ range'.handles := by
    intro range' hrange' hh'
    have hnodup := hf.nodup_emittedIn
    rw [hsplit, IR.emittedIn_append] at hnodup
    have hdisjoint := (nodup_append.1 (nodup_append.1 hnodup).2.1).2.2
    exact hdisjoint h (mem_filter.2 ⟨hcovers, hh⟩) h
      (mem_flatMap.2 ⟨_, hrange', mem_filter.2 ⟨hh', hh⟩⟩) rfl
  exact epochOf_of_last hlt hsplit hcovers hlater

lemma emittedAfter_of_deferred (he : f.expressions.get? h = some e) (hg : g ∈ e.operands)
    (hh : f.isComputed h) (hcomputed : f.isComputed g) (hdeferred : (deferred f).getD g.index false)
    (hrank : f.EmittedAfter h rank) : f.EmittedAfter g rank := by
  obtain ⟨before, range, after, hsplit, hcovers, hrank⟩ := hrank
  obtain ⟨event, hevent, hmem⟩ := mem_flatMap.1 (hf.mem_emittedIn hcomputed)
  cases event with
  | effect | boundary => cases hmem
  | emit range' =>
    obtain ⟨before', after', hsplit'⟩ := append_of_mem hevent
    have hcovers' := (mem_filter.1 hmem).1
    have hsame := (user_of_deferred hdeferred he hg).1
    rw [epochOf_eq_some hf hh hsplit hcovers, epochOf_eq_some hf hcomputed hsplit'
      hcovers'] at hsame
    refine ⟨before', range', after', hsplit', hcovers', ?_⟩
    rw [← hrank]
    exact IR.effectsIn_eq hsplit' hsplit (eq_of_beq hsame)

end

/-! ### What evaluation emits -/

section

variable {new : Handles} {P : Entry → Prop}

lemma Kept.grows (hkept : Kept env scope v) (h : v.Grows v' new) :
    Kept env scope v' := fun g hg hlazy => by
  obtain ⟨id, hid⟩ := hkept g hg hlazy
  exact ⟨id, h.get?_of_some hid⟩

lemma sources_of_straight (heval : ∀ g ∈ operands, ∀ {σ r id σ'}, Evaluated env depth g σ r id σ' →
      Kept env scope σ.values → ∀ e ∈ r, P e) (hown : ∀ i, allowed i.opcode → P ⟨source, i⟩)
    (h : Straight env (Evaluated env depth) source allowed operands p r q)
    (hkept : Kept env scope p.body.values) : ∀ e ∈ r, P e := by
  induction h with
  | nil => exact nofun
  | @cons p q _ r _ hstep _ ih =>
    have hfirst : (∀ e ∈ r, P e) ∧ Kept env scope q.body.values := by
      cases hstep with
      | declare hext _ => exact ⟨nofun, hext.values ▸ hkept⟩
      | issue => exact ⟨nofun, hkept⟩
      | evaluate hg hevaluate =>
        obtain ⟨_, hgrows⟩ := growing_evaluated env depth hevaluate
        exact ⟨heval _ hg hevaluate hkept, hkept.grows hgrows⟩
      | emit hemits =>
        refine ⟨?_, values_of_emits hemits ▸ hkept⟩
        cases hemits with
        | result hop _ _ _ _ | bare hop _ _ _ => exact forall_mem_singleton.2 (hown _ hop)
    exact forall_mem_append.2 ⟨hfirst.1, ih hfirst.2⟩

lemma sources_of_shortCircuits
    (hleft : ∀ {σ r id σ'}, Evaluated env depth left σ r id σ' → Kept env scope
      σ.values → ∀ e ∈ r, P e)
    (hright : ∀ {σ r id σ'}, Evaluated env depth right σ r id σ' → Kept env scope σ.values →
      ∀ e ∈ r, P e) (hown : ∀ i, P ⟨.expression h, i⟩) {id : Id}
    (hshort : ShortCircuits env (Evaluated env depth) h op left right σ r id σ')
    (hkept : Kept env scope σ.values) : ∀ e ∈ r, P e := by
  obtain ⟨hext, -, hl, -, -, -, hpush, hclose, hopen, hr, -⟩ := hshort
  have hkept₁ := hext.values ▸ hkept
  obtain ⟨_, hgrows⟩ := growing_evaluated env depth hl
  have hkept₅ := hkept₁.grows hgrows
  rw [← Body.values_issue, ← Body.values_issue, ← hpush.same.values, ← hclose.same.values,
    ← hopen.same.values] at hkept₅
  have hall : ∀ is, ∀ e ∈ Record.of (.expression h) is, P e := by
    intro is e he
    obtain ⟨i, -, rfl⟩ := mem_map.1 he
    exact hown i
  exact forall_mem_append.2 ⟨forall_mem_append.2 ⟨forall_mem_append.2
    ⟨hleft hl hkept₁, hall _⟩, hright hr hkept₅⟩, hall _⟩

/-- The instructions for an expression, and for what is deferred to it, belong to the same place. -/
lemma sources_of_evaluated (hanalysis : env.deferred = deferred env.function)
    (hf : env.function.WellScoped) (hclosed : env.function.Closed scope) (depth : Nat) :
    ∀ {h σ r id σ'}, Evaluated env depth h σ r id σ' → Kept env scope σ.values →
      env.function.isComputed h → (∀ g ∈ env.function.operandsOf h, env.function.inScope scope g) →
      env.function.EmittedAfter h rank → ∀ e ∈ r, ∀ g, e.source = .expression g →
        env.function.EmittedAfter g rank ∧ (g = h ∨ env.isLazy g) := by
  induction depth with
  | zero => exact fun h => h.elim
  | succ depth ih =>
    intro h σ r id σ' heval hkept hh hoperands hrank
    rcases heval with ⟨-, rfl, -⟩ | ⟨-, e, σ₁, he, hcomputed, -⟩
    · exact nofun
    · have hoperands' : ∀ g ∈ e.operands, env.function.inScope scope g := by
        simpa [IR.Function.operandsOf, he] using hoperands
      have hown : ∀ i : Instruction, ∀ g, Source.expression h = .expression g →
          env.function.EmittedAfter g rank ∧ (g = h ∨ env.isLazy g) := by
        rintro - g hg
        obtain rfl := Source.expression.inj hg
        exact ⟨hrank, .inl rfl⟩
      -- an operand that is not lazy has its value, and a lazy one belongs to the place of its user
      have hoperand : ∀ g ∈ e.operands, ∀ {σ r id σ'}, Evaluated env depth g σ r id σ' →
          Kept env scope σ.values → ∀ e ∈ r, ∀ u, e.source = .expression u →
            env.function.EmittedAfter u rank ∧ (u = h ∨ env.isLazy u) := by
        intro g hg σ r id σ' heval hkept
        by_cases hlazy : env.isLazy g
        · obtain ⟨hcomputed, hdeferred⟩ := Bool.and_eq_true_iff.1 hlazy
          have hmem := IR.Function.mem_of_inScope (hoperands' g hg)
            (IR.Function.isProduced_of_isComputed hcomputed)
          have hrank' := emittedAfter_of_deferred hf he hg hh hcomputed
            (hanalysis ▸ hdeferred) hrank
          intro e' he' u hu
          obtain ⟨hplace, rfl | hlazy'⟩ :=
            ih heval hkept hcomputed (hclosed.operands g hmem) hrank' e' he' u hu
          · exact ⟨hplace, .inr hlazy⟩
          · exact ⟨hplace, .inr hlazy'⟩
        · rw [(hkept.settled (hoperands' g hg) (Bool.eq_false_iff.2 hlazy) heval).1]
          exact nofun
      rcases hcomputed.forms with ⟨-, rfl, -⟩ | ⟨-, -, known, hchain⟩ | ⟨op, left, right,
        rfl, -, hshort⟩
      · exact nofun
      · exact sources_of_straight hoperand (fun i _ => hown i) hchain hkept
      · exact sources_of_shortCircuits (hoperand left mem_cons_self)
          (hoperand right (mem_cons_of_mem _ mem_cons_self)) hown hshort hkept

end

/-! ### Records in place -/

namespace Record

/-- How many reads of a record are emitted for an expression. -/
def readsOf (h : Handle .expression) (r : Record) : Nat :=
  r.countP fun e => e.source = .expression h && e.instruction.isRead

@[simp] lemma readsOf_append (h : Handle .expression) (r r' : Record) :
    (r ++ r').readsOf h = r.readsOf h + r'.readsOf h := countP_append

lemma readsOf_eq_zero (hr : ∀ e ∈ r, e.source = .expression h → e.instruction.isRead = false) :
    r.readsOf h = 0 := by
  refine countP_eq_zero.2 fun e he htrue => ?_
  obtain ⟨hsource, hread⟩ := Bool.and_eq_true_iff.1 htrue
  rw [hr e he (of_decide_eq_true hsource)] at hread
  cases hread

/-- Nothing is emitted for an expression. -/
def Silent (r : Record) : Prop := ∀ e ∈ r, ∀ h, e.source ≠ .expression h

lemma Silent.append (h : r.Silent) (h' : r'.Silent) :
    (r ++ r').Silent := forall_mem_append.2 ⟨h, h'⟩

lemma silent_frame (is : List Instruction) : (Record.of .frame is).Silent := by
  intro e he
  obtain ⟨i, -, rfl⟩ := mem_map.1 he
  exact nofun

end Record

/-- What is emitted for an expression comes after as many effects as its emit, `rank` of which came
before the record.  Of the expressions that are emitted here and have no value before, each load
that is not lazy is read once. -/
structure InPlace (env : FunctionEnv) (rank : Nat) (emitted : Handles) (v : Valuation)
    (r : Record) : Prop where
  timed : ∀ (before : Record) e after h, r = before ++ e :: after → e.source = .expression h →
    env.function.EmittedAfter h (rank + before.effects.length)
  once : ∀ h pointer, env.function.expressions.get? h = some (.load pointer) →
    env.isLazy h = false → (h ∈ emitted → v.get? h = none) → r.readsOf h = emitted.count h

namespace InPlace

variable {l l' : Handles}

lemma silent (h : r.Silent) : InPlace env rank [] v r where
  timed before e after g hr hsource := absurd hsource (h e (by simp [hr]) g)
  once g _ _ _ _ := Record.readsOf_eq_zero fun e he hsource => absurd hsource (h e he g)

lemma append (h : InPlace env rank l v r) (h' : InPlace env (rank + r.effects.length) l' v' r')
    (hdisjoint : ∀ g ∈ l', g ∉ l)
    (hv : ∀ g, env.function.isComputed g → g ∉ l → v'.get? g = v.get? g) :
    InPlace env rank (l ++ l') v (r ++ r') where
  timed before e after g hr hsource := by
    rcases Record.split_append hr with ⟨rest, hr', -⟩ | ⟨rest, rfl, hr'⟩
    · exact h.timed before e rest g hr' hsource
    · have := h'.timed rest e after g hr' hsource
      rwa [Record.effects_append, length_append, ← Nat.add_assoc]
  once g pointer hg hlazy hnone := by
    have hcomputed := IR.Function.isComputed_of_load hg
    rw [Record.readsOf_append, count_append,
      h.once g pointer hg hlazy fun hmem => hnone (mem_append_left _ hmem),
      h'.once g pointer hg hlazy fun hmem => ?_]
    rw [hv g hcomputed (hdisjoint g hmem)]
    exact hnone (mem_append_right _ hmem)

lemma congr (h : InPlace env rank l v' r)
    (hv : ∀ g, env.function.isComputed g → v'.get? g = v.get? g) : InPlace env rank l v r where
  timed := h.timed
  once g pointer hg hlazy hnone := by
    have hcomputed := IR.Function.isComputed_of_load hg
    exact h.once g pointer hg hlazy fun hmem => (hv g hcomputed).trans (hnone hmem)

lemma after_silent (h : InPlace env rank l v r) (hr' : r'.Silent) (hcalm : r'.effects = []) :
    InPlace env rank l v (r' ++ r) := by
  have hrest : InPlace env (rank + r'.effects.length) l v r := by rwa [hcalm]
  exact (silent hr').append hrest (fun _ _ => not_mem_nil) fun _ _ _ => rfl

lemma before_silent (h : InPlace env rank l v r) (hr' : r'.Silent) :
    InPlace env rank l v (r ++ r') := by
  rw [← append_nil l]
  exact h.append (silent hr') nofun fun _ _ _ => rfl

lemma skip (hh : env.isLazy h) (hplace : InPlace env rank l v r) :
    InPlace env rank (h :: l) v r where
  timed := hplace.timed
  once g pointer hg hlazy hnone := by
    have hne : h ≠ g := by
      rintro rfl
      rw [hh] at hlazy
      cases hlazy
    rw [count_cons_of_ne hne]
    exact hplace.once g pointer hg hlazy fun hmem => hnone (mem_cons_of_mem _ hmem)

end InPlace

/-! ### Emits -/

section

variable {hs : Handles}

lemma readsOf_load (he : env.function.expressions.get? h = some (.load pointer))
    (hkept : Kept env scope σ.values) (hin : env.function.inScope scope pointer)
    (hlazy : env.isLazy pointer = false) (hnone : σ.values.get? h = none)
    (heval : Evaluated env depth h σ r id σ') : r.readsOf h = 1 := by
  rcases heval.inv with ⟨hvalue, -, -⟩ | ⟨-, _, e, σ₁, he', hcomputed, -⟩
  · cases hnone.symm.trans hvalue
  · cases he.symm.trans he'
    obtain ⟨p, r₁, r₂, known, hchain, hemits, rfl⟩ := hcomputed
    have hplain : ∀ e ∈ r₁, e.instruction.isRead = false := by
      refine sources_of_straight ?_ (fun i hi => ?_) hchain hkept
      · intro g hg σ r id σ' heval hkept
        obtain rfl := mem_singleton.1 hg
        rw [(hkept.settled hin hlazy heval).1]
        exact nofun
      · simp only [Opcode.isPlain, Bool.and_eq_true, Bool.not_eq_true'] at hi
        exact hi.1.2
    rw [Record.readsOf_append, Record.readsOf_eq_zero fun e he _ => hplain e he, Nat.zero_add]
    cases hemits with
    | result hop _ _ _ _ | bare hop _ _ _ =>
      exact countP_cons_of_pos (Bool.and_eq_true_iff.2 ⟨decide_eq_true rfl, hop⟩)

variable (hanalysis : env.deferred = deferred env.function) (hf : env.function.WellScoped)
include hanalysis hf

lemma inPlace_evaluated (hclosed : env.function.Closed scope) (hkept : Kept env scope σ.values)
    (hh : env.function.isComputed h) (hnot : env.deferred.getD h.index false = false)
    (hoperands : ∀ g ∈ env.function.operandsOf h, env.function.inScope scope g)
    (hrank : env.function.EmittedAfter h rank) (heval : Evaluated env env.depth h σ r id σ') :
    InPlace env rank [h] σ.values r := by
  have hsources := sources_of_evaluated hanalysis hf hclosed env.depth heval hkept hh
    hoperands hrank
  refine ⟨fun before e after g hr hsource => ?_, fun g pointer hg hlazy hnone => ?_⟩
  · have hcalm := calm_evaluated env env.depth heval
    rw [hr, Record.effects_append, append_eq_nil_iff] at hcalm
    rw [hcalm.1]
    exact (hsources e (by simp [hr]) g hsource).1
  · by_cases hgh : g = h
    · subst hgh
      have hin : env.function.inScope scope pointer :=
        hoperands pointer (by simp [IR.Function.operandsOf, hg, Expression.operands])
      have hpointer := not_isLazy_of_operand hanalysis hg hnot mem_cons_self rfl
      rw [readsOf_load hg hkept hin hpointer (hnone mem_cons_self) heval]
      simp
    · rw [count_singleton, if_neg (by simpa using Ne.symm hgh)]
      refine Record.readsOf_eq_zero fun e he hsource => ?_
      rcases (hsources e he g hsource).2 with rfl | hlazy'
      · exact absurd rfl hgh
      · rw [hlazy'] at hlazy
        cases hlazy

lemma inPlace_run (hrun : EmitRun env scope hs σ r σ')
    (hscene : Scene env scope start made σ.values)
    (hplaces : ∀ h ∈ hs, env.function.EmittedAfter h rank) : InPlace env rank hs σ.values r := by
  induction hrun generalizing start made with
  | done => exact .silent nofun
  | mention hh heval _ ih =>
    obtain ⟨rfl, huntouched⟩ := untouched_of_not_isComputed hh heval
    exact (ih (hscene.untouched huntouched) hplaces).congr fun g hg =>
      huntouched.same g (IR.Function.isProduced_of_isComputed hg)
  | skip hlazy hoperands _ ih =>
    -- it comes into scope without a value, and is read by its users
    exact .skip hlazy (ih (hscene.skip hlazy hoperands) (forall_mem_cons.1 hplaces).2)
  | @emit scope _ h _ σ _ _ _ _ hh hnot hoperands hnew heval _ ih =>
    rw [forall_mem_cons] at hplaces
    have hscene₁ := (hscene.restart [h]).emit hanalysis hh hnot hoperands mem_cons_self heval
    have hfirst := inPlace_evaluated hanalysis hf hscene.closed hscene.kept hh hnot hoperands
      hplaces.1 heval
    have hlater := ih hscene₁ hplaces.2
    rw [← Nat.add_zero rank, ← length_nil, ← calm_evaluated env env.depth heval] at hlater
    refine hfirst.append hlater (fun g hg hmem => hnew (mem_singleton.1 hmem ▸ hg)) fun g hg hmem =>
      hscene₁.spared g (IR.Function.isProduced_of_isComputed hg) hmem

end

/-! ### Statements -/

section

variable {n' : Nat} {inner inner' : Handles} {l l' : Handles}
    {breakIf result value : Option (Handle .expression)}

/-- From a scene, what is emitted is in place. -/
def Emission.Places (env : FunctionEnv) (rank : Nat) (scope l : Handles) (emission : Emission) :
    Prop :=
  ∀ ⦃start made σ r σ'⦄, Scene env scope start made σ.values → emission σ r σ' → InPlace env
    rank l σ.values r

/-- A part that is in place, has `n` effects and gives values to nothing that is emitted
elsewhere. -/
structure Emission.Reads (env : FunctionEnv) (rank n : Nat) (scope inner l : Handles)
    (emission : Emission) : Prop where
  places : emission.Places env rank scope l
  effects : ∀ ⦃σ r σ'⦄, emission σ r σ' → r.effects.length = n
  next : ∀ ⦃start made σ r σ'⦄, Scene env scope start made σ.values → emission σ r σ' →
    ∃ made', Scene env inner σ.values made' σ'.values ∧ ∀ g ∈ made',
    env.function.isComputed g → g ∈ l

variable {emission : Emission}

namespace Emission.Reads

lemma of_stages (hplaces : emission.Places env rank scope l) (hordered : Ordered rank n emission)
    (hstages : ∀ start, emission.Stages env start made scope inner)
    (hmade : l = made.filter env.function.isComputed) :
    Reads env rank n scope inner l emission where
  places := hplaces
  effects σ r σ' h := by rw [hordered h, length_map, length_range']
  next start made' σ r σ' hscene h := by
    refine ⟨made, hstages _ (hscene.restart made) h, fun g hg hcomputed => ?_⟩
    rw [hmade]
    exact mem_filter.2 ⟨hg, hcomputed⟩

lemma append {first : Emission} (h : first.Reads env rank n scope inner l)
    (hscene : Scene env scope start made σ.values) (hfirst : first σ r σ')
    (hv : ∀ g, env.function.isComputed g → v.get? g = σ'.values.get? g)
    (hrest : InPlace env (rank + n) l' v r') (hdisjoint : ∀ g ∈ l', g ∉ l) :
    InPlace env rank (l ++ l') σ.values (r ++ r') := by
  obtain ⟨made', hnext, hmade⟩ := h.next hscene hfirst
  rw [← h.effects hfirst] at hrest
  refine (h.places hscene hfirst).append hrest hdisjoint fun g hg hnot => (hv g hg).trans ?_
  exact hnext.spared g (IR.Function.isProduced_of_isComputed hg) fun hmem => hnot (hmade g hmem hg)

lemma andThen {first second : Emission} (h : first.Reads env rank n scope inner l)
    (h' : second.Places env (rank + n) inner l') (hdisjoint : ∀ g ∈ l', g ∉ l) :
    Emission.Places env rank scope (l ++ l') (Then first second) := by
  rintro start made σ r σ' hscene ⟨hfirst, hsecond⟩
  obtain ⟨made', hnext, -⟩ := h.next hscene hfirst
  exact h.append hscene hfirst (fun _ _ => rfl) (h' hnext hsecond) hdisjoint

end Emission.Reads

lemma silent_closesTo (h : ClosesTo target σ r σ') : r.Silent ∧ r.effects = [] := by
  cases h with
  | ended _ => exact ⟨nofun, rfl⟩
  | branch _ => exact ⟨Record.silent_frame _, rfl⟩

lemma Emission.Reads.part (h : emission.Reads env rank n scope inner l) (hsub : scope ⊆ inner)
    (label target : Id) : Emission.Reads env rank n scope scope l (Part label target emission) where
  places := by
    rintro start made σ r σ' hscene ⟨hopen, hinner, hcloses⟩
    rw [← hopen.same.values] at hscene ⊢
    exact ((h.places hscene hinner).after_silent (Record.silent_frame _) rfl).before_silent
      (silent_closesTo hcloses).1
  effects := by
    rintro σ r σ' ⟨-, hinner, hcloses⟩
    rw [Record.effects_append, Record.effects_append, (silent_closesTo hcloses).2, append_nil]
    exact h.effects hinner
  next := by
    rintro start made σ r σ' hscene ⟨hopen, hinner, hcloses⟩
    rw [← hopen.same.values] at hscene ⊢
    obtain ⟨made', hnext, hmade⟩ := h.next hscene hinner
    rw [values_of_closesTo hcloses]
    exact ⟨made', hnext.restrict hscene.closed hsub, hmade⟩

section

variable (hscene : Scene env scope start made σ.values)
include hscene

lemma Scene.same_settled {id : Id} (hreads : Readable env scope [h])
    (heval : Evaluated env env.depth h σ r id σ') :
    r = [] ∧ ∀ g, env.function.isComputed g → σ'.values.get? g = σ.values.get? g := by
  obtain ⟨hin, hlazy⟩ := hreads h mem_cons_self
  obtain ⟨hr, huntouched⟩ := hscene.settled hin hlazy heval
  exact ⟨hr, fun g hg => huntouched.same g (IR.Function.isProduced_of_isComputed hg)⟩

lemma silent_affects (hreads : Readable env scope reads)
    (h : Affects env rank reads result σ r σ') :
    r.Silent := by
  obtain ⟨hchain, hemits, hchain', -, -⟩ := h
  have hbefore := hscene.straight hreads hchain
  have hafter := hscene.untouched hbefore.1
  rw [← values_of_emits hemits] at hafter
  have hlast := hafter.straight (fun _ hg => absurd hg not_mem_nil) hchain'
  refine (Record.Silent.append (fun e he h => ?_) fun e he h => ?_).append fun e he h => ?_
  · rw [(hbefore.2 e he).1]
    exact nofun
  · cases hemits with
    | result _ _ _ _ _ | bare _ _ _ _ =>
      obtain rfl := mem_singleton.1 he
      exact nofun
  · rw [(hlast.2 e he).1]
    exact nofun

lemma silent_returns (houtputs : env.outputs = []) (hreads : Readable env scope value.toList)
    (h : Returns env σ value r σ') : r.Silent := by
  cases h with
  | nothing _ => exact Record.silent_frame _
  | value _ heval _ =>
    obtain ⟨rfl, -⟩ := hscene.same_settled hreads heval
    exact Record.silent_frame _
  | outputs hne _ _ _ _ => exact absurd houtputs hne

lemma silent_repeats {merge : Id} (hreads : Readable env scope breakIf.toList)
    (h : Repeats env header merge σ breakIf r σ') : r.Silent := by
  cases h with
  | ended _ => exact nofun
  | always _ => exact Record.silent_frame _
  | «unless» _ heval _ =>
    obtain ⟨rfl, -⟩ := hscene.same_settled hreads heval
    exact Record.silent_frame _

end

lemma places_selects (n' : Nat) (hreads : Readable env scope [condition])
    (haccept : ∀ flow, (accept flow).Reads env rank n scope inner l) (hsub : scope ⊆ inner)
    (hreject : ∀ part ∈ reject, ∀ flow, (part flow).Reads env (rank + n) n' scope inner' l')
    (hsub' : scope ⊆ inner') (hnone : reject = none → l' = []) (hdisjoint : ∀ g ∈ l', g ∉ l) :
    (Selects env flow condition accept reject).Places env rank scope (l ++ l') := by
  intro start made σ r σ' hscene hselects
  cases hselects with
  | @both _ _ merge _ _ _ r₁ r₂ _ σ₁ σ₂ σ₃ σ₄ σ₅ _ heval _ _ _ hpush hclose hpart hpart' _ =>
    obtain ⟨rfl, hsame⟩ := hscene.same_settled hreads heval
    have hvalues : (σ₃.withFlow (flow.pushSelection merge)).values = σ₁.values :=
      hclose.same.values.trans hpush.same.values
    have hheader : Scene env scope start made (σ₃.withFlow (flow.pushSelection merge)).values :=
      (congrArg _ hvalues).mpr (hscene.evaluated hreads heval)
    have hparts : InPlace env rank (l ++ l') (σ₃.withFlow (flow.pushSelection merge)).values
      (r₁ ++ r₂) :=
      ((haccept _).part hsub _ _).andThen ((hreject _ rfl _).part hsub' _ _).places
        hdisjoint hheader ⟨hpart, hpart'⟩
    rw [hvalues] at hparts
    rw [nil_append, append_assoc _ r₁ r₂]
    exact ((hparts.congr hsame).after_silent (Record.silent_frame _) rfl).before_silent
      (Record.silent_frame _)
  | @one _ merge _ _ r₁ _ σ₁ σ₂ σ₃ σ₄ _ heval _ _ hpush hclose hpart _ =>
    obtain ⟨rfl, hsame⟩ := hscene.same_settled hreads heval
    have hvalues : (σ₃.withFlow (flow.pushSelection merge)).values = σ₁.values :=
      hclose.same.values.trans hpush.same.values
    have hheader : Scene env scope start made (σ₃.withFlow (flow.pushSelection merge)).values :=
      (congrArg _ hvalues).mpr (hscene.evaluated hreads heval)
    have hfirst : InPlace env rank l (σ₃.withFlow (flow.pushSelection merge)).values r₁ :=
      ((haccept _).part hsub _ _).places hheader hpart
    rw [hvalues] at hfirst
    rw [hnone rfl, append_nil, nil_append]
    exact ((hfirst.congr hsame).after_silent (Record.silent_frame _) rfl).before_silent
      (Record.silent_frame _)

lemma places_loops (hbody : ∀ flow, (body flow).Reads env rank n scope inner l)
    (hsub : scope ⊆ inner)
    (hcontinuing : ∀ flow, (continuing flow).Reads env (rank + n) n' scope inner' l')
    (hreads : Readable env inner' breakIf.toList) (hdisjoint : ∀ g ∈ l', g ∉ l) :
    Emission.Places env rank scope (l ++ l') (Loops env flow body continuing breakIf) := by
  rintro start made σ r σ' hscene
    ⟨-, -, -, -, hclose, hopen, hpush, hclose', hpart, hopen', hinner, hrepeats, -⟩
  rename_i header first next merge r₁ r₂ r₃ σ₁ σ₂ σ₃ σ₄ σ₅ σ₆ σ₇ σ₈
  have hvalues : (σ₄.withFlow (flow.pushLoop merge next)).values = σ.values := by
    change σ₄.values = σ.values
    rw [hclose'.same.values, hpush.same.values, hopen.same.values, hclose.same.values]
    rfl
  rw [← hvalues] at hscene ⊢
  have hfirst := (hbody (flow.pushLoop merge next)).part hsub first next
  obtain ⟨made', hnext, hmade⟩ := hfirst.next hscene hpart
  rw [← hopen'.same.values] at hnext
  obtain ⟨made'', hend, -⟩ := (hcontinuing _).next hnext hinner
  -- the condition of the loop is evaluated behind the continuing part, and emits nothing itself
  have hsecond := (((hcontinuing _).places hnext hinner).after_silent
    (Record.silent_frame [.label next]) rfl).before_silent (silent_repeats hend hreads hrepeats)
  have hparts := hfirst.append hscene hpart
    (fun g _ => congrArg (Valuation.get? · g) hopen'.same.values) hsecond hdisjoint
  simpa only [append_assoc] using (hparts.after_silent (Record.silent_frame _) rfl).before_silent
    (Record.silent_frame _)

lemma places_switches (hreads : Readable env scope [selector])
    (hparts : ∀ flow merge labels, labels.length = cases.length →
      (parts flow merge labels).Places env rank scope l) :
    Emission.Places env rank scope l (Switches env flow selector cases parts) := by
  rintro start made σ r σ' hscene ⟨hchain, -, -, hissues, hdefaults, hpush, hclose,
    hinner, hfallsBack, -⟩
  rename_i value merge default labels known fallback r₁ r₂ r₃ σ₁ σ₂ σ₃ σ₄ σ₅ σ₆ σ₇
  obtain ⟨huntouched, hentries⟩ := hscene.straight hreads hchain
  have hvalues : (σ₅.withFlow (flow.pushSwitch merge)).values = σ₁.values := by
    change σ₅.values = σ₁.values
    rw [hclose.same.values, hpush.same.values, values_of_defaults hdefaults,
      values_of_issues hissues]
    rfl
  have hheader : Scene env scope start made (σ₅.withFlow (flow.pushSwitch merge)).values :=
    (congrArg _ hvalues).mpr (hscene.untouched huntouched)
  have hcases : InPlace env rank l (σ₅.withFlow (flow.pushSwitch merge)).values r₂ :=
    hparts _ _ _ (Emission.Moving.length_of_issues hissues) hheader hinner
  have hlast : r₃.Silent := by
    cases hfallsBack with
    | none => exact nofun
    | some _ _ => exact Record.silent_frame _
  rw [hvalues] at hcases
  have hselector : r₁.Silent := fun e he h => by
    rw [(hentries e he).1]
    exact nofun
  refine (((hcases.congr fun g hg => huntouched.same g (IR.Function.isProduced_of_isComputed
    hg)).after_silent (hselector.append (Record.silent_frame _)) ?_).before_silent
      hlast).before_silent (Record.silent_frame _)
  rw [Record.effects_append, Emission.Ordered.straight (fun _ => not_isEffect_of_isValue) hchain]
  rfl

end

lemma Emission.Places.reads (hanalysis : env.deferred = deferred env.function)
    (houtputs : env.outputs = []) (hs : IR.bodyScoped env.function scope body)
    (hreads : Undeferred env (IR.bodyReads body))
    (h : (StatedAll env flow rank body).Places env rank scope
      (emittedIn env.function (bodyEvents body))) :
    (StatedAll env flow rank body).Reads env rank (IR.bodyEffectCount body) scope
      (IR.bodyIntroduces env.function body ++ scope) (emittedIn env.function (bodyEvents body)) :=
  .of_stages h (ordered_statedAll houtputs body flow rank)
    (fun start => stages_statedAll hanalysis start _ body hs hreads (Subset.refl _))
    (IR.emittedIn_bodyEvents body hs)

mutual

/-- What a statement reads, it reads in place: one case per statement. -/
lemma places_stated (hanalysis : env.deferred = deferred env.function)
    (hf : env.function.WellScoped) (houtputs : env.outputs = []) (s : Statement) :
    ∀ {flow rank scope}, s.isScoped env.function scope → Undeferred env s.reads →
      env.function.Happens rank s.events →
      (Stated env flow rank s).Places env rank scope (emittedIn env.function s.events) := by
  intro flow rank scope hs hreads hplace start made σ r σ' hscene hstated
  unfold Stated at hstated
  obtain ⟨hready, hstated⟩ := hstated
  rename_i σ₁ r₁ r₂
  have hblock : r₁.Silent ∧ r₁.effects = [] := by
    cases hready with
    | already _ => exact ⟨nofun, rfl⟩
    | fresh _ _ => exact ⟨Record.silent_frame _, rfl⟩
  rw [← values_of_ready hready] at hscene ⊢
  suffices h : InPlace env rank (emittedIn env.function s.events) σ₁.values r₂ from
    h.after_silent hblock.1 hblock.2
  match s with
  | .emit range =>
    rw [Statement.events, emittedIn, flatMap_cons, flatMap_nil, append_nil]
    refine inPlace_run hanalysis hf (emitRun_of_emitted _ hs hstated) hscene fun h hh => ?_
    obtain ⟨before, after, hsplit, hrank⟩ := hplace
    exact ⟨before, range, after, hsplit, (mem_filter.1 hh).1, hrank⟩
  | .block body =>
    simp only [Statement.events, IR.emittedIn_cons_boundary, IR.emittedIn_append, IR.emittedIn_nil,
      append_nil]
    exact places_statedAll hanalysis hf houtputs body hs hreads hplace.tail.left hscene hstated
  | .store pointer value =>
    simp only [Statement.isScoped, Bool.and_eq_true] at hs
    exact .silent (silent_affects hscene (hreads.readable (by simpa [Statement.reads] using hs))
      hstated)
  | .ifElse condition accept reject =>
    simp only [Statement.isScoped, Bool.and_eq_true] at hs
    obtain ⟨hcondition, hparts⟩ := Undeferred.append (l := [condition]) hreads
    simp only [Statement.events, IR.emittedIn_cons_boundary, IR.emittedIn_append, IR.emittedIn_nil,
      append_nil]
    have haccept := hplace.tail.left
    have hreject := hplace.tail.right.tail.left
    rw [(IR.bodyEvents_spec _).2] at hreject
    refine places_selects (IR.bodyEffectCount reject) (hcondition.readable (by simpa using hs.1.1))
      (fun flow => Emission.Places.reads hanalysis houtputs hs.1.2 hparts.append.1
        (places_statedAll hanalysis hf houtputs accept hs.1.2 hparts.append.1 haccept))
      (subset_append_right _ _) ?_
      (subset_append_right (IR.bodyIntroduces env.function reject) _) ?_ ?_ hscene hstated
    · intro part hpart flow
      split at hpart
      · cases hpart
      · cases hpart
        exact Emission.Places.reads hanalysis houtputs hs.2 hparts.append.2
          (places_statedAll hanalysis hf houtputs reject hs.2 hparts.append.2 hreject)
    · intro hnone
      split at hnone
      · rename_i hempty
        rw [isEmpty_iff.1 hempty]
        rfl
      · cases hnone
    · intro g hg
      refine hplace.tail.disjoint hf g ?_
      simp [hg]
  | .switch selector cases =>
    simp only [Statement.isScoped, Bool.and_eq_true] at hs
    obtain ⟨hselector, hcases⟩ := Undeferred.append (l := [selector]) hreads
    simp only [Statement.events, IR.emittedIn_cons_boundary, IR.emittedIn_append, IR.emittedIn_nil,
      append_nil]
    exact places_switches (hselector.readable (by simpa using hs.1))
      (fun _ _ _ hlength => places_statedCases hanalysis hf houtputs cases hlength hs.2 hcases
      hplace.left) hscene hstated
  | .loop body continuing breakIf =>
    simp only [Statement.isScoped, Bool.and_eq_true, Option.all_eq_true_iff_get] at hs
    simp only [Statement.reads] at hreads
    obtain ⟨hparts, hbreakIf⟩ := hreads.append
    simp only [Statement.events, IR.emittedIn_cons_boundary, IR.emittedIn_append, IR.emittedIn_nil,
      append_nil]
    have hbody := hplace.tail.left
    have hcontinuing := hplace.tail.right.tail.left
    rw [(IR.bodyEvents_spec _).2] at hcontinuing
    refine places_loops (fun flow =>
      Emission.Places.reads hanalysis houtputs hs.1.1 hparts.append.1
        (places_statedAll hanalysis hf houtputs body hs.1.1 hparts.append.1 hbody))
      (subset_append_right _ _) (fun flow =>
      Emission.Places.reads hanalysis houtputs hs.1.2 hparts.append.2
        (places_statedAll hanalysis hf houtputs continuing hs.1.2 hparts.append.2 hcontinuing))
      (hbreakIf.readable ?_) ?_ hscene hstated
    · cases breakIf <;> simp_all
    · intro g hg
      refine hplace.tail.disjoint hf g ?_
      simp [hg]
  | .call _ arguments result | .atomic _ _ _ result =>
    simp only [Statement.isScoped, Bool.and_eq_true, all_eq_true] at hs
    exact .silent (silent_affects hscene (hreads.readable hs.1) hstated)
  | .break | .continue =>
    obtain ⟨-, -⟩ := hstated
    exact .silent (Record.silent_frame _)
  | .return value =>
    refine .silent (silent_returns hscene houtputs (hreads.readable fun h hh => ?_) hstated)
    obtain rfl : value = some h := Option.mem_toList.1 hh
    exact hs
  | .kill =>
    obtain ⟨-, rfl⟩ := hstated
    exact .silent (Record.silent_frame _)
  | .barrier b =>
    simp only [Statement.events]
    dsimp only at hstated
    split at hstated
    · obtain ⟨rfl, -⟩ := hstated
      rw [if_pos ‹_›]
      exact .silent nofun
    · rw [if_neg ‹_›]
      exact .silent (silent_affects hscene (fun _ hg => absurd hg not_mem_nil) hstated)

lemma places_statedAll (hanalysis : env.deferred = deferred env.function)
    (hf : env.function.WellScoped) (houtputs : env.outputs = []) (body : List Statement) :
    ∀ {flow rank scope}, IR.bodyScoped env.function scope body → Undeferred env
      (IR.bodyReads body) →
      env.function.Happens rank (bodyEvents body) →
      (StatedAll env flow rank body).Places env rank scope
        (emittedIn env.function (bodyEvents body)) := by
  intro flow rank scope hs hreads hplace
  match body with
  | [] =>
    rintro start made σ r σ' - ⟨rfl, -⟩
    exact .silent nofun
  | s :: rest =>
    simp only [IR.bodyScoped, Bool.and_eq_true] at hs
    simp only [IR.bodyReads] at hreads
    simp only [bodyEvents, IR.emittedIn_append] at hplace ⊢
    have hrest := hplace.right
    rw [(IR.events_spec s).2] at hrest
    refine (Emission.Reads.of_stages (places_stated hanalysis hf houtputs s hs.1
      hreads.append.1 hplace.left) (ordered_stated houtputs s flow rank)
      (fun start => stages_stated hanalysis start _ s hs.1
        hreads.append.1 (Subset.refl _)) (IR.emittedIn_events s hs.1)).andThen
      (places_statedAll hanalysis hf houtputs rest hs.2 hreads.append.2 hrest) (hplace.disjoint hf)

lemma places_statedCases (hanalysis : env.deferred = deferred env.function)
    (hf : env.function.WellScoped) (houtputs : env.outputs = []) (cases : List SwitchCase) :
    ∀ {flow rank merge labels scope}, labels.length = cases.length →
      IR.casesScoped env.function scope cases → Undeferred env (IR.casesReads cases) →
      env.function.Happens rank (casesEvents cases) →
      (StatedCases env flow rank merge cases labels).Places env rank scope
        (emittedIn env.function (casesEvents cases)) := by
  intro flow rank merge labels scope hlength hs hreads hplace
  match cases, labels with
  | [], _ =>
    rintro start made σ r σ' - ⟨rfl, -⟩
    exact .silent nofun
  | c :: rest, label :: labels =>
    simp only [IR.casesScoped, Bool.and_eq_true] at hs
    simp only [IR.casesReads] at hreads
    simp only [casesEvents, IR.emittedIn_cons_boundary, IR.emittedIn_append] at hplace ⊢
    have hrest := hplace.tail.right
    rw [(IR.caseEvents_spec c).2] at hrest
    have hfirst := Emission.Reads.of_stages (places_statedCase hanalysis hf houtputs c hs.1
      hreads.append.1 hplace.tail.left) (ordered_statedCase houtputs c flow rank)
      (fun start => stages_statedCase hanalysis start _ c hs.1
        hreads.append.1 (Subset.refl _)) (IR.emittedIn_caseEvents c hs.1)
    exact (hfirst.part (subset_append_right _ _) label merge).andThen
      (places_statedCases hanalysis hf houtputs rest (Nat.succ.inj hlength) hs.2
      hreads.append.2 hrest) (hplace.tail.disjoint hf)

lemma places_statedCase (hanalysis : env.deferred = deferred env.function)
    (hf : env.function.WellScoped) (houtputs : env.outputs = []) (c : SwitchCase) :
    ∀ {flow rank scope}, IR.caseScoped env.function scope c → Undeferred env (IR.caseReads c) →
      env.function.Happens rank (caseEvents c) →
      (StatedCase env flow rank c).Places env rank scope
        (emittedIn env.function (caseEvents c)) := by
  intro flow rank scope hs hreads hplace
  match c with
  | ⟨_, body⟩ => exact places_statedAll hanalysis hf houtputs body hs hreads hplace

end

/-! ### Initial values -/

/-- No load gets a value or loses it. -/
structure SameLoads (f : IR.Function) (v v' : Valuation) : Prop where
  size : v'.size = v.size
  value : ∀ h pointer, f.expressions.get? h = some (.load pointer) → v'.get? h = v.get? h

namespace SameLoads

variable {f : IR.Function} {v'' : Valuation}

lemma refl (f : IR.Function) (v : Valuation) : SameLoads f v v := ⟨rfl, fun _ _ _ => rfl⟩

lemma trans (h : SameLoads f v v') (h' : SameLoads f v' v'') : SameLoads f v v'' where
  size := h'.size.trans h.size
  value g pointer hg := (h'.value g pointer hg).trans (h.value g pointer hg)

lemma set (h : SameLoads f v v') (id : Id) (hg : f.expressions.get? g = some e)
    (he : ∀ pointer, e ≠ .load pointer) : SameLoads f v (v'.set g id) where
  size := Valuation.size_set.trans h.size
  value g' pointer hg' := by
    have hne : g' ≠ g := by
      rintro rfl
      exact he pointer (Option.some.inj (hg.symm.trans hg'))
    rw [Valuation.get?_set_of_ne hne]
    exact h.value g' pointer hg'

end SameLoads

section

variable {gs : Handles} {parts : List Id}

lemma mem_results_of_makes (hlast : ∀ op, last op → Opcode.resultless.contains op = false)
    (h : Makes env evaluate source last operands [] σ r id σ') : id ∈ results r.code := by
  obtain ⟨p, r₁, r₂, known, -, hemits, rfl⟩ := h
  rw [Record.code_append, results_append, mem_append]
  right
  cases hemits with
  | result _ htyped _ _ _ =>
    have := results_result htyped
    simp_all [Record.code]
  | bare hop hresultless _ _ =>
    rw [hlast _ hop] at hresultless
    cases hresultless

lemma carries_evaluated (heval : Evaluated env depth h σ r id σ') :
    Carries σ r σ' := .of_moves (moving_evaluated env depth heval [] [])

lemma carries_evaluatesAll (h : EvaluatesAll (Evaluated env depth) gs σ r ids σ') :
    Carries σ r σ' := by
  induction h with
  | nil => exact .refl _
  | cons heval _ ih => exact (carries_evaluated heval).trans ih

lemma nil_of_constants (hone : ∀ {h} {σ σ'} {r} {id},
      Evaluated env depth h σ r id σ' → Sound ⟨σ, [], []⟩ → id ∉ results r.code →
        r = [] ∧ SameLoads env.function σ.values σ'.values)
    (h : EvaluatesAll (Evaluated env depth) gs σ r parts σ') (hsound : Sound ⟨σ, [], []⟩)
    (hparts : ∀ part ∈ parts, part ∉ results r.code) :
    r = [] ∧ SameLoads env.function σ.values σ'.values := by
  induction h with
  | nil => exact ⟨rfl, .refl _ _⟩
  | cons heval _ ih =>
    simp only [Record.code_append, results_append, mem_append, not_or, forall_mem_cons] at hparts
    obtain ⟨rfl, hsame⟩ := hone heval hsound hparts.1.1
    obtain ⟨rfl, hsame'⟩ := ih ((carries_evaluated heval).sound hsound) fun part hpart =>
      (hparts.2 part hpart).2
    exact ⟨rfl, hsame.trans hsame'⟩

/-- If no code of its own gives an expression its id, it has no code at all. -/
lemma nil_of_constant (depth : Nat) : ∀ {h} {σ σ'} {r} {id},
    Evaluated env depth h σ r id σ' → Sound ⟨σ, [], []⟩ → id ∉ results r.code →
      r = [] ∧ SameLoads env.function σ.values σ'.values := by
  have hplain : ∀ op, op.isPlain → Opcode.resultless.contains op = false := by
    intro op hop
    have htyped := Opcode.isTyped_of_isPlain hop
    simp only [Opcode.isTyped, Bool.and_eq_true, Bool.not_eq_true'] at htyped
    exact htyped.1
  have hread : ∀ op, op.isRead → Opcode.resultless.contains op = false := by
    intro op hop
    simp only [Opcode.isRead, Opcode.reads, contains_eq_mem, mem_cons, not_mem_nil,
      or_false, decide_eq_true_eq] at hop
    rcases hop with rfl | rfl <;> decide
  induction depth with
  | zero => exact fun heval => heval.elim
  | succ depth ih =>
    intro h σ σ' r id heval hsound hid
    rcases heval with ⟨-, rfl, rfl⟩ | ⟨-, e, σ₁, he, hcomputed, hext⟩
    · exact ⟨rfl, .refl _ _⟩
    · rw [hext.values]
      unfold Computed at hcomputed
      split at hcomputed
      · exact hcomputed.elim
      · exact hcomputed.elim
      · exact absurd (mem_results_of_makes hread hcomputed) hid
      · split at hcomputed
        · -- a short circuit ends with the phi that defines the value
          obtain ⟨-, -, -, -, -, -, -, -, -, -, -, -, -, -⟩ := hcomputed
          refine absurd ?_ hid
          rw [Record.code_append, results_append, mem_append]
          exact .inr mem_cons_self
        · exact absurd (mem_results_of_makes hplain hcomputed) hid
      · rename_i hload _
        split at hcomputed
        · obtain ⟨rfl, hext₁, -⟩ := hcomputed
          exact ⟨rfl, .set (hext₁.values ▸ .refl _ _) id he hload⟩
        · rcases hcomputed with hmakes | hpasses
          · exact absurd (mem_results_of_makes hplain hmakes) hid
          · cases hpasses with
            | operand _ hext₁ heval =>
              obtain ⟨rfl, hsame⟩ := ih heval ((Carries.of_extends hext₁).sound hsound) hid
              rw [hext₁.values] at hsame
              exact ⟨rfl, hsame.set id he hload⟩
            | @constant gs σ₂ σ₃ _ _ parts _ hgs hext₁ hparts hdeclared hext₂ _ =>
              have hsound₂ := (Carries.of_extends hext₁).sound hsound
              have hcarries := carries_evaluatesAll hparts
              -- the parts are declared, so no instruction of the function defines them
              obtain ⟨rfl, hsame⟩ := nil_of_constants ih hparts hsound₂ fun part hpart hmem => by
                refine ((hcarries.sound hsound₂).declared part (hdeclared part hpart)).2.1 ?_
                rw [hcarries.code, results_append]
                exact mem_append_right _ hmem
              rw [hext₁.values] at hsame
              refine ⟨rfl, .set ?_ id he hload⟩
              rw [hext₂.values]
              exact hsame

lemma nil_of_initializes (h : Initializes env σ init r value σ') (hsound : Sound ⟨σ, [], []⟩) :
    r = [] ∧ SameLoads env.function σ.values σ'.values := by
  cases h with
  | none => exact ⟨rfl, .refl _ _⟩
  | some heval hdeclared =>
    have hcarries := carries_evaluated heval
    refine nil_of_constant env.depth heval hsound fun hmem => ?_
    refine ((hcarries.sound hsound).declared _ hdeclared).2.1 ?_
    rw [hcarries.code, results_append]
    exact mem_append_right _ hmem

lemma nil_of_declaresAll (h : DeclaresAll env vs σ r σ') (hsound : Sound ⟨σ, [], []⟩) :
    r = [] ∧ SameLoads env.function σ.values σ'.values := by
  induction vs generalizing σ r with
  | nil =>
    obtain ⟨rfl, rfl⟩ := h
    exact ⟨rfl, .refl _ _⟩
  | cons v rest ih =>
    obtain ⟨hfirst, hrest⟩ := h
    obtain ⟨rfl, hsame'⟩ := ih hrest ((carries_declares hfirst).sound hsound)
    obtain ⟨hext, -, hinit, hlead, hext'⟩ := hfirst
    obtain ⟨rfl, hsame⟩ := nil_of_initializes hinit ((Carries.of_extends hext).sound hsound)
    rename_i σ₁ σ₂ σ₃ σ₄
    have hvalues : (σ₄.withLocals (σ₄.locals.push σ₂.nextId)).values = σ₂.values :=
      hext'.values.trans hlead.same.values
    rw [hvalues] at hsame'
    rw [hext.values] at hsame
    exact ⟨rfl, hsame.trans hsame'⟩

lemma same_of_straight (h : Chain env source allowed [] p r q) :
    q.body.values = p.body.values ∧ ∀ e ∈ r, e.source = source := by
  induction h with
  | nil => exact ⟨rfl, nofun⟩
  | @cons p q _ r _ hstep _ ih =>
    have hfirst : q.body.values = p.body.values ∧ ∀ e ∈ r, e.source = source := by
      cases hstep with
      | declare hext _ => exact ⟨hext.values, nofun⟩
      | issue => exact ⟨rfl, nofun⟩
      | evaluate hh _ => exact absurd hh not_mem_nil
      | emit hemits =>
        refine ⟨values_of_emits hemits, ?_⟩
        cases hemits with
        | result _ _ _ _ _ | bare _ _ _ _ => exact fun e he => mem_singleton.1 he ▸ rfl
    exact ⟨ih.1.trans hfirst.1, forall_mem_append.2 ⟨hfirst.2, ih.2⟩⟩

lemma silent_begins (hfresh : Fresh env σ) (h : Begins env σ r σ') :
    r.Silent ∧ r.effects = [] ∧ SameLoads env.function σ.values σ'.values := by
  obtain ⟨hopen, hlocals, hchain, -⟩ := h
  have hlabel : Moves false ⟨σ, [], []⟩ [⟨.frame, .label σ.nextId⟩] ⟨_, [], []⟩ :=
    .cons .issueLabel (.one (.open (.refl _) hopen))
  obtain ⟨rfl, hsame⟩ := nil_of_declaresAll hlocals (hlabel.sound hfresh.sound)
  obtain ⟨hvalues, hsource⟩ := same_of_straight hchain
  rename_i r₂ σ₁ σ₂ σ₃ known contents
  have hsilent : r₂.Silent := fun e he h => by
    rw [hsource e he]
    exact nofun
  refine ⟨(Record.silent_frame [.label σ.nextId]).append hsilent, ?_, ?_⟩
  · rw [Record.effects_append, Record.effects_append,
      Emission.Ordered.straight (fun _ => not_isEffect_of_isPlain) hchain]
    rfl
  · have hlast : (σ₃.withContents contents).values = σ₂.values := hvalues
    have hfirst : σ₁.values = σ.values := hopen.same.values
    rw [hlast, ← hfirst]
    exact hsame

lemma silent_fallsOff (h : FallsOff env σ r σ') : r.Silent ∧ r.effects = [] := by
  cases h with
  | ended _ => exact ⟨nofun, rfl⟩
  | nothing _ _ | null _ _ _ _ => exact ⟨Record.silent_frame _, rfl⟩

end

/-! ### Functions -/

lemma Blank.get? (h : Blank env σ) (g : Handle .expression) : σ.values.get? g = none := by
  rw [h.values]
  exact Slots.get?_empty _ g

lemma effects_of_written (houtputs : env.outputs = []) (hfresh : Fresh env σ)
    (h : Written env [] σ r σ') :
    r.effects = (range (IR.bodyEffectCount env.function.body)).map Source.effect := by
  obtain ⟨hbegins, ⟨rfl, rfl⟩, hbody, hend⟩ := h
  rw [range_eq_range', ← ordered_statedAll houtputs env.function.body {} 0 hbody]
  simp only [Record.effects_append, (silent_begins hfresh hbegins).2.1, (silent_fallsOff hend).2,
    nil_append, append_nil]

lemma inPlace_of_written (hanalysis : env.deferred = deferred env.function)
    (hf : env.function.WellScoped)
    (houtputs : env.outputs = []) (hfresh : Fresh env σ) (h : Written env [] σ r σ') :
    ∃ v, SameLoads env.function σ.values v ∧
      InPlace env 0 (emittedIn env.function (bodyEvents env.function.body)) v r := by
  obtain ⟨hbegins, ⟨rfl, rfl⟩, hbody, hend⟩ := h
  rename_i r₁ r₃ r₄ σ₂ σ₃
  obtain ⟨hsilent, hcalm, hsame⟩ := silent_begins hfresh hbegins
  have hsize : σ₂.values.size = env.function.expressions.size := by
    rw [hsame.size, hfresh.values]
    simp [Valuation.size, Slots.empty]
  have hscene : Scene env [] σ₂.values [] σ₂.values :=
    ⟨.nil _, hsize, forall_mem_nil _, fun _ _ _ => rfl⟩
  have hwhole : env.function.Happens 0 (bodyEvents env.function.body) :=
    ⟨[], [], (append_nil _).symm, rfl⟩
  have hplaces := places_statedAll hanalysis hf houtputs env.function.body hf.uses
    (undeferred_bodyReads hanalysis) hwhole hscene hbody
  refine ⟨σ₂.values, hsame, ?_⟩
  rw [append_nil]
  exact (hplaces.after_silent hsilent hcalm).before_silent (silent_fallsOff hend).1

lemma eq_range_of_append (h : a ++ b = (range n).map Source.effect) :
    a = (range a.length).map Source.effect := by
  have hle : a.length ≤ n := by
    have hlength := congrArg length h
    simp only [length_append, length_map, length_range] at hlength
    omega
  calc a = (a ++ b).take a.length := take_left.symm
    _ = (range a.length).map Source.effect := by
        rw [h, ← map_take, take_range, Nat.min_eq_left hle]

/-- In the code of a well-scoped helper function, the reads stay in place: the effects that come
before an instruction for a load are those of the side effects before the emit of the load, in
preorder, and of the instructions for a load that is not deferred one reads.  All that was declared
has to have been issued, as it is whenever the emission of a module gets to a function, even if
functions before it failed (`bounded_attempts`). -/
theorem reads_in_place {env : Env} {id : Id} {name : String} {f : IR.Function} {p p' : Progress}
    (hf : f.WellScoped) (hp : p.Bounded) (hrun : emitHelper env id name f p = .ok () p') :
    ∃ result r fn, Lowers (helperEnv env name f result) [] p r fn p' ∧
      p'.assembly.functions = p.assembly.functions.push fn ∧ fn.code = r.code ∧
      (∀ (before : Record) e after h, r = before ++ e :: after → e.source = .expression h →
        ∃ rank, f.EmittedAfter h rank ∧ before.effects = (List.range rank).map Source.effect) ∧
      ∀ h pointer, f.expressions.get? h = some (.load pointer) →
        (deferred f).getD h.index false = false → r.readsOf h = 1 := by
  obtain ⟨result, r, fn, hlowers⟩ := lowers_of_emitHelper hrun
  refine ⟨result, r, fn, hlowers, (Prod.ext_iff.1 hlowers.outcome).1, ?_⟩
  obtain ⟨-, hissued, -, hwritten, hfinishes, -⟩ := hlowers
  have hfresh := (hissued hp).1
  obtain ⟨v, hsame, hplace⟩ := inPlace_of_written rfl hf rfl hfresh hwritten
  refine ⟨?_, fun before e after h hr hsource => ?_, fun h pointer hh hnot => ?_⟩
  · rw [hfinishes.code, (carries_written hwritten).code, hfresh.code, List.nil_append]
  · have hplaced := hplace.timed before e after h hr hsource
    rw [Nat.zero_add] at hplaced
    have heffects := effects_of_written rfl hfresh hwritten
    rw [hr, Record.effects_append] at heffects
    exact ⟨_, hplaced, eq_range_of_append heffects⟩
  · have hlazy : (helperEnv env name f result).isLazy h = false := by
      rw [FunctionEnv.isLazy, Bool.and_eq_false_iff]
      exact .inr hnot
    rw [hplace.once h pointer hh hlazy fun _ => by rw [hsame.value h pointer hh, hfresh.get? h]]
    exact List.count_eq_one_of_mem hf.nodup_emittedIn
      (hf.mem_emittedIn (IR.Function.isComputed_of_load hh))

/-- Two variables are read, swapped and read again, the second one only if it matters. -/
def swapFunction : IR.Function where
  expressions :=
    ⟨⟨#[.globalVariable ⟨0⟩, .load ⟨0⟩, .globalVariable ⟨1⟩, .load ⟨2⟩, .load ⟨0⟩, .load ⟨2⟩,
    .binary .logicalAnd ⟨4⟩ ⟨5⟩]⟩, #[⟨1⟩, ⟨0⟩, ⟨1⟩, ⟨0⟩, ⟨0⟩, ⟨0⟩, ⟨0⟩]⟩
  body := [.emit ⟨0, 4⟩, .store ⟨0⟩ ⟨3⟩, .store ⟨2⟩ ⟨1⟩, .emit ⟨4, 7⟩, .ifElse ⟨6⟩
    [.store ⟨0⟩ ⟨1⟩] []]

def swapModule : IR.Module where
  types := IR.flagTypes
  globals := ⟨#[⟨none, .private, none, ⟨0⟩, none⟩, ⟨none, .private, none, ⟨0⟩, none⟩]⟩
  functions := ⟨#[swapFunction]⟩

lemma run_swap :
    ∃ p p', declareModule (.of swapModule {}) (.initial (.of swapModule {})) = .ok () p ∧
    emitHelper (.of swapModule {}) ⟨1⟩ "swap" swapFunction p = .ok () p' := by
  obtain ⟨_, p', hrun⟩ := exists_of_succeeded (r := (do
    declareModule (.of swapModule {})
    emitHelper (.of swapModule {}) ⟨1⟩ "swap" swapFunction) (.initial (.of swapModule {})))
    (by decide +kernel)
  obtain ⟨_, p, hdeclare, hrun⟩ := bind_eq_ok.1 hrun
  exact ⟨p, p', hdeclare, hrun⟩

theorem reads_in_place_swap : ∃ p p' result r fn,
    declareModule (.of swapModule {}) (.initial (.of swapModule {})) = .ok () p ∧
    emitHelper (.of swapModule {}) ⟨1⟩ "swap" swapFunction p = .ok () p' ∧
    (deferred swapFunction).getD 5 false = true ∧ swapFunction.EmittedAfter ⟨5⟩ 2 ∧
    Lowers (helperEnv (.of swapModule {}) "swap" swapFunction result) [] p r fn p' ∧
      p'.assembly.functions = p.assembly.functions.push fn ∧ fn.code = r.code ∧
      (∀ (before : Record) e after h, r = before ++ e :: after → e.source = .expression h →
        ∃ rank, swapFunction.EmittedAfter h rank ∧
          before.effects = (List.range rank).map Source.effect) ∧
      ∀ h pointer, swapFunction.expressions.get? h = some (.load pointer) →
        (deferred swapFunction).getD h.index false = false → r.readsOf h = 1 := by
  obtain ⟨p, p', hdeclare, hrun⟩ := run_swap
  obtain ⟨result, r, fn, hlowers⟩ :=
    reads_in_place (by decide +kernel) (bounded_of_declareModule hdeclare).1 hrun
  refine ⟨p, p', result, r, fn, hdeclare, hrun, by decide +kernel, ?_, hlowers⟩
  exact ⟨[.emit ⟨0, 4⟩, .effect, .effect], ⟨4, 7⟩, [.boundary, .effect, .boundary, .boundary], by
    decide +kernel, by decide, rfl⟩

end Shader.Emit
