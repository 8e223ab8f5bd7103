import Shader.Proofs.Effects
import Shader.Proofs.Execution
import Shader.Proofs.Module

/-!
# Emitted code runs like the statements

The code that is emitted for a statement, in its place in the code of a function, does what a run of
the statement does: the same side effects happen, the same decisions are taken, and control gets to
where the exit of the statement leads (`Follows`).  That holds for every construct if it holds for
its parts.  Expressions without short circuits are evaluated without control flow.

A run of a function ends if and only if the run of its code does, in the same way and after the same
side effects; and the side effects of runs that go on are the same as far as they go.
-/

namespace Shader.Emit

open List Assembly
open IR (Statement SwitchCase Exit Trace bodyRun casesRun caseRun loopRun)

variable {α β : Type _} {label merge condition accept reject id target header : Id}
    {code is : List Instruction} {flow : ControlStack} {bound count n bound' index : Nat}
  {ds ds' : List Decision} {c start finish c₁ c₂ c₃ : Control} {t : Trace} {σ σ' σ₁ : Body}
  {i : Instruction} {r r' : Record} {following : List Decision → Trace} {cases : List SwitchCase}
  {exit : Exit} {h selector : Handle .expression} {init : Option (Handle .expression)}
  {p' : Progress}

/-! ### Following a run -/

/-- Where control is when a statement is left as the exit tells. -/
def Lands (code : List Instruction) (flow : ControlStack) (next : Control) : Exit → Control → Prop
  | .through, c => c = next
  | .broken, c => ∃ label, flow.breakTarget = .ok label ∧ c = goTo code label
  | .continued, c => ∃ label, flow.continueTarget = .ok label ∧ c = goTo code label
  | .ended ending, c => c = .ended ending
  | .unfinished, c => ∃ position, c = .at position

/-- From `start`, the code does what a run of statements does; if that is unfinished, the code takes
at least `bound` steps. -/
def Follows (code : List Instruction) (flow : ControlStack) (bound : Nat) (start next : Control)
    (ds : List Decision) (t : Trace) : Prop :=
  ∃ n finish, Runs code n start ds t.effects finish t.left ∧ Lands code flow next t.exit finish ∧
    (t.exit = .unfinished → bound ≤ n)

namespace Follows

variable {next mid : Control} {es : List Nat}

lemma mono (h : Follows code flow bound' start next ds t) (hbound : bound ≤ bound') :
    Follows code flow bound start next ds t := by
  obtain ⟨n, finish, hruns, hlands, hn⟩ := h
  exact ⟨n, finish, hruns, hlands, fun hexit => Nat.le_trans hbound (hn hexit)⟩

lemma through (h : Runs code n start ds es next ds') :
    Follows code flow bound start next ds ⟨es, .through, ds'⟩ := ⟨n, next, h, rfl, nofun⟩

lemma ended (h : Runs code n start ds es (.ended ending) ds') :
    Follows code flow bound start next ds ⟨es, .ended ending, ds'⟩ := ⟨n, _, h, rfl, nofun⟩

lemma before (hruns : Runs code n start ds es mid ds')
    (h : Follows code flow bound mid next ds' t) :
    Follows code flow (n + bound) start next ds (t.after es) := by
  obtain ⟨n', finish, hruns', hlands, hn⟩ := h
  exact ⟨n + n', finish, hruns.trans hruns', hlands, fun hexit => Nat.add_le_add_left (hn hexit) n⟩

lemma via (hruns : Runs code n start ds [] mid ds') (h : Follows code flow bound mid next ds' t) :
    Follows code flow bound start next ds t := (before hruns h).mono (Nat.le_add_left bound n)

lemma onward (h : Follows code flow bound start mid ds t)
    (hnext : t.exit = .through → ∃ n, Runs code n mid t.left [] next t.left) :
    Follows code flow bound start next ds t := by
  obtain ⟨n, finish, hruns, hlands, hn⟩ := h
  obtain ⟨effects, exit, left⟩ := t
  cases exit with
  | through =>
    obtain rfl := hlands
    obtain ⟨n', hnext⟩ := hnext rfl
    have hall := hruns.trans hnext
    rw [append_nil] at hall
    exact through hall
  | broken | continued | ended _ | unfinished => exact ⟨n, finish, hruns, hlands, hn⟩

lemma andThen (h : Follows code flow bound start mid ds t)
    (hnext : t.exit = .through → Follows code flow bound mid next t.left (following t.left)) :
    Follows code flow bound start next ds (t.andThen following) := by
  obtain ⟨n, finish, hruns, hlands, hn⟩ := h
  obtain ⟨effects, exit, left⟩ := t
  cases exit with
  | through =>
    obtain rfl := hlands
    exact (before hruns (hnext rfl)).mono (Nat.le_add_left bound n)
  | broken | continued | ended _ | unfinished => exact ⟨n, finish, hruns, hlands, hn⟩

lemma selection (h : Follows code (flow.pushSelection merge) bound start next ds t) :
    Follows code flow bound start next ds t := by
  obtain ⟨n, finish, hruns, hlands, hn⟩ := h
  refine ⟨n, finish, hruns, ?_, hn⟩
  cases hexit : t.exit <;> rw [hexit] at hlands <;> exact hlands

lemma switch (h : Follows code (flow.pushSwitch merge) bound start (goTo code merge) ds t) :
    Follows code flow bound start (goTo code merge) ds t.catchBreak := by
  obtain ⟨n, finish, hruns, hlands, hn⟩ := h
  obtain ⟨effects, exit, left⟩ := t
  cases exit with
  | broken =>
    obtain ⟨label, hlabel, rfl⟩ := hlands
    cases hlabel
    exact through hruns
  | through | continued | ended _ | unfinished => exact ⟨n, finish, hruns, hlands, hn⟩

end Follows

lemma Follows.branch {next : Control} {acceptRun rejectRun : List Decision → Trace}
    (hcode : Stands code n [.branchConditional condition accept reject])
    (haccept : ∀ left, Follows code flow bound (goTo code accept) next left (acceptRun left))
    (hreject : ∀ left, Follows code flow bound (goTo code reject) next left (rejectRun left)) :
    Follows code flow bound (.at n) next ds (match flag? ds with
        | some (true, left) => acceptRun left
        | some (false, left) => rejectRun left
        | none => ⟨[], .ended .starved, ds⟩) := by
  cases hflag : flag? ds with
  | none => exact .ended (.branch_starved hcode hflag)
  | some answer =>
    obtain ⟨value, left⟩ := answer
    have hbranch := Runs.branch hcode hflag
    cases value with
    | true => exact .via hbranch (haccept left)
    | false => exact .via hbranch (hreject left)

/-! ### Loops -/

/-- Control that goes to the label enters the block behind it. -/
def Enters (code : List Instruction) (label : Id) (c : Control) : Prop :=
  (∃ position, goTo code label = .at position) ∧ ∀ ds, Runs code 1 (goTo code label) ds [] c ds

lemma enters_label (hlabels : (labels code).Nodup) (h : Stands code n [.label label]) :
    Enters code label (.at (n + 1)) := by
  rw [Enters, goTo_label hlabels h]
  exact ⟨⟨n, rfl⟩, fun ds => .passive h rfl⟩

lemma Enters.follows {next : Control} (henters : Enters code label c)
    (h : Follows code flow bound c next ds t) :
    Follows code flow bound (goTo code label) next ds t :=
  .via (henters.2 ds) h

lemma Follows.enters (h : Follows code flow bound start (goTo code merge) ds t)
    (henters : Enters code merge c) :
    Follows code flow bound start c ds t := h.onward fun _ => ⟨1, henters.2 _⟩

/-- From `c` control goes back to the header of a loop, or out of the loop if it asks and the answer
is yes. -/
def Rejoins (code : List Instruction) (header merge : Id) (asks : Bool) (c : Control) : Prop :=
  ∀ ds, ∃ n, if asks then
      match flag? ds with
      | some (value, left) => Runs code n c ds [] (goTo code (if value then merge else header)) left
      | none => Runs code n c ds [] (.ended .starved) ds
    else Runs code n c ds [] (goTo code header) ds

/-- The label of a part of a loop. -/
def partLabel (first next : Id) : IR.LoopPart → Id
  | .body => first
  | .continuing => next

section

variable {first next : Id} {body continuing : List Decision → Trace} {asks : Bool} {rounds k : Nat}

lemma Follows.leaveLoop (hruns : Runs code (1 + n) start ds t.effects finish t.left)
    (hlands : Lands code (flow.pushLoop merge next) c t.exit finish)
    (hn : t.exit = .unfinished → k ≤ n)
    (hthrough : t.exit ≠ .through) (hcontinued : t.exit ≠ .continued) :
    Follows code flow (k + 1) start (goTo code merge) ds t.catchBreak := by
  obtain ⟨effects, exit, left⟩ := t
  cases exit with
  | through => exact absurd rfl hthrough
  | continued => exact absurd rfl hcontinued
  | broken =>
    obtain ⟨label, hlabel, rfl⟩ := hlands
    cases hlabel
    exact through hruns
  | ended _ => exact ⟨_, finish, hruns, hlands, nofun⟩
  | unfinished => exact ⟨_, finish, hruns, hlands, fun h => by have := hn h; omega⟩

/-- The code of a loop follows its run, round by round. -/
lemma follows_loopRun (hheader : ∀ ds, ∃ n, Runs code n (goTo code header) ds []
    (goTo code first) ds) (hfirst : Enters code first c₁)
    (hbody : ∀ ds, Follows code (flow.pushLoop merge next) rounds c₁ (goTo code next) ds (body ds))
    (hnext : Enters code next c₂)
    (hcontinuing : ∀ ds, Follows code (flow.pushLoop merge next) rounds c₂ c₃ ds (continuing ds))
    (hback : ∀ ds, (continuing ds).exit = .through → Rejoins code header merge asks c₃) :
    ∀ k ≤ rounds, ∀ part ds, Follows code flow k (goTo code (partLabel first next part))
      (goTo code merge) ds (loopRun body continuing asks k part ds) := by
  -- over the rounds that are left, with the body and the continuing by turns
  intro k
  induction k with
  | zero =>
    intro _ part ds
    have hat : ∃ position, goTo code (partLabel first next part) = .at position := by
      cases part with
      | body => exact hfirst.1
      | continuing => exact hnext.1
    exact ⟨0, _, Runs.refl, hat, fun _ => Nat.le_refl 0⟩
  | succ k ih =>
    intro hk part ds
    have ih := ih (Nat.le_of_succ_le hk)
    -- a round that ends in front of a label goes on with one round less
    have hgoOn : ∀ part {n : Nat} {start : Control} {es : List Nat} {left : List Decision},
        Runs code (1 + n) start ds es (goTo code (partLabel first next part)) left →
        Follows code flow (k + 1) start (goTo code merge) ds
          ((loopRun body continuing asks k part left).after es) := by
      intro part n start es left hruns
      exact (Follows.before hruns (ih part left)).mono (by omega)
    cases part with
    | body =>
      obtain ⟨n, finish, hruns, hlands, hn⟩ := hbody ds
      have hruns := (hfirst.2 ds).trans hruns
      simp only [loopRun]
      generalize body ds = t at *
      obtain ⟨effects, exit, left⟩ := t
      cases exit with
      | through =>
        obtain rfl := hlands
        exact hgoOn .continuing hruns
      | continued =>
        obtain ⟨label, hlabel, rfl⟩ := hlands
        cases hlabel
        exact hgoOn .continuing hruns
      | broken | ended _ | unfinished =>
        exact .leaveLoop hruns hlands (fun h => Nat.le_trans (Nat.le_of_succ_le hk) (hn h)) nofun
          nofun
    | continuing =>
      obtain ⟨n, finish, hruns, hlands, hn⟩ := hcontinuing ds
      have hruns := (hnext.2 ds).trans hruns
      have hback := hback ds
      simp only [loopRun]
      generalize continuing ds = t at *
      obtain ⟨effects, exit, left⟩ := t
      cases exit with
      | through =>
        obtain rfl : c₃ = finish := hlands.symm
        obtain ⟨n', hback⟩ := hback rfl left
        have hagain : ∀ {ds'}, Runs code n' c₃ left [] (goTo code header) ds' →
            Follows code flow (k + 1) (goTo code next) (goTo code merge) ds
              ((loopRun body continuing asks k .body ds').after effects) := by
          intro ds' hback
          obtain ⟨n'', hheader⟩ := hheader ds'
          have hall := (hruns.trans hback).trans hheader
          simp only [nil_append, append_nil, Nat.add_assoc] at hall
          exact hgoOn .body hall
        have hstop : ∀ {c} {ds'}, Runs code n' c₃ left [] c ds' →
            Runs code (1 + n + n') (goTo code next) ds effects c ds' := by
          intro c ds' hback
          have hall := hruns.trans hback
          rwa [append_nil] at hall
        cases asks with
        | false => exact hagain hback
        | true =>
          cases hflag : flag? left with
          | none =>
            rw [hflag] at hback
            exact .ended (hstop hback)
          | some answer =>
            obtain ⟨value, left'⟩ := answer
            rw [hflag] at hback
            cases value with
            | false => exact hagain hback
            | true => exact .through (hstop hback)
      | continued =>
        obtain ⟨label, hlabel, rfl⟩ := hlands
        cases hlabel
        exact hgoOn .continuing hruns
      | broken | ended _ | unfinished =>
        exact .leaveLoop hruns hlands (fun h => Nat.le_trans (Nat.le_of_succ_le hk) (hn h)) nofun
          nofun

end

/-! ### Switches -/

lemma find?_zip (p : α → Bool) {as : List α} {bs : List β} (hlength : bs.length = as.length) :
    ((as.zip bs).find? fun x => p x.1).map Prod.snd = (as.findIdx? p).bind (bs[·]?) := by
  induction as generalizing bs with
  | nil => simp
  | cons a as ih =>
    obtain ⟨b, bs, rfl⟩ := exists_cons_of_length_eq_add_one hlength
    rw [zip_cons_cons, find?_cons, findIdx?_cons]
    cases p a with
    | true => rfl
    | false =>
      rw [ih (Nat.succ.inj hlength)]
      cases as.findIdx? p <;> rfl

lemma casePairs_append (words : List UInt32) (label : Id) (rest : List Operand) :
    casePairs ((words.flatMap fun word => [.word word, .id label]) ++ rest) =
      words.map (·, label) ++ casePairs rest := by
  induction words with
  | nil => rfl
  | cons word words ih => exact congrArg ((word, label) :: ·) ih

lemma lookup_words (words : List UInt32) (label : Id) (word : UInt32) :
    (words.map (·, label)).lookup word = if word ∈ words then some label else none := by
  induction words with
  | nil => rfl
  | cons first words ih =>
    rw [map_cons, lookup_cons, ih]
    by_cases h : word = first
    · simp [h]
    · rw [beq_false_of_ne h]
      simp [h]

lemma lists_iff {c : SwitchCase} : c.lists word ↔ word ∈ c.values.filterMap fun v => v.word? := by
  simp [SwitchCase.lists]

lemma lookup_casePairs (cases : List SwitchCase) (labels : List Id) (word : UInt32) :
    (casePairs ((cases.zip labels).flatMap fun x => caseTargets x.1 x.2)).lookup word =
      ((cases.zip labels).find? fun x => x.1.lists word).map Prod.snd := by
  induction cases.zip labels with
  | nil => rfl
  | cons x rest ih =>
    rw [flatMap_cons, caseTargets, casePairs_append, lookup_append, ih, lookup_words, find?_cons]
    by_cases h : x.1.lists word
    · rw [if_pos (lists_iff.1 h), h]
      rfl
    · rw [if_neg (fun hmem => h (lists_iff.2 hmem)), Bool.eq_false_iff.2 h]
      rfl

/-- A switch goes to the case that the word selects, or to its own default block if there is
none. -/
lemma target_of_chosenCase? {labels : List Id} {default : Id}
    (hlength : labels.length = cases.length)
    (hdefaults : Defaults cases labels σ default fallback σ')
    (word : UInt32) :
    let pairs := casePairs ((cases.zip labels).flatMap fun x => caseTargets x.1 x.2)
    let target := (pairs.lookup word).getD default
    match IR.chosenCase? cases word with
    | some index => labels[index]? = some target
    | none => target = default ∧ fallback = some default := by
  intro pairs target
  have hlookup : pairs.lookup word = (cases.findIdx? (·.lists word)).bind (labels[·]?) :=
    (lookup_casePairs cases labels word).trans (find?_zip (SwitchCase.lists · word) hlength)
  have hdefault : defaultLabel? cases labels = (cases.findIdx? (·.isDefault)).bind (labels[·]?) :=
    find?_zip SwitchCase.isDefault hlength
  have hget : ∀ {p} {index}, cases.findIdx? p = some index → ∃ label, labels[index]? =
    some label := by
    intro p index hindex
    have hlt := findIdx?_eq_some_iff_findIdx_eq.1 hindex
    exact ⟨_, getElem?_eq_getElem (hlength ▸ hlt.1)⟩
  unfold IR.chosenCase?
  cases hlists : cases.findIdx? (·.lists word) with
  | some index =>
    obtain ⟨label, hlabel⟩ := hget hlists
    rw [hlists, Option.bind_some, hlabel] at hlookup
    simp only [Option.some_or, target, hlookup, hlabel, Option.getD_some]
  | none =>
    rw [hlists] at hlookup
    have htarget : target = default := by simp [target, hlookup]
    rw [Option.none_or]
    cases hindex : cases.findIdx? (·.isDefault) with
    | some index =>
      obtain ⟨label, hlabel⟩ := hget hindex
      rw [hindex, Option.bind_some, hlabel] at hdefault
      cases hdefaults with
      | case h =>
        rw [htarget]
        exact hlabel.trans (hdefault.symm.trans h)
      | block h =>
        rw [hdefault] at h
        cases h
    | none =>
      rw [hindex] at hdefault
      cases hdefaults with
      | case h =>
        rw [hdefault] at h
        cases h
      | block h => exact ⟨htarget, rfl⟩

/-! ### Expressions without short circuits -/

/-- The code computes values only, and the open block stays open. -/
def Computes (σ : Body) (r : Record) (σ' : Body) :
    Prop := (∀ i ∈ r.code, i.isPassive) ∧ σ'.label? = σ.label?

namespace Computes

lemma refl (σ : Body) : Computes σ [] σ := ⟨nofun, rfl⟩

lemma trans (h : Computes σ r σ₁) (h' : Computes σ₁ r' σ') : Computes σ (r ++ r') σ' := by
  refine ⟨?_, h'.2.trans h.2⟩
  rw [Record.code_append]
  exact forall_mem_append.2 ⟨h.1, h'.1⟩

lemma of_extends (h : σ.Extends σ') : Computes σ [] σ' := ⟨nofun, h.label?⟩

lemma of_same (h : σ.SameCode σ') :
    Computes σ [] σ' := ⟨nofun, by simp only [Body.label?, h.current?]⟩

lemma extend (h : Computes σ r σ₁) (h' : σ₁.Extends σ') :
    Computes σ r σ' := ⟨h.1, h'.label?.trans h.2⟩

lemma same (h : Computes σ r σ₁) (h' : σ₁.SameCode σ') :
    Computes σ r σ' := ⟨h.1, (of_same h').2.trans h.2⟩

lemma of_pushes (hpassive : e.instruction.isPassive) (h : σ.Pushes e.instruction σ') :
    Computes σ [e] σ' := ⟨forall_mem_singleton.2 hpassive, h.label?⟩

end Computes

section

variable {env : FunctionEnv} {allowed : Opcode → Bool} {source : Source} {p q : Point}

lemma isPassive_of_isValue (h : i.opcode.isValue) : i.isPassive := by
  have htyped : i.opcode.isTyped := by
    rcases Bool.or_eq_true_iff.1 h with h | h
    · exact Opcode.isTyped_of_isPlain h
    · simp only [Opcode.isRead, Opcode.reads, contains_eq_mem, mem_cons, not_mem_nil,
        or_false, decide_eq_true_eq] at h
      rcases h with h | h <;> rw [h] <;> rfl
  simp only [Instruction.isPassive, Instruction.isTerminator, Instruction.isEffect,
    Opcode.not_isTerminator_of_isTyped htyped, not_isEffect_of_isValue h]
  rfl

lemma computes_of_emits (hallowed : ∀ op, allowed op → op.isValue)
    (h : Emits source allowed p r q) :
    Computes p.body r q.body := by
  cases h with
  | result hop _ _ _ hpush | bare hop _ _ hpush =>
    exact .of_pushes (isPassive_of_isValue (hallowed _ hop)) hpush

lemma computes_of_straight (hallowed : ∀ op, allowed op → op.isValue)
    (heval : ∀ ⦃h σ r id σ'⦄, evaluate h σ r id σ' → Computes σ r σ')
    (h : Straight env evaluate source allowed operands p r q) : Computes p.body r q.body := by
  induction h with
  | nil => exact .refl _
  | cons hstep _ ih =>
    refine .trans ?_ ih
    cases hstep with
    | declare hext _ => exact .of_extends hext
    | issue => exact .of_extends (Body.extends_issue _)
    | evaluate _ hevaluate => exact heval hevaluate
    | emit hemits => exact computes_of_emits hallowed hemits

/-- The function has no short circuits. -/
def FunctionEnv.Strict (env : FunctionEnv) : Prop :=
  ∀ h e, env.function.expressions.get? h = some e → e.isShortCircuit = false

lemma computes_of_evaluated (hstrict : env.Strict) (depth : Nat) :
    ∀ ⦃h σ r id σ'⦄, Evaluated env depth h σ r id σ' → Computes σ r σ' := by
  induction depth with
  | zero => exact fun _ _ _ _ _ h => h.elim
  | succ depth ih =>
    intro h σ r id σ' heval
    rcases heval with ⟨-, rfl, rfl⟩ | ⟨-, e, σ₁, he, hcomputed, hext⟩
    · exact .refl _
    · have hkept : Computes σ₁ [] σ' := ⟨nofun, hext.label?⟩
      rw [← append_nil r]
      refine .trans ?_ hkept
      rcases hcomputed.forms with ⟨-, rfl, hrefers, -⟩ | ⟨-, -, known, hchain⟩ |
        ⟨op, left, right, rfl, hop, -⟩
      · exact .of_extends hrefers
      · exact computes_of_straight (fun _ h => h) ih hchain
      · rw [show op.isShortCircuit = false from hstrict h _ he] at hop
        cases hop

end

/-! ### Emitted statements -/

/-- The code of an emission, in its place, does what a run of statements does; `rank` is the number
of effects before.  The block stays open where control goes on. -/
def Emission.Simulates (flow : ControlStack) (rounds rank : Nat) (run : List Decision → Trace)
    (emission : Emission) : Prop :=
  ∀ ⦃σ r σ'⦄, emission σ r σ' → σ.label?.isSome → ∀ ⦃code n⦄, (labels code).Nodup →
    Stands code n r.code → effectCount (code.take n) = rank → ∀ ds,
      Follows code flow rounds (.at n) (.at (n + r.code.length)) ds (run ds) ∧
        ((run ds).exit = .through → σ'.label?.isSome)

namespace Emission.Simulates

variable {env : FunctionEnv} {rounds rank : Nat} {run acceptRun rejectRun : List Decision → Trace}
    {emission second : Emission} {breakIf : Option (Handle .expression)}

lemma computes (h : ∀ ⦃σ r σ'⦄, emission σ r σ' → Computes σ r σ') :
    Simulates flow rounds rank (⟨[], .through, ·⟩) emission := by
  intro σ r σ' hemission hopen code n _ hcode _ ds
  obtain ⟨hpassive, hlabel⟩ := h hemission
  exact ⟨.through (.passives hcode hpassive), fun _ => hlabel ▸ hopen⟩

lemma skip : Simulates flow rounds rank (⟨[], .through, ·⟩) skip := by
  refine computes ?_
  rintro σ r σ' ⟨rfl, rfl⟩
  exact .refl _

lemma afterReady (h : Simulates flow rounds rank run emission) :
    Simulates flow rounds rank run (Then Ready emission) := by
  rintro σ r σ' ⟨hready, hrest⟩ hopen
  cases hready with
  | already _ => exact h hrest hopen
  | fresh hnone _ =>
    rw [hnone] at hopen
    cases hopen

lemma andThen (h : Simulates flow rounds rank run first) (hcount : Ordered rank count first)
    (h' : Simulates flow rounds (rank + count) following second) :
    Simulates flow rounds rank (fun ds => (run ds).andThen following) (Then first second) := by
  rintro σ r σ' ⟨hfirst, hsecond⟩ hopen code n hlabels hcode hrank ds
  simp only [Record.code_append, stands_append, length_append, ← Nat.add_assoc] at hcode ⊢
  obtain ⟨hcode₁, hcode₂⟩ := hcode
  have hrank₂ := hcode₁.rank hrank (hcount.effectCount_code hfirst)
  obtain ⟨hruns, hstays⟩ := h hfirst hopen hlabels hcode₁ hrank ds
  have hnext := fun hexit => h' hsecond (hstays hexit) hlabels hcode₂ hrank₂ (run ds).left
  refine ⟨hruns.andThen fun hexit => (hnext hexit).1, fun hexit => ?_⟩
  obtain ⟨hthrough, hexit⟩ := Trace.exit_andThen hexit
  exact (hnext hthrough).2 hexit

lemma affects (hstrict : env.Strict) (reads : Handles) (result : Option (Handle .expression)) :
    Simulates flow rounds rank (⟨[rank], .through, ·⟩) (Affects env rank reads result) := by
  rintro σ r σ' ⟨hreads, hemits, hresult, -, hremembers⟩ hopen code n - hcode hrank ds
  rename_i p q q' r₁ r₂ r₃
  obtain ⟨hpassive₁, hlabel₁⟩ := computes_of_straight isValue_of_isPlain
    (computes_of_evaluated hstrict _) hreads
  obtain ⟨hpassive₃, hlabel₃⟩ := computes_of_straight isValue_of_isPlain
    (computes_of_evaluated hstrict _) hresult
  obtain ⟨i, rfl, hi, hlabel₂⟩ : ∃ i, r₂ = [⟨.effect rank, i⟩] ∧ i.isEffect ∧
      q.body.label? = p.body.label? := by
    cases hemits with
    | result hop _ _ _ hpush | bare hop _ _ hpush => exact ⟨_, rfl, hop, hpush.label?⟩
  simp only [Record.code_append, stands_append, length_append, ← Nat.add_assoc] at hcode ⊢
  obtain ⟨⟨hcode₁, hcode₂⟩, hcode₃⟩ := hcode
  have hrank₁ := hcode₁.rank hrank (effectCount_of_isPassive hpassive₁)
  have heffect : Runs code 1 (.at (n + r₁.code.length)) ds _ _ ds := .effect hcode₂ hi
  rw [hrank₁] at heffect
  refine ⟨.through ((Runs.passives hcode₁ hpassive₁).trans
    (heffect.trans (.passives hcode₃ hpassive₃))), fun _ => ?_⟩
  have hlabel : q'.body.label? = σ.label? := hlabel₃.trans (hlabel₂.trans hlabel₁)
  unfold Remembers at hremembers
  split at hremembers
  · rw [hremembers, hlabel]
    exact hopen
  · obtain ⟨id, -, rfl⟩ := hremembers
    exact (congrArg Option.isSome hlabel).trans hopen

lemma part {inner : ControlStack} (h : Simulates inner rounds rank run emission)
    (hpart : Part label target emission σ r σ') (hlabels : (labels code).Nodup)
    (hcode : Stands code n r.code)
    (hrank : effectCount (code.take n) = rank) : Enters code label (.at (n + 1)) ∧
      ∀ ds, Follows code inner rounds (.at (n + 1)) (goTo code target) ds (run ds) := by
  obtain ⟨hopen, hinner, hcloses⟩ := hpart
  rename_i σ₁ σ₂ r₁ r₂
  simp only [Record.code_append, Record.code_of, stands_append, length_append,
    ← Nat.add_assoc] at hcode
  obtain ⟨⟨hcode₀, hcode₁⟩, hcode₂⟩ := hcode
  refine ⟨enters_label hlabels hcode₀, fun ds => ?_⟩
  have hsome : σ₁.label?.isSome := by
    rw [hopen.label?]
    rfl
  obtain ⟨hfollows, hstays⟩ := h hinner hsome hlabels hcode₁ (hcode₀.rank hrank rfl) ds
  refine hfollows.onward fun hexit => ?_
  cases hcloses with
  | ended hnone =>
    have hstays := hstays hexit
    rw [hnone] at hstays
    cases hstays
  | branch _ => exact ⟨1, .goto hcode₂⟩

lemma leaves (hexit : exit ≠ .through) (hexit' : exit ≠ .unfinished)
    (h : ∀ ⦃σ r σ'⦄, emission σ r σ' → ∃ is i, r.code = is ++ [i] ∧ (∀ j ∈ is, j.isPassive) ∧
      i.isEffect = false ∧ ∀ code position ds, ∃ c, i.transfer.take code position ds = (c, ds) ∧
        ∀ next, Lands code flow next exit c) : Simulates flow rounds rank
          (⟨[], exit, ·⟩) emission := by
  intro σ r σ' hemission _ code n _ hcode _ ds
  obtain ⟨is, i, hr, hpassive, hi, htake⟩ := h hemission
  rw [hr, stands_append] at hcode
  obtain ⟨c, htake, hlands⟩ := htake code (n + is.length) ds
  have hall := (Runs.passives hcode.1 hpassive).trans (.one hcode.2 htake)
  rw [hi] at hall
  exact ⟨⟨_, c, hall, hlands _, fun h => absurd h hexit'⟩, fun h => absurd h hexit⟩

lemma breaks : Simulates flow rounds rank (⟨[], .broken, ·⟩) (Branches flow.breakTarget) := by
  refine leaves nofun nofun ?_
  rintro σ r σ' ⟨htarget, -⟩
  exact ⟨[], _, rfl, nofun, rfl, fun code _ ds => ⟨_, rfl, fun _ => ⟨_, htarget, rfl⟩⟩⟩

lemma continues :
    Simulates flow rounds rank (⟨[], .continued, ·⟩) (Branches flow.continueTarget) := by
  refine leaves nofun nofun ?_
  rintro σ r σ' ⟨htarget, -⟩
  exact ⟨[], _, rfl, nofun, rfl, fun code _ ds => ⟨_, rfl, fun _ => ⟨_, htarget, rfl⟩⟩⟩

lemma returns (hstrict : env.Strict) (houtputs : env.outputs = [])
    (value : Option (Handle .expression)) :
    Simulates flow rounds rank (⟨[], .ended .returned, ·⟩) fun σ r σ' => Returns env σ
      value r σ' := by
  refine leaves nofun nofun fun σ r σ' hreturns => ?_
  cases hreturns with
  | nothing _ => exact ⟨[], _, rfl, nofun, rfl, fun _ _ _ => ⟨_, rfl, fun _ => rfl⟩⟩
  | @value h id r₁ _ _ _ heval _ =>
    refine ⟨r₁.code, _, Record.code_append _ _, ?_, rfl, fun _ _ _ => ⟨_, rfl, fun _ => rfl⟩⟩
    exact (computes_of_evaluated hstrict _ heval).1
  | outputs hne _ _ _ _ => exact absurd houtputs hne

lemma kills : Simulates flow rounds rank (⟨[], .ended .killed, ·⟩)
    fun σ r σ' => σ.Closes .kill σ' ∧ r = .of .frame [.kill] := by
  refine leaves nofun nofun ?_
  rintro σ r σ' ⟨-, rfl⟩
  exact ⟨[], _, rfl, nofun, rfl, fun _ _ _ => ⟨_, rfl, fun _ => rfl⟩⟩

/-- The end of the block in front of a construct: a value is computed, and the construct is
announced. -/
lemma announces (hpassive : ∀ i ∈ is, i.isPassive) (hi : i.isPassive)
    (hbranch : effectCount [branch] = 0)
    (hvalue : Stands code n is) (hmerge : Stands code (n + is.length) [i])
    (hend : Stands code (n + is.length + 1) [branch]) (hrank : effectCount (code.take n) = rank) :
    (∀ ds, Runs code (is.length + 1) (.at n) ds [] (.at (n + is.length + 1)) ds) ∧
      effectCount (code.take (n + is.length + 1 + 1)) = rank := by
  refine ⟨fun ds => (Runs.passives hvalue hpassive).trans (.passive hmerge hi), ?_⟩
  have hcalm : effectCount [i] = 0 := effectCount_of_isPassive (forall_mem_singleton.2 hi)
  exact hend.rank (hmerge.rank (hvalue.rank hrank (effectCount_of_isPassive hpassive)) hcalm)
    hbranch

lemma selects {accept : ControlStack → Emission} {reject : Option (ControlStack → Emission)}
    {condition : Handle .expression} (hstrict : env.Strict)
    (haccept : ∀ inner, Simulates inner rounds rank acceptRun (accept inner))
    (hcount : ∀ inner, Ordered rank count (accept inner))
    (hreject : ∀ part ∈ reject, ∀ inner, Simulates inner rounds (rank + count)
      rejectRun (part inner))
    (hnone : reject = none → ∀ ds, rejectRun ds = ⟨[], .through, ds⟩) : Simulates flow rounds rank
      (fun ds => match flag? ds with
        | some (true, left) => acceptRun left
        | some (false, left) => rejectRun left
        | none => ⟨[], .ended .starved, ds⟩)
      (Selects env flow condition accept reject) := by
  intro σ r σ' hselects _ code n hlabels hcode hrank ds
  cases hselects with
  | @both reject c merge first second r r₁ r₂ _ σ₁ σ₂ σ₃ σ₄ σ₅ _ heval _ _ _ _ _ hpart
    hpart' hopen =>
    obtain ⟨hpassive, -⟩ := computes_of_evaluated hstrict _ heval
    simp only [Record.code_append, Record.code_of, stands_append, stands_pair, length_append,
      length_cons, length_nil, ← Nat.add_assoc, Nat.add_zero] at hcode ⊢
    obtain ⟨⟨⟨⟨hvalue, hmerge, hbranch⟩, hcode₁⟩, hcode₂⟩, hend⟩ := hcode
    obtain ⟨hhead, hrank₁⟩ := announces hpassive rfl rfl hvalue hmerge hbranch hrank
    have hrank₂ := hcode₁.rank hrank₁ ((Ordered.part (hcount _)).effectCount_code hpart)
    obtain ⟨hfirst, haccept⟩ := part (haccept _) hpart hlabels hcode₁ hrank₁
    obtain ⟨hsecond, hreject⟩ := part (hreject _ rfl _) hpart' hlabels hcode₂ hrank₂
    have hlast := enters_label hlabels hend
    refine ⟨.via (hhead ds) (.branch hbranch (fun left => ?_) fun left => ?_), fun _ => ?_⟩
    · exact (hfirst.follows (haccept left).selection).enters hlast
    · exact (hsecond.follows (hreject left).selection).enters hlast
    · rw [hopen.label?]
      rfl
  | @one c merge first r r₁ _ σ₁ σ₂ σ₃ σ₄ _ heval _ _ _ _ hpart hopen =>
    obtain ⟨hpassive, -⟩ := computes_of_evaluated hstrict _ heval
    simp only [Record.code_append, Record.code_of, stands_append, stands_pair, length_append,
      length_cons, length_nil, ← Nat.add_assoc, Nat.add_zero] at hcode ⊢
    obtain ⟨⟨⟨hvalue, hmerge, hbranch⟩, hcode₁⟩, hend⟩ := hcode
    obtain ⟨hhead, hrank₁⟩ := announces hpassive rfl rfl hvalue hmerge hbranch hrank
    obtain ⟨hfirst, haccept⟩ := part (haccept _) hpart hlabels hcode₁ hrank₁
    have hlast := enters_label hlabels hend
    refine ⟨.via (hhead ds) (.branch hbranch (fun left => ?_) fun left => ?_), fun _ => ?_⟩
    · exact (hfirst.follows (haccept left).selection).enters hlast
    · rw [hnone rfl]
      exact .through (hlast.2 left)
    · rw [hopen.label?]
      rfl

lemma rejoins (hstrict : env.Strict) (h : Repeats env header merge σ breakIf r σ')
    (hopen : σ.label?.isSome) (hcode : Stands code n r.code) :
    Rejoins code header merge breakIf.isSome (.at n) := by
  intro ds
  cases h with
  | ended hnone =>
    rw [hnone] at hopen
    cases hopen
  | always _ => exact ⟨1, .goto hcode⟩
  | @«unless» _ c r _ _ _ _ heval _ =>
    obtain ⟨hpassive, -⟩ := computes_of_evaluated hstrict _ heval
    simp only [Record.code_append, Record.code_of, stands_append] at hcode
    obtain ⟨hvalue, hbranch⟩ := hcode
    refine ⟨r.code.length + 1, ?_⟩
    simp only [Option.isSome_some, if_true]
    split
    · rename_i hflag
      exact (Runs.passives hvalue hpassive).trans (.branch hbranch hflag)
    · rename_i hflag
      exact (Runs.passives hvalue hpassive).trans (.branch_starved hbranch hflag)

lemma loops (hstrict : env.Strict) {bodyRun continuingRun : List Decision → Trace}
    (hbody : ∀ inner, Simulates inner rounds rank bodyRun (body inner))
    (hcount : ∀ inner, Ordered rank count (body inner))
    (hcontinuing : ∀ inner, Simulates inner rounds (rank + count) continuingRun
      (continuing inner)) :
    Simulates flow rounds rank (loopRun bodyRun continuingRun breakIf.isSome rounds .body)
      (Loops env flow body continuing breakIf) := by
  rintro σ r σ' ⟨-, -, -, -, -, -, -, -, hpart, hopen, hinner, hrepeats, hopen'⟩ - code
    n hlabels hcode hrank ds
  rename_i header first next merge r₁ r₂ r₃ σ₁ σ₂ σ₃ σ₄ σ₅ σ₆ σ₇ σ₈
  simp only [Record.code_append, Record.code_of, stands_append, length_append,
    length_cons, length_nil, ← Nat.add_assoc, Nat.zero_add] at hcode ⊢
  obtain ⟨⟨⟨⟨⟨hhead, hcode₁⟩, hlabel⟩, hcode₂⟩, hcode₃⟩, hend⟩ := hcode
  have hrank₁ : effectCount (code.take (n + 1 + 1 + 1 + 1)) = rank := hhead.rank hrank rfl
  have hrank₂ := hlabel.rank (hcode₁.rank hrank₁ ((Ordered.part (hcount _)).effectCount_code hpart))
    rfl
  obtain ⟨henter, hhead⟩ := stands_cons.1 hhead
  obtain ⟨hheader, hhead⟩ := stands_cons.1 hhead
  obtain ⟨hmerge, hbranch⟩ := stands_pair.1 hhead
  have hround : ∀ ds, Runs code _ (goTo code header) ds [] (goTo code first) ds := fun ds =>
    ((enters_label hlabels hheader).2 ds).trans ((Runs.passive hmerge rfl).trans (.goto hbranch))
  obtain ⟨hfirst, hbody⟩ := part (hbody _) hpart hlabels hcode₁ hrank₁
  have hsome : σ₆.label?.isSome := by
    rw [hopen.label?]
    rfl
  have hcontinuing := hcontinuing _ hinner hsome hlabels hcode₂ hrank₂
  have hloop := follows_loopRun (fun ds => ⟨_, hround ds⟩) hfirst hbody
    (enters_label hlabels hlabel) (fun ds => (hcontinuing ds).1)
    (fun ds hexit => rejoins hstrict hrepeats ((hcontinuing ds).2 hexit) hcode₃) rounds
    (Nat.le_refl _) .body ds
  refine ⟨.via ((Runs.goto henter).trans (hround ds)) (hloop.enters (enters_label hlabels hend)),
    ?_⟩
  intro _
  rw [hopen'.label?]
  rfl

lemma switches (hstrict : env.Strict) (run : Option Nat → List Decision → Trace)
    (hrun : ∀ ds, run none ds = ⟨[], .through, ds⟩)
    (hparts : ∀ inner merge names, names.length = cases.length → ∀ ⦃σ r σ'⦄,
      parts inner merge names σ r σ' → ∀ ⦃code n⦄, (labels code).Nodup → Stands code n r.code →
        effectCount (code.take n) = rank → ∀ ⦃index label⦄, names[index]? = some label → ∀ ds,
          Follows code inner rounds (goTo code label) (goTo code merge) ds (run (some index) ds)) :
    Simulates flow rounds rank (fun ds => match word? ds with
        | some (word, left) => (run (IR.chosenCase? cases word) left).catchBreak
        | none => ⟨[], .ended .starved, ds⟩)
      (Switches env flow selector cases parts) := by
  rintro σ r σ' ⟨hselector, -, -, hissues, hdefaults, -, -, hinner, hfallsBack,
    hopen⟩ - code n hlabels hcode hrank ds
  have hlength := Moving.length_of_issues hissues
  obtain ⟨hpassive, -⟩ := computes_of_straight (fun _ h => h)
    (computes_of_evaluated hstrict _) hselector
  simp only [Record.code_append, Record.code_of, stands_append, stands_pair, length_append,
    length_cons, length_nil, ← Nat.add_assoc, Nat.add_zero] at hcode ⊢
  obtain ⟨⟨⟨⟨hvalue, hmerge, hswitch⟩, hcode₁⟩, hcode₂⟩, hend⟩ := hcode
  obtain ⟨hhead, hrank₁⟩ := announces hpassive rfl rfl hvalue hmerge hswitch hrank
  have hlast := enters_label hlabels hend
  refine ⟨.via (hhead ds) ?_, fun _ => ?_⟩
  · cases hword : word? ds with
    | none => exact .ended (.switch_starved hswitch hword)
    | some answer =>
      obtain ⟨word, left⟩ := answer
      refine .via (.switch hswitch hword) (.enters (.switch ?_) hlast)
      have htarget := target_of_chosenCase? hlength hdefaults word
      cases hchosen : IR.chosenCase? cases word with
      | some index =>
        rw [hchosen] at htarget
        exact hparts _ _ _ hlength hinner hlabels hcode₁ hrank₁ htarget left
      | none =>
        rw [hchosen] at htarget
        obtain ⟨htarget, rfl⟩ := htarget
        rw [htarget, hrun]
        cases hfallsBack with
        | some _ _ =>
          simp only [Record.code_of, stands_pair] at hcode₂
          exact .through (((enters_label hlabels hcode₂.1).2 left).trans (.goto hcode₂.2))
  · rw [hopen.label?]
    rfl

end Emission.Simulates

open Emission

variable {env : FunctionEnv}

lemma computes_of_emitted (hstrict : env.Strict) (count : Nat) :
    ∀ start ⦃σ r σ'⦄, Emitted env start count σ r σ' → Computes σ r σ' := by
  induction count with
  | zero =>
    rintro start σ r σ' ⟨rfl, rfl⟩
    exact .refl _
  | succ count ih =>
    intro start σ r σ' h
    unfold Emitted at h
    split at h
    · exact ih (start + 1) h
    · obtain ⟨⟨id, heval⟩, hrest⟩ := h
      exact (computes_of_evaluated hstrict _ heval).trans (ih (start + 1) hrest)

mutual

/-- The code of a statement simulates it: one case per statement. -/
lemma simulates_stated (hstrict : env.Strict) (houtputs : env.outputs = []) (rounds : Nat)
      (s : Statement) : ∀ flow rank,
      Simulates flow rounds rank (s.run rounds rank) (Stated env flow rank s) := by
  intro flow rank
  unfold Stated
  refine .afterReady ?_
  match s with
  | .emit range => exact .computes (computes_of_emitted hstrict _ _)
  | .block body => exact simulates_statedAll hstrict houtputs rounds body flow rank
  | .store .. | .call .. | .atomic .. => exact .affects hstrict _ _
  | .ifElse condition accept reject =>
    refine .selects hstrict (fun inner => simulates_statedAll hstrict houtputs rounds
      accept inner rank) (fun inner => ordered_statedAll houtputs accept inner rank) ?_ ?_
    · intro part hpart inner
      split at hpart
      · cases hpart
      · cases hpart
        exact simulates_statedAll hstrict houtputs rounds reject inner _
    · intro hnone ds
      split at hnone
      · rename_i hempty
        rw [isEmpty_iff.1 hempty]
        rfl
      · cases hnone
  | .switch selector cases =>
    exact .switches hstrict (casesRun rounds cases · rank ·) (fun _ => by cases cases <;> rfl)
      fun inner merge names hlength => simulates_statedCases hstrict houtputs rounds cases inner
      rank merge names hlength
  | .loop body continuing breakIf =>
    exact .loops hstrict (fun inner => simulates_statedAll hstrict houtputs rounds body inner rank)
      (fun inner => ordered_statedAll houtputs body inner rank)
      fun inner => simulates_statedAll hstrict houtputs rounds continuing inner _
  | .break => exact .breaks
  | .continue => exact .continues
  | .return value => exact .returns hstrict houtputs value
  | .kill => exact .kills
  | .barrier b =>
    have hrun : Statement.run rounds (.barrier b) rank =
        fun ds => ⟨if b.isEmpty then [] else [rank], .through, ds⟩ := rfl
    rw [hrun]
    dsimp only
    split
    · exact .skip
    · exact .affects hstrict _ _

/-- The code of a body simulates it, statement after statement. -/
lemma simulates_statedAll (hstrict : env.Strict) (houtputs : env.outputs = []) (rounds : Nat)
      (body : List Statement) : ∀ flow rank,
      Simulates flow rounds rank (bodyRun rounds body rank) (StatedAll env flow rank body) := by
  intro flow rank
  match body with
  | [] => exact .skip
  | s :: rest =>
    exact .andThen (simulates_stated hstrict houtputs rounds s flow rank)
      (ordered_stated houtputs s flow rank) (simulates_statedAll hstrict houtputs
      rounds rest flow _)

/-- From the label of a case on, the code simulates the cases from there. -/
lemma simulates_statedCases (hstrict : env.Strict) (houtputs : env.outputs = []) (rounds : Nat)
      (cases : List SwitchCase) :
      ∀ inner rank merge names, names.length = cases.length → ∀ ⦃σ r σ'⦄,
      StatedCases env inner rank merge cases names σ r σ' → ∀ ⦃code n⦄, (labels code).Nodup →
        Stands code n r.code → effectCount (code.take n) = rank → ∀ ⦃index label⦄,
          names[index]? = some label → ∀ ds, Follows code inner rounds (goTo code label)
            (goTo code merge) ds (casesRun rounds cases (some index) rank ds) := by
  intro inner rank merge names hlength σ r σ' hcases code n hlabels hcode hrank index
    label hlabel ds
  match cases, names, hcases with
  | [], [], _ => cases hlabel
  | c :: rest, name :: names, hcases =>
    obtain ⟨hpart, hrest⟩ := hcases
    simp only [Record.code_append, stands_append] at hcode
    cases index with
    | zero =>
      cases hlabel
      obtain ⟨henters, hfollows⟩ := Simulates.part
        (simulates_statedCase hstrict houtputs rounds c inner rank) hpart hlabels hcode.1 hrank
      exact henters.follows (hfollows ds)
    | succ index =>
      have hcount := (Ordered.part (ordered_statedCase houtputs c inner rank)).effectCount_code
        hpart
      exact simulates_statedCases hstrict houtputs rounds rest inner _ merge names
        (Nat.succ.inj hlength) hrest hlabels hcode.2 (hcode.1.rank hrank hcount) hlabel ds

lemma simulates_statedCase (hstrict : env.Strict) (houtputs : env.outputs = []) (rounds : Nat)
      (c : SwitchCase) : ∀ inner rank,
      Simulates inner rounds rank (caseRun rounds c rank) (StatedCase env inner rank c) := by
  intro inner rank
  match c with
  | ⟨_, body⟩ => exact simulates_statedAll hstrict houtputs rounds body inner rank

end

/-! ### Functions -/

lemma computes_of_initializes (hstrict : env.Strict) {id : Option Id}
    (h : Initializes env σ init r id σ') :
    Computes σ r σ' := by
  cases h with
  | none => exact .refl σ
  | some heval _ => exact computes_of_evaluated hstrict _ heval

lemma computes_of_declares (hstrict : env.Strict) (h : Declares env v σ r σ') :
    Computes σ r σ' := by
  obtain ⟨hext, -, hinit, hlead, hext'⟩ := h
  have hvalue := (Computes.of_extends hext).trans (computes_of_initializes hstrict hinit)
  have hvariable := (hvalue.extend (Body.extends_issue _)).same hlead.same
  exact (hvariable.extend hext').same (Body.sameCode_withLocals _ _)

lemma computes_of_declaresAll (hstrict : env.Strict) (h : DeclaresAll env vs σ r σ') :
    Computes σ r σ' := by
  induction vs generalizing σ r with
  | nil =>
    obtain ⟨rfl, rfl⟩ := h
    exact .refl _
  | cons v rest ih =>
    obtain ⟨hfirst, hrest⟩ := h
    exact (computes_of_declares hstrict hfirst).trans (ih hrest)

lemma computes_of_begins (hstrict : env.Strict) (h : Begins env σ r σ') :
    σ'.label?.isSome ∧ ∃ rest, r.code = .label σ.nextId :: rest ∧ ∀ i ∈ rest, i.isPassive := by
  obtain ⟨hopen, hlocals, hchain, -⟩ := h
  obtain ⟨hpassive, hlabel⟩ := ((computes_of_declaresAll hstrict hlocals).trans
    (computes_of_straight isValue_of_isPlain (computes_of_evaluated hstrict _) hchain)).trans
      (.of_same (Body.sameCode_withContents _ _))
  refine ⟨?_, _, ?_, hpassive⟩
  · rw [hlabel, hopen.label?]
    rfl
  · simp

lemma runs_of_fallsOff (h : FallsOff env σ r σ') (hopen : σ.label?.isSome)
    (hcode : Stands code n r.code)
    (ds : List Decision) : Runs code 1 (.at n) ds [] (.ended .returned) ds := by
  cases h with
  | ended hnone =>
    rw [hnone] at hopen
    cases hopen
  | nothing _ _ => exact .one hcode rfl
  | null _ _ _ _ => exact .one hcode rfl

lemma isPassive_variable (h : i.opcode = .variable) : i.isPassive := by
  simp only [Instruction.isPassive, Instruction.isTerminator, Instruction.isEffect, h]
  rfl

lemma labels_of_variables (h : ∀ i ∈ is, i.opcode = .variable) : labels is = [] := by
  have hnone : is.filter (fun i => i.opcode = .label) = [] := by
    refine filter_eq_nil_iff.2 fun i hi => ?_
    rw [h i hi]
    decide
  rw [labels, hnone]
  rfl

lemma lands_ending (h : Lands code {} (.at n) exit finish) (hthrough : exit ≠ .through) :
    finish.ending? = exit.ending? := by
  cases exit with
  | through => exact absurd rfl hthrough
  | broken | continued =>
    obtain ⟨_, hlabel, -⟩ := h
    cases hlabel
  | ended _ =>
    rw [h]
    rfl
  | unfinished =>
    obtain ⟨_, rfl⟩ := h
    rfl

/-- The run of a function is that of its code, for some number of steps; if it is unfinished, that
is at least the number of rounds. -/
lemma run_of_lowers (hstrict : env.Strict) (houtputs : env.outputs = [])
    (h : Lowers env [] p r fn p')
    (rounds : Nat) (ds : List Decision) : ∃ n, fn.run n ds = env.function.run rounds ds ∧
      ((env.function.run rounds ds).ending = none → rounds ≤ n) := by
  obtain ⟨hblank, -, -, hwritten, hfinishes, -⟩ := h
  rename_i σ σ' p₁
  have hcarries := carries_written hwritten
  have hlead : ∀ i ∈ fn.locals.toList, i.opcode = .variable := by
    intro i hi
    rw [hfinishes.lead] at hi
    refine (hcarries.lead i hi).resolve_left fun hi => ?_
    rw [hblank.lead] at hi
    cases hi
  have hcode : fn.code = r.code := by rw [hfinishes.code, hcarries.code, hblank.code, nil_append]
  have hdistinct : (labels fn.code).Nodup := by
    have hnumbered := (hcarries.numbered hblank.numbered).distinct
    rw [Site.taken, nodup_append, ← hfinishes.code] at hnumbered
    exact (filter_sublist.filterMap _).nodup hnumbered.1
  obtain ⟨hbegins, ⟨rfl, rfl⟩, hbody, hend⟩ := hwritten
  rename_i r₁ r₃ r₄ σ₁ σ₃
  obtain ⟨hopen, rest, hr₁, hpassive⟩ := computes_of_begins hstrict hbegins
  -- the head of the code: the label, the variables and the pointers, which do nothing
  let head := .label σ.nextId :: (fn.locals.toList ++ rest)
  have hhead : ∀ i ∈ head, i.isPassive := by
    refine forall_mem_cons.2 ⟨rfl, forall_mem_append.2 ⟨fun i hi => ?_, hpassive⟩⟩
    exact isPassive_variable (hlead i hi)
  simp only [Record.code_append, append_nil, hr₁, cons_append] at hcode
  have hwritten : fn.written = head ++ r₃.code ++ r₄.code := by
    rw [Function.written_eq hcode]
    simp [head]
  have hlabels : (labels fn.written).Nodup := by
    rw [Function.written_eq hcode, labels_label, labels_append,
      labels_of_variables hlead, nil_append, ← labels_label, ← hcode]
    exact hdistinct
  have hstands : Stands fn.written 0 (head ++ r₃.code ++ r₄.code) := by
    rw [hwritten]
    exact prefix_rfl
  obtain ⟨⟨hstands₁, hstands₂⟩, hstands₃⟩ := (stands_append.1 hstands).imp_left stands_append.1
  have hrank := hstands₁.rank rfl (effectCount_of_isPassive hhead)
  have hstart : Runs fn.written head.length (.at 0) ds [] (.at (0 + head.length)) ds :=
    .passives hstands₁ hhead
  obtain ⟨⟨n, finish, hruns, hlands, hn⟩, hstays⟩ :=
    simulates_statedAll hstrict houtputs rounds env.function.body {} 0 hbody hopen hlabels
      hstands₂ hrank ds
  have hall := hstart.trans hruns
  simp only [IR.Function.run]
  generalize bodyRun rounds env.function.body 0 ds = t at *
  by_cases hthrough : t.exit = .through
  · rw [hthrough] at hlands
    obtain rfl := hlands
    rw [length_append, ← Nat.add_assoc] at hstands₃
    have hreturn := hall.trans (runs_of_fallsOff hend (hstays hthrough) hstands₃ t.left)
    refine ⟨head.length + n + 1, ?_, fun h => ?_⟩
    · rw [Function.run_eq hreturn, hthrough]
      simp [Control.ending?, IR.Exit.ending?]
    · rw [hthrough] at h
      cases h
  · refine ⟨head.length + n, ?_, fun h => ?_⟩
    · rw [Function.run_eq hall, lands_ending hlands hthrough]
      simp
    · refine Nat.le_trans (hn ?_) (Nat.le_add_left _ _)
      cases hexit : t.exit with
      | unfinished => rfl
      | _ => simp [hexit, IR.Exit.ending?] at h

/-- A run of code that has ended is that of the function, for some number of rounds, and the effects
of one that has not are the first of those of the function. -/
lemma exists_rounds {f : IR.Function} {fn : Function}
    (h : ∀ rounds, ∃ n, fn.run n ds = f.run rounds ds ∧
      ((f.run rounds ds).ending = none → rounds ≤ n))
    (n : Nat) : ∃ rounds, (fn.run n ds).effects <+: (f.run rounds ds).effects ∧
      ((fn.run n ds).ending ≠ none → f.run rounds ds = fn.run n ds) := by
  obtain ⟨n', heq, hn'⟩ := h (n + 1)
  refine ⟨n + 1, ?_⟩
  rw [← heq]
  rcases Nat.le_total n n' with hle | hle
  · obtain ⟨k, rfl⟩ := Nat.exists_eq_add_of_le hle
    exact fn.run_add n k ds
  · obtain ⟨k, rfl⟩ := Nat.exists_eq_add_of_le hle
    -- the run of the function has ended, or its code would have taken more steps
    have hended : (fn.run n' ds).ending ≠ none := by
      rw [heq]
      intro hnone
      have := hn' hnone
      omega
    have hsame := (fn.run_add n' k ds).2 hended
    rw [hsame]
    exact ⟨prefix_rfl, fun _ => rfl⟩

/-- A helper function without short circuits that is emitted runs like its code: for every list of
decisions, each run of the function is a run of its code, with the same side effects in the same
order, the same ending and the same decisions left.  Each run of the code that ends is a run of the
function, and what has happened in one that has not ended happens in the function as well. -/
theorem helper_runs_like_code {env : Env} {id : Id} {name : String} {f : IR.Function}
    {p p' : Progress} (hstrict : ∀ h e, f.expressions.get? h = some e → e.isShortCircuit = false)
    (hrun : emitHelper env id name f p = .ok () p') :
    ∃ fn, p'.assembly.functions = p.assembly.functions.push fn ∧ ∀ ds,
      (∀ rounds, ∃ n, fn.run n ds = f.run rounds ds) ∧
      ∀ n, ∃ rounds, (fn.run n ds).effects <+: (f.run rounds ds).effects ∧
        ((fn.run n ds).ending ≠ none → f.run rounds ds = fn.run n ds) := by
  obtain ⟨result, r, fn, hlowers⟩ := lowers_of_emitHelper hrun
  have hstrict' : (helperEnv env name f result).Strict := hstrict
  have hruns := run_of_lowers hstrict' rfl hlowers
  refine ⟨fn, (Prod.ext_iff.1 hlowers.outcome).1, fun ds => ⟨fun rounds => ?_, ?_⟩⟩
  · obtain ⟨n, heq, -⟩ := hruns rounds ds
    exact ⟨n, heq⟩
  · exact exists_rounds fun rounds => hruns rounds ds

/-- A loop around a switch that breaks, continues, returns or goes on to a store. -/
def switchLoop : IR.Function where
  expressions := ⟨⟨#[.globalVariable ⟨0⟩, .load ⟨0⟩, .globalVariable ⟨1⟩, .load ⟨2⟩]⟩,
    #[⟨1⟩, ⟨0⟩, ⟨3⟩, ⟨2⟩]⟩
  body := [.emit ⟨0, 4⟩,
    .loop [.switch ⟨1⟩ [
        ⟨[.i32 1], [.ifElse ⟨3⟩ [.break] [], .store ⟨0⟩ ⟨1⟩]⟩,
        ⟨[.i32 2, .i32 3], [.continue]⟩,
        ⟨[.i32 4], [.return none]⟩],
      .store ⟨2⟩ ⟨3⟩]
      [.store ⟨0⟩ ⟨1⟩] (some ⟨3⟩),
    .kill]

def switchLoopModule : IR.Module where
  types := .ofList [⟨none, .scalar .i32⟩, ⟨none, .pointer ⟨0⟩ .private⟩, ⟨none, .scalar .bool⟩,
    ⟨none, .pointer ⟨2⟩ .private⟩]
  globals := ⟨#[⟨none, .private, none, ⟨0⟩, none⟩, ⟨none, .private, none, ⟨2⟩, none⟩]⟩
  functions := ⟨#[switchLoop]⟩

/-- The progress of the emission of the module when its function is next. -/
def switchLoopStart : Progress :=
  match declareModule (.of switchLoopModule {}) (.initial (.of switchLoopModule {})) with
  | .ok _ p | .error _ p => p

theorem helper_runs_like_code_switchLoop : ∃ p' fn,
    emitHelper (.of switchLoopModule {}) ⟨1⟩ "f" switchLoop switchLoopStart = .ok () p' ∧
    p'.assembly.functions = switchLoopStart.assembly.functions.push fn ∧
    switchLoop.run 9 [.word 1, .flag false, .flag false, .word 2, .flag true] =
      ⟨[0, 1, 2, 2], some .killed, []⟩ ∧ ∀ ds,
      (∀ rounds, ∃ n, fn.run n ds = switchLoop.run rounds ds) ∧
      ∀ n, ∃ rounds, (fn.run n ds).effects <+: (switchLoop.run rounds ds).effects ∧
        ((fn.run n ds).ending ≠ none → switchLoop.run rounds ds = fn.run n ds) := by
  have hok : (match emitHelper (.of switchLoopModule {}) ⟨1⟩ "f" switchLoop switchLoopStart with
      | .ok _ _ => true
      | .error _ _ => false) = true := by decide +kernel
  have hstrict : ∀ e ∈ switchLoop.expressions.toList, e.isShortCircuit = false := by decide
  split at hok
  · rename_i p' hrun
    obtain ⟨fn, hfunctions, hruns⟩ := helper_runs_like_code (fun h e he => hstrict e
      (Array.mem_toList_iff.2 (Array.mem_of_getElem? he))) hrun
    exact ⟨p', fn, hrun, hfunctions, by decide +kernel, hruns⟩
  · cases hok

end Shader.Emit
