import Shader.Proofs.Computation
import Shader.Proofs.Execution
import Shader.Surface.Elaboration

/-!
# Cases that fall through

A case of a surface switch has one selector, and may go on with the body of the case after it.  The
program has cases with many selectors, none of which goes on: `elaborateCases` joins the selectors
of cases that fall through with the case that has the body.  What a switch runs for a word stays
the same.
-/

namespace Shader.Surface

open List
open IR (SwitchValue)

/-! ### What a switch runs -/

/-- The statements from the first case on: those of the cases that fall through, up to the first
that does not. -/
def executed : List SwitchCase → List Statement
  | [] => []
  | c :: rest => if c.fallsThrough then c.body ++ executed rest else c.body

/-- The statements from the first case on whose selector is as asked, if there is one. -/
def entered (asked : SwitchValue → Bool) : List SwitchCase → Option (List Statement)
  | [] => none
  | c :: rest => if asked c.value then some (executed (c :: rest)) else entered asked rest

/-- The statements that a word selects: from the first case on that has it, or else from the first
default on. -/
def executedFor (word : UInt32) (cases : List SwitchCase) : List Statement :=
  ((entered (·.word? == some word) cases).or (entered (· == .default) cases)).getD []

end Shader.Surface

namespace Shader.IR

open List

/-- The statements that a word selects. -/
def chosenBody (cases : List SwitchCase) (word : UInt32) : List Statement :=
  match (chosenCase? cases word).bind (cases[·]?) with
  | some c => c.body
  | none => []

lemma bind_findIdx? (cases : List SwitchCase) (asked : SwitchCase → Bool) :
    (cases.findIdx? asked).bind (cases[·]?) = cases.find? asked := by
  induction cases with
  | nil => rfl
  | cons c rest ih =>
    rw [findIdx?_cons, find?_cons]
    cases asked c with
    | true => rfl
    | false =>
      rw [← ih]
      cases rest.findIdx? asked <;> rfl

lemma chosenBody_eq (cases : List SwitchCase) (word : UInt32) : chosenBody cases word =
      match (cases.find? (·.lists word)).or (cases.find? (·.isDefault)) with
      | some c => c.body
      | none => [] := by
  have hchosen : (chosenCase? cases word).bind (cases[·]?) =
      (cases.find? (·.lists word)).or (cases.find? (·.isDefault)) := by
    rw [← bind_findIdx? cases (·.lists word), ← bind_findIdx? cases (·.isDefault)]
    unfold chosenCase?
    cases hfirst : cases.findIdx? (·.lists word) with
    | none => rfl
    | some i =>
      have hlt : i < cases.length := (findIdx?_eq_some_iff_getElem.1 hfirst).1
      rw [Option.some_or, Option.bind_some, getElem?_eq_getElem hlt, Option.some_or]
  rw [chosenBody, hchosen]

end Shader.IR

namespace Shader.Surface

open List
open IR (SwitchValue)

/-! ### How cases are joined -/

/-- Cases are joined, after the selectors of cases that fall through to them. -/
inductive Joins (s : Scope) : List SwitchValue → List SwitchCase → List IR.SwitchCase → Prop where
  | nil : Joins s [] [] []
  | last {pending : List SwitchValue} : pending ≠ [] → Joins s pending [] [⟨pending, []⟩]
  | through {pending : List SwitchValue} {c : SwitchCase} {rest : List SwitchCase}
      {out : List IR.SwitchCase} : c.fallsThrough → c.body = [] →
      Joins s (pending ++ [c.value]) rest out → Joins s pending (c :: rest) out
  | stop {pending : List SwitchValue} {c : SwitchCase} {rest : List SwitchCase}
      {out : List IR.SwitchCase} {body : List IR.Statement} : c.fallsThrough = false →
      elaborateBody s c.body = .ok body → Joins s [] rest out →
      Joins s pending (c :: rest) (⟨pending ++ [c.value], body⟩ :: out)

section

variable {s : Scope} {pending : List SwitchValue} {cases : List SwitchCase}
    {out : List IR.SwitchCase} {x y : Option (List Statement)}

lemma elaborateCase_eq (s : Scope) : ∀ c, elaborateCase s c = elaborateBody s c.body
  | ⟨_, _, _⟩ => rfl

lemma joins_of_elaborateCases (h : elaborateCases s pending cases = .ok out) :
    Joins s pending cases out := by
  induction cases generalizing pending out with
  | nil =>
    cases h
    split
    · rename_i hempty
      rw [isEmpty_iff.1 hempty]
      exact .nil
    · rename_i hpending
      exact .last (hpending <| isEmpty_iff.2 ·)
  | cons c rest ih =>
    dsimp only [elaborateCases] at h
    split at h
    · rename_i hthrough
      split at h
      · rename_i hempty
        exact .through hthrough (isEmpty_iff.1 hempty) (ih h)
      · cases h
    · rename_i hstop
      obtain ⟨body, hbody, h⟩ := Emit.except_bind_eq_ok.1 h
      obtain ⟨others, hothers, h⟩ := Emit.except_bind_eq_ok.1 h
      cases h
      exact .stop (Bool.eq_false_iff.2 hstop) ((elaborateCase_eq s c).symm.trans hbody) (ih hothers)

lemma Joins.bodies (h : Joins s pending cases out) :
    ∀ c ∈ cases, if c.fallsThrough then c.body = [] else ∃ body, elaborateBody s
      c.body = .ok body := by
  induction h with
  | nil | last _ => exact nofun
  | through hthrough hempty _ ih =>
    refine forall_mem_cons.2 ⟨?_, ih⟩
    rw [if_pos hthrough]
    exact hempty
  | stop hstop hbody _ ih =>
    refine forall_mem_cons.2 ⟨?_, ih⟩
    rw [if_neg (Bool.eq_false_iff.1 hstop)]
    exact ⟨_, hbody⟩

lemma exists_elaborateCases (h : ∀ c ∈ cases,
      if c.fallsThrough then c.body = [] else ∃ body, elaborateBody s c.body = .ok body) :
    ∃ out, elaborateCases s pending cases = .ok out := by
  induction cases generalizing pending with
  | nil => exact ⟨_, rfl⟩
  | cons c rest ih =>
    obtain ⟨hc, hrest⟩ := forall_mem_cons.1 h
    dsimp only [elaborateCases]
    split at hc
    · rename_i hthrough
      rw [if_pos hthrough, if_pos (isEmpty_iff.2 hc)]
      exact ih hrest
    · rename_i hstop
      obtain ⟨body, hbody⟩ := hc
      obtain ⟨others, hothers⟩ : ∃ out, elaborateCases s [] rest = .ok out := ih hrest
      rw [if_neg hstop, elaborateCase_eq, hbody, hothers]
      exact ⟨_, rfl⟩

lemma Joins.values (h : Joins s pending cases out) :
    out.flatMap IR.SwitchCase.values = pending ++ cases.map SwitchCase.value := by
  induction h with
  | nil => rfl
  | last _ => simp
  | through _ _ _ ih => simpa using ih
  | stop _ _ _ ih => simpa using ih

lemma Joins.values_ne_nil (h : Joins s pending cases out) : ∀ c ∈ out, c.values ≠ [] := by
  induction h with
  | nil => exact nofun
  | last hpending => exact forall_mem_singleton.2 hpending
  | through _ _ _ ih => exact ih
  | stop _ _ _ ih =>
    refine forall_mem_cons.2 ⟨?_, ih⟩
    exact append_ne_nil_of_right_ne_nil _ (cons_ne_nil _ _)

/-- What is run from the first case on that is asked for, pending ones included, is the body of the
first case that lists a selector as asked. -/
lemma Joins.entered (asked : SwitchValue → Bool) (h : Joins s pending cases out) :
    Option.Rel (fun body c => elaborateBody s body = .ok c.body)
      (if pending.any asked then some (executed cases) else entered asked cases)
      (out.find? fun c => c.values.any asked) := by
  induction h with
  | nil => exact .none
  | @last pending _ =>
    rw [find?_singleton]
    cases pending.any asked with
    | true => exact .some rfl
    | false => exact .none
  | @through pending c rest out hthrough hempty _ ih =>
    have hexecuted : executed (c :: rest) = executed rest := by
      rw [executed, if_pos hthrough, hempty, nil_append]
    rw [Surface.entered, hexecuted]
    cases hpending : pending.any asked with
    | true | false => simpa [hpending] using ih
  | @stop pending c rest out body hstop hbody _ ih =>
    have hexecuted : executed (c :: rest) =
      c.body := by rw [executed, if_neg (Bool.eq_false_iff.1 hstop)]
    rw [find?_cons, any_append, any_cons, any_nil, Bool.or_false, Surface.entered, hexecuted]
    cases hpending : pending.any asked with
    | true => exact .some hbody
    | false =>
      cases hc : asked c.value with
      | true => exact .some hbody
      | false => exact ih

lemma isDefault_eq (c : IR.SwitchCase) : c.isDefault = c.values.any (· == .default) := by
  rw [IR.SwitchCase.isDefault, contains_eq_any_beq]
  exact congrArg c.values.any (funext fun value => BEq.comm)

lemma elaborateBody_or {x' : Option IR.SwitchCase}
    (hx : Option.Rel (fun body c => elaborateBody s body = .ok c.body) x x')
    (hy : Option.Rel (fun body c => elaborateBody s body = .ok c.body) y y') :
    elaborateBody s ((x.or y).getD []) =
      .ok (match x'.or y' with | some c => c.body | none => []) := by
  cases hx with
  | some hbody => exact hbody
  | none =>
    cases hy with
    | some hbody => exact hbody
    | none => rfl

lemma Joins.executedFor (h : Joins s [] cases out) (word : UInt32) :
    elaborateBody s (executedFor word cases) = .ok (IR.chosenBody out word) := by
  have hword := h.entered (·.word? == some word)
  have hdefault := h.entered (· == .default)
  rw [any_nil, if_neg Bool.false_ne_true] at hword hdefault
  rw [IR.chosenBody_eq, Surface.executedFor, funext isDefault_eq]
  exact elaborateBody_or hword hdefault

/-- Cases can be joined if, and only if, those that fall through have no body and the bodies of all
others can be elaborated.  The selectors stay in their order, each case has one, and a word selects
what the cases say that it selects. -/
theorem elaborateCases_spec (s : Scope) (cases : List SwitchCase) :
    ((∃ out, elaborateCases s [] cases = .ok out) ↔
      (¬ ∃ c ∈ cases, c.fallsThrough ∧ c.body ≠ []) ∧
        ∀ c ∈ cases, ¬ c.fallsThrough → ∃ body, elaborateBody s c.body = .ok body) ∧
      ∀ out, elaborateCases s [] cases = .ok out →
        out.flatMap IR.SwitchCase.values = cases.map SwitchCase.value ∧
        (∀ c ∈ out, c.values ≠ []) ∧
        ∀ word, elaborateBody s (executedFor word cases) = .ok (IR.chosenBody out word) := by
  refine ⟨⟨?_, ?_⟩, fun out hout => ?_⟩
  · rintro ⟨out, hout⟩
    have hbodies := (joins_of_elaborateCases hout).bodies
    refine ⟨fun ⟨c, hc, hthrough, hbody⟩ => hbody ?_, fun c hc hstop => ?_⟩
    · simpa [hthrough] using hbodies c hc
    · simpa [hstop] using hbodies c hc
  · rintro ⟨hthrough, hstop⟩
    refine exists_elaborateCases fun c hc => ?_
    split
    · rename_i hfalls
      exact by_contra fun hbody => hthrough ⟨c, hc, hfalls, hbody⟩
    · rename_i hfalls
      exact hstop c hc hfalls
  · have hjoins := joins_of_elaborateCases hout
    exact ⟨hjoins.values, hjoins.values_ne_nil, hjoins.executedFor⟩

example (s : Scope) :
    elaborateCases s [] [⟨.u32 0, [], true⟩, ⟨.u32 1, [.kill], false⟩, ⟨.default, [], true⟩] =
      .ok [⟨[.u32 0, .u32 1], [.kill]⟩, ⟨[.default], []⟩] := rfl

end

end Shader.Surface
