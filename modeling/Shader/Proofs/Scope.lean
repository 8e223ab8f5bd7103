import Mathlib.Data.List.Nodup
import Shader.IR.Module
import Shader.IR.Preorder

/-!
# Scopes

An expression that is computed gets its value where an emit covers it, and the result of a call or
of an atomic operation gets its value from that statement.  Either can be used behind that place in
the same list of statements, and in the lists nested in the statements behind it.  A function is
well scoped when each of these expressions is produced at one place and all its uses are in scope.
-/

namespace Shader

open List

lemma Arena.mem_entries {kind : Kind} {α : Type} {a : Arena kind α} {h : Handle kind} {v : α} :
    (h, v) ∈ a.entries ↔ a.get? h = some v := by
  simp only [entries, get?, mem_map, Prod.exists, Prod.mk.injEq, mem_zipIdx_iff_getElem?,
    Array.getElem?_toList]
  constructor
  · rintro ⟨w, i, hw, rfl, rfl⟩
    exact hw
  · exact fun hv => ⟨v, h.index, hv, rfl, rfl⟩

end Shader

namespace Shader.IR

open List

variable {scope scope' : Handles} {f : Function} {h : Handle .expression}

/-- The expression is the result of a statement. -/
def Expression.isResult : Expression → Bool
  | .callResult _ | .atomicResult .. => true
  | _ => false

namespace Function

/-- The expression is computed, where an emit covers it. -/
def isComputed (f : Function) (h : Handle .expression) : Bool :=
  (f.expressions.get? h).any fun e => !e.isReference

/-- The expression has no value before it is produced. -/
def isProduced (f : Function) (h : Handle .expression) : Bool :=
  (f.expressions.get? h).any fun e => !e.isReference || e.isResult

/-- The operands of the expression behind a handle. -/
def operandsOf (f : Function) (h : Handle .expression) : Handles :=
  ((f.expressions.get? h).map Expression.operands).getD []

/-- The expression can be used where `scope` is in scope. -/
def inScope (f : Function) (scope : Handles) (h : Handle .expression) : Bool :=
  !f.isProduced h || scope.contains h

/-- The expressions of a run that are computed. -/
def computedIn (f : Function) (range : HandleRange .expression) :
    Handles := range.handles.filter f.isComputed

/-- The operands of expressions that are emitted one after the other are in scope. -/
def emitScoped (f : Function) (scope : Handles) : Handles → Bool
  | [] => true
  | h :: rest => (f.operandsOf h).all (f.inScope scope) && f.emitScoped (h :: scope) rest

end Function

/-! ### Statements -/

/-- The expression that is the result of a statement. -/
def Statement.result? : Statement → Option (Handle .expression)
  | .call _ _ result | .atomic _ _ _ result => result
  | _ => none

/-- The expressions that a statement brings into scope for those behind it. -/
def Statement.introduces (f : Function) : Statement → Handles
  | .emit range => f.computedIn range
  | .call _ _ result | .atomic _ _ _ result => result.toList
  | _ => []

def bodyIntroduces (f : Function) (body : List Statement) : Handles := body.flatMap (·.introduces f)

mutual

/-- The expressions that a statement produces, itself or inside it. -/
def Statement.produces (f : Function) : Statement → Handles
  | .emit range => f.computedIn range
  | .call _ _ result | .atomic _ _ _ result => result.toList
  | .block body => bodyProduces f body
  | .ifElse _ accept reject => bodyProduces f accept ++ bodyProduces f reject
  | .switch _ cases => casesProduces f cases
  | .loop body continuing _ => bodyProduces f body ++ bodyProduces f continuing
  | .store .. | .break | .continue | .return _ | .kill | .barrier _ => []
termination_by structural s => s

def bodyProduces (f : Function) : List Statement → Handles
  | [] => []
  | s :: rest => s.produces f ++ bodyProduces f rest
termination_by structural body => body

def casesProduces (f : Function) : List SwitchCase → Handles
  | [] => []
  | c :: rest => caseProduces f c ++ casesProduces f rest
termination_by structural cases => cases

def caseProduces (f : Function) : SwitchCase → Handles
  | ⟨_, body⟩ => bodyProduces f body
termination_by structural c => c

end

/-- The result of a call is an expression made for that. -/
def Function.isCallResult (f : Function) (h : Handle .expression) : Bool :=
  match f.expressions.get? h with
  | some (.callResult _) => true
  | _ => false

/-- The result of an atomic operation is an expression made for that. -/
def Function.isAtomicResult (f : Function) (h : Handle .expression) : Bool :=
  match f.expressions.get? h with
  | some (.atomicResult ..) => true
  | _ => false

mutual

/-- The uses of a statement, and of those inside it, are in scope.  The condition at the end of a
loop is in the scope of the part before it. -/
def Statement.isScoped (f : Function) (scope : Handles) : Statement → Bool
  | .emit range => f.emitScoped scope (f.computedIn range)
  | .block body => bodyScoped f scope body
  | .store pointer value => f.inScope scope pointer && f.inScope scope value
  | .ifElse condition accept reject =>
    f.inScope scope condition && bodyScoped f scope accept && bodyScoped f scope reject
  | .switch selector cases => f.inScope scope selector && casesScoped f scope cases
  | .loop body continuing breakIf =>
    bodyScoped f scope body && bodyScoped f scope continuing &&
      breakIf.all (f.inScope (bodyIntroduces f continuing ++ scope))
  | .call _ arguments result => arguments.all (f.inScope scope) && result.all f.isCallResult
  | .atomic pointer function value result =>
    (pointer :: value :: function.reads).all (f.inScope scope) && result.all f.isAtomicResult
  | .return value => value.all (f.inScope scope)
  | .break | .continue | .kill | .barrier _ => true
termination_by structural s => s

def bodyScoped (f : Function) (scope : Handles) : List Statement → Bool
  | [] => true
  | s :: rest => s.isScoped f scope && bodyScoped f (s.introduces f ++ scope) rest
termination_by structural body => body

def casesScoped (f : Function) (scope : Handles) : List SwitchCase → Bool
  | [] => true
  | c :: rest => caseScoped f scope c && casesScoped f scope rest
termination_by structural cases => cases

def caseScoped (f : Function) (scope : Handles) : SwitchCase → Bool
  | ⟨_, body⟩ => bodyScoped f scope body
termination_by structural c => c

end

/-- Each expression that has to be produced is produced at one place, and all uses are in
scope. -/
structure Function.WellScoped (f : Function) : Prop where
  once : ∀ entry ∈ f.expressions.entries, f.isProduced entry.1 →
    (bodyProduces f f.body).count entry.1 = 1
  uses : bodyScoped f [] f.body

/-- All functions of a module are well scoped, also those of entry points. -/
structure Module.WellScoped (m : Module) : Prop where
  functions : ∀ f ∈ m.functions.toList, f.WellScoped
  entryPoints : ∀ e ∈ m.entryPoints, e.function.WellScoped

instance (f : Function) : Decidable f.WellScoped :=
  decidable_of_iff
    ((∀ entry ∈ f.expressions.entries, f.isProduced entry.1 →
    (bodyProduces f f.body).count entry.1 = 1) ∧
      bodyScoped f [] f.body)
    ⟨fun h => ⟨h.1, h.2⟩, fun h => ⟨h.once, h.uses⟩⟩

instance (m : Module) : Decidable m.WellScoped :=
  decidable_of_iff ((∀ f ∈ m.functions.toList, f.WellScoped) ∧ ∀ e ∈ m.entryPoints,
    e.function.WellScoped) ⟨fun h => ⟨h.1, h.2⟩, fun h => ⟨h.functions, h.entryPoints⟩⟩

/-! ### What is produced -/

namespace Function

lemma isProduced_of_isComputed (hc : f.isComputed h) : f.isProduced h := by
  unfold isComputed at hc
  unfold isProduced
  cases he : f.expressions.get? h with
  | none => simp [he] at hc
  | some e => simp_all

/-- The expression is in the arena, and is the result of a statement. -/
def IsResult (f : Function) (h : Handle .expression) :
    Prop := ∃ e, f.expressions.get? h = some e ∧ e.isResult

lemma isResult_of_isCallResult (hc : f.isCallResult h) : f.IsResult h := by
  unfold isCallResult at hc
  split at hc
  · exact ⟨_, ‹_›, rfl⟩
  · cases hc

lemma isResult_of_isAtomicResult (hc : f.isAtomicResult h) : f.IsResult h := by
  unfold isAtomicResult at hc
  split at hc
  · exact ⟨_, ‹_›, rfl⟩
  · cases hc

namespace IsResult

lemma isProduced (hr : f.IsResult h) : f.isProduced h := by
  obtain ⟨e, he, hr⟩ := hr
  simp [Function.isProduced, he, hr]

lemma not_isComputed (hr : f.IsResult h) : f.isComputed h = false := by
  obtain ⟨e, he, hr⟩ := hr
  cases e <;> simp_all [Expression.isResult, Function.isComputed, Expression.isReference]

lemma operandsOf (hr : f.IsResult h) : f.operandsOf h = [] := by
  obtain ⟨e, he, hr⟩ := hr
  cases e <;> simp_all [Expression.isResult, Function.operandsOf, Expression.operands]

end IsResult

lemma inScope_mono (hsub : scope ⊆ scope') (hh : f.inScope scope h) : f.inScope scope' h := by
  simp only [inScope, Bool.or_eq_true, contains_iff_mem] at *
  exact hh.imp_right (hsub ·)

lemma mem_of_inScope (hh : f.inScope scope h) (hp : f.isProduced h) : h ∈ scope := by
  simpa [inScope, hp] using hh

end Function

lemma isResult_of_isScoped {s : Statement} (hs : s.isScoped f scope) (hh : h ∈ s.result?) :
    f.IsResult h := by
  cases s with
  | call _ _ result =>
    cases hh
    simp only [Statement.isScoped, Bool.and_eq_true, Option.all_some] at hs
    exact Function.isResult_of_isCallResult hs.2
  | atomic _ _ _ result =>
    cases hh
    simp only [Statement.isScoped, Bool.and_eq_true, Option.all_some] at hs
    exact Function.isResult_of_isAtomicResult hs.2
  | _ => cases hh

lemma mem_produces_of_mem_introduces {s : Statement} (hh : h ∈ s.introduces f) :
    h ∈ s.produces f := by
  cases s <;> simp_all [Statement.introduces, Statement.produces]

lemma mem_bodyProduces_of_mem_bodyIntroduces {body : List Statement}
    (hh : h ∈ bodyIntroduces f body) :
    h ∈ bodyProduces f body := by
  induction body with
  | nil => exact hh
  | cons s rest ih =>
    simp only [bodyIntroduces, flatMap_cons, mem_append] at hh
    simp only [bodyProduces, mem_append]
    exact hh.imp mem_produces_of_mem_introduces ih

section

variable (f : Function)

mutual

lemma isProduced_of_mem_produces (s : Statement) {scope : Handles}
    (hs : s.isScoped f scope) : ∀ h ∈ s.produces f, f.isProduced h := by
  intro h hh
  match s with
  | .emit range => exact Function.isProduced_of_isComputed (mem_filter.1 hh).2
  | .call .. | .atomic .. => exact (isResult_of_isScoped hs (Option.mem_toList.1 hh)).isProduced
  | .block body => exact isProduced_of_mem_bodyProduces body hs h hh
  | .ifElse _ accept reject =>
    simp only [Statement.isScoped, Bool.and_eq_true] at hs
    rcases mem_append.1 hh with hh | hh
    · exact isProduced_of_mem_bodyProduces accept hs.1.2 h hh
    · exact isProduced_of_mem_bodyProduces reject hs.2 h hh
  | .switch _ cases =>
    simp only [Statement.isScoped, Bool.and_eq_true] at hs
    exact isProduced_of_mem_casesProduces cases hs.2 h hh
  | .loop body continuing _ =>
    simp only [Statement.isScoped, Bool.and_eq_true] at hs
    rcases mem_append.1 hh with hh | hh
    · exact isProduced_of_mem_bodyProduces body hs.1.1 h hh
    · exact isProduced_of_mem_bodyProduces continuing hs.1.2 h hh
  | .store .. | .break | .continue | .return _ | .kill | .barrier _ => cases hh

lemma isProduced_of_mem_bodyProduces (body : List Statement)
    {scope : Handles} (hs : bodyScoped f scope body) :
    ∀ h ∈ bodyProduces f body, f.isProduced h := by
  intro h hh
  match body with
  | [] => cases hh
  | s :: rest =>
    simp only [bodyScoped, Bool.and_eq_true] at hs
    rcases mem_append.1 hh with hh | hh
    · exact isProduced_of_mem_produces s hs.1 h hh
    · exact isProduced_of_mem_bodyProduces rest hs.2 h hh

lemma isProduced_of_mem_casesProduces (cases : List SwitchCase)
    {scope : Handles} (hs : casesScoped f scope cases) :
    ∀ h ∈ casesProduces f cases, f.isProduced h := by
  intro h hh
  match cases with
  | [] => cases hh
  | c :: rest =>
    simp only [casesScoped, Bool.and_eq_true] at hs
    rcases mem_append.1 hh with hh | hh
    · exact isProduced_of_mem_caseProduces c hs.1 h hh
    · exact isProduced_of_mem_casesProduces rest hs.2 h hh

lemma isProduced_of_mem_caseProduces (c : SwitchCase) {scope : Handles}
    (hs : caseScoped f scope c) : ∀ h ∈ caseProduces f c, f.isProduced h := by
  match c with
  | ⟨_, body⟩ => exact isProduced_of_mem_bodyProduces body hs

end

end

/-! ### Closed scopes -/

/-- A scope has only what is produced, and all that its expressions are computed from. -/
structure Function.Closed (f : Function) (scope : Handles) : Prop where
  produced : ∀ h ∈ scope, f.isProduced h
  operands : ∀ h ∈ scope, ∀ g ∈ f.operandsOf h, f.inScope scope g

namespace Function.Closed

lemma nil (f : Function) : f.Closed [] := ⟨nofun, nofun⟩

lemma congr (hscope : f.Closed scope) (hiff : ∀ h, h ∈ scope ↔ h ∈ scope') : f.Closed scope' where
  produced h hh := hscope.produced h ((hiff h).2 hh)
  operands h hh g hg :=
    Function.inScope_mono (fun x hx => (hiff x).1 hx) (hscope.operands h ((hiff h).2 hh) g hg)

lemma cons (hscope : f.Closed scope) (hproduced : f.isProduced h)
    (hoperands : ∀ g ∈ f.operandsOf h, f.inScope scope g) : f.Closed (h :: scope) where
  produced g hg := by
    rcases mem_cons.1 hg with rfl | hg
    · exact hproduced
    · exact hscope.produced g hg
  operands g hg o ho := by
    refine Function.inScope_mono (subset_cons_self h scope) ?_
    rcases mem_cons.1 hg with rfl | hg
    · exact hoperands o ho
    · exact hscope.operands g hg o ho

end Function.Closed

lemma Function.WellScoped.nodup (hf : f.WellScoped) : (bodyProduces f f.body).Nodup := by
  rw [nodup_iff_count_le_one]
  intro h
  by_cases hh : h ∈ bodyProduces f f.body
  · have hproduced := isProduced_of_mem_bodyProduces f f.body hf.uses h hh
    obtain ⟨e, he⟩ : ∃ e, f.expressions.get? h = some e := by
      unfold Function.isProduced at hproduced
      cases he : f.expressions.get? h with
      | none => simp [he] at hproduced
      | some e => exact ⟨e, rfl⟩
    exact Nat.le_of_eq (hf.once (h, e) (Arena.mem_entries.2 he) hproduced)
  · exact count_eq_zero.2 hh ▸ Nat.zero_le 1

/-- The types of programs on private flags: those of the flags and of the pointers to them. -/
def flagTypes :
    UniqueArena .type Ty := .ofList [⟨none, .scalar .bool⟩, ⟨none, .pointer ⟨0⟩ .private⟩]

end Shader.IR
