import Shader.Proofs.Deferral

/-!
# Conditions

A condition is made of private flags, negations and short circuits.  The expressions of a function
that returns one are laid out in postorder, and those on the right of a short circuit are deferred.
-/

variable {i : Nat}

namespace Shader.IR

open List

inductive Condition where
  | read (g : Handle .globalVariable)
  | not (c : Condition)
  /-- A conjunction, or else a disjunction. -/
  | shortCircuit (conjunction : Bool) (left right : Condition)
deriving DecidableEq, Repr

namespace Condition

def value (memory : Handle .globalVariable → Bool) : Condition → Bool
  | read g => memory g
  | not c => !c.value memory
  | shortCircuit true left right => left.value memory && right.value memory
  | shortCircuit false left right => left.value memory || right.value memory

/-- The flags that are read from left to right, up to where the value is known. -/
def reads (memory : Handle .globalVariable → Bool) : Condition → List (Handle .globalVariable)
  | read g => [g]
  | not c => c.reads memory
  | shortCircuit conjunction left right =>
    left.reads memory ++ if left.value memory = conjunction then right.reads memory else []

/-- The flags of a condition. -/
def flags : Condition → List (Handle .globalVariable)
  | read g => [g]
  | not c => c.flags
  | shortCircuit _ left right => left.flags ++ right.flags

/-- The index of a condition that is laid out from `base` on; its parts come before it. -/
def root (base : Nat) : Condition → Nat
  | read _ => base + 1
  | not c => c.root base + 1
  | shortCircuit _ left right => right.root (left.root base + 1) + 1

def junction (conjunction : Bool) : BinaryOp := if conjunction then .logicalAnd else .logicalOr

/-- The expressions of a condition in postorder, from the index `base` on. -/
def layout (base : Nat) : Condition → List Expression
  | read g => [.globalVariable g, .load ⟨base⟩]
  | not c => c.layout base ++ [.unary .logicalNot ⟨c.root base⟩]
  | shortCircuit conjunction left right =>
    left.layout base ++ right.layout (left.root base + 1) ++
      [.binary (junction conjunction) ⟨left.root base⟩ ⟨right.root (left.root base + 1)⟩]

/-- The type of an expression of a condition: a pointer, or a flag. -/
def typeOf : Expression → Handle .type
  | .globalVariable _ => ⟨1⟩
  | _ => ⟨0⟩

/-- A function that returns the value of a condition. -/
def function (c : Condition) : Function where
  result := some ⟨⟨0⟩, none⟩
  expressions := ⟨⟨(c.layout 0).toArray⟩, ((c.layout 0).map typeOf).toArray⟩
  body := [.emit ⟨0, c.root 0 + 1⟩, .return (some ⟨c.root 0⟩)]

/-- A private flag. -/
def flag (name : Option String) : GlobalVariable := ⟨name, .private, none, ⟨0⟩, none⟩

/-- A program with private flags, which may have names, and the function. -/
def program (c : Condition) (names : List (Option String)) : Module where
  types := flagTypes
  globals := ⟨(names.map flag).toArray⟩
  functions := ⟨#[c.function]⟩

lemma value_shortCircuit (memory : Handle .globalVariable → Bool) (conjunction : Bool)
    (left right : Condition) : (shortCircuit conjunction left right).value memory =
      if left.value memory = conjunction then right.value memory else left.value memory := by
  cases conjunction <;> cases h : left.value memory <;> simp [value, h]

lemma reads_sublist (c : Condition) (memory : Handle .globalVariable → Bool) :
    (c.reads memory).Sublist c.flags := by
  induction c with
  | read g => exact .refl _
  | not c ih => exact ih
  | shortCircuit conjunction left right ihl ihr =>
    refine ihl.append ?_
    split
    · exact ihr
    · exact nil_sublist _

/-! ### Where the expressions are -/

lemma base_lt_root (c : Condition) (base : Nat) : base < c.root base := by
  induction c generalizing base with
  | read g => exact Nat.lt_succ_self base
  | not c ih => exact Nat.lt_succ_of_lt (ih base)
  | shortCircuit _ left right ihl ihr =>
    have hl := ihl base
    have hr := ihr (left.root base + 1)
    simp only [root]
    omega

lemma length_layout (c : Condition) (base : Nat) :
    base + (c.layout base).length = c.root base + 1 := by
  induction c generalizing base with
  | read g => rfl
  | not c ih =>
    have := ih base
    simp only [layout, root, length_append, length_singleton]
    omega
  | shortCircuit _ left right ihl ihr =>
    have := ihl base
    have := ihr (left.root base + 1)
    simp only [layout, root, length_append, length_singleton]
    omega

/-- The expressions of a condition stand in a list from an index on. -/
def Laid (es : List Expression) (base : Nat) (c : Condition) :
    Prop := c.layout base <+: es.drop base

namespace Laid

variable {es a b : List Expression} {base n : Nat} {c left right : Condition} {conjunction : Bool}
    {e : Expression}

lemma get? (h : Laid es base c) (he : (c.layout base)[i]? = some e) : es[base + i]? = some e := by
  obtain ⟨rest, hrest⟩ := h
  rw [← getElem?_drop, ← hrest, getElem?_append_left (List.getElem?_eq_some_iff.1 he).1]
  exact he

lemma of_append (h : a ++ b <+: es.drop n) : a <+: es.drop n ∧ b <+: es.drop (n + a.length) := by
  obtain ⟨rest, hrest⟩ := h
  refine ⟨⟨b ++ rest, by rw [← hrest, append_assoc]⟩, rest, ?_⟩
  rw [← drop_drop, ← hrest, append_assoc, drop_left]

lemma last (h : a ++ [e] <+: es.drop n) : es[n + a.length]? = some e := by
  obtain ⟨rest, hrest⟩ := (of_append h).2
  rw [← head?_drop, ← hrest]
  rfl

lemma pointer (h : Laid es base (read g)) :
    es[base]? = some (.globalVariable g) ∧ es[base + 1]? = some (.load ⟨base⟩) :=
  ⟨h.get? (i := 0) rfl, h.get? (i := 1) rfl⟩

lemma negation (h : Laid es base (not c)) :
    Laid es base c ∧ es[c.root base + 1]? = some (.unary .logicalNot ⟨c.root base⟩) := by
  refine ⟨(of_append h).1, ?_⟩
  rw [← length_layout]
  exact last h

lemma circuit (h : Laid es base (shortCircuit conjunction left right)) :
    Laid es base left ∧ Laid es (left.root base + 1) right ∧
    es[right.root (left.root base + 1) + 1]? =
        some (.binary (junction conjunction) ⟨left.root base⟩
          ⟨right.root (left.root base + 1)⟩) := by
  obtain ⟨hparts, -⟩ := of_append h
  obtain ⟨hleft, hright⟩ := of_append hparts
  have hl := length_layout left base
  have hr := length_layout right (left.root base + 1)
  refine ⟨hleft, ?_, ?_⟩
  · rw [hl] at hright
    exact hright
  · have := last h
    rw [length_append, ← Nat.add_assoc, hl, hr] at this
    exact this

lemma whole (c : Condition) : Laid (c.layout 0) 0 c := prefix_rfl

end Laid

end Condition

end Shader.IR

namespace Shader.Emit

open List
open IR (Condition Expression)

variable {e : Expression} {u base : Nat} {h user : Handle .expression} {es : List Expression}

/-! ### What is deferred -/

/-- The parts on the right of a short circuit are deferred, and nothing else is. -/
def Eager (deferred : Array Bool) (base : Nat) : Condition → Prop
  | .read _ => deferred.getD base false = false ∧ deferred.getD (base + 1) false = false
  | .not c => Eager deferred base c ∧ deferred.getD (c.root base + 1) false = false
  | .shortCircuit _ left right => Eager deferred base left ∧
      (∀ i, left.root base < i → i ≤ right.root (left.root base + 1) → deferred.getD i
      false = true) ∧ deferred.getD (right.root (left.root base + 1) + 1) false = false

lemma deferred_of_user (huser : f.expressions.get? user = some e) (hoperand : h ∈ e.operands)
    (honly : ∀ g e', f.expressions.get? g = some e' → h ∈ e'.operands → g = user)
    (hreads : h ∉ IR.bodyReads f.body) (hepoch : sameEpoch (epochOf f h) (epochOf f user))
    (hlt : h.index < user.index) (hfine : onRightOnly h e ∨ (deferred f).getD user.index false) :
    (deferred f).getD h.index false = true := by
  have hsize := Arena.get?_eq_some_lt huser
  have hmem : (user, e) ∈ f.users h :=
    mem_filter.2 ⟨Arena.mem_entries.2 huser, by simpa using hoperand⟩
  rw [deferred_eq (Nat.lt_trans hlt hsize)]
  simp only [isDeferred, Bool.and_eq_true, all_eq_true, Bool.or_eq_true, decide_eq_true_eq,
    Bool.not_eq_true', contains_eq_mem, decide_eq_false_iff_not, isEmpty_eq_false_iff]
  refine ⟨⟨ne_nil_of_mem hmem, hreads⟩, ?_⟩
  rintro ⟨g, e'⟩ hg
  obtain ⟨hentry, hoperand'⟩ := mem_filter.1 hg
  obtain rfl := honly g e' (Arena.mem_entries.1 hentry) (by simpa using hoperand')
  cases huser.symm.trans (Arena.mem_entries.1 hentry)
  rw [later_eq hlt hsize]
  exact ⟨hepoch, hfine.imp_right fun hdeferred => ⟨hlt, hdeferred⟩⟩

/-- A part of a condition refers to parts before it. -/
lemma operands_within (c : Condition) : ∀ {base u} {e},
    Condition.Laid es base c → base ≤ u → u ≤ c.root base → es[u]? = some e →
      ∀ o ∈ e.operands, base ≤ o.index ∧ o.index < u := by
  induction c with
  | read g =>
    intro base u e hlaid hu hu' he o ho
    simp only [Condition.root] at hu'
    obtain rfl | rfl : u = base ∨ u = base + 1 := by omega
    · rw [hlaid.pointer.1] at he
      cases he
      cases ho
    · rw [hlaid.pointer.2] at he
      cases he
      obtain rfl := mem_singleton.1 ho
      exact ⟨Nat.le_refl _, Nat.lt_succ_self _⟩
  | not c ih =>
    intro base u e hlaid hu hu' he o ho
    have hbase := c.base_lt_root base
    simp only [Condition.root] at hu'
    by_cases hroot : u = c.root base + 1
    · subst hroot
      rw [hlaid.negation.2] at he
      cases he
      obtain rfl := mem_singleton.1 ho
      exact ⟨Nat.le_of_lt hbase, Nat.lt_succ_self _⟩
    · exact ih hlaid.negation.1 hu (by omega) he o ho
  | shortCircuit conjunction left right ihl ihr =>
    intro base u e hlaid hu hu' he o ho
    have hl := left.base_lt_root base
    have hr := right.base_lt_root (left.root base + 1)
    simp only [Condition.root] at hu'
    by_cases hleft : u ≤ left.root base
    · exact ihl hlaid.circuit.1 hu hleft he o ho
    by_cases hroot : u = right.root (left.root base + 1) + 1
    · subst hroot
      rw [hlaid.circuit.2.2] at he
      cases he
      simp only [Expression.operands, mem_cons, not_mem_nil, or_false] at ho
      rcases ho with rfl | rfl
      · exact ⟨Nat.le_of_lt hl, by simp only; omega⟩
      · exact ⟨by simp only; omega, Nat.lt_succ_self _⟩
    · have := ihr hlaid.circuit.2.1 (by omega) (by omega) he o ho
      exact ⟨by omega, this.2⟩

/-- From outside, only the condition as a whole is used. -/
def Framed (es : List Expression) (base : Nat) (c : Condition) : Prop :=
  ∀ u e i, es[u]? = some e → ⟨i⟩ ∈ e.operands → base ≤ i → i < c.root base → base ≤ u ∧
    u ≤ c.root base

section

variable {c left right : Condition} {conjunction : Bool}

lemma Framed.negation (h : Framed es base (.not c)) (hlaid : Condition.Laid es base (.not c)) :
    Framed es base c ∧ ∀ u e, es[u]? = some e → ⟨c.root base⟩ ∈ e.operands →
    u = c.root base + 1 := by
  have hbase := c.base_lt_root base
  simp only [Framed, Condition.root] at h
  refine ⟨fun u e i he hi hbase hlt => ?_, fun u e he hi => ?_⟩
  · have hu := h u e i he hi hbase (by omega)
    refine ⟨hu.1, Nat.le_of_not_lt fun hgt => ?_⟩
    obtain rfl : u = c.root base + 1 := by omega
    rw [hlaid.negation.2] at he
    cases he
    have := Handle.mk.inj (mem_singleton.1 hi)
    omega
  · have hu := h u e _ he hi (by omega) (by omega)
    refine Nat.le_antisymm hu.2 (Nat.lt_of_not_le fun hle => ?_)
    have hlt : c.root base < u := (operands_within c hlaid.negation.1 hu.1 hle he _ hi).2
    omega

lemma Framed.circuit (h : Framed es base (.shortCircuit conjunction left right))
    (hlaid : Condition.Laid es base (.shortCircuit conjunction left right)) :
    Framed es base left ∧ Framed es (left.root base + 1) right ∧ ∀ u e i, es[u]? = some e →
    ⟨i⟩ ∈ e.operands →
        i = left.root base ∨ i = right.root (left.root base + 1) →
        u = right.root (left.root base + 1) + 1 := by
  have hl := left.base_lt_root base
  have hr := right.base_lt_root (left.root base + 1)
  obtain ⟨hlaidl, hlaidr, hnode⟩ := hlaid.circuit
  simp only [Framed, Condition.root] at h
  -- where a user of a part of the condition can be
  have hcases : ∀ u e i, es[u]? = some e → ⟨i⟩ ∈ e.operands → base ≤ i →
      i < right.root (left.root base + 1) + 1 →
      (base ≤ u ∧ u ≤ left.root base ∧ i < left.root base) ∨
      (left.root base < u ∧ u ≤ right.root (left.root base + 1) ∧ left.root base < i ∧
        i < right.root (left.root base + 1)) ∨
      (u = right.root (left.root base + 1) + 1 ∧
        (i = left.root base ∨ i = right.root (left.root base + 1))) := by
    intro u e i he hi hbase hlt
    have hu := h u e i he hi hbase hlt
    by_cases hleft : u ≤ left.root base
    · have hwithin := operands_within left hlaidl hu.1 hleft he _ hi
      simp only at hwithin
      omega
    by_cases hroot : u = right.root (left.root base + 1) + 1
    · subst hroot
      rw [hnode] at he
      cases he
      simp only [Expression.operands, mem_cons, not_mem_nil, or_false, Handle.mk.injEq] at hi
      exact .inr (.inr ⟨rfl, hi⟩)
    · have hwithin := operands_within right hlaidr (by omega) (by omega) he _ hi
      simp only at hwithin
      omega
  refine ⟨fun u e i he hi hbase hlt => ?_, fun u e i he hi hbase hlt => ?_,
    fun u e i he hi heq => ?_⟩
  · have := hcases u e i he hi hbase (by omega)
    omega
  · have := hcases u e i he hi (by omega) (by omega)
    omega
  · have := hcases u e i he hi (by omega) (by omega)
    omega

end

section

variable {f : IR.Function} (hes : ∀ i, f.expressions.get? ⟨i⟩ = es[i]?)
include hes

lemma deferred_part (hepoch : ∀ i, i < es.length → epochOf f ⟨i⟩ = some 0) (he : es[u]? = some e)
    (hi : ⟨i⟩ ∈ e.operands) (honly : ∀ u' e', es[u']? = some e' → ⟨i⟩ ∈ e'.operands → u' = u)
    (hreads : (⟨i⟩ : Handle .expression) ∉ IR.bodyReads f.body) (hlt : i < u)
    (hfine : onRightOnly ⟨i⟩ e ∨ (deferred f).getD u false = true) :
    (deferred f).getD i false = true := by
  have hsize := (List.getElem?_eq_some_iff.1 he).1
  refine deferred_of_user ((hes u).trans he) hi (fun g e' hg hi' => ?_) hreads ?_ hlt hfine
  · obtain ⟨u'⟩ := g
    rw [honly u' e' ((hes u').symm.trans hg) hi']
  · rw [hepoch i (Nat.lt_trans hlt hsize), hepoch u hsize]
    rfl

lemma not_deferred_part (he : es[u]? = some e) (hi : ⟨i⟩ ∈ e.operands)
    (hright : onRightOnly ⟨i⟩ e = false) (hnot : (deferred f).getD u false = false) :
    (deferred f).getD i false = false := by
  by_contra hdeferred
  rcases (user_of_deferred (by simpa using hdeferred) ((hes u).trans he) hi).2 with h | ⟨-, h⟩
  · rw [hright] at h
    cases h
  · rw [hnot] at h
    cases h

/-- Where a condition is deferred, so are all its parts; where it is not, only the parts on the
right of short circuits are. -/
lemma eager_of_laid (hepoch : ∀ i, i < es.length → epochOf f ⟨i⟩ = some 0) (c : Condition) :
    ∀ {base}, Condition.Laid es base c → Framed es base c →
      (∀ i, i < c.root base → (⟨i⟩ : Handle .expression) ∉ IR.bodyReads f.body) →
      ((deferred f).getD (c.root base) false = false → Eager (deferred f) base c) ∧
      ((deferred f).getD (c.root base) false = true →
        ∀ i, base ≤ i → i ≤ c.root base → (deferred f).getD i false = true) := by
  induction c with
  | read g =>
    intro base hlaid hframed hreads
    obtain ⟨hpointer, hload⟩ := hlaid.pointer
    have hmem : (⟨base⟩ : Handle .expression) ∈ (Expression.load ⟨base⟩).operands :=
      mem_singleton.2 rfl
    have honly : ∀ u e, es[u]? = some e → ⟨base⟩ ∈ e.operands → u = base + 1 := by
      intro u e he hi
      have hu := hframed u e base he hi (Nat.le_refl _) (Nat.lt_succ_self _)
      simp only [Condition.root] at hu
      obtain rfl | rfl : u = base ∨ u = base + 1 := by omega
      · rw [hpointer] at he
        cases he
        cases hi
      · rfl
    refine ⟨fun hnot => ⟨not_deferred_part hes hload hmem rfl hnot, hnot⟩,
      fun hdeferred i hi hi' => ?_⟩
    simp only [Condition.root] at hi'
    obtain rfl | rfl : i = base ∨ i = base + 1 := by omega
    · exact deferred_part hes hepoch hload hmem honly (hreads _ (Nat.lt_succ_self _))
        (Nat.lt_succ_self _) (.inr hdeferred)
    · exact hdeferred
  | not c ih =>
    intro base hlaid hframed hreads
    obtain ⟨hlaid', hnode⟩ := hlaid.negation
    obtain ⟨hframed', honly⟩ := hframed.negation hlaid
    have hmem : (⟨c.root base⟩ : Handle .expression) ∈
        (Expression.unary .logicalNot ⟨c.root base⟩).operands := mem_singleton.2 rfl
    obtain ⟨hfalse, htrue⟩ := ih hlaid' hframed' fun i hi => hreads i (Nat.lt_succ_of_lt hi)
    refine ⟨fun hnot => ⟨hfalse (not_deferred_part hes hnode hmem rfl hnot), hnot⟩,
      fun hdeferred i hi hi' => ?_⟩
    simp only [Condition.root] at hi'
    by_cases hroot : i = c.root base + 1
    · exact hroot ▸ hdeferred
    · exact htrue (deferred_part hes hepoch hnode hmem honly (hreads _ (Nat.lt_succ_self _))
        (Nat.lt_succ_self _) (.inr hdeferred)) i hi (by omega)
  | shortCircuit conjunction left right ihl ihr =>
    intro base hlaid hframed hreads
    have hr := right.base_lt_root (left.root base + 1)
    obtain ⟨hlaidl, hlaidr, hnode⟩ := hlaid.circuit
    obtain ⟨hframedl, hframedr, honly⟩ := hframed.circuit hlaid
    simp only [Condition.root] at hreads
    obtain ⟨hfalse, htrue⟩ := ihl hlaidl hframedl fun i hi => hreads i (by omega)
    obtain ⟨-, hright⟩ := ihr hlaidr hframedr fun i hi => hreads i (by omega)
    -- the right operand is used only here, so that it waits for the value of the left one
    have hdeferred : (deferred f).getD (right.root (left.root base + 1)) false = true := by
      refine deferred_part hes hepoch hnode (mem_cons_of_mem _ mem_cons_self)
        (fun u e he hi => honly u e _ he hi (.inr rfl))
        (hreads _ (Nat.lt_succ_self _)) (Nat.lt_succ_self _) (.inl ?_)
      cases conjunction <;> simp [onRightOnly, Condition.junction, IR.BinaryOp.isShortCircuit] <;>
        omega
    have hleft : onRightOnly ⟨left.root base⟩ (.binary (Condition.junction conjunction)
        ⟨left.root base⟩ ⟨right.root (left.root base + 1)⟩) = false := by
      simp [onRightOnly]
    refine ⟨fun hnot => ⟨hfalse (not_deferred_part hes hnode mem_cons_self hleft hnot),
      fun i hi hi' => hright hdeferred i hi hi', hnot⟩, fun hroot i hi hi' => ?_⟩
    simp only [Condition.root] at hi' hroot
    by_cases hinl : i ≤ left.root base
    · exact htrue (deferred_part hes hepoch hnode mem_cons_self
        (fun u e he hi => honly u e _ he hi (.inl rfl))
        (hreads _ (by omega)) (by omega) (.inr hroot)) i hi hinl
    by_cases hinr : i ≤ right.root (left.root base + 1)
    · exact hright hdeferred i (by omega) hinr
    · obtain rfl : i = right.root (left.root base + 1) + 1 := by omega
      exact hroot

end

/-! ### The function -/

lemma framed_layout (c : Condition) : Framed (c.layout 0) 0 c := by
  intro u e i he _ _ _
  have hlt := (List.getElem?_eq_some_iff.1 he).1
  have hlength := c.length_layout 0
  exact ⟨Nat.zero_le _, by omega⟩

lemma eager_function (c : Condition) : Eager (deferred c.function) 0 c := by
  have hlength := c.length_layout 0
  have hreads : IR.bodyReads c.function.body = [⟨c.root 0⟩] := rfl
  have hes : ∀ i, c.function.expressions.get? ⟨i⟩ = (c.layout 0)[i]? := fun i => by
    simp [Arena.get?, Condition.function]
  have hepoch : ∀ i, i < (c.layout 0).length → epochOf c.function ⟨i⟩ = some 0 := by
    intro i hi
    have hsize : c.function.expressions.size =
      (c.layout 0).length := by simp [Arena.size, Condition.function]
    have hmarks : IR.bodyMarks c.function.body = [.emit ⟨0, c.root 0 + 1⟩] := rfl
    rw [epochOf, if_pos (by rw [hsize]; exact hi), hmarks]
    have hcovers : (⟨0, c.root 0 + 1⟩ : HandleRange .expression).covers ⟨i⟩ = true := by
      simp only [HandleRange.covers]
      simp only [Nat.zero_le, decide_true, Bool.true_and, decide_eq_true_eq]
      omega
    simp only [IR.epoch?, IR.epochFrom, hcovers, if_true]
  refine (eager_of_laid hes hepoch c (.whole c) (framed_layout c) fun i hi hmem => ?_).1 ?_
  · have := Handle.mk.inj (mem_singleton.1 hmem)
    omega
  · by_contra hdeferred
    refine not_mem_reads_of_deferred (by simpa using hdeferred) ?_
    exact mem_singleton.2 rfl

end Shader.Emit
