import Mathlib.Data.Finset.Card
import Shader.Emit.Fault

/-!
# Following references to a limited depth

Types refer to types, and constant expressions to each other.  Emission follows such references to a
limited depth, and gives up where it is exceeded.  What is found at some depth is found at every
greater one (`approx_below`), so that a depth greater than the number of handles finds all that
there is to find (`approx_eq_limit`): a chain of references that is longer comes back to where it
was.
-/

namespace Shader.Emit

open List

variable {depth : Nat}

/-! ### Giving up -/

/-- References were followed to the depth allowed. -/
abbrev exhausted {α : Type} : Except Fault α := .error (.inconsistent .circular)

def isExhausted {α : Type} : Except Fault α → Bool
  | .error (.inconsistent .circular) => true
  | _ => false

/-- The first outcome is the second one, unless references were followed to the depth allowed. -/
def Below {α : Type} (a b : Except Fault α) : Prop := a = exhausted ∨ a = b

section

variable {α : Type}

lemma isExhausted_iff : isExhausted a ↔ a = exhausted := by
  constructor
  · intro h
    unfold isExhausted at h
    split at h
    · rfl
    · cases h
  · rintro rfl
    rfl

lemma Below.refl (a : Except Fault α) : Below a a := .inr rfl

lemma Below.eq_of_ne (h : Below a b) (hne : a ≠ exhausted) : a = b := h.resolve_left hne

lemma Below.bind (h : Below a b) (hfg : ∀ x, Below (f x) (g x)) : Below (a >>= f) (b >>= g) := by
  rcases h with rfl | rfl
  · exact .inl rfl
  · cases a with
    | error fault => exact .inr rfl
    | ok x => exact hfg x

lemma Below.mapM (xs : List γ) (hfg : ∀ x, Below (f x) (g x)) : Below (xs.mapM f) (xs.mapM g) := by
  induction xs with
  | nil => exact .refl _
  | cons x xs ih =>
    rw [mapM_cons, mapM_cons]
    exact (hfg x).bind fun _ => ih.bind fun _ => .refl _

end

/-! ### Approximations -/

/-- What is found out about a handle, given what is found out about those it refers to. -/
abbrev Inquiry (kind : Kind) (α : Type) := (Handle kind → Except Fault α) →
    Handle kind → Except Fault α

/-- What is found at the given depth. -/
def approx {kind : Kind} {α : Type} (step : Inquiry kind α) : Nat → Handle kind → Except Fault α
  | 0 => fun _ => exhausted
  | depth + 1 => step (approx step depth)

/-- The more is found about references the more is found, and from the given size on there are no
references. -/
structure Inquiry.Guarded {kind : Kind} {α : Type} (step : Inquiry kind α) (size : Nat) : Prop where
  mono : ∀ {f g : Handle kind → Except Fault α}, (∀ h, Below (f h) (g h)) → ∀ h,
    Below (step f h) (step g h)
  outside : ∀ (f g : Handle kind → Except Fault α) {h : Handle kind}, size ≤ h.index →
    step f h = step g h

/-- All that there is to find about the handles below the given size. -/
def limit {kind : Kind} {α : Type} (step : Inquiry kind α) (size : Nat) :
    Handle kind → Except Fault α :=
  approx step (size + 1)

section

variable {kind : Kind} {α : Type} {step : Inquiry kind α} {size depth' i : Nat}

lemma approx_below (hstep : step.Guarded size) (depth : Nat) (h : Handle kind) :
    Below (approx step depth h) (approx step (depth + 1) h) := by
  induction depth generalizing h with
  | zero => exact .inl rfl
  | succ depth ih => exact hstep.mono ih h

lemma approx_eq_of_settled (hsettled : approx step (depth + 1) = approx step depth)
    (hle : depth ≤ depth') :
    approx step depth' = approx step depth := by
  induction hle with
  | refl => rfl
  | step _ ih =>
    show step (approx step _) = _
    rw [ih]
    exact hsettled

/-- The handles about which something is found. -/
def found (step : Inquiry kind α) (size depth : Nat) : Finset Nat :=
  (Finset.range size).filter fun i => !isExhausted (approx step depth ⟨i⟩)

lemma mem_found : i ∈ found step size depth ↔ i < size ∧ approx step depth ⟨i⟩ ≠ exhausted := by
  rw [found, Finset.mem_filter, Finset.mem_range, Bool.not_eq_true', Ne, ← isExhausted_iff,
    Bool.not_eq_true]

section

variable (hstep : step.Guarded size)
include hstep

lemma found_subset (depth : Nat) : found step size depth ⊆ found step size (depth + 1) := by
  intro i hi
  obtain ⟨hlt, hne⟩ := mem_found.1 hi
  refine mem_found.2 ⟨hlt, ?_⟩
  rw [← (approx_below hstep depth ⟨i⟩).eq_of_ne hne]
  exact hne

lemma settled_of_found (hfound : found step size (depth + 2) ⊆ found step size (depth + 1)) :
    approx step (depth + 2) = approx step (depth + 1) := by
  funext h
  by_cases hlt : h.index < size
  · by_cases hnone : approx step (depth + 1) h = exhausted
    · by_contra hne
      have hmem : h.index ∈ found step size (depth + 2) :=
        mem_found.2 ⟨hlt, fun hsome => hne (hsome.trans hnone.symm)⟩
      exact (mem_found.1 (hfound hmem)).2 hnone
    · exact ((approx_below hstep (depth + 1) h).eq_of_ne hnone).symm
  · exact hstep.outside _ _ (Nat.le_of_not_lt hlt)

lemma settled_or_le_card (depth : Nat) :
    approx step (depth + 2) = approx step (depth + 1) ∨
    depth ≤ (found step size (depth + 1)).card := by
  induction depth with
  | zero => exact .inr (Nat.zero_le _)
  | succ depth ih =>
    by_cases hfound : found step size (depth + 2) ⊆ found step size (depth + 1)
    · exact .inl (congrArg step (settled_of_found hstep hfound))
    · rcases ih with hsettled | hcard
      · exact .inl (congrArg step hsettled)
      · exact .inr (Nat.lt_of_le_of_lt hcard (Finset.card_lt_card ⟨found_subset hstep _, hfound⟩))

lemma settled_limit : approx step (size + 2) = limit step size := by
  rcases settled_or_le_card hstep size with hsettled | hcard
  · exact hsettled
  · refine settled_of_found hstep fun i hi => ?_
    -- something is found about every handle already
    have hall : found step size (size + 1) = Finset.range size :=
      Finset.eq_of_subset_of_card_le (Finset.filter_subset _ _) (by rwa [Finset.card_range])
    rw [hall]
    exact Finset.mem_range.2 (mem_found.1 hi).1

lemma approx_eq_limit (hdepth : size < depth) :
    approx step depth = limit step size := approx_eq_of_settled (settled_limit hstep) hdepth

lemma limit_eq_step : limit step size = step (limit step size) := (settled_limit hstep).symm

lemma approx_below_limit (depth : Nat) (h : Handle kind) :
    Below (approx step depth h) (limit step size h) := by
  induction depth generalizing h with
  | zero => exact .inl rfl
  | succ depth ih =>
    rw [limit_eq_step hstep]
    exact hstep.mono ih h

end

end

end Shader.Emit
