import Mathlib.Tactic.Lemma
import Shader.Emit.Context

/-!
# Valuations

Expressions get their values one by one, and the trail says in which order.  A valuation that
only gave values to expressions that had none (`Grows`) can be taken back to where it was.
-/

namespace Shader.Emit.Valuation

open List Assembly

variable {v v' v₁ : Valuation} {h g : Handle .expression} {id u : Id}

/-- How many expressions can have a value. -/
def size (v : Valuation) : Nat := v.slots.ids.size

lemma get?_set_of_ne (hne : g ≠ h) : (v.set h id).get? g = v.get? g := by
  have hindex : h.index ≠ g.index := fun heq => hne (by cases g; cases h; cases heq; rfl)
  unfold set
  split
  · simp [get?, Slots.get?, Slots.set, Array.getD_eq_getD_getElem?,
      Array.getElem?_setIfInBounds_ne hindex]
  · rfl

lemma get?_set_self (hlt : h.index < v.size) : (v.set h id).get? h = some id := by
  have hlt' : h.index < v.slots.ids.size := hlt
  simp [set, hlt', get?, Slots.get?, Slots.set, Array.getD_eq_getD_getElem?]

lemma get?_set_eq_some (hv : (v.set h id).get? g = some u) :
    (g = h ∧ u = id) ∨ v.get? g = some u := by
  by_cases hgh : g = h
  · subst hgh
    by_cases hlt : g.index < v.size
    · rw [get?_set_self hlt] at hv
      exact .inl ⟨rfl, (Option.some.inj hv).symm⟩
    · have hsame : v.set g id = v := if_neg hlt
      rw [hsame] at hv
      exact .inr hv
  · rw [get?_set_of_ne hgh] at hv
    exact .inr hv

@[simp] lemma size_set : (v.set h id).size = v.size := by
  unfold set size
  split
  · simp [Slots.set]
  · rfl

/-- Values were given to expressions that had none, and nothing else changed. -/
structure Grows (v v' : Valuation) (new : Handles) : Prop where
  size : v'.size = v.size
  trail : v'.trail = new ++ v.trail
  fresh : ∀ h ∈ new, v.get? h = none
  old : ∀ h, h ∉ new → v'.get? h = v.get? h

namespace Grows

variable {new new' : Handles}

lemma refl (v : Valuation) : Grows v v [] := ⟨rfl, rfl, forall_mem_nil _, fun _ _ => rfl⟩

lemma trans (hg : Grows v v₁ new) (hg' : Grows v₁ v' new') : Grows v v' (new' ++ new) where
  size := hg'.size.trans hg.size
  trail := by rw [hg'.trail, hg.trail, append_assoc]
  fresh h hh := by
    rcases mem_append.1 hh with hh | hh
    · by_cases hmem : h ∈ new
      · exact hg.fresh h hmem
      · exact (hg.old h hmem).symm.trans (hg'.fresh h hh)
    · exact hg.fresh h hh
  old h hh := by
    rw [mem_append, not_or] at hh
    exact (hg'.old h hh.1).trans (hg.old h hh.2)

lemma cons (hg : Grows v v' new) (hnone : v.get? h = none) (hlt : h.index < v.size) (id : Id) :
    Grows v (v'.set h id) (h :: new) where
  size := size_set.trans hg.size
  trail := by
    have hlt' : h.index < v'.slots.ids.size := Nat.lt_of_lt_of_eq hlt hg.size.symm
    simp [Valuation.set, hlt', hg.trail]
  fresh g hmem := by
    rcases mem_cons.1 hmem with rfl | hmem
    · exact hnone
    · exact hg.fresh g hmem
  old g hmem := by
    rw [mem_cons, not_or] at hmem
    exact (get?_set_of_ne hmem.1).trans (hg.old g hmem.2)

lemma set (hg : Grows v v' new) (hnone : v.get? h = none) (id : Id) :
    ∃ new', Grows v (v'.set h id) new' := by
  by_cases hlt : h.index < v'.size
  · exact ⟨h :: new, hg.cons hnone (hg.size ▸ hlt) id⟩
  · have hsame : v'.set h id = v' := if_neg hlt
    rw [hsame]
    exact ⟨new, hg⟩

lemma get?_of_some (hg : Grows v v' new) (hv : v.get? h = some id) : v'.get? h = some id := by
  refine (hg.old h fun hmem => ?_).trans hv
  rw [hg.fresh h hmem] at hv
  cases hv

end Grows

/-! ### Back to a point in time -/

/-- The values without those of some expressions. -/
def forget (slots : Slots .expression) (hs : Handles) : Slots .expression :=
  hs.foldl (fun slots h => slots.set h none) slots

lemma size_forget (hs : Handles) : ∀ slots, (forget slots hs).ids.size = slots.ids.size := by
  induction hs with
  | nil => exact fun _ => rfl
  | cons h hs ih =>
    intro slots
    exact (ih _).trans Array.size_setIfInBounds

lemma get?_forget (hs : Handles) (g : Handle .expression) : ∀ slots,
      (forget slots hs).get? g = if g ∈ hs then none else slots.get? g := by
  induction hs with
  | nil => exact fun _ => rfl
  | cons h hs ih =>
    intro slots
    refine (ih _).trans ?_
    by_cases hmem : g ∈ hs
    · simp [hmem]
    · by_cases heq : g = h
      · subst heq
        simp only [hmem, mem_cons, true_or, if_true, if_false, Slots.get?, Slots.set,
          Array.getD_eq_getD_getElem?, Array.getElem?_setIfInBounds_self]
        split <;> rfl
      · have hindex : h.index ≠ g.index := fun hi => heq (by cases g; cases h; cases hi; rfl)
        simp [hmem, heq, Slots.get?, Slots.set, Array.getD_eq_getD_getElem?,
          Array.getElem?_setIfInBounds_ne hindex]

lemma Slots.ext_get? {s s' : Slots kind} (hsize : s.ids.size = s'.ids.size)
    (hget : ∀ h, s.get? h = s'.get? h) : s = s' := by
  obtain ⟨ids⟩ := s
  obtain ⟨ids'⟩ := s'
  congr 1
  refine Array.ext hsize fun i hi hi' => ?_
  have := hget ⟨i⟩
  simpa [Slots.get?, Array.getD, hi, hi'] using this

lemma rewind_eq {new : Handles} (hg : Grows v v' new) : v'.rewind v.mark = v := by
  have hcount : v'.trail.length - v.mark = new.length := by simp [hg.trail, mark]
  have htake : v'.trail.take new.length = new := by simp [hg.trail]
  have hdrop : v'.trail.drop new.length = v.trail := by simp [hg.trail]
  have hslots : forget v'.slots new = v.slots := by
    refine Slots.ext_get? ((size_forget new _).trans hg.size) fun h => ?_
    rw [get?_forget]
    split
    · exact (hg.fresh h ‹_›).symm
    · exact hg.old h ‹_›
  unfold rewind
  simp only [hcount, htake, hdrop]
  change Valuation.mk (forget v'.slots new) v.trail = v
  rw [hslots]

end Shader.Emit.Valuation
