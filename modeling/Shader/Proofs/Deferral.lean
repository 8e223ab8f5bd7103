import Shader.Emit.Deferral
import Shader.Proofs.Scope

/-!
# What is deferred

The analysis goes through the expressions from the last to the first.  Seen as a whole, an
expression that is deferred is read by no statement, and each user of it has it on the right of a
short circuit only, or comes later and is deferred as well.  It is emitted in the same epoch as its
users.
-/

namespace Shader.Emit

open List
open IR (Expression)

/-- The epoch that the analysis takes an expression to be emitted in. -/
def epochOf (f : IR.Function) (h : Handle .expression) : Option Nat :=
  if h.index < f.expressions.size then IR.epoch? (IR.bodyMarks f.body) h else none

section

variable (f : IR.Function) (reads : Handles) (epoch : Handle .expression → Option Nat)

lemma length_deferredOfLast (count : Nat) :
    (deferredOfLast f reads epoch count).length = count := by
  induction count with
  | zero => rfl
  | succ count ih => exact congrArg (· + 1) ih

lemma getD_deferredOfLast (count i : Nat) (hi : i < count) :
    (deferredOfLast f reads epoch count).getD i false =
      isDeferred f reads epoch ⟨f.expressions.size - (count - i)⟩
        (deferredOfLast f reads epoch (count - i - 1)) := by
  induction count generalizing i with
  | zero => cases hi
  | succ count ih =>
    cases i with
    | zero => rfl
    | succ i =>
      have hsub : count + 1 - (i + 1) = count - i := by omega
      rw [hsub, ← ih i (by omega)]
      rfl

end

section

variable {f : IR.Function} {h user : Handle .expression}

lemma getD_epochs (f : IR.Function) (h : Handle .expression) :
    (f.expressions.entries.map fun (g, _) => IR.epoch? (IR.bodyMarks f.body) g).toArray.getD
      h.index none = epochOf f h := by
  simp only [epochOf, Arena.entries, Arena.size, Array.getD_eq_getD_getElem?, getElem?_toArray,
    getElem?_map, getElem?_zipIdx, Array.getElem?_toList]
  by_cases hlt : h.index < f.expressions.items.size <;> simp [hlt]

lemma deferred_eq_deferredOfLast (f : IR.Function) : deferred f =
      (deferredOfLast f (IR.bodyReads f.body) (epochOf f) f.expressions.size).toArray := by
  have hepochs := funext (getD_epochs f)
  unfold deferred
  simp only
  rw [hepochs]

lemma deferred_eq (hh : h.index < f.expressions.size) : (deferred f).getD h.index false =
      isDeferred f (IR.bodyReads f.body) (epochOf f) h
        (deferredOfLast f (IR.bodyReads f.body) (epochOf f)
          (f.expressions.size - h.index - 1)) := by
  have hhandle : f.expressions.size - (f.expressions.size - h.index) = h.index := by omega
  rw [deferred_eq_deferredOfLast, Array.getD_eq_getD_getElem?, getElem?_toArray,
    ← getD_eq_getElem?_getD, getD_deferredOfLast _ _ _ _ _ hh, hhandle]

lemma later_eq (hlt : h.index < user.index) (huser : user.index < f.expressions.size) :
    (deferredOfLast f (IR.bodyReads f.body) (epochOf f) (f.expressions.size - h.index - 1)).getD
      (user.index - h.index - 1) false = (deferred f).getD user.index false := by
  have hcount : f.expressions.size - h.index - 1 - (user.index - h.index - 1) =
      f.expressions.size - user.index := by omega
  have hhandle : f.expressions.size - (f.expressions.size - user.index) = user.index := by omega
  rw [getD_deferredOfLast _ _ _ _ _ (by omega), deferred_eq huser, hcount, hhandle]

section

variable (hdeferred : (deferred f).getD h.index false)
include hdeferred

lemma lt_size_of_deferred : h.index < f.expressions.size := by
  refine Nat.lt_of_not_le fun hge => ?_
  have hnone : (deferred f)[h.index]? = none := by
    rw [Array.getElem?_eq_none]
    simpa [deferred, length_deferredOfLast] using hge
  rw [Array.getD_eq_getD_getElem?, hnone] at hdeferred
  cases hdeferred

lemma not_mem_reads_of_deferred : h ∉ IR.bodyReads f.body := by
  rw [deferred_eq (lt_size_of_deferred hdeferred)] at hdeferred
  simp only [isDeferred, Bool.and_eq_true, Bool.not_eq_true', contains_eq_mem,
    decide_eq_false_iff_not] at hdeferred
  exact hdeferred.1.2

lemma user_of_deferred (huser : f.expressions.get? user = some e) (hoperand : h ∈ e.operands) :
    sameEpoch (epochOf f h) (epochOf f user) ∧
      (onRightOnly h e ∨ h.index < user.index ∧ (deferred f).getD user.index false) := by
  rw [deferred_eq (lt_size_of_deferred hdeferred)] at hdeferred
  simp only [isDeferred, Bool.and_eq_true, all_eq_true, Bool.or_eq_true,
    decide_eq_true_eq] at hdeferred
  have hmem : (user, e) ∈ f.users h :=
    mem_filter.2 ⟨Arena.mem_entries.2 huser, by simpa using hoperand⟩
  obtain ⟨hepoch, hright | ⟨hlt, hlater⟩⟩ := hdeferred.2 (user, e) hmem
  · exact ⟨hepoch, .inl hright⟩
  · rw [later_eq hlt (Arena.get?_eq_some_lt huser)] at hlater
    exact ⟨hepoch, .inr ⟨hlt, hlater⟩⟩

lemma exists_user_of_deferred : ∃ user e, f.expressions.get? user = some e ∧ h ∈ e.operands := by
  rw [deferred_eq (lt_size_of_deferred hdeferred)] at hdeferred
  simp only [isDeferred, Bool.and_eq_true, Bool.not_eq_true'] at hdeferred
  obtain ⟨⟨user, e⟩, hmem⟩ := exists_mem_of_ne_nil _ (isEmpty_eq_false_iff.1 hdeferred.1.1)
  obtain ⟨hentry, hoperand⟩ := mem_filter.1 hmem
  exact ⟨user, e, Arena.mem_entries.1 hentry, by simpa using hoperand⟩

end

end

end Shader.Emit
