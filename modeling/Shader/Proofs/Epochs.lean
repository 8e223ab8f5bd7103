import Shader.Proofs.Reads

/-!
# The analysis of deferral is sound

Where no expression is emitted twice, what is deferred can be computed where its users are: all that
happens between its emit and theirs is that other expressions are emitted.
-/

variable {n : Nat}

namespace Shader.IR

open List

/-- The event is an emit of the expression. -/
def Event.emits (h : Handle .expression) : Event → Bool
  | emit range => range.handles.contains h
  | effect | boundary => false

namespace Function

variable (f : Function)

/-- How many emits cover an expression. -/
def emitCount (h : Handle .expression) : Nat := (bodyEvents f.body).countP (Event.emits h)

/-- No expression is covered by two emits. -/
def EmitsOnce : Prop := ∀ entry ∈ f.expressions.entries, f.emitCount entry.1 ≤ 1

instance : Decidable f.EmitsOnce := inferInstanceAs (Decidable (∀ _ ∈ _, _))

/-- Nothing but emits comes between an emit of one expression and an emit of the other. -/
def EmitsTogether (h g : Handle .expression) : Prop :=
  ∀ before first between last after,
    bodyEvents f.body = before ++ .emit first :: (between ++ .emit last :: after) →
    h ∈ first.handles ∧ g ∈ last.handles ∨ g ∈ first.handles ∧ h ∈ last.handles →
    ∀ event ∈ between, ∃ range, event = .emit range

end Function

variable {f : Function} {h g : Handle .expression} {epoch : Nat}

lemma emits_iff {range : HandleRange .expression} :
    (Event.emit range).emits h ↔ h ∈ range.handles := by
  simp [Event.emits]

lemma exists_emit_of_epochFrom {l : List Event}
    (hepoch : epochFrom h epoch none (l.map Event.mark) = some n) : ∃ event ∈ l, event.emits h := by
  by_contra hnone
  rw [epochFrom_of_not_mem] at hepoch
  · cases hepoch
  · exact fun range hrange hh => hnone ⟨_, hrange, emits_iff.2 hh⟩

end Shader.IR

namespace Shader.Emit

open List
open IR (Event bodyEvents boundariesIn)

variable {f : IR.Function} {h g x : Handle .expression}

lemma emitCount_pos_of_epochOf {n : Nat} (hepoch : epochOf f h = some n) : 0 < f.emitCount h := by
  unfold epochOf at hepoch
  split at hepoch
  · rw [IR.epoch?, ← (IR.bodyEvents_spec _).1] at hepoch
    exact countP_pos_iff.2 (IR.exists_emit_of_epochFrom hepoch)
  · cases hepoch

lemma eq_some_of_sameEpoch (h : sameEpoch (some n) user) : user = some n := by
  cases user with
  | none => cases h
  | some m => exact congrArg some (eq_of_beq h).symm

lemma eq_binary_of_onRightOnly (h : onRightOnly x e) :
    ∃ op left, e = .binary op left x ∧ op.isShortCircuit ∧ left ≠ x := by
  unfold onRightOnly at h
  split at h
  · rename_i op left right
    simp only [Bool.and_eq_true, beq_iff_eq, bne_iff_ne] at h
    obtain ⟨⟨hop, rfl⟩, hleft⟩ := h
    exact ⟨op, left, rfl, hop, hleft⟩
  · cases h

section

variable (honce : f.EmitsOnce) {before after : List Event} {range : HandleRange .expression}
include honce

lemma epochOf_of_emitsOnce (hlt : h.index < f.expressions.size)
    (hsplit : bodyEvents f.body = before ++ .emit range :: after) (hcovers : h ∈ range.handles) :
    epochOf f h = some (boundariesIn before) := by
  refine epochOf_of_last hlt hsplit hcovers fun range' hrange' hcovers' => ?_
  obtain ⟨e, he⟩ : ∃ e, f.expressions.get? h = some e := ⟨_, Array.getElem?_eq_getElem hlt⟩
  have hcount : f.emitCount h ≤ 1 := honce (h, e) (Arena.mem_entries.2 he)
  rw [IR.Function.emitCount, hsplit, countP_append, countP_cons_of_pos (IR.emits_iff.2 hcovers)]
    at hcount
  have hlater : 0 < after.countP (Event.emits h) :=
    countP_pos_iff.2 ⟨_, hrange', IR.emits_iff.2 hcovers'⟩
  omega

lemma exists_epochOf (hlt : h.index < f.expressions.size) (hemitted : 0 < f.emitCount h) :
    ∃ n, epochOf f h = some n := by
  obtain ⟨event, hevent, hemits⟩ := countP_pos_iff.1 hemitted
  obtain ⟨before, after, hsplit⟩ := append_of_mem hevent
  cases event with
  | effect | boundary => cases hemits
  | emit range => exact ⟨_, epochOf_of_emitsOnce honce hlt hsplit (IR.emits_iff.1 hemits)⟩

lemma emitsTogether_of_epochOf (hh : h.index < f.expressions.size)
    (hg : g.index < f.expressions.size)
    (hsame : epochOf f h = epochOf f g) : f.EmitsTogether h g := by
  intro before first between last after hsplit hcovers event hevent
  have hsplit' : bodyEvents f.body = (before ++ .emit first :: between) ++ .emit last :: after := by
    rw [hsplit, append_assoc, cons_append]
  have hcount : boundariesIn before = boundariesIn (before ++ .emit first :: between) := by
    rcases hcovers with ⟨hfirst, hlast⟩ | ⟨hfirst, hlast⟩
    · rw [epochOf_of_emitsOnce honce hh hsplit hfirst, epochOf_of_emitsOnce honce hg hsplit'
        hlast] at hsame
      exact Option.some.inj hsame
    · rw [epochOf_of_emitsOnce honce hg hsplit hfirst, epochOf_of_emitsOnce honce hh hsplit'
        hlast] at hsame
      exact (Option.some.inj hsame).symm
  have hnone : boundariesIn between = 0 := by
    rw [IR.boundariesIn_append] at hcount
    change _ = _ + boundariesIn between at hcount
    omega
  cases event with
  | emit range => exact ⟨range, rfl⟩
  | effect | boundary => exact absurd rfl (countP_eq_zero.1 hnone _ hevent)

end

/-- What is deferred has users and is read by no statement.  If it is emitted at all, each user is
emitted as well, with nothing between the two but other emits.  A user is a short circuit that has
it on the right only, or it comes later and is deferred, too. -/
theorem deferral_sound (honce : f.EmitsOnce) (hdeferred : (deferred f).getD x.index false)
    (hemitted : 0 < f.emitCount x) :
    (∃ user e, f.expressions.get? user = some e ∧ x ∈ e.operands) ∧
      x ∉ IR.bodyReads f.body ∧
      ∀ user e, f.expressions.get? user = some e → x ∈ e.operands →
        0 < f.emitCount user ∧ f.EmitsTogether x user ∧
        ((∃ op left, e = .binary op left x ∧ op.isShortCircuit ∧ left ≠ x) ∨
          x.index < user.index ∧ (deferred f).getD user.index false) := by
  refine ⟨exists_user_of_deferred hdeferred, not_mem_reads_of_deferred hdeferred,
    fun user e huser hoperand => ?_⟩
  obtain ⟨hsame, hplace⟩ := user_of_deferred hdeferred huser hoperand
  have hlt := lt_size_of_deferred hdeferred
  obtain ⟨n, hx⟩ := exists_epochOf honce hlt hemitted
  have hu : epochOf f user = some n := eq_some_of_sameEpoch (hx ▸ hsame)
  refine ⟨emitCount_pos_of_epochOf hu, ?_, hplace.imp_left eq_binary_of_onRightOnly⟩
  exact emitsTogether_of_epochOf honce hlt (Arena.get?_eq_some_lt huser) (hx.trans hu.symm)

theorem deferral_sound_swap :
    swapFunction.EmitsOnce ∧ (deferred swapFunction).getD 5 false ∧ 0 < swapFunction.emitCount ⟨5⟩ ∧
      (∃ user e, swapFunction.expressions.get? user = some e ∧ ⟨5⟩ ∈ e.operands) ∧
      ⟨5⟩ ∉ IR.bodyReads swapFunction.body ∧
      ∀ user e, swapFunction.expressions.get? user = some e → ⟨5⟩ ∈ e.operands →
        0 < swapFunction.emitCount user ∧ swapFunction.EmitsTogether ⟨5⟩ user ∧
        ((∃ op left, e = .binary op left ⟨5⟩ ∧ op.isShortCircuit ∧ left ≠ ⟨5⟩) ∨
          5 < user.index ∧ (deferred swapFunction).getD user.index false) :=
  ⟨by decide +kernel, by decide +kernel, by decide +kernel,
    deferral_sound (by decide +kernel) (by decide +kernel) (by decide +kernel)⟩

end Shader.Emit
