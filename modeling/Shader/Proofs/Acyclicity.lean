import Mathlib.Data.List.Perm.Subperm
import Shader.IR.Module

/-!
# References without circles

Types are made of types, constants of constants, and expressions read expressions.  Where no chain
of references leads back to its start, a chain is no longer than there are things to refer to,
however the handles are ordered: what holds of a handle whenever it holds of those it refers to, one
level down, holds of all once there are more levels than that (`Acyclic.descend`).
-/

namespace Shader.IR

open List

/-- The type is made of the other one. -/
def Module.TypeRefers (m : Module) (h c : Handle .type) : Prop :=
  ∃ type, m.typeAt h = .ok type ∧ c ∈ type.shape.components

/-- The constants that a constant is made of. -/
def Expression.parts : Expression → Handles
  | constant value => [value]
  | compose _ components => components
  | splat _ value => [value]
  | _ => []

/-- The constant is made of the other one. -/
def Module.ConstantRefers (m : Module) (h c : Handle .expression) : Prop :=
  ∃ e, m.constants.fetch h = .ok e ∧ c ∈ e.parts

/-- The expression reads the other one. -/
def Function.Refers (f : Function) (h c : Handle .expression) : Prop :=
  ∃ e, f.expressions.fetch h = .ok e ∧ c ∈ e.operands

lemma Module.TypeRefers.inside {m : Module} {h : Handle .type} (hc : m.TypeRefers h c) :
    h.index < m.types.size := by
  obtain ⟨type, htype, -⟩ := hc
  refine Nat.lt_of_not_le fun hout => ?_
  have hnone : m.types.get? h = none := Array.getElem?_eq_none hout
  rw [Module.typeAt, hnone] at htype
  cases htype

lemma ExpressionArena.index_lt {a : ExpressionArena} {h : Handle .expression}
    (he : a.fetch h = .ok e) :
    h.index < a.size := by
  refine Nat.lt_of_not_le fun hout => ?_
  have hnone : a.get? h = none := Array.getElem?_eq_none hout
  rw [fetch, hnone] at he
  cases he

/-- No chain leads back to where it starts. -/
def Acyclic {α : Type} (R : α → α → Prop) : Prop := ∀ a, ¬ Relation.TransGen R a a

/-- The references of a program do not lead in a circle. -/
structure Module.Acyclic (m : Module) : Prop where
  types : IR.Acyclic m.TypeRefers
  constants : IR.Acyclic m.ConstantRefers
  functions : ∀ f ∈ m.functions.toList, IR.Acyclic f.Refers
  entryPoints : ∀ entry ∈ m.entryPoints, IR.Acyclic entry.function.Refers

namespace Acyclic

lemma of_rank (rank : α → Nat) (h : ∀ a b, R a b → rank b < rank a) : Acyclic R := by
  intro a ha
  have hlower : ∀ b, Relation.TransGen R a b → rank b < rank a := by
    intro b hb
    induction hb with
    | single hab => exact h _ _ hab
    | tail _ hbc ih => exact Nat.lt_trans (h _ _ hbc) ih
  exact Nat.lt_irrefl _ (hlower a ha)

variable {R : Handle kind → Handle kind → Prop}

lemma length_le {handles : List (Handle kind)} (hnodup : handles.Nodup)
    (hinside : ∀ h ∈ handles, h.index < size) : handles.length ≤ size := by
  have hindices : (handles.map Handle.index).Nodup :=
    List.Pairwise.map Handle.index (fun _ _ hne h => hne (congrArg Handle.mk h)) hnodup
  have hsubset : handles.map Handle.index ⊆ range size := by
    intro n hn
    obtain ⟨h, hh, rfl⟩ := mem_map.1 hn
    exact mem_range.2 (hinside h hh)
  have hlength := (hindices.subperm hsubset).length_le
  rwa [length_map, length_range] at hlength

lemma descend (hR : Acyclic R) (hsize : ∀ h c, R h c → h.index < size)
    {P : (ι → Nat) → Handle kind → Prop}
    (succ : ∀ n h, (∀ c, R h c → P n c) → P (fun i => n i + 1) h) {n : ι → Nat}
    (hn : ∀ i, size < n i) (h : Handle kind) : P n h := by
  -- the handles on the way here differ from each other, so that there is a level left for each that
  -- is missing
  have hmain : ∀ missing n h (way : List (Handle kind)), way.Nodup →
      (∀ w ∈ way, w.index < size ∧ Relation.TransGen R w h) → size < way.length + missing →
      (∀ i, missing ≤ n i) → P n h := by
    intro missing
    induction missing with
    | zero =>
      intro n h way hnodup hway hlength
      exact absurd (length_le hnodup fun w hw => (hway w hw).1) (Nat.not_le.2 hlength)
    | succ missing ih =>
      intro n h way hnodup hway hlength hn
      have hpred : n = fun i => n i - 1 + 1 :=
        funext fun i => (Nat.sub_add_cancel (Nat.one_le_of_lt (hn i))).symm
      rw [hpred]
      refine succ _ h fun c hc => ih _ c (h :: way) ?_ ?_ (by grind) fun i =>
        Nat.le_sub_one_of_lt (hn i)
      · exact nodup_cons.2 ⟨fun hh => hR h (hway h hh).2, hnodup⟩
      · refine forall_mem_cons.2 ⟨⟨hsize h c hc, .single hc⟩, fun w hw => ?_⟩
        exact ⟨(hway w hw).1, (hway w hw).2.tail hc⟩
  exact hmain (size + 1) n h [] nodup_nil nofun (by simp) hn

end Acyclic

end Shader.IR
