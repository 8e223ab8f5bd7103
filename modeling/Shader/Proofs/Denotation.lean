import Shader.Proofs.Body
import Shader.Proofs.Outcome

/-!
# The ids that types of a program stand for

The tables of a module tell which id a type of the program has, if it was declared: what it is made
of has ids, and its structure over these has one (`Denotes`).  A type has at most one id, and keeps
it while the module is built.  An id that emission keeps for a type is the one it has
(`Progress.Keyed`).
-/

namespace Shader.Emit

open Assembly
open IR (TypeShape StructMember)

/-! ### Errors outside functions -/

variable {α : Type}

lemma emitIR_eq_ok {x : Except IR.Error α} {p p' : Progress} {a : α} :
    (liftM x : EmitM α) p = .ok a p' ↔ x = .ok a ∧ p = p' := by
  cases x with
  | ok b => exact ok_eq_ok
  | error e => exact ⟨nofun, nofun⟩

lemma emitFault_eq_ok {x : Except Fault α} {p p' : Progress} {a : α} :
    (liftM x : EmitM α) p = .ok a p' ↔ x = .ok a ∧ p = p' := by
  cases x with
  | ok b => exact ok_eq_ok
  | error e => exact ⟨nofun, nofun⟩

/-! ### Strides -/

/-- The layout is that of a member of a struct, up to its type. -/
structure LaysOut (m : IR.Module) (member : StructMember) (layout : MemberLayout) : Prop where
  name : layout.name = member.name
  offset : layout.offset = member.offset
  stride : ∃ depth, matrixStrideWithin m depth member.type = .ok layout.matrixStride

/-! ### What a type stands for -/

/-- The type of the program has the id in the tables of a module. -/
inductive Denotes (m : IR.Module) (options : Options) (types : List (TypeKey × Id)) :
    Handle .type → Id → Prop where
  | scalar {id : Id} :
      m.types.get? h = some ⟨name, .scalar scalar⟩ → types.lookup (.scalar scalar) = some id →
      Denotes m options types h id
  /-- Atomics become their scalars. -/
  | atomic {id : Id} :
      m.types.get? h = some ⟨name, .atomic scalar⟩ → types.lookup (.scalar scalar) = some id →
      Denotes m options types h id
  | vector {id : Id} : m.types.get? h = some ⟨name, .vector size scalar⟩ →
      types.lookup (.vector scalar size.toWord) = some id → Denotes m options types h id
  | matrix {id : Id} : m.types.get? h = some ⟨name, .matrix columns rows scalar⟩ →
      types.lookup (.matrix columns.toWord rows.toWord scalar) = some id →
      Denotes m options types h id
  | pointer {b id : Id} : m.types.get? h = some ⟨name, .pointer base space⟩ →
      Denotes m options types base b → types.lookup (.pointer (options.storageClass space) b) =
      some id → Denotes m options types h id
  | array {length stride : UInt32} {b id : Id} :
      m.types.get? h = some ⟨name, .array base (.fixed length) stride⟩ →
      Denotes m options types base b → types.lookup (.array b length stride) = some id →
      Denotes m options types h id
  | runtimeArray {b id : Id} :
      m.types.get? h = some ⟨name, .array base .runtime stride⟩ → Denotes m options types base b →
      types.lookup (.runtimeArray b stride) = some id → Denotes m options types h id
  | struct {span : UInt32} {id : Id} : m.types.get? h = some ⟨name, .struct members span⟩ →
      layouts.length = members.length →
      (∀ (k : Nat) (member : StructMember) (layout : MemberLayout), members[k]? = some member →
        layouts[k]? = some layout → Denotes m options types member.type layout.type) →
      (∀ (k : Nat) (member : StructMember) (layout : MemberLayout), members[k]? = some member →
        layouts[k]? = some layout → LaysOut m member layout) →
      types.lookup (.struct ⟨name, layouts, none⟩) = some id → Denotes m options types h id

section

variable {m : IR.Module} {options : Options} {types types' : List (TypeKey × Id)}
    {h : Handle .type} {id : Id}

lemma Denotes.mono (hid : Denotes m options types h id)
    (htypes : ∀ key id, types.lookup key = some id → types'.lookup key = some id) :
    Denotes m options types' h id := by
  induction hid with
  | scalar hget hlookup => exact .scalar hget (htypes _ _ hlookup)
  | atomic hget hlookup => exact .atomic hget (htypes _ _ hlookup)
  | vector hget hlookup => exact .vector hget (htypes _ _ hlookup)
  | matrix hget hlookup => exact .matrix hget (htypes _ _ hlookup)
  | pointer hget _ hlookup ih => exact .pointer hget ih (htypes _ _ hlookup)
  | array hget _ hlookup ih => exact .array hget ih (htypes _ _ hlookup)
  | runtimeArray hget _ hlookup ih => exact .runtimeArray hget ih (htypes _ _ hlookup)
  | struct hget hlength _ hlays hlookup ih =>
    exact .struct hget hlength ih hlays (htypes _ _ hlookup)

lemma Denotes.lookup (hid : Denotes m options types h id) : ∃ key, types.lookup key = some id ∧
    ∀ members span, (∃ name, m.types.get? h = some ⟨name, .struct members span⟩) →
      ∃ layout, key = .struct layout := by
  cases hid with
  | struct hget _ _ _ hlookup => exact ⟨_, hlookup, fun _ _ _ => ⟨_, rfl⟩⟩
  | scalar hget hlookup | atomic hget hlookup | vector hget hlookup | matrix hget hlookup
  | pointer hget _ hlookup | array hget _ hlookup | runtimeArray hget _ hlookup =>
    exact ⟨_, hlookup, fun _ _ ⟨_, hget'⟩ => by cases hget.symm.trans hget'⟩

end

/-- The ids that are kept for types are those they have. -/
def Progress.Keyed (m : IR.Module) (options : Options) (p : Progress) : Prop :=
  ∀ h id, p.types.get? h = some id → Denotes m options p.assembly.types h id

section

variable {m : IR.Module} {options : Options} {p p' : Progress} {L : Law} {h t : Handle .type}

lemma Denotes.reaches {a a' : Assembly.Module} {id : Id} (hid : Denotes m options a.types h id)
    (hreaches : a.Reaches L a') : Denotes m options a'.types h id :=
  hid.mono fun _ _ => hreaches.lookup_types

lemma Progress.Keyed.reaches (h : p.Keyed m options) (hreaches : p.assembly.Reaches L p'.assembly)
    (htypes : p'.types = p.types) : p'.Keyed m options :=
  fun t id hid => (h t id (htypes ▸ hid)).reaches hreaches

lemma Progress.Keyed.set (h : p.Keyed m options) {id : Id}
    (hid : Denotes m options p.assembly.types t id) :
    Progress.Keyed m options { p with types := p.types.set t (some id) } := by
  intro t' id' hget
  rcases Slots.get?_set_cases hget with ⟨rfl, rfl⟩ | hold
  · exact hid
  · exact h t' id' hold

end

end Shader.Emit
