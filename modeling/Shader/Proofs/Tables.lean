import Shader.Proofs.Ledger

/-!
# The tables of types and constants

A module remembers in tables what it declared and under which id.  The tables are tidy: neither a
key nor an id occurs twice, and all ids in them were issued.  They only grow, and what enters them
has a new id (`Enters`), so that a key that was found once is found under the same id ever after,
and an id that was issued never changes what it stands for.
-/

namespace Shader.Assembly

open List
open IR (Scalar Literal)

variable {α : Type} {a b id : Id} {key : TypeKey} {m : Module}

/-! ### Tables with keys -/

section

variable {β : Type} [DecidableEq α] {table new : List (α × β)} {key key' : α} {value value' : β}

lemma not_mem_keys_of_lookup (h : table.lookup key = none) : key ∉ table.map Prod.fst := by
  intro hmem
  obtain ⟨⟨k, v⟩, hkv, rfl⟩ := mem_map.1 hmem
  have hne := lookup_eq_none_iff.1 h _ hkv
  simp at hne

lemma lookup_of_mem (hkeys : (table.map Prod.fst).Nodup) (h : (key, value) ∈ table) :
    table.lookup key = some value := by
  induction table with
  | nil => cases h
  | cons entry rest ih =>
    obtain ⟨k, v⟩ := entry
    obtain ⟨hk, hrest⟩ := nodup_cons.1 hkeys
    rcases mem_cons.1 h with heq | hmem
    · cases heq
      exact lookup_cons_self
    · have hne : key ≠ k := by
        rintro rfl
        exact hk (mem_map.2 ⟨_, hmem, rfl⟩)
      rw [lookup_cons, beq_false_of_ne hne]
      exact ih hrest hmem

lemma lookup_append_of_lookup (hkeys : ((new ++ table).map Prod.fst).Nodup)
    (h : table.lookup key = some value) : (new ++ table).lookup key = some value :=
  lookup_of_mem hkeys (mem_append_right _ (mem_of_lookup h))

/-- Where neither a key nor a value occurs twice, values are equal exactly when their keys are. -/
lemma value_eq_iff (hvalues : (table.map Prod.snd).Nodup) (h : table.lookup key = some value)
    (h' : table.lookup key' = some value') : value = value' ↔ key = key' := by
  constructor
  · rintro rfl
    exact congrArg Prod.fst (inj_on_of_nodup_map hvalues (mem_of_lookup h) (mem_of_lookup h') rfl)
  · rintro rfl
    exact Option.some.inj (h.symm.trans h')

end

/-! ### Tidy tables -/

/-- The tables of a module, and the bound of the ids in them. -/
structure Tables where
  bound : Nat
  types : List (TypeKey × Id)
  constants : List (ConstantKey × Id)
  specializations : List Id

def Module.tables (m : Module) : Tables := ⟨m.bound, m.types, m.constants, m.specializations⟩

variable {t' t₃ : Tables}

namespace Tables

/-- All ids in the tables. -/
def ids (t : Tables) :
    List Id := t.types.map Prod.snd ++ (t.constants.map Prod.snd ++ t.specializations)

/-- Nothing occurs twice, and every id was issued. -/
structure Tidy (t : Tables) : Prop where
  ids : t.ids.Nodup
  bounded : ∀ id ∈ t.ids, id.number < t.bound
  typeKeys : (t.types.map Prod.fst).Nodup
  constantKeys : (t.constants.map Prod.fst).Nodup

/-- The tables grow, and what enters them has a new id. -/
structure Enters (t t' : Tables) : Prop where
  bound : t.bound ≤ t'.bound
  types : ∃ new, t'.types = new ++ t.types ∧ ∀ e ∈ new, t.bound ≤ e.2.number
  constants : ∃ new, t'.constants = new ++ t.constants ∧ ∀ e ∈ new, t.bound ≤ e.2.number
  specializations : ∃ new, t'.specializations = new ++ t.specializations ∧ ∀ id ∈ new,
    t.bound ≤ id.number

lemma Enters.refl (t : Tables) : t.Enters t :=
  ⟨Nat.le_refl _, ⟨[], rfl, forall_mem_nil _⟩, ⟨[], rfl, forall_mem_nil _⟩,
    ⟨[], rfl, forall_mem_nil _⟩⟩

lemma exists_added_trans {f : α → Nat} {b b' : Nat} {l l' l'' : List α} (hb : b ≤ b')
    (h : ∃ new, l' = new ++ l ∧ ∀ e ∈ new, b ≤ f e)
    (h' : ∃ new, l'' = new ++ l' ∧ ∀ e ∈ new, b' ≤ f e) :
    ∃ new, l'' = new ++ l ∧ ∀ e ∈ new, b ≤ f e := by
  obtain ⟨new, rfl, hnew⟩ := h
  obtain ⟨new', rfl, hnew'⟩ := h'
  refine ⟨new' ++ new, (append_assoc _ _ _).symm, forall_mem_append.2 ⟨?_, hnew⟩⟩
  exact fun e he => Nat.le_trans hb (hnew' e he)

lemma Enters.trans {t₁ t₂ : Tables} (h : t₁.Enters t₂) (h' : t₂.Enters t₃) : t₁.Enters t₃ where
  bound := Nat.le_trans h.bound h'.bound
  types := exists_added_trans h.bound h.types h'.types
  constants := exists_added_trans h.bound h.constants h'.constants
  specializations := exists_added_trans h.bound h.specializations h'.specializations

namespace Tidy

variable {t : Tables}

lemma typeIds (h : t.Tidy) : (t.types.map Prod.snd).Nodup := (nodup_append.1 h.ids).1

lemma constantIds (h : t.Tidy) : (t.constants.map Prod.snd).Nodup :=
  (nodup_append.1 (nodup_append.1 h.ids).2.1).1

lemma type_ne_constant (h : t.Tidy) (ha : a ∈ t.types.map Prod.snd)
    (hb : b ∈ t.constants.map Prod.snd) :
    a ≠ b :=
  (nodup_append.1 h.ids).2.2 a ha b (mem_append_left _ hb)

lemma type_ne_specialization (h : t.Tidy) (ha : a ∈ t.types.map Prod.snd)
    (hb : b ∈ t.specializations) :
    a ≠ b :=
  (nodup_append.1 h.ids).2.2 a ha b (mem_append_right _ hb)

lemma constant_ne_specialization (h : t.Tidy) (ha : a ∈ t.constants.map Prod.snd)
    (hb : b ∈ t.specializations) : a ≠ b :=
  (nodup_append.1 (nodup_append.1 h.ids).2.1).2.2 a ha b hb

lemma lookup_types (h : t'.Tidy) (henters : t.Enters t') (hlookup : t.types.lookup key = some id) :
    t'.types.lookup key = some id := by
  obtain ⟨new, hnew, -⟩ := henters.types
  rw [hnew]
  exact lookup_append_of_lookup (hnew ▸ h.typeKeys) hlookup

lemma lookup_constants (h : t'.Tidy) (henters : t.Enters t') {key : ConstantKey}
    (hlookup : t.constants.lookup key = some id) : t'.constants.lookup key = some id := by
  obtain ⟨new, hnew, -⟩ := henters.constants
  rw [hnew]
  exact lookup_append_of_lookup (hnew ▸ h.constantKeys) hlookup

end Tidy

lemma Enters.mem_constants {t : Tables} (h : t.Enters t') {key : ConstantKey}
    (hid : id.number < t.bound) :
    (key, id) ∈ t'.constants ↔ (key, id) ∈ t.constants := by
  obtain ⟨new, hnew, hfresh⟩ := h.constants
  rw [hnew, mem_append]
  refine ⟨fun hmem => hmem.resolve_left fun hmem => ?_, .inr⟩
  exact absurd (hfresh _ hmem) (Nat.not_le.2 hid)

lemma Enters.mem_specializations {t : Tables} (h : t.Enters t') (hid : id.number < t.bound) :
    id ∈ t'.specializations ↔ id ∈ t.specializations := by
  obtain ⟨new, hnew, hfresh⟩ := h.specializations
  rw [hnew, mem_append]
  refine ⟨fun hmem => hmem.resolve_left fun hmem => ?_, .inr⟩
  exact absurd (hfresh _ hmem) (Nat.not_le.2 hid)

/-! ### What enters the tables -/

variable (t : Tables)

/-- A new id is issued. -/
def issue : Tables := { t with bound := t.bound + 1 }

/-- A new type. -/
def enterType (key : TypeKey) : Tables :=
  { t with bound := t.bound + 1, types := (key, ⟨t.bound⟩) :: t.types }

/-- A new constant. -/
def enterConstant (key : ConstantKey) : Tables :=
  { t with bound := t.bound + 1, constants := (key, ⟨t.bound⟩) :: t.constants }

/-- A new constant that can be specialized. -/
def enterSpecialization : Tables :=
  { t with bound := t.bound + 1, specializations := ⟨t.bound⟩ :: t.specializations }

variable {t}

lemma Tidy.fresh (h : t.Tidy) : (⟨t.bound⟩ : Id) ∉ t.ids :=
  fun hmem => Nat.lt_irrefl _ (h.bounded _ hmem)

lemma Tidy.bounded_cons (h : t.Tidy) (ids : List Id) (hids : ids.Perm (⟨t.bound⟩ :: t.ids)) :
    ids.Nodup ∧ ∀ id ∈ ids, id.number < t.bound + 1 := by
  refine ⟨hids.nodup_iff.2 (nodup_cons.2 ⟨h.fresh, h.ids⟩), fun id hid => ?_⟩
  rcases mem_cons.1 (hids.mem_iff.1 hid) with rfl | hid
  · exact Nat.lt_succ_self _
  · exact Nat.lt_succ_of_lt (h.bounded id hid)

lemma Tidy.issue (h : t.Tidy) : t.issue.Tidy :=
  { h with bounded := fun id hid => Nat.lt_succ_of_lt (h.bounded id hid) }

lemma enters_issue (t : Tables) : t.Enters t.issue := { Enters.refl t with bound := Nat.le_succ _ }

lemma Tidy.enterType (h : t.Tidy) (hkey : t.types.lookup key = none) : (t.enterType key).Tidy := by
  obtain ⟨hnodup, hbounded⟩ := h.bounded_cons (t.enterType key).ids (.refl _)
  exact ⟨hnodup, hbounded, nodup_cons.2 ⟨not_mem_keys_of_lookup hkey, h.typeKeys⟩, h.constantKeys⟩

lemma enters_enterType (t : Tables) (key : TypeKey) : t.Enters (t.enterType key) :=
  { Enters.refl t with
    bound := Nat.le_succ _
    types := ⟨[_], rfl, forall_mem_singleton.2 (Nat.le_refl _)⟩ }

lemma Tidy.enterConstant (h : t.Tidy) {key : ConstantKey} (hkey : t.constants.lookup key = none) :
    (t.enterConstant key).Tidy := by
  obtain ⟨hnodup, hbounded⟩ := h.bounded_cons (t.enterConstant key).ids perm_middle
  exact ⟨hnodup, hbounded, h.typeKeys, nodup_cons.2 ⟨not_mem_keys_of_lookup hkey, h.constantKeys⟩⟩

lemma enters_enterConstant (t : Tables) (key : ConstantKey) : t.Enters (t.enterConstant key) :=
  { Enters.refl t with
    bound := Nat.le_succ _
    constants := ⟨[_], rfl, forall_mem_singleton.2 (Nat.le_refl _)⟩ }

lemma Tidy.enterSpecialization (h : t.Tidy) : t.enterSpecialization.Tidy := by
  obtain ⟨hnodup, hbounded⟩ := h.bounded_cons t.enterSpecialization.ids
    (((Perm.refl _).append perm_middle).trans perm_middle)
  exact ⟨hnodup, hbounded, h.typeKeys, h.constantKeys⟩

lemma enters_enterSpecialization (t : Tables) : t.Enters t.enterSpecialization :=
  { Enters.refl t with
    bound := Nat.le_succ _
    specializations := ⟨[_], rfl, forall_mem_singleton.2 (Nat.le_refl _)⟩ }

end Tables

/-! ### Types by their structure -/

section

variable {declarator : DeclareM Declarator}

lemma internType_of_lookup (h : m.types.lookup key = some id) :
    internType key declarator m = (id, m) := by
  simp only [internType, bind_apply, get_apply, h]
  rfl

/-- The declaration of a new type. -/
def Declarator.instruction (d : Declarator) (id : Id) :
    Instruction := ⟨d.opcode, .id id :: d.operands⟩

lemma lookup_internType (key : TypeKey) (declarator : DeclareM Declarator) (m : Module) :
    (internType key declarator m).2.types.lookup key = some (internType key declarator m).1 := by
  cases h : m.types.lookup key with
  | some id =>
    rw [internType_of_lookup h]
    exact h
  | none =>
    simp only [internType, bind_apply, get_apply, h]
    exact lookup_cons_self

end

lemma lookup_typeId (key : TypeKey) (m : Module) :
    (typeId key m).2.types.lookup key = some (typeId key m).1 := by
  cases key <;> exact lookup_internType _ _ m

lemma typeId_of_lookup (h : m.types.lookup key = some id) : typeId key m = (id, m) := by
  cases key <;> exact internType_of_lookup h

/-! ### Constants -/

section

variable {type : Id} {value : ConstantValue}

lemma constant_of_lookup (h : m.constants.lookup ⟨type, m.normalize value⟩ = some id) :
    constant type value m = (id, m) := by
  simp only [constant, bind_apply, get_apply, h]
  rfl

lemma lookup_constant (type : Id) (value : ConstantValue) (m : Module) :
    (constant type value m).2.constants.lookup ⟨type, m.normalize value⟩ =
      some (constant type value m).1 := by
  cases h : m.constants.lookup ⟨type, m.normalize value⟩ with
  | some id =>
    rw [constant_of_lookup h]
    exact h
  | none =>
    simp only [constant, bind_apply, get_apply, h]
    exact lookup_cons_self

end

lemma mem_specialization (literal : Literal) (m : Module) :
    (specialization literal m).1 ∈ (specialization literal m).2.specializations := mem_cons_self

/-! ### What ids stand for -/

lemma isConstant_iff :
    m.isConstant id ↔ ∃ key, (key, id) ∈ m.constants := by simp [Module.isConstant]

lemma isNull_iff : m.isNull id ↔ ∃ type, (⟨type, .null⟩, id) ∈ m.constants := by
  simp only [Module.isNull, any_eq_true, Bool.and_eq_true, beq_iff_eq, Prod.exists]
  constructor
  · rintro ⟨⟨type, value⟩, id', hmem, rfl, rfl⟩
    exact ⟨type, hmem⟩
  · rintro ⟨type, hmem⟩
    exact ⟨_, id, hmem, rfl, rfl⟩

section

variable {m' : Module}

section

variable (h : m.tables.Enters m'.tables) (hid : id.number < m.bound)
include h hid

lemma Tables.Enters.isConstant : m'.isConstant id = m.isConstant id := by
  rw [Bool.eq_iff_iff, isConstant_iff, isConstant_iff]
  exact exists_congr fun key => h.mem_constants hid

lemma Tables.Enters.isNull : m'.isNull id = m.isNull id := by
  rw [Bool.eq_iff_iff, isNull_iff, isNull_iff]
  exact exists_congr fun type => h.mem_constants hid

lemma Tables.Enters.isSpecialization : m'.isSpecialization id = m.isSpecialization id := by
  simp only [Module.isSpecialization, contains_eq_mem, decide_eq_decide]
  exact h.mem_specializations hid

end

end

end Shader.Assembly
