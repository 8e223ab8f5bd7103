import Mathlib.Tactic.Set
import Mathlib.Tactic.Tauto
import Shader.Assembly.Declaration

/-!
# What declarations leave alone

Declaring a type or a constant never touches the functions of a module, finished or not.  It
only issues ids and adds to the tables of what is declared; an id in these tables was there
before or is new.  The id that a declaration answers with is in the tables.
-/

namespace Shader.Assembly

open List
open IR (Scalar Literal)

variable {key : TypeKey} {m m₃ : Module} {id x : Id} {α β : Type}

namespace Module

/-- The id is in one of the tables of what is declared. -/
def Declared (m : Module) (id : Id) : Prop :=
  (∃ key, (key, id) ∈ m.types) ∨ (∃ key, (key, id) ∈ m.constants) ∨ id ∈ m.specializations ∨
    m.mathImport = some id

/-- `m'` is `m` with more declarations. -/
structure Extends (m m' : Module) : Prop where
  draft : m'.draft = m.draft
  functions : m'.functions = m.functions
  bound : m.bound ≤ m'.bound
  fresh : ∀ id, m'.Declared id → m.Declared id ∨ (m.bound ≤ id.number ∧ id.number < m'.bound)

lemma Extends.refl (m : Module) : m.Extends m := ⟨rfl, rfl, Nat.le_refl _, fun _ h => .inl h⟩

lemma Extends.trans {m₁ m₂ : Module} (h : m₁.Extends m₂) (h' : m₂.Extends m₃) : m₁.Extends m₃ where
  draft := h'.draft.trans h.draft
  functions := h'.functions.trans h.functions
  bound := Nat.le_trans h.bound h'.bound
  fresh id hid := by
    rcases h'.fresh id hid with hid | ⟨hl, hu⟩
    · rcases h.fresh id hid with hid | ⟨hl, hu⟩
      · exact .inl hid
      · exact .inr ⟨hl, Nat.lt_of_lt_of_le hu h'.bound⟩
    · exact .inr ⟨Nat.le_trans h.bound hl, hu⟩

lemma declared_enter_type :
    ({ m with types := (key, id) :: m.types } : Module).Declared x ↔ m.Declared x ∨ x = id := by
  simp only [Declared, mem_cons, Prod.mk.injEq, exists_or, exists_eq_left]
  tauto

lemma declared_enter_constant {key : ConstantKey} :
      ({ m with constants := (key, id) :: m.constants } : Module).Declared x ↔
      m.Declared x ∨ x = id := by
  simp only [Declared, mem_cons, Prod.mk.injEq, exists_or, exists_eq_left]
  tauto

lemma declared_enter_specialization :
    ({ m with specializations := id :: m.specializations } : Module).Declared x ↔
    m.Declared x ∨ x = id := by
  simp only [Declared, mem_cons]
  tauto

lemma declared_of_isConstant (h : m.isConstant id) : m.Declared id := by
  simp only [isConstant, any_eq_true, beq_iff_eq] at h
  obtain ⟨⟨key, id'⟩, hmem, rfl⟩ := h
  exact .inr (.inl ⟨key, hmem⟩)

lemma declared_of_isSpecialization (h : m.isSpecialization id) : m.Declared id :=
  .inr (.inr (.inl (by simpa [isSpecialization] using h)))

end Module

/-! ### Extending -/

/-- The step only declares. -/
def Extending {α : Type} (act : DeclareM α) : Prop := ∀ m : Module, m.Extends (act m).2

/-- The step only declares, and answers with an id that is declared. -/
def Declaring (act : DeclareM Id) :
    Prop := ∀ m : Module, m.Extends (act m).2 ∧ (act m).2.Declared (act m).1

lemma bind_apply (act : DeclareM α) (next : α → DeclareM β) (m : Module) :
    (act >>= next) m = next (act m).1 (act m).2 := rfl

lemma get_apply (m : Module) : (get : DeclareM Module) m = (m, m) := rfl

lemma Declaring.extending (h : Declaring act) : Extending act :=
  fun m => (h m).1

namespace Extending

protected lemma bind {act : DeclareM α} {next : α → DeclareM β} (h : Extending act)
    (h' : ∀ a, Extending (next a)) : Extending (act >>= next) :=
  fun m => (h m).trans (h' (act m).1 (act m).2)

end Extending

/-! ### Steps made of others -/

/-- How an id is decorated. -/
abbrev Adornment := List (Decoration × Option UInt32)

/-- The decoration of the number of a sample, which needs a capability. -/
def sampleNumber : Decoration × Option UInt32 := (.builtIn, some BuiltInVariable.sampleId.word)

/-- Decorates an id. -/
def adorn (id : Id) (ds : Adornment) : DeclareM Unit :=
  ds.forM fun d => do
    if d = sampleNumber then
      requireCapability .sampleRateShading
    pushTo .annotations (.decorate id d.1 d.2.toList)

/-- A property that what is made of steps has if they have it, and that those steps have which name
an id and tell how it is laid out. -/
structure Notes (P : ∀ {α : Type}, DeclareM α → Prop) (id : Id) : Prop where
  pure : ∀ {α : Type} (a : α), P (pure a)
  bind : ∀ {α β : Type} {act : DeclareM α} {next : α → DeclareM β}, P act → (∀ a, P (next a)) →
    P (act >>= next)
  name : ∀ name, P (pushName (.name id name))
  memberName : ∀ index name, P (pushName (.memberName id index name))
  stride : ∀ stride, P (pushTo .annotations (.decorate id .arrayStride [stride]))
  member : ∀ index d {words : List UInt32}, words.length ≤ 1 →
    P (pushTo .annotations (.memberDecorate id index d words))

/-- The same, for steps that decorate the id in any way. -/
structure Adorns (P : ∀ {α : Type}, DeclareM α → Prop) (id : Id) : Prop extends Notes P id where
  capability : ∀ c, P (requireCapability c)
  decorate : ∀ d {words : List UInt32}, words.length ≤ 1 →
    P (pushTo .annotations (.decorate id d words))

lemma Adorns.adorn {P : ∀ {α : Type}, DeclareM α → Prop} (h : Adorns P id) (ds : Adornment) :
    P (adorn id ds) := by
  induction ds with
  | nil => exact h.pure ()
  | cons d ds ih =>
    have hd : d.2.toList.length ≤ 1 := by cases d.2 <;> simp
    refine h.bind ?_ fun _ => ih
    dsimp only
    split
    · exact h.bind (h.capability _) fun _ => h.decorate _ hd
    · exact h.decorate _ hd

namespace Notes

variable {P : ∀ {α : Type}, DeclareM α → Prop} (h : Notes P id)
include h

lemma nameTarget (name : Option String) : P (nameTarget id name) := by
  cases name with
  | none => exact h.pure ()
  | some name => exact h.name name

lemma memberName? (index : UInt32) (name : Option String) : P (do
    if let some name := name then
      pushName (.memberName id index name)) := by
  cases name with
  | none => exact h.pure ()
  | some name => exact h.memberName index name

lemma decorateMember (index : UInt32) (member : MemberLayout) :
    P (decorateMember id index member) := by
  have hname := h.memberName? index member.name
  refine h.bind (h.member _ _ (by simp)) fun _ => ?_
  cases member.matrixStride with
  | none => exact hname
  | some stride =>
    exact h.bind (h.member _ _ (by simp)) fun _ => h.bind (h.member _ _ (by simp)) fun _ => hname

lemma decorateMembers (members : List MemberLayout) :
    ∀ index, P (decorateMembers id index members) := by
  induction members with
  | nil => exact fun _ => h.pure ()
  | cons member rest ih => exact fun index => h.bind (h.decorateMember _ _) fun _ => ih (index + 1)

lemma decorateType
    (hblock : ∀ layout d, key = .struct layout → layout.block = some d → P (decorateBlock id d)) :
    P (decorateType id key) := by
  have hstride (stride : UInt32) : P (decorateStride id stride) := by
    unfold decorateStride
    split
    · exact h.pure ()
    · exact h.stride _
  cases key with
  | array element length stride => exact hstride stride
  | runtimeArray element stride => exact hstride stride
  | struct layout =>
    have hrest := h.bind (h.decorateMembers layout.members 0) fun _ => h.nameTarget layout.name
    show P (decorateStruct id layout)
    unfold decorateStruct
    cases hlayout : layout.block with
    | none => exact hrest
    | some d => exact h.bind (hblock layout d rfl hlayout) fun _ => hrest
  | _ => exact h.pure ()

end Notes

/-! ### Lookups -/

lemma mem_of_lookup {key : α} [DecidableEq α] {table : List (α × β)}
    (h : table.lookup key = some value) :
    (key, value) ∈ table := by
  induction table with
  | nil => cases h
  | cons entry rest ih =>
    obtain ⟨k, v⟩ := entry
    simp only [lookup_cons] at h
    split at h
    · rename_i hk
      cases h
      obtain rfl := beq_iff_eq.1 hk
      exact mem_cons_self
    · exact mem_cons_of_mem _ (ih h)

end Shader.Assembly
