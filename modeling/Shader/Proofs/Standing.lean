import Shader.Proofs.Change

/-!
# What ids stand for

What becomes of a function depends on an id only in so far as it stands for a constant, for a
constant that can be specialized, or for neither (`Standing`).  Every declaration answers with an id
of one standing, whatever was declared before (`Assigns`), and an id keeps its standing.
-/

namespace Shader.Assembly

open List
open IR (Scalar Literal)

/-- What emission asks of an id: whether it is a constant, and whether it can be specialized. -/
structure Standing where
  constant : Bool
  specialization : Bool
deriving DecidableEq

namespace Standing

def plain : Standing := ⟨false, false⟩

def fixed : Standing := ⟨true, false⟩

def adjustable : Standing := ⟨false, true⟩

end Standing

namespace Module

def standing (m : Module) (id : Id) : Standing := ⟨m.isConstant id, m.isSpecialization id⟩

/-- The id was issued, and has the given standing. -/
structure Holds (m : Module) (id : Id) (s : Standing) : Prop where
  issued : id.number < m.bound
  standing : m.standing id = s

/-- The tables are tidy, and the extended set of mathematical functions is not in them. -/
structure Orderly (m : Module) : Prop where
  tidy : m.tables.Tidy
  mathImport : ∀ id, m.mathImport = some id → m.Holds id .plain

end Module

section

variable {m m' : Module} {id : Id} {s : Standing}

lemma Tables.Enters.holds (h : m.tables.Enters m'.tables) (hid : m.Holds id s) : m'.Holds id s where
  issued := Nat.lt_of_lt_of_le hid.issued h.bound
  standing := by
    rw [← hid.standing]
    unfold Module.standing
    rw [h.isConstant hid.issued, h.isSpecialization hid.issued]

lemma isSpecialization_eq_false (h : id ∉ m.specializations) : m.isSpecialization id = false := by
  simpa only [Module.isSpecialization, contains_eq_mem, decide_eq_false_iff_not] using h

lemma Tables.Tidy.holds_type (h : m.tables.Tidy) (hmem : (key, id) ∈ m.types) :
    m.Holds id .plain := by
  have hid : id ∈ m.tables.types.map Prod.snd := mem_map.2 ⟨_, hmem, rfl⟩
  refine ⟨h.bounded id (mem_append_left _ hid), ?_⟩
  have hconstant : m.isConstant id = false := by
    rw [← Bool.not_eq_true, isConstant_iff]
    rintro ⟨key', hmem'⟩
    exact h.type_ne_constant hid (mem_map.2 ⟨_, hmem', rfl⟩) rfl
  have hspecialization := isSpecialization_eq_false fun hmem' =>
    h.type_ne_specialization hid hmem' rfl
  unfold Module.standing
  rw [hconstant, hspecialization]
  rfl

lemma Tables.Tidy.holds_constant (h : m.tables.Tidy) (hmem : (key, id) ∈ m.constants) :
    m.Holds id .fixed := by
  have hid : id ∈ m.tables.constants.map Prod.snd := mem_map.2 ⟨_, hmem, rfl⟩
  refine ⟨h.bounded id (mem_append_right _ (mem_append_left _ hid)), ?_⟩
  have hspecialization := isSpecialization_eq_false fun hmem' =>
    h.constant_ne_specialization hid hmem' rfl
  unfold Module.standing
  rw [isConstant_iff.2 ⟨key, hmem⟩, hspecialization]
  rfl

lemma Tables.Tidy.holds_specialization (h : m.tables.Tidy) (hmem : id ∈ m.specializations) :
    m.Holds id .adjustable := by
  refine ⟨h.bounded id (mem_append_right _ (mem_append_right _ hmem)), ?_⟩
  have hconstant : m.isConstant id = false := by
    rw [← Bool.not_eq_true, isConstant_iff]
    rintro ⟨key, hmem'⟩
    exact h.constant_ne_specialization (mem_map.2 ⟨_, hmem', rfl⟩) hmem rfl
  have hspecialization : m.isSpecialization id = true := by
    simpa only [Module.isSpecialization, contains_eq_mem, decide_eq_true_eq] using hmem
  unfold Module.standing
  rw [hconstant, hspecialization]
  rfl

lemma Tables.Tidy.standing_new (h : m.tables.Tidy) (hid : m.bound ≤ id.number) :
    m.standing id = .plain := by
  have hnew : id ∉ m.tables.ids := fun hmem => Nat.not_lt.2 hid (h.bounded id hmem)
  have hconstant : m.isConstant id = false := by
    rw [← Bool.not_eq_true, isConstant_iff]
    rintro ⟨key, hmem⟩
    exact hnew (mem_append_right _ (mem_append_left _ (mem_map.2 ⟨_, hmem, rfl⟩)))
  have hspecialization := isSpecialization_eq_false fun hmem =>
    hnew (mem_append_right _ (mem_append_right _ hmem))
  unfold Module.standing
  rw [hconstant, hspecialization]
  rfl

end

/-! ### Orderly steps -/

/-- What an orderly step leaves behind. -/
structure Module.Adds (m m' : Module) : Prop where
  orderly : m'.Orderly
  enters : m.tables.Enters m'.tables
  draft : m'.draft = m.draft

/-- The step adds declarations, and keeps the module orderly. -/
def Adding {α : Type} (act : DeclareM α) : Prop := ∀ m : Module, m.Orderly → m.Adds (act m).2

/-- The step answers with an id of the given standing. -/
def Assigns (act : DeclareM Id) (s : Standing) : Prop :=
  Adding act ∧ ∀ m : Module, m.Orderly → (act m).2.Holds (act m).1 s

lemma Module.Adds.trans {m₁ m₂ : Module} (h : m₁.Adds m₂) (h' : m₂.Adds m₃) : m₁.Adds m₃ :=
  ⟨h'.orderly, h.enters.trans h'.enters, h'.draft.trans h.draft⟩

/-- Everything but the import of mathematical functions, and to change functions. -/
def Law.importless : Law := { imports := False, drafts := False }

lemma Adding.of (hchanges : Changes .importless act) : Adding act := by
  intro m hm
  obtain ⟨htidy, henters⟩ := (hchanges m).tidy hm.tidy
  refine ⟨⟨htidy, fun id hid => ?_⟩, henters, ((hchanges m).extends_of not_false).draft⟩
  rw [(hchanges m).mathImport_eq not_false] at hid
  exact henters.holds (hm.mathImport id hid)

namespace Adding

variable {α β : Type}

protected lemma bind {act : DeclareM α} {next : α → DeclareM β} (h : Adding act)
    (h' : ∀ a, Adding (next a)) : Adding (act >>= next) :=
  fun m hm => (h m hm).trans (h' (act m).1 _ (h m hm).orderly)

end Adding

lemma Assigns.bind {next : α → DeclareM Id} (h : Adding act) (h' : ∀ a, Assigns (next a) s) :
    Assigns (act >>= next) s :=
  ⟨.bind h fun a => (h' a).1, fun m hm => (h' (act m).1).2 _ (h m hm).orderly⟩

lemma adding_pushTo (s : Section) (i : Instruction) : Adding (pushTo s i) := by
  intro m hm
  by_cases hold : s = .capabilities ∧ m.sections.capabilities.contains i
  · rw [show (pushTo s i m).2 = m from if_pos hold]
    exact ⟨hm, .refl _, rfl⟩
  · rw [show (pushTo s i m).2 = m.pushed s i from if_neg hold]
    refine ⟨⟨⟨hm.tidy.ids, hm.tidy.bounded, hm.tidy.typeKeys, hm.tidy.constantKeys⟩,
      fun id hid => ?_⟩,
      { Tables.Enters.refl m.tables with }, rfl⟩
    exact ⟨(hm.mathImport id hid).issued, (hm.mathImport id hid).standing⟩

lemma adding_adorn (id : Id) (ds : Adornment) : Adding (adorn id ds) := by
  intro m hm
  rw [adorn_apply]
  exact ⟨⟨hm.tidy, fun id hid => ⟨(hm.mathImport id hid).issued, (hm.mathImport id hid).standing⟩⟩,
    .refl _, rfl⟩

lemma adding_nameTarget (target : Id) (name : Option String) : Adding (nameTarget target name) :=
  .of (changes_nameTarget target name)

lemma assigns_freshId : Assigns freshId .plain :=
  ⟨.of changes_freshId, fun m hm => ⟨Nat.lt_succ_self _,
    hm.tidy.standing_new (Nat.le_refl m.bound)⟩⟩

lemma assigns_typeId (key : TypeKey) : Assigns (typeId key) .plain := by
  have hadding : Adding (typeId key) := .of fun _ =>
    reaches_typeId (Law.permits_of trivial) fun _ _ => trivial
  exact ⟨hadding, fun m hm => (hadding m hm).orderly.tidy.holds_type
    (mem_of_lookup (lookup_typeId key m))⟩

lemma assigns_constant (type : Id) (value : ConstantValue) :
    Assigns (constant type value) .fixed := by
  have hadding : Adding (constant type value) := .of fun _ => reaches_constant fun _ _ => trivial
  exact ⟨hadding, fun m hm =>
    (hadding m hm).orderly.tidy.holds_constant (mem_of_lookup (lookup_constant type value m))⟩

lemma assigns_literalConstant (literal : Literal) : Assigns (literalConstant literal) .fixed :=
  .bind (assigns_typeId (.scalar literal.scalar)).1 fun _ => assigns_constant _ _

lemma assigns_specialization (literal : Literal) :
    Assigns (specialization literal) .adjustable := by
  have hadding : Adding (specialization literal) := .of (changes_specialization literal)
  exact ⟨hadding, fun m hm => (hadding m hm).orderly.tidy.holds_specialization
    (mem_specialization literal m)⟩

lemma assigns_mathImport : Assigns mathImport .plain := by
  have hrun : ∀ m, m.Orderly → m.Adds (mathImport m).2 ∧ (mathImport m).2.Holds
    (mathImport m).1 .plain := by
    intro m hm
    cases h : m.mathImport with
    | some id =>
      have hsame : mathImport m = (id, m) := by
        simp only [mathImport, bind_apply, get_apply, h]
        rfl
      rw [hsame]
      exact ⟨⟨hm, .refl _, rfl⟩, hm.mathImport id h⟩
    | none =>
      -- the new id is issued before it becomes that of the import
      have hissued := assigns_freshId.1 m hm
      have hpushed := adding_pushTo .imports
        ⟨.extInstImport, [.id ⟨m.bound⟩, .text "GLSL.std.450"]⟩ _ hissued.orderly
      have hadds := hissued.trans hpushed
      have hholds := hpushed.enters.holds (assigns_freshId.2 m hm)
      simp only [mathImport, bind_apply, get_apply, h]
      refine ⟨⟨⟨hadds.orderly.tidy, fun id hid => ?_⟩, hadds.enters, hadds.draft⟩,
        hholds.issued, hholds.standing⟩
      obtain rfl : ⟨m.bound⟩ = id := Option.some.inj hid
      exact ⟨hholds.issued, hholds.standing⟩
  exact ⟨fun m hm => (hrun m hm).1, fun m hm => (hrun m hm).2⟩

end Shader.Assembly
