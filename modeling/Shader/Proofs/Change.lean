import Shader.Proofs.Tables

/-!
# The changes of a module under construction

Whatever is declared, a module changes in a few elementary ways (`Module.Change`): an id is issued,
an instruction joins a section, or there is a new declaration, with its decorations, the capability
it needs and its entry in a table.  Every declaration is a chain of such changes (`Module.Reaches`),
so that what one change keeps is kept by all of construction: tables stay tidy and tell what is
declared, and the decorations of an id stay as they are.

A law tells what constant composites may be made of, and what else is allowed (`Law`).
-/

namespace Shader.Assembly

open List
open IR (Scalar Literal)
open Relation (ReflTransGen)

variable {β α : Type} {m m' m₃ : Module} {key key' : TypeKey} {d : Declarator} {id struct type : Id}
    {value : ConstantValue} {ds : Adornment} {scalar : Scalar} {s : Section}

/-- The decoration marks the struct of a buffer. -/
def Decoration.isBlock : Decoration → Bool
  | .block | .bufferBlock => true
  | _ => false

/-! ### What declares a type -/

/-- How a type is decorated if it is the struct of a buffer. -/
def TypeKey.block? : TypeKey → Option Decoration
  | .struct layout => layout.block
  | _ => none

/-- The declarator is one of a type of the given structure. -/
inductive TypeKey.Declares (m : Module) : TypeKey → Declarator → Prop where
  | void : Declares m .void ⟨.typeVoid, []⟩
  | scalar (scalar : Scalar) : Declares m (.scalar scalar) (scalarDeclarator scalar)
  | vector {scalar : Scalar} {component : Id} (size : UInt32) :
      m.types.lookup (.scalar scalar) = some component →
      Declares m (.vector scalar size) ⟨.typeVector, [.id component, .word size]⟩
  | matrix {scalar : Scalar} {rows : UInt32} {column : Id} (columns : UInt32) :
      m.types.lookup (.vector scalar rows) = some column →
      Declares m (.matrix columns rows scalar) ⟨.typeMatrix, [.id column, .word columns]⟩
  | array (element : Id) (length stride : UInt32) {count : Id} : m.isConstant count →
      Declares m (.array element length stride) ⟨.typeArray, [.id element, .id count]⟩
  | runtimeArray (element : Id) (stride : UInt32) :
      Declares m (.runtimeArray element stride) ⟨.typeRuntimeArray, [.id element]⟩
  | struct (layout : StructLayout) :
      Declares m (.struct layout) ⟨.typeStruct, Operand.ids (layout.members.map MemberLayout.type)⟩
  | pointer (storage : StorageClass) (pointee : Id) :
      Declares m (.pointer storage pointee) ⟨.typePointer, [.word storage.word, .id pointee]⟩
  | function (result : Id) (parameters : List Id) :
      Declares m (.function result parameters) ⟨.typeFunction, .id result :: Operand.ids parameters⟩

lemma TypeKey.Declares.untyped (h : key.Declares m d) : Opcode.untyped.contains d.opcode := by
  cases h with
  | scalar scalar =>
    unfold scalarDeclarator
    cases scalar.kind <;> rfl
  | _ => rfl

lemma TypeKey.Declares.mono (h : key.Declares m d)
    (htypes : ∀ key id, m.types.lookup key = some id → m'.types.lookup key = some id)
    (hconstants : ∀ id, m.isConstant id → m'.isConstant id) : key.Declares m' d := by
  cases h with
  | vector size hcomponent => exact .vector size (htypes _ _ hcomponent)
  | matrix columns hcolumn => exact .matrix columns (htypes _ _ hcolumn)
  | array element length stride hcount => exact .array element length stride (hconstants _ hcount)
  | void => exact .void
  | scalar scalar => exact .scalar scalar
  | runtimeArray element stride => exact .runtimeArray element stride
  | struct layout => exact .struct layout
  | pointer storage pointee => exact .pointer storage pointee
  | function result parameters => exact .function result parameters

/-! ### How declarations are decorated -/

/-- The instruction tells how a type is laid out. -/
def Instruction.LaysOut (i : Instruction) : Prop :=
  (∃ id stride, i = .decorate id .arrayStride [stride]) ∨ ∃ id n d words,
    i = .memberDecorate id n d words

namespace TypeKey

/-- The capability that a type needs. -/
def capability? : TypeKey → Option Capability
  | .scalar s => widthCapability? s
  | _ => none

/-- The scalar that a type is made of. -/
def scalar? : TypeKey → Option Scalar
  | .scalar s | .vector s _ | .matrix _ _ s => some s
  | _ => none

end TypeKey

namespace Adornment

/-- No block is made. -/
def Plain (ds : Adornment) : Prop := (ds.all fun d => !d.1.isBlock) = true

/-- The capability that is needed. -/
def capability? (ds : Adornment) : Option Capability :=
  if sampleNumber ∈ ds then some .sampleRateShading else none

/-- The decorations of an id. -/
def on (ds : Adornment) (id : Id) : List Instruction := ds.map fun d => .decorate id d.1 d.2.toList

end Adornment

/-! ### Elementary changes -/

/-- What is allowed in construction. -/
structure Law where
  /-- What constant composites may be made of. -/
  Made : Module → List Id → Prop := fun _ _ => True
  /-- Structs may become blocks. -/
  blocks : Prop := True
  /-- There may be new variables. -/
  globals : Prop := True
  /-- Mathematical functions may be imported. -/
  imports : Prop := True
  /-- Functions may change. -/
  drafts : Prop := True
  /-- Booleans may have any width. -/
  wide : Prop := True

/-- The law allows a scalar. -/
def Law.Narrow (L : Law) (scalar : Scalar) : Prop := scalar.kind = .bool → L.wide ∨ scalar.width = 1

/-- The law allows a new type. -/
def Law.Permits (L : Law) (key : TypeKey) :
    Prop := ∀ scalar, key.scalar? = some scalar → L.Narrow scalar

/-- The value is one that constants are entered with. -/
structure ConstantValue.Normal (value : ConstantValue) : Prop where
  ne_false : value ≠ .bool false
  ne_zero : value ≠ .word 0

/-- The capabilities of a module that needs one more, if so. -/
def withCapability (capabilities : Array Instruction) : Option Capability → Array Instruction
  | none => capabilities
  | some c =>
    if ⟨.capability, [.word c.word]⟩ ∈ capabilities then capabilities
    else capabilities.push ⟨.capability, [.word c.word]⟩

namespace Module

/-- More decorations, and other names. -/
def noted (m : Module) (ds : List Instruction) (names : Array Instruction) : Module :=
  { m with sections := { m.sections with
      annotations := m.sections.annotations ++ ds.toArray
      debug := names } }

/-- A new declaration, with what it needs and how it is decorated. -/
def grown (m : Module) (c : Option Capability) (i : Instruction) (ds : List Instruction)
    (names : Array Instruction) : Module :=
  { m with
    bound := m.bound + 1
    sections := { m.sections with
      capabilities := withCapability m.sections.capabilities c
      globals := m.sections.globals.push i
      annotations := m.sections.annotations ++ ds.toArray
      debug := names } }

/-- One elementary change. -/
inductive Change (L : Law) : Module → Module → Prop where
  | issue (m : Module) : Change L m { m with bound := m.bound + 1 }
  | push {m : Module} {s : Section} (i : Instruction) : s ≠ .capabilities → s ≠ .annotations →
      s ≠ .globals → Change L m (m.pushed s i)
  | mathImport (m : Module) (i : Instruction) : L.imports →
      Change L m { ({ m with bound := m.bound + 1 } : Module).pushed .imports i with
        mathImport := some ⟨m.bound⟩ }
  /-- A struct becomes a block, once. -/
  | block {m : Module} {struct : Id} (d : Decoration) : L.blocks → struct ∉ m.blocks → Change L m
        (({ m with blocks := struct :: m.blocks } : Module).pushed .annotations
        (.decorate struct d []))
  | type {m : Module} {key : TypeKey} {d : Declarator} {ds : List Instruction}
      (names : Array Instruction) :
      m.types.lookup key = none → key.Declares m d → L.Permits key →
      (∀ d, key.block? = some d → ⟨m.bound⟩ ∈ m.blocks) → (∀ i ∈ ds, i.LaysOut) → Change L m
        { m.grown key.capability? (d.instruction ⟨m.bound⟩) ds names with
          types := (key, ⟨m.bound⟩) :: m.types }
  | constant {m : Module} {key : ConstantKey} : m.constants.lookup key = none → key.value.Normal →
      (∀ parts, key.value = .composite parts → L.Made m parts) → Change L m
        { m.grown none (constantInstruction key.type ⟨m.bound⟩ key.value) [] m.sections.debug with
          constants := (key, ⟨m.bound⟩) :: m.constants }
  | specialization (m : Module) (type : Id) (value : ConstantValue)
        (number : Option UInt32) : Change L m
        { m.grown none (specializationInstruction type ⟨m.bound⟩ value)
            (number.toList.map fun n => .decorate ⟨m.bound⟩ .specId [n]) m.sections.debug with
          specializations := ⟨m.bound⟩ :: m.specializations }
  | global (m : Module) (pointer : Id) (storage : StorageClass) (init : Option Id)
      {ds : Adornment} :
      L.globals → ds.Plain → Change L m
        (m.grown ds.capability? (.variable pointer ⟨m.bound⟩ storage init) (ds.on ⟨m.bound⟩)
        m.sections.debug)
  | draft (m : Module) (draft : Option Draft) (functions : Array Function) : L.drafts →
      Change L m { m with draft, functions }

/-- A chain of changes leads from one module to the other. -/
abbrev Reaches (L : Law) : Module → Module → Prop := ReflTransGen (Change L)

lemma Reaches.trans {m₁ m₂ : Module} (h : m₁.Reaches L m₂) (h' : m₂.Reaches L m₃) :
    m₁.Reaches L m₃ :=
    ReflTransGen.trans h h'

lemma declarations_grown (c : Option Capability) (i : Instruction) (ds : List Instruction)
    (names : Array Instruction) : (m.grown c i ds names).declarations = m.declarations ++ [i] :=
  Array.toList_push

lemma annotations_pushed (hs : s ≠ .annotations) (i : Instruction) :
    (m.pushed s i).sections.annotations = m.sections.annotations := by
  have hget := Sections.get_push m.sections i s .annotations
  rw [if_neg hs] at hget
  exact hget

lemma capabilities_pushed (hs : s ≠ .capabilities) (i : Instruction) :
    (m.pushed s i).sections.capabilities = m.sections.capabilities := by
  have hget := Sections.get_push m.sections i s .capabilities
  rw [if_neg hs] at hget
  exact hget

end Module

/-! ### Chains of changes in declarations -/

variable {L : Law} {i j : Instruction}

/-- The declaration is a chain of changes. -/
def Changes (L : Law) {α : Type} (act : DeclareM α) : Prop := ∀ m : Module, m.Reaches L (act m).2

namespace Changes

protected lemma pure (a : α) : Changes L (pure a) := fun _ => .refl

protected lemma get : Changes L (get : DeclareM Module) := fun _ => .refl

protected lemma bind {act : DeclareM α} {next : α → DeclareM β} (h : Changes L act)
    (h' : ∀ a, Changes L (next a)) : Changes L (act >>= next) :=
  fun m => (h m).trans (h' (act m).1 (act m).2)

end Changes

lemma changes_freshId : Changes L freshId := fun m => .single (.issue m)

lemma changes_pushTo (i : Instruction) (hs : s ≠ .capabilities) (hannotations : s ≠ .annotations)
    (hglobals : s ≠ .globals) : Changes L (pushTo s i) := by
  intro m
  rw [show (pushTo s i m).2 = m.pushed s i from if_neg fun h => hs h.1]
  exact .single (.push i hs hannotations hglobals)

lemma changes_nameTarget (target : Id) (name : Option String) :
    Changes L (nameTarget target name) := by
  cases name with
  | none => exact .pure ()
  | some name =>
    refine .bind .get fun m => ?_
    split
    · exact changes_pushTo _ nofun nofun nofun
    · exact .pure ()

lemma changes_mathImport (himports : L.imports) : Changes L mathImport := by
  intro m
  cases h : m.mathImport with
  | some id =>
    simp only [mathImport, bind_apply, get_apply, h]
    exact .refl
  | none =>
    simp only [mathImport, bind_apply, get_apply, h]
    exact .single (.mathImport m _ himports)

lemma decorateBlock_of_mem (h : struct ∈ m.blocks) (d : Decoration) :
    decorateBlock struct d m = ((), m) := by
  simp only [decorateBlock, bind_apply, get_apply, contains_iff_mem.2 h]
  rfl

lemma decorateBlock_of_not_mem (h : struct ∉ m.blocks) (d : Decoration) :
      (decorateBlock struct d m).2 =
        ({ m with blocks := struct :: m.blocks } : Module).pushed .annotations
      (.decorate struct d []) := by
  have hcontains : m.blocks.contains struct = false := by
    rw [← Bool.not_eq_true]
    exact fun hmem => h (contains_iff_mem.1 hmem)
  simp only [decorateBlock, bind_apply, get_apply, hcontains]
  rfl

lemma changes_decorateBlock (hblocks : L.blocks) (struct : Id) (d : Decoration) :
    Changes L (decorateBlock struct d) := by
  intro m
  by_cases h : struct ∈ m.blocks
  · rw [decorateBlock_of_mem h]
  · rw [decorateBlock_of_not_mem h]
    exact .single (.block d hblocks h)

/-- The module once a type that has to be a block is one. -/
def Module.blocked (m : Module) (id : Id) (key : TypeKey) : Module :=
  match key.block? with
  | none => m
  | some d => (decorateBlock id d m).2

lemma Module.blocked_cases (m : Module) (id : Id) (key : TypeKey) :
    (m.blocked id key = m ∧ ∀ d, key.block? = some d → id ∈ m.blocks) ∨
      ∃ d, key.block? = some d ∧ id ∉ m.blocks ∧ m.blocked id key =
        ({ m with blocks := id :: m.blocks } : Module).pushed .annotations (.decorate id d []) := by
  unfold blocked
  cases key.block? with
  | none => exact .inl ⟨rfl, nofun⟩
  | some d =>
    by_cases h : id ∈ m.blocks
    · exact .inl ⟨congrArg Prod.snd (decorateBlock_of_mem h d), fun _ _ => h⟩
    · exact .inr ⟨d, rfl, h, decorateBlock_of_not_mem h d⟩

lemma mem_blocks_decorateBlock (struct : Id) (d : Decoration) (m : Module) :
    struct ∈ (decorateBlock struct d m).2.blocks := by
  by_cases h : struct ∈ m.blocks
  · rwa [decorateBlock_of_mem h]
  · rw [decorateBlock_of_not_mem h]
    exact mem_cons_self

/-! ### Decorations -/

/-- The step tells how a type is laid out, and maybe names it. -/
def Noting {α : Type} (act : DeclareM α) : Prop :=
  ∀ m : Module, ∃ ds names, (∀ i ∈ ds, i.LaysOut) ∧ (act m).2 = m.noted ds names

lemma noting_pushTo (hi : i.LaysOut) : Noting (pushTo .annotations i) := fun m =>
  ⟨[i], m.sections.debug, forall_mem_singleton.2 hi, by simp [Module.noted]; rfl⟩

lemma noting_pushName (i : Instruction) : Noting (pushName i) := by
  intro m
  cases h : m.debugNames with
  | false =>
    simp only [pushName, bind_apply, get_apply, h]
    exact ⟨[], m.sections.debug, forall_mem_nil _, by simp [Module.noted]; rfl⟩
  | true =>
    simp only [pushName, bind_apply, get_apply, h]
    exact ⟨[], m.sections.debug.push i, forall_mem_nil _, by simp [Module.noted]; rfl⟩

lemma notes_noting (id : Id) : Notes Noting id where
  pure _ m := ⟨[], m.sections.debug, forall_mem_nil _, by simp [Module.noted]; rfl⟩
  bind {_ _ act _} h h' m := by
    obtain ⟨ds, names, hds, hact⟩ := h m
    obtain ⟨ds', names', hds', hnext⟩ := h' (act m).1 (act m).2
    refine ⟨ds ++ ds', names', forall_mem_append.2 ⟨hds, hds'⟩, hnext.trans ?_⟩
    rw [hact]
    simp [Module.noted, Array.append_assoc]
  name _ := noting_pushName _
  memberName _ _ := noting_pushName _
  stride stride := noting_pushTo (.inl ⟨id, stride, rfl⟩)
  member n d words _ := noting_pushTo (.inr ⟨id, n, d, words, rfl⟩)

lemma decorateType_apply (id : Id) (key : TypeKey) (m : Module) :
    ∃ ds names, (∀ i ∈ ds, i.LaysOut) ∧
    (decorateType id key m).2 = (m.blocked id key).noted ds names := by
  have hplain (hnone : key.block? = none) : Noting (decorateType id key) :=
    (notes_noting id).decorateType fun _ _ hkey hblock => by
      subst hkey
      cases hnone.symm.trans hblock
  unfold Module.blocked
  cases hblock : key.block? with
  | none => exact hplain hblock m
  | some d =>
    cases key with
    | struct layout =>
      have hrest : Noting (decorateType id (.struct { layout with block := none })) :=
        (notes_noting id).decorateType fun _ _ hkey hblock => by
          cases hkey
          cases hblock
      simp only [decorateType, decorateStruct, show layout.block = some d from hblock]
      exact hrest (decorateBlock id d m).2
    | _ => cases hblock

lemma requireCapability_apply (c : Capability) (m : Module) : (requireCapability c m).2 =
    { m with sections := { m.sections with
        capabilities := withCapability m.sections.capabilities (some c) } } := by
  show (if Section.capabilities = Section.capabilities ∧ m.sections.capabilities.contains _ then m
    else m.pushed .capabilities _ : Module) = _
  simp only [withCapability, true_and, Array.contains_iff_mem]
  split
  · rfl
  · rfl

lemma withCapability_twice (capabilities : Array Instruction) (c : Capability) :
    withCapability (withCapability capabilities (some c))
      (some c) = withCapability capabilities (some c) := by
  by_cases h : ⟨.capability, [.word c.word]⟩ ∈ capabilities
  · simp only [withCapability, h, if_true]
  · simp only [withCapability, h, if_false, Array.mem_push_self, if_true]

lemma adorn_apply (id : Id) (ds : Adornment) :
    ∀ m, (adorn id ds m).2 = { m with sections := { m.sections with
        capabilities := withCapability m.sections.capabilities ds.capability?
        annotations := m.sections.annotations ++ (ds.on id).toArray } } := by
  induction ds with
  | nil => exact fun m => by simp [Adornment.on, Adornment.capability?, withCapability]; rfl
  | cons d ds ih =>
    intro m
    by_cases hd : d = sampleNumber
    · subst hd
      have hrun : (adorn id (sampleNumber :: ds) m).2 = (adorn id ds
          ((requireCapability .sampleRateShading m).2.pushed .annotations
            (.decorate id sampleNumber.1 sampleNumber.2.toList))).2 := rfl
      have hmore : withCapability (withCapability m.sections.capabilities (some .sampleRateShading))
          (Adornment.capability? ds) = withCapability m.sections.capabilities
          (some .sampleRateShading) := by
        unfold Adornment.capability?
        split
        · exact withCapability_twice _ _
        · rfl
      have hneeds : Adornment.capability? (sampleNumber :: ds) = some .sampleRateShading :=
        if_pos mem_cons_self
      rw [hrun, ih, requireCapability_apply]
      simp [Module.pushed, Sections.push, hmore, hneeds, Adornment.on]
    · have hrun : (adorn id (d :: ds) m).2 = (adorn id ds
          (m.pushed .annotations (.decorate id d.1 d.2.toList))).2 := by
        show (adorn id ds ((ite (d = sampleNumber) _ _ : DeclareM Unit) m).2).2 = _
        rw [if_neg hd]
        rfl
      have hneeds : Adornment.capability? (d :: ds) = Adornment.capability? ds := by
        simp [Adornment.capability?, Ne.symm hd]
      rw [hrun, ih]
      simp [Module.pushed, Sections.push, hneeds, Adornment.on]

/-! ### What chains of changes keep -/

namespace Module.Reaches

/-- What every change keeps, a sequence of changes keeps. -/
lemma keeps {P : Module → Prop} (hstep : ∀ {m m'}, m.Change L m' → P m → P m')
    (h : m.Reaches L m') (hm : P m) : P m' := by
  induction h with
  | refl => exact hm
  | tail _ hchange ih => exact hstep hchange ih

section

variable (h : m.Reaches L m')
include h

lemma declarations : m.declarations <+: m'.declarations := by
  refine h.keeps (P := fun m' => m.declarations <+: m'.declarations) (fun hchange hm => ?_)
    (prefix_refl _)
  refine IsPrefix.trans hm ?_
  cases hchange with
  | push i _ _ hglobals => exact ⟨[], by rw [append_nil, declarations_pushed hglobals]⟩
  | type | constant | specialization | global => exact ⟨_, (declarations_grown _ _ _ _).symm⟩
  | _ => exact prefix_refl _

lemma mem_declarations (hi : i ∈ m.declarations) : i ∈ m'.declarations := h.declarations.subset hi

lemma lookup_types (hid : m.types.lookup key = some id) : m'.types.lookup key = some id := by
  refine h.keeps (P := fun m => m.types.lookup key = some id) (fun hchange hm => ?_) hid
  cases hchange with
  | @type key' _ _ _ hnone =>
    have hne : key ≠ key' := by
      rintro rfl
      rw [hnone] at hm
      cases hm
    rw [lookup_cons, beq_false_of_ne hne]
    exact hm
  | _ => exact hm

lemma mem_constants {e : ConstantKey × Id} (he : e ∈ m.constants) : e ∈ m'.constants := by
  refine h.keeps (P := fun m => e ∈ m.constants) (fun hchange hm => ?_) he
  cases hchange with
  | constant => exact mem_cons_of_mem _ hm
  | _ => exact hm

lemma isConstant (hid : m.isConstant id) : m'.isConstant id := by
  obtain ⟨key, hmem⟩ := isConstant_iff.1 hid
  exact isConstant_iff.2 ⟨key, h.mem_constants hmem⟩

lemma mem_specializations (hid : id ∈ m.specializations) : id ∈ m'.specializations := by
  refine h.keeps (P := fun m => id ∈ m.specializations) (fun hchange hm => ?_) hid
  cases hchange with
  | specialization => exact mem_cons_of_mem _ hm
  | _ => exact hm

lemma isSpecialization (hid : m.isSpecialization id) : m'.isSpecialization id :=
  contains_iff_mem.2 (h.mem_specializations (contains_iff_mem.1 hid))

end

lemma mathImport_eq (hL : ¬L.imports) (h : m.Reaches L m') : m'.mathImport = m.mathImport := by
  refine h.keeps (P := fun m' => m'.mathImport = m.mathImport) (fun hchange hm => ?_) rfl
  cases hchange with
  | mathImport _ himports => exact absurd himports hL
  | _ => exact hm

lemma blocks (h : m.Reaches L m') : m.blocks ⊆ m'.blocks := by
  refine h.keeps (P := fun m' => m.blocks ⊆ m'.blocks) (fun hchange hm => ?_) (Subset.refl _)
  cases hchange with
  | block => exact fun x hx => mem_cons_of_mem _ (hm hx)
  | _ => exact hm

lemma declares (h : m.Reaches L m') (hkey : key.Declares m d) : key.Declares m' d :=
  hkey.mono (fun _ _ => h.lookup_types) fun _ => h.isConstant

lemma tidy (h : m.Reaches L m') (hm : m.tables.Tidy) :
    m'.tables.Tidy ∧ m.tables.Enters m'.tables := by
  refine h.keeps (P := fun m' => m'.tables.Tidy ∧ m.tables.Enters m'.tables) ?_ ⟨hm, .refl _⟩
  rintro m₁ m₂ hchange ⟨htidy, henters⟩
  cases hchange with
  | issue | mathImport => exact ⟨htidy.issue, henters.trans (Tables.enters_issue _)⟩
  | type names hnone => exact ⟨htidy.enterType hnone, henters.trans (Tables.enters_enterType _ _)⟩
  | constant hnone =>
    exact ⟨htidy.enterConstant hnone, henters.trans (Tables.enters_enterConstant _ _)⟩
  | specialization =>
    exact ⟨htidy.enterSpecialization, henters.trans (Tables.enters_enterSpecialization _)⟩
  | global => exact ⟨htidy.issue, henters.trans (Tables.enters_issue _)⟩
  | _ => exact ⟨htidy, henters⟩

lemma extends_of (hL : ¬L.drafts) (h : m.Reaches L m') : m.Extends m' := by
  refine h.keeps (fun {m₁ m₂} hchange hm => hm.trans ?_) (.refl m)
  have hnew {x : Id} (hx : m₁.Declared x ∨ x = ⟨m₁.bound⟩) :
      m₁.Declared x ∨ (m₁.bound ≤ x.number ∧ x.number < m₁.bound + 1) := by
    refine hx.imp_right ?_
    rintro rfl
    exact ⟨Nat.le_refl _, Nat.lt_succ_self _⟩
  cases hchange with
  | issue | global => exact ⟨rfl, rfl, Nat.le_succ _, fun _ h => .inl h⟩
  | push | block => exact ⟨rfl, rfl, Nat.le_refl _, fun _ h => .inl h⟩
  | mathImport =>
    refine ⟨rfl, rfl, Nat.le_succ _, fun x hx => hnew ?_⟩
    rcases hx with h | h | h | h
    · exact .inl (.inl h)
    · exact .inl (.inr (.inl h))
    · exact .inl (.inr (.inr (.inl h)))
    · exact .inr (Option.some.inj h).symm
  | type => exact ⟨rfl, rfl, Nat.le_succ _, fun x hx => hnew (declared_enter_type.1 hx)⟩
  | constant => exact ⟨rfl, rfl, Nat.le_succ _, fun x hx => hnew (declared_enter_constant.1 hx)⟩
  | specialization =>
    exact ⟨rfl, rfl, Nat.le_succ _, fun x hx => hnew (declared_enter_specialization.1 hx)⟩
  | draft _ _ hdrafts => exact absurd hdrafts hL

end Module.Reaches

/-! ### What the tables tell -/

namespace Module

/-- The instruction declares something that is in the tables, or a variable. -/
inductive Accounts (L : Law) (m : Module) (i : Instruction) : Prop where
  | type {key : TypeKey} {id : Id} {d : Declarator} : m.types.lookup key = some id →
      key.Declares m d → i = d.instruction id → Accounts L m i
  | constant {key : ConstantKey} {id : Id} : (key, id) ∈ m.constants → key.value.Normal →
      i = constantInstruction key.type id key.value → Accounts L m i
  | specialization {id : Id} (type : Id) (value : ConstantValue) : id ∈ m.specializations →
      i = specializationInstruction type id value → Accounts L m i
  | global (pointer id : Id) (storage : StorageClass) (init : Option Id) : L.globals →
      i = .variable pointer id storage init → Accounts L m i

/-- What is in the tables is declared as the law has it, and nothing else is. -/
structure Described (L : Law) (m : Module) : Prop where
  types : ∀ {key id}, m.types.lookup key = some id → ∃ d, key.Declares m d ∧
    d.instruction id ∈ m.declarations
  blocks : ∀ {key id d}, m.types.lookup key = some id → key.block? = some d → id ∈ m.blocks
  permits : ∀ {key id}, m.types.lookup key = some id → L.Permits key
  constants : ∀ {key id}, (key, id) ∈ m.constants → constantInstruction key.type id
    key.value ∈ m.declarations
  declarations : ∀ i ∈ m.declarations, m.Accounts L i

lemma Accounts.mono (h : m.Accounts L i) (hreaches : m.Reaches L m') : m'.Accounts L i := by
  cases h with
  | type hid hd hi => exact .type (hreaches.lookup_types hid) (hreaches.declares hd) hi
  | constant hid hnormal hi => exact .constant (hreaches.mem_constants hid) hnormal hi
  | specialization type value hid hi =>
    exact .specialization type value (hreaches.mem_specializations hid) hi
  | global pointer id storage init hL hi => exact .global pointer id storage init hL hi

lemma Described.mono (h : m.Described L) (hreaches : m.Reaches L m')
    (htypes : ∀ {key id}, m'.types.lookup key = some id → m.types.lookup key = some id ∨
      (∃ d, key.Declares m' d ∧ d.instruction id ∈ m'.declarations) ∧
        (∀ d, key.block? = some d → id ∈ m'.blocks) ∧ L.Permits key)
    (hconstants : ∀ {key id}, (key, id) ∈ m'.constants → (key, id) ∈ m.constants ∨
      constantInstruction key.type id key.value ∈ m'.declarations)
    (hdeclarations : ∀ i ∈ m'.declarations, i ∈ m.declarations ∨ m'.Accounts L i) :
    m'.Described L where
  types hid := by
    rcases htypes hid with hid | h
    · obtain ⟨d, hd, hmem⟩ := h.types hid
      exact ⟨d, hreaches.declares hd, hreaches.mem_declarations hmem⟩
    · exact h.1
  blocks hid hkey := (htypes hid).elim (fun hid => hreaches.blocks (h.blocks hid hkey))
    fun h => h.2.1 _ hkey
  permits hid := (htypes hid).elim h.permits fun h => h.2.2
  constants hid := (hconstants hid).elim (fun hid => hreaches.mem_declarations (h.constants hid)) id
  declarations i hi := (hdeclarations i hi).elim (fun hi => (h.declarations i hi).mono hreaches) id

lemma mem_declarations_grown {ds : List Instruction}
    {names : Array Instruction} :
    j ∈ (m.grown c i ds names).declarations ↔ j ∈ m.declarations ∨ j = i := by
  rw [declarations_grown, mem_append, mem_singleton]

lemma Change.described (hchange : m.Change L m') (h : m.Described L) : m'.Described L := by
  have hreaches : m.Reaches L m' := .single hchange
  cases hchange with
  | push i _ _ hglobals =>
    refine h.mono hreaches .inl .inl fun i hi => ?_
    rw [declarations_pushed hglobals] at hi
    exact .inl hi
  | @type key d _ names hnone hdeclares hpermits hblock =>
    refine h.mono hreaches (fun {key' id'} hid => ?_) .inl fun i hi =>
      (mem_declarations_grown.1 hi).imp_right fun hi => .type lookup_cons_self
        (hreaches.declares hdeclares) hi
    rw [lookup_cons] at hid
    split at hid
    · cases hid
      rw [beq_iff_eq.1 ‹(key' == key) = true›]
      exact .inr ⟨⟨d, hreaches.declares hdeclares, mem_declarations_grown.2 (.inr rfl)⟩,
        hblock, hpermits⟩
    · exact .inl hid
  | @constant key hnone hnormal =>
    refine h.mono hreaches .inl (fun hid => (mem_cons.1 hid).symm.imp_right fun heq =>
      ?_) fun i hi => (mem_declarations_grown.1 hi).imp_right fun hi =>
        .constant mem_cons_self hnormal hi
    cases heq
    exact mem_declarations_grown.2 (.inr rfl)
  | specialization type value =>
    exact h.mono hreaches .inl .inl fun i hi => (mem_declarations_grown.1 hi).imp_right
      (.specialization type value mem_cons_self)
  | global pointer storage init hL =>
    exact h.mono hreaches .inl .inl fun i hi => (mem_declarations_grown.1 hi).imp_right
      (.global pointer _ storage init hL)
  | _ => exact h.mono hreaches .inl .inl fun _ => .inl

lemma Reaches.described (hreaches : m.Reaches L m') (h : m.Described L) : m'.Described L :=
  hreaches.keeps (fun hchange hm => hchange.described hm) h

end Module

/-! ### Types and constants -/

section

variable {declarator : DeclareM Declarator}

/-- The module once a type is declared. -/
def declaredType (d : Declarator) (m : Module) : Module :=
  ({ m with bound := m.bound + 1 } : Module).pushed .globals (d.instruction ⟨m.bound⟩)

/-- The module once a type is declared, decorated and entered. -/
def enteredType (key : TypeKey) (d : Declarator) (m : Module) : Module :=
  let m' := (decorateType ⟨m.bound⟩ key (declaredType d m)).2
  { m' with types := (key, ⟨m.bound⟩) :: m'.types }

lemma internType_of_none (h : m.types.lookup key = none) :
    (internType key declarator m).2 = enteredType key (declarator m).1 (declarator m).2 := by
  simp only [internType, bind_apply, get_apply, h]
  rfl

lemma enteredType_apply (hcapability : key.capability? = none) (d : Declarator) (m : Module) :
    ∃ ds names, (∀ i ∈ ds, i.LaysOut) ∧ enteredType key d m =
      { (m.blocked ⟨m.bound⟩ key).grown key.capability? (d.instruction ⟨m.bound⟩) ds names with
        types := (key, ⟨m.bound⟩) :: m.types } := by
  obtain ⟨ds, names, hds, hrun⟩ := decorateType_apply ⟨m.bound⟩ key (declaredType d m)
  refine ⟨ds, names, hds, ?_⟩
  simp only [enteredType, hrun, hcapability]
  unfold Module.blocked
  cases key.block? with
  | none => rfl
  | some b =>
    by_cases h : (⟨m.bound⟩ : Id) ∈ m.blocks
    · simp only [decorateBlock_of_mem h, decorateBlock_of_mem (m := declaredType d m) h]
      rfl
    · simp only [decorateBlock_of_not_mem h, decorateBlock_of_not_mem (m := declaredType d m) h]
      rfl

section

variable (hnone : m.types.lookup key = none) (hdeclares : key.Declares m d)
    (hpermits : L.Permits key)
include hnone hdeclares hpermits

lemma change_enteredType (hcapability : key.capability? = none) :
    (m.blocked ⟨m.bound⟩ key).Change L (enteredType key d m) := by
  obtain ⟨ds, names, hds, hentered⟩ := enteredType_apply hcapability d m
  rw [hentered]
  rcases m.blocked_cases ⟨m.bound⟩ key with ⟨hsame, hblock⟩ | ⟨b, -, -, hblocked⟩
  · rw [hsame]
    exact .type names hnone hdeclares hpermits hblock hds
  · rw [hblocked]
    exact .type names hnone (hdeclares.mono (fun _ _ => id) fun _ => id) hpermits
      (fun _ _ => mem_cons_self) hds

lemma reaches_enteredType (hblock : ∀ d, key.block? = some d → L.blocks)
    (hcapability : key.capability? = none) : m.Reaches L (enteredType key d m) := by
  have hchange := change_enteredType hnone hdeclares hpermits hcapability
  rcases m.blocked_cases ⟨m.bound⟩ key with ⟨hsame, -⟩ | ⟨b, hb, hmem, hblocked⟩
  · rw [hsame] at hchange
    exact .single hchange
  · rw [hblocked] at hchange
    exact .tail (.single (.block b (hblock b hb) hmem)) hchange

end

/-- The step leaves a type unknown that was unknown. -/
def Spares {α : Type} (key : TypeKey) (act : DeclareM α) : Prop :=
  ∀ m : Module, m.types.lookup key = none → (act m).2.types.lookup key = none

lemma Spares.bind {next : α → DeclareM β} (h : Spares key act) (h' : ∀ a, Spares key (next a)) :
    Spares key (act >>= next) := fun m hm => h' _ _ (h m hm)

lemma spares_internType (hne : key ≠ key') (h : Spares key declarator) :
    Spares key (internType key' declarator) := by
  intro m hm
  cases hlookup : m.types.lookup key' with
  | some id => rwa [internType_of_lookup hlookup]
  | none =>
    obtain ⟨_, _, -, hrun⟩ := decorateType_apply ⟨(declarator m).2.bound⟩ key'
      (declaredType (declarator m).1 (declarator m).2)
    have htypes : (Module.blocked (declaredType (declarator m).1 (declarator m).2)
        ⟨(declarator m).2.bound⟩ key').types = (declarator m).2.types := by
      rcases Module.blocked_cases (declaredType (declarator m).1 (declarator m).2)
        ⟨(declarator m).2.bound⟩ key' with ⟨hsame, -⟩ | ⟨_, -, -, hblocked⟩
      · rw [hsame]
        rfl
      · rw [hblocked]
        rfl
    rw [internType_of_none hlookup]
    simp only [enteredType, hrun, lookup_cons, beq_false_of_ne hne]
    exact htypes ▸ h m hm

lemma reaches_internType (hcapability : key.capability? = none) (hspares : Spares key declarator)
    (hchanges : Changes L declarator)
    (hdeclares : ∀ m, key.Declares (declarator m).2 (declarator m).1) (hpermits : L.Permits key)
    (hblock : ∀ d, key.block? = some d → L.blocks := by nofun) :
    m.Reaches L (internType key declarator m).2 := by
  cases h : m.types.lookup key with
  | some id => rw [internType_of_lookup h]
  | none =>
    rw [internType_of_none h]
    exact (hchanges m).trans (reaches_enteredType (hspares m h) (hdeclares m) hpermits
      hblock hcapability)

end

lemma Law.narrow_of_kind (h : scalar.kind ≠ .bool) : L.Narrow scalar := fun hkind => absurd hkind h

lemma Law.Narrow.permits (h : L.Narrow scalar) (hkey : key.scalar? = some scalar) :
    L.Permits key := fun _ hscalar => Option.some.inj (hkey.symm.trans hscalar) ▸ h

lemma Module.grown_plain (m : Module) (c : Option Capability) (i : Instruction) :
    m.grown c i [] m.sections.debug = ({ m with
        bound := m.bound + 1
        sections.capabilities := withCapability m.sections.capabilities c } : Module).pushed
          .globals i := by
  simp [grown]
  rfl

lemma changes_scalarType (h : L.Narrow scalar) : Changes L (scalarType scalar) := by
  intro m
  cases hlookup : m.types.lookup (.scalar scalar) with
  | some id => rw [scalarType, internType_of_lookup hlookup]
  | none =>
    have hchange := Module.Change.type m.sections.debug hlookup (.scalar scalar)
      (h.permits rfl) nofun (forall_mem_nil _)
    simp only [TypeKey.capability?, Module.grown_plain] at hchange
    rw [scalarType, internType_of_none hlookup]
    cases hcapability : widthCapability? scalar with
    | none =>
      rw [hcapability] at hchange
      exact .single hchange
    | some capability =>
      rw [hcapability] at hchange
      simp only [bind_apply, requireCapability_apply]
      exact .single hchange

lemma spares_scalarType (hne : key ≠ .scalar scalar) : Spares key (scalarType scalar) := by
  refine spares_internType hne fun m hm => ?_
  cases widthCapability? scalar with
  | none => exact hm
  | some capability =>
    simp only [bind_apply, requireCapability_apply]
    exact hm

lemma changes_vectorType (size : UInt32) (h : L.Narrow scalar) :
    Changes L (vectorType scalar size) := fun _ =>
  reaches_internType rfl (.bind (spares_scalarType nofun) fun _ _ h => h)
    (.bind (changes_scalarType h) fun _ => .pure _)
    (fun m => .vector size (lookup_internType _ _ m)) (h.permits rfl)

lemma changes_matrixType (columns rows : UInt32) (h : L.Narrow scalar) :
    Changes L (matrixType columns rows scalar) := by
  have hspares : Spares (.matrix columns rows scalar) (vectorType scalar rows) :=
    spares_internType nofun (.bind (spares_scalarType nofun) fun _ _ h => h)
  exact fun _ => reaches_internType rfl (.bind hspares fun _ _ h => h)
    (.bind (changes_vectorType rows h) fun _ => .pure _) (fun m => .matrix columns
    (lookup_internType _ _ m)) (h.permits rfl)

lemma normalize_eq_composite (h : m.normalize value = .composite parts) :
    value = .composite parts := by
  unfold Module.normalize at h
  split at h
  · cases h
  · cases h
  · cases h
  · split at h
    · cases h
    · exact h
  · exact h

lemma normal_normalize (m : Module) (value : ConstantValue) : (m.normalize value).Normal := by
  unfold Module.normalize
  split
  · exact ⟨nofun, nofun⟩
  · exact ⟨nofun, nofun⟩
  · exact ⟨nofun, nofun⟩
  · split
    · exact ⟨nofun, nofun⟩
    · exact ⟨nofun, nofun⟩
  · rename_i hfalse hzero _ _
    exact ⟨hfalse, hzero⟩

lemma reaches_constant (h : ∀ parts, value = .composite parts → L.Made m parts) :
    m.Reaches L (constant type value m).2 := by
  cases hlookup : m.constants.lookup ⟨type, m.normalize value⟩ with
  | some id => rw [constant_of_lookup hlookup]
  | none =>
    have hchange := Module.Change.constant hlookup (normal_normalize m value)
      fun parts hparts => h parts (normalize_eq_composite hparts)
    rw [Module.grown_plain] at hchange
    simp only [constant, bind_apply, get_apply, hlookup]
    exact .single hchange

lemma changes_constant (type : Id) (h : ∀ parts, value ≠ .composite parts) :
    Changes L (constant type value) := fun _ => reaches_constant fun parts heq =>
    absurd heq (h parts)

lemma changes_nullConstant (type : Id) : Changes L (nullConstant type) :=
    changes_constant type nofun

lemma Law.narrow_literal (literal : Literal) : L.Narrow literal.scalar := by
  cases literal with
  | bool => exact fun _ => .inr rfl
  | _ => nofun

lemma changes_literalConstant (literal : Literal) : Changes L (literalConstant literal) :=
  .bind (changes_scalarType (Law.narrow_literal literal)) fun _ => changes_constant _
    (by cases literal <;> nofun)

lemma changes_indexConstant (value : UInt32) : Changes L (indexConstant value) := by
  refine .bind (changes_scalarType (Law.narrow_of_kind nofun)) fun _ => changes_constant _ ?_
  split <;> nofun

lemma changes_specialization (literal : Literal) : Changes L (specialization literal) := by
  refine .bind (changes_scalarType (Law.narrow_literal literal)) fun type m => ?_
  have hchange := Module.Change.specialization (L := L) m type (.ofLiteral literal) none
  exact .single hchange

lemma reaches_numbered (literal : Literal) (number : UInt32) : m.Reaches L
    ((specialization literal m).2.pushed .annotations
      (.decorate (specialization literal m).1 .specId [number])) := by
  have hscalar := changes_scalarType (L := L) (Law.narrow_literal literal) m
  have hchange := Module.Change.specialization (L := L) (scalarType literal.scalar m).2
    (scalarType literal.scalar m).1 (.ofLiteral literal) (some number)
  simp [Module.grown] at hchange
  exact hscalar.tail hchange

lemma types_constant (type : Id) (value : ConstantValue) (m : Module) :
    (constant type value m).2.types = m.types := by
  cases h : m.constants.lookup ⟨type, m.normalize value⟩ with
  | some id => rw [constant_of_lookup h]
  | none =>
    simp only [constant, bind_apply, get_apply, h]
    rfl

lemma changes_arrayType (element : Id) (length stride : UInt32) :
    Changes L (arrayType element length stride) := by
  have hspares : Spares (.array element length stride) (indexConstant length) := by
    refine .bind (spares_scalarType nofun) fun type m hm => ?_
    rwa [types_constant]
  exact fun m => reaches_internType rfl (.bind hspares fun _ _ h => h)
    (.bind (changes_indexConstant length) fun _ => .pure _)
    (fun m => .array element length stride
    (isConstant_iff.2 ⟨_, mem_of_lookup (lookup_constant _ _ _)⟩)) nofun

lemma changes_voidType : Changes L voidType :=
    fun _ => reaches_internType rfl (fun _ h => h) (.pure _) (fun _ => .void) nofun

lemma changes_pointerType (storage : StorageClass) (pointee : Id) :
    Changes L (pointerType storage pointee) :=
  fun _ => reaches_internType rfl (fun _ h => h) (.pure _) (fun _ => .pointer storage pointee) nofun

lemma reaches_typeId (h : L.Permits key)
    (hblock : ∀ d, key.block? = some d → L.blocks := by nofun) :
    m.Reaches L (typeId key m).2 :=
  match key, h with
  | .void, _ => changes_voidType m
  | .scalar _, h => changes_scalarType (h _ rfl) m
  | .vector _ size, h => changes_vectorType size (h _ rfl) m
  | .matrix columns rows _, h => changes_matrixType columns rows (h _ rfl) m
  | .array element length stride, _ => changes_arrayType element length stride m
  | .runtimeArray element stride, h =>
    reaches_internType rfl (fun _ h => h) (.pure _) (fun _ => .runtimeArray element stride) h
  | .struct layout, h =>
    reaches_internType rfl (fun _ h => h) (.pure _) (fun _ => .struct layout) h hblock
  | .pointer storage pointee, _ => changes_pointerType storage pointee m
  | .function result parameters, h =>
    reaches_internType rfl (fun _ h => h) (.pure _) (fun _ => .function result parameters) h

/-! ### Laws that allow everything -/

lemma Law.permits_of (hwide : L.wide) : L.Permits key := fun _ _ _ => .inl hwide

lemma Module.Reaches.lax (h : m.Reaches L m') : m.Reaches {} m' := by
  refine ReflTransGen.mono (fun _ _ hchange => ?_) _ _ h
  cases hchange with
  | issue => exact .issue _
  | push i hcapabilities hannotations hglobals => exact .push i hcapabilities hannotations hglobals
  | mathImport i => exact .mathImport _ i trivial
  | block d _ hmem => exact .block d trivial hmem
  | type names hnone hdeclares _ hblock hds =>
    exact .type names hnone hdeclares (Law.permits_of trivial) hblock hds
  | constant hnone hnormal => exact .constant hnone hnormal fun _ _ => trivial
  | specialization type value number => exact .specialization _ type value number
  | global pointer storage init _ hds => exact .global _ pointer storage init trivial hds
  | draft draft functions => exact .draft _ draft functions trivial

/-! ### Declarations extend -/

/-- Everything is allowed but to change functions. -/
abbrev Law.static : Law := { drafts := False }

lemma Changes.extending (h : Changes .static act) : Extending act :=
  fun m => (h m).extends_of not_false

lemma extending_freshId : Extending freshId := changes_freshId.extending

lemma extending_pushTo (s : Section) (i : Instruction) : Extending (pushTo s i) := by
  intro m
  show m.Extends (if _ then m else m.pushed s i)
  split
  · exact .refl m
  · exact ⟨rfl, rfl, Nat.le_refl _, fun _ h => .inl h⟩

lemma extending_nameTarget (target : Id) (name : Option String) :
    Extending (nameTarget target name) :=
  (changes_nameTarget target name).extending

lemma extending_adorn (id : Id) (ds : Adornment) : Extending (adorn id ds) := by
  intro m
  rw [adorn_apply]
  exact ⟨rfl, rfl, Nat.le_refl _, fun _ h => .inl h⟩

lemma declaring_typeId (key : TypeKey) : Declaring (typeId key) := fun m =>
  ⟨(reaches_typeId (L := .static) (Law.permits_of trivial) fun _ _ => trivial).extends_of
    not_false, .inl ⟨key, mem_of_lookup (lookup_typeId key m)⟩⟩

lemma declaring_voidType : Declaring voidType := declaring_typeId .void

lemma declaring_scalarType (scalar : Scalar) : Declaring (scalarType scalar) :=
    declaring_typeId (.scalar scalar)

lemma declaring_pointerType (storage : StorageClass) (pointee : Id) :
    Declaring (pointerType storage pointee) :=
  declaring_typeId (.pointer storage pointee)

lemma declaring_constant (type : Id) (value : ConstantValue) :
    Declaring (constant type value) := fun m =>
  ⟨(reaches_constant (L := .static) fun _ _ => trivial).extends_of not_false,
    .inr (.inl ⟨_, mem_of_lookup (lookup_constant type value m)⟩)⟩

lemma declaring_nullConstant (type : Id) : Declaring (nullConstant type) :=
    declaring_constant type .null

lemma declaring_literalConstant (literal : Literal) :
    Declaring (literalConstant literal) := fun m =>
  ⟨(changes_literalConstant literal).extending m, (declaring_constant _ _ _).2⟩

lemma declaring_indexConstant (value : UInt32) : Declaring (indexConstant value) := fun m =>
  ⟨(changes_indexConstant value).extending m, (declaring_constant _ _ _).2⟩

lemma declaring_specialization (literal : Literal) : Declaring (specialization literal) := fun m =>
  ⟨(changes_specialization literal).extending m, .inr (.inr (.inl (mem_specialization literal m)))⟩

lemma declaring_mathImport : Declaring mathImport := by
  refine fun m => ⟨(changes_mathImport trivial).extending m, .inr (.inr (.inr ?_))⟩
  cases h : m.mathImport with
  | some id =>
    simp only [mathImport, bind_apply, get_apply, h]
    exact h
  | none =>
    simp only [mathImport, bind_apply, get_apply, h]
    rfl

end Shader.Assembly
