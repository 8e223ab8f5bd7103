import Shader.Proofs.Discipline

/-!
# The blocks of buffers

A global variable that is a buffer points to a struct with one block decoration.  The struct of
contents that are no struct is made for the buffer; contents that are a struct are shared by all
buffers that have them, and then the first of these decides on the decoration.  So buffers have the
decoration that their address space asks for, unless one struct is the contents of buffers that ask
for different ones.
-/

variable {k : Nat}

variable {layout : StructLayout}

namespace Shader.Assembly

open List

variable {id pointee pointee' : Assembly.Id}

/-- A struct of a buffer, and how it is to be decorated. -/
abbrev Mark := Id × Decoration

/-- The struct that an instruction decorates as a block, and how. -/
def Instruction.mark? (i : Instruction) : Option Mark :=
  match i.operands with
  | .id target :: .word word :: _ =>
    if i.opcode = .decorate ∧ Decoration.isBlock ⟨word⟩ then some (target, ⟨word⟩) else none
  | _ => none

lemma Instruction.mark?_decorate (target : Id) (d : Decoration) (words : List UInt32) :
    (decorate target d words).mark? = if d.isBlock then some (target, d) else none := by
  simp [decorate, mark?]

lemma Instruction.mark?_memberDecorate (struct : Id) (index : UInt32) (d : Decoration)
    (words : List UInt32) : (memberDecorate struct index d words).mark? = none := by
  have hne : Opcode.memberDecorate ≠ .decorate := by decide
  simp [memberDecorate, mark?, hne]

/-- How a mark wants the struct decorated. -/
def Mark.on (struct : Id) : Option Mark → Option Decoration
  | some (target, decoration) => if target = struct then some decoration else none
  | none => none

variable {m' : Module}

namespace Module

/-- The block decorations of a struct, in order. -/
def blockDecorations (m : Module) (struct : Id) : List Decoration :=
  m.sections.annotations.toList.filterMap fun i => Mark.on struct i.mark?

/-- The variables among the declarations, in order. -/
def globalVariables (m : Module) :
    List Instruction := m.declarations.filter fun i => i.opcode == .variable

/-- The variable of the given number points to the type. -/
def PointsTo (m : Module) (k : Nat) (pointee : Id) : Prop :=
  ∃ pointer id storage init, m.globalVariables[k]? = some (.variable pointer id storage init) ∧
    ⟨.typePointer, [.id pointer, .word storage.word, .id pointee]⟩ ∈ m.declarations

/-- The type is a struct. -/
def IsStruct (m : Module) (id : Id) : Prop :=
  ∃ members, ⟨.typeStruct, .id id :: Operand.ids members⟩ ∈ m.declarations

variable {L : Law} {m : Module} {c : Option Capability} {i : Instruction} {ds : List Instruction}
    {names : Array Instruction}

lemma blockDecorations_pushed (i : Instruction) (struct : Id) :
    (m.pushed .annotations i).blockDecorations struct =
      m.blockDecorations struct ++ (Mark.on struct i.mark?).toList := by
  show filterMap _ (m.sections.annotations.push i).toList = _
  rw [Array.toList_push, filterMap_append, filterMap_cons]
  cases Mark.on struct i.mark? <;> rfl

lemma globalVariables_grown (hi : i.opcode ≠ .variable) :
    (m.grown c i ds names).globalVariables = m.globalVariables := by
  rw [globalVariables, declarations_grown, filter_append, filter_cons_of_neg (by simpa using hi)]
  exact append_nil _

lemma constantInstruction_ne_variable (type id : Id) (value : ConstantValue) :
    (constantInstruction type id value).opcode ≠ .variable := by
  unfold constantInstruction
  split <;> nofun

lemma specializationInstruction_ne_variable (type id : Id) (value : ConstantValue) :
    (specializationInstruction type id value).opcode ≠ .variable := by
  unfold specializationInstruction
  split <;> nofun

/-! ### What stays while no struct becomes a block, and while there are no new variables -/

lemma Reaches.blocks_eq (hL : ¬L.blocks) (h : m.Reaches L m') : m'.blocks = m.blocks := by
  refine h.keeps (P := fun m' => m'.blocks = m.blocks) (fun hchange hm => ?_) rfl
  cases hchange with
  | block _ hblocks => exact absurd hblocks hL
  | _ => exact hm

lemma blockDecorations_grown (hds : ∀ i ∈ ds, i.mark? = none) (struct : Id) :
    (m.grown c i ds names).blockDecorations struct = m.blockDecorations struct := by
  have hnone : ds.filterMap (fun i => Mark.on struct i.mark?) = [] :=
    filterMap_eq_nil_iff.2 fun i hi => by rw [hds i hi]; rfl
  show filterMap _ (m.sections.annotations ++ ds.toArray).toList = _
  rw [Array.toList_append, filterMap_append, hnone, append_nil]
  rfl

lemma Reaches.blockDecorations_eq (hL : ¬L.blocks) (h : m.Reaches L m') (struct : Id) :
    m'.blockDecorations struct = m.blockDecorations struct := by
  refine h.keeps (P := fun m' => m'.blockDecorations struct = m.blockDecorations struct)
    (fun {n n'} hchange hm => ?_) rfl
  cases hchange with
  | block _ hblocks => exact absurd hblocks hL
  | push i _ hannotations => rwa [blockDecorations, annotations_pushed hannotations]
  | type _ _ _ _ _ hds =>
    refine (blockDecorations_grown (fun i hi => ?_) struct).trans hm
    rcases hds i hi with ⟨_, _, rfl⟩ | ⟨_, _, _, _, rfl⟩
    · rfl
    · exact Instruction.mark?_memberDecorate _ _ _ _
  | constant => exact (blockDecorations_grown (forall_mem_nil _) struct).trans hm
  | specialization _ _ number =>
    refine (blockDecorations_grown (fun i hi => ?_) struct).trans hm
    obtain ⟨n, -, rfl⟩ := mem_map.1 hi
    rfl
  | global _ _ _ _ hds =>
    refine (blockDecorations_grown (fun i hi => ?_) struct).trans hm
    obtain ⟨d, hd, rfl⟩ := mem_map.1 hi
    rw [Instruction.mark?_decorate, if_neg (by simpa using all_eq_true.1 hds d hd)]
  | _ => exact hm

lemma Reaches.globalVariables_eq (hL : ¬L.globals) (h : m.Reaches L m') :
    m'.globalVariables = m.globalVariables := by
  refine h.keeps (P := fun m' => m'.globalVariables = m.globalVariables)
    (fun {n _} hchange hm => ?_) rfl
  cases hchange with
  | global _ _ _ hglobals => exact absurd hglobals hL
  | push i _ _ hglobals =>
    unfold globalVariables at hm ⊢
    rwa [declarations_pushed hglobals]
  | type names _ hdeclares =>
    refine (globalVariables_grown ?_).trans hm
    intro hvariable
    have huntyped := hdeclares.untyped
    rw [show Declarator.opcode _ = _ from hvariable] at huntyped
    cases huntyped
  | constant _ hnormal =>
    exact (globalVariables_grown (constantInstruction_ne_variable _ _ _)).trans hm
  | specialization =>
    exact (globalVariables_grown (specializationInstruction_ne_variable _ _ _)).trans hm
  | _ => exact hm

lemma Reaches.globalVariables (h : m.Reaches L m') : m.globalVariables <+: m'.globalVariables :=
  h.declarations.filter _

lemma PointsTo.mono {k : Nat} (hk : m.PointsTo k pointee) (h : m.Reaches L m') :
    m'.PointsTo k pointee := by
  obtain ⟨pointer, id, storage, init, hvariable, hpointer⟩ := hk
  obtain ⟨rest, hrest⟩ := h.globalVariables
  refine ⟨pointer, id, storage, init, ?_, h.mem_declarations hpointer⟩
  rw [← hrest, getElem?_append_left (List.getElem?_eq_some_iff.1 hvariable).1]
  exact hvariable

lemma IsStruct.mono (hid : m.IsStruct id) (h : m.Reaches L m') : m'.IsStruct id := by
  obtain ⟨members, hmem⟩ := hid
  exact ⟨members, h.mem_declarations hmem⟩

lemma PointsTo.unique (hm : m.Disciplined) (h : m.PointsTo k pointee) (h' : m.PointsTo k pointee') :
    pointee = pointee' := by
  obtain ⟨pointer, id, storage, init, hvariable, hpointer⟩ := h
  obtain ⟨pointer', id', storage', init', hvariable', hpointer'⟩ := h'
  have hpointers : pointer = pointer' := by
    have hoperands :=
      congrArg (fun i => i.operands[0]?) (Option.some.inj (hvariable.symm.trans hvariable'))
    exact Operand.id.inj (Option.some.inj hoperands)
  subst hpointers
  have hoperands := congrArg (fun i => i.operands[2]?) (hm.declaration_unique hpointer
    hpointer' rfl rfl)
  exact Operand.id.inj (Option.some.inj hoperands)

/-! ### What the tables tell -/

lemma Described.isStruct (h : m.Described L) (hid : m.types.lookup (.struct layout) = some id) :
    m.IsStruct id := by
  obtain ⟨d, hd, hmem⟩ := h.types hid
  cases hd
  exact ⟨_, hmem⟩

lemma Described.pointer (h : m.Described L) {storage : StorageClass}
    (hid : m.types.lookup (.pointer storage pointee) = some id) :
    ⟨.typePointer, [.id id, .word storage.word, .id pointee]⟩ ∈ m.declarations := by
  obtain ⟨d, hd, hmem⟩ := h.types hid
  cases hd
  exact hmem

end Module

/-! ### Marks -/

/-- How the first mark on a struct wants it decorated. -/
def firstMark (marks : List (Option Mark)) (struct : Id) : Option Decoration :=
  marks.findSome? (Mark.on struct)

lemma firstMark_append (marks : List (Option Mark)) (mark : Option Mark) (struct : Id) :
    firstMark (marks ++ [mark]) struct = (firstMark marks struct).or (Mark.on struct mark) := by
  unfold firstMark
  rw [findSome?_append, findSome?_singleton]

/-- The blocks of a module are the structs with marks, each decorated as the first mark on it
says. -/
structure Module.Marked (m : Module) (marks : List (Option Mark)) : Prop where
  decorations : ∀ struct, m.blockDecorations struct = (firstMark marks struct).toList
  blocks : ∀ struct, struct ∈ m.blocks ↔ (firstMark marks struct).isSome

namespace Module.Marked

variable {L : Law} {m : Module} {marks : List (Option Mark)}

lemma reaches (h : m.Marked marks) (hL : ¬L.blocks) (hreaches : m.Reaches L m') :
    m'.Marked marks where
  decorations struct := by
    rw [hreaches.blockDecorations_eq hL]
    exact h.decorations struct
  blocks struct := by
    rw [hreaches.blocks_eq hL]
    exact h.blocks struct

lemma unmarked (h : m.Marked marks) : m.Marked (marks ++ [none]) where
  decorations struct := by
    rw [firstMark_append, h.decorations]
    cases firstMark marks struct <;> rfl
  blocks struct := by
    rw [firstMark_append, h.blocks]
    cases firstMark marks struct <;> rfl

lemma decorateBlock (h : m.Marked marks) (hd : d.isBlock = true) :
    (decorateBlock struct d m).2.Marked (marks ++ [some (struct, d)]) := by
  by_cases hmem : struct ∈ m.blocks
  · have hsome := (h.blocks struct).1 hmem
    have hsame : ∀ s, firstMark (marks ++ [some (struct, d)]) s = firstMark marks s := by
      intro s
      rw [firstMark_append]
      by_cases hs : struct = s
      · subst hs
        obtain ⟨d', hd'⟩ := Option.isSome_iff_exists.1 hsome
        rw [hd']
        rfl
      · simp [Mark.on, hs]
    rw [decorateBlock_of_mem hmem]
    exact ⟨fun s => (hsame s) ▸ h.decorations s, fun s => (hsame s) ▸ h.blocks s⟩
  · have hnone : firstMark marks struct = none := by
      rw [← Option.not_isSome_iff_eq_none, ← h.blocks]
      exact hmem
    rw [decorateBlock_of_not_mem hmem]
    refine ⟨fun s => ?_, fun s => ?_⟩
    · rw [blockDecorations_pushed, Instruction.mark?_decorate, hd, if_pos rfl, firstMark_append]
      rw [show Module.blockDecorations { m with blocks := struct :: m.blocks } s =
        _ from h.decorations s]
      by_cases hs : struct = s
      · subst hs
        rw [hnone]
        rfl
      · simp [Mark.on, hs]
    · show s ∈ struct :: m.blocks ↔ _
      rw [firstMark_append, mem_cons, h.blocks]
      by_cases hs : struct = s
      · subst hs
        simp [hnone, Mark.on]
      · simp [Mark.on, hs, Ne.symm hs]

end Module.Marked

end Shader.Assembly

namespace Shader.Emit

open List Assembly
open Regime (plain admits_plain fitsTypes_plain)

variable {d : Decoration} {marks placed : List (Option Mark)} {p p' : Progress} {depth : Nat}
  {v : IR.GlobalVariable} {a : Assembly.Module}

variable {m : IR.Module} {options : Options}

/-- How the struct of a buffer has to be decorated. -/
def requiredBlock (options : Options) : IR.AddressSpace → Decoration
  | .storage _ => if options.version.before ⟨1, 3⟩ then .bufferBlock else .block
  | _ => .block

lemma blockDecoration_eq_required (options : Options) (space : IR.AddressSpace) :
    options.blockDecoration space = requiredBlock options space := by
  cases space with
  | storage access =>
    by_cases hbefore : options.version.before ⟨1, 3⟩ = true <;>
      simp [Options.blockDecoration, Options.hasStorageBuffers, requiredBlock, hbefore]
  | _ => rfl

lemma requiredBlock_of_recent (h : options.version.before ⟨1, 3⟩ = false)
    (space : IR.AddressSpace) :
    requiredBlock options space = .block := by
  cases space with
  | storage access => simp [requiredBlock, h]
  | _ => rfl

/-- The mark of a global variable: a buffer has one, with the decoration of its address space. -/
inductive MarkOf (options : Options) (v : IR.GlobalVariable) : Option Mark → Prop where
  | buffer (struct : Id) : v.space.isBuffer = true →
      MarkOf options v (some (struct, options.blockDecoration v.space))
  | other : v.space.isBuffer = false → MarkOf options v none

/-- The instructions are variables with the given ids. -/
def AreVariables (instructions : List Instruction) (ids : List Id) : Prop :=
  Forall₂ (fun i id => ∃ pointer storage init, i = .variable pointer id storage init)
    instructions ids

/-- The ids of the global variables. -/
def Progress.globalIds (p : Progress) : List Id := p.globals.toList.map GlobalPlace.id

/-- What is true while global variables are declared: those that are declared point to the structs
of their marks, and the structs with marks are blocks.  The last of them may have no place yet. -/
structure Declared (m : IR.Module) (options : Options) (marks placed : List (Option Mark))
    (unplaced : List Id) (p : Progress) : Prop where
  keyed : p.Keyed m options
  described : p.assembly.Described {}
  marked : p.assembly.Marked marks
  places : AreVariables p.assembly.globalVariables (p.globalIds ++ unplaced)
  count : p.assembly.globalVariables.length = placed.length
  structs : ∀ k struct d, placed[k]? = some (some (struct, d)) →
    p.assembly.PointsTo k struct ∧ p.assembly.IsStruct struct

namespace Declared

variable {unplaced : List Id} {q : Progress}

section

variable (h : Declared m options marks placed unplaced p)
include h

lemma quiet (hreaches : p.assembly.Reaches (plain m options False False).toLaw q.assembly)
    (hkeyed : q.Keyed m options) (hglobals : q.globals = p.globals) :
    Declared m options marks placed unplaced q where
  keyed := hkeyed
  described := hreaches.lax.described h.described
  marked := h.marked.reaches not_false hreaches
  places := by
    rw [hreaches.globalVariables_eq not_false, Progress.globalIds, hglobals]
    exact h.places
  count := by
    rw [hreaches.globalVariables_eq not_false]
    exact h.count
  structs k struct d hk := by
    obtain ⟨hpoints, hstruct⟩ := h.structs k struct d hk
    exact ⟨hpoints.mono hreaches, hstruct.mono hreaches⟩

lemma good : (plain m options False False).Good p := ⟨trivial, h.keyed⟩

lemma step {α : Type} {act : EmitM α} {a : α}
    (hact : (plain m options False False).Obeys act) (hrun : act p = .ok a p') :
    Declared m options marks placed unplaced p' ∧
      p.assembly.Reaches (plain m options False False).toLaw p'.assembly := by
  have hlater := (hact p).of_ok hrun
  obtain ⟨hreaches, hgood⟩ := hlater.run h.good
  exact ⟨h.quiet hreaches hgood.keyed (hlater.globals not_false), hreaches⟩

lemma block (struct : Id) (hd : d.isBlock = true) :
    Declared m options (marks ++ [some (struct, d)]) placed unplaced
      (p.withAssembly (decorateBlock struct d p.assembly).2) := by
  have hreaches : p.assembly.Reaches (plain m options True False).toLaw
      (decorateBlock struct d p.assembly).2 := changes_decorateBlock trivial _ _ _
  have hvariables := hreaches.globalVariables_eq not_false
  refine ⟨h.keyed.reaches hreaches rfl, hreaches.lax.described h.described,
    h.marked.decorateBlock hd, hvariables ▸ h.places, hvariables ▸ h.count, ?_⟩
  · intro k s d' hk
    obtain ⟨hpoints, hstruct⟩ := h.structs k s d' hk
    exact ⟨hpoints.mono hreaches, hstruct.mono hreaches⟩

end

end Declared

/-- The struct that wraps the contents of a buffer is marked when it is made, and found again
after. -/
lemma declared_wrapper (h : Declared m options marks placed unplaced p)
    (hlayout : layout.block = some d) (hd : d.isBlock = true) :
    Declared m options (marks ++ [some ((Assembly.typeId (.struct layout) p.assembly).1, d)])
      placed unplaced
        (p.withAssembly (Assembly.typeId (.struct layout) p.assembly).2) ∧
      (Assembly.typeId (.struct layout) p.assembly).2.IsStruct
        (Assembly.typeId (.struct layout) p.assembly).1 := by
  have hreaches : p.assembly.Reaches (plain m options True False).toLaw
      (Assembly.typeId (.struct layout) p.assembly).2 :=
    reaches_typeId (Law.permits_of trivial) fun _ _ => trivial
  refine ⟨?_, (hreaches.lax.described h.described).isStruct (lookup_typeId _ _)⟩
  cases hlookup : p.assembly.types.lookup (.struct layout) with
  | some id =>
    have hrun : Assembly.typeId (.struct layout) p.assembly = (id, p.assembly) :=
      internType_of_lookup hlookup
    have hmem := h.described.blocks hlookup hlayout
    have hblock := h.block id hd
    rw [decorateBlock_of_mem hmem] at hblock
    rw [hrun]
    exact hblock
  | none =>
    -- the type becomes a block, and is declared, decorated further and entered
    have hblocked : p.assembly.blocked ⟨p.assembly.bound⟩ (.struct layout) =
        (decorateBlock ⟨p.assembly.bound⟩ d p.assembly).2 := by
      simp only [Assembly.Module.blocked, TypeKey.block?, hlayout]
    have hchange := change_enteredType (L := (plain m options False False).toLaw) hlookup
      (.struct layout) (Law.permits_of trivial) rfl
    rw [hblocked] at hchange
    have hafter := h.block ⟨p.assembly.bound⟩ hd
    have hentered := hafter.quiet (q := p.withAssembly (enteredType (.struct layout) _ p.assembly))
      (.single hchange) (hafter.keyed.reaches (.single hchange) rfl) rfl
    rw [show (Assembly.typeId (.struct layout) p.assembly).2 = _ from internType_of_none hlookup]
    have hid : (Assembly.typeId (.struct layout) p.assembly).1 = ⟨p.assembly.bound⟩ := by
      simp only [Assembly.typeId, internType, bind_apply, get_apply, hlookup]
      rfl
    rw [hid]
    exact hentered

lemma struct_of_shapeAt {span : UInt32}
    (hshape : shapeAt ⟨m, options, depth⟩ h = .ok (.struct members span)) :
    ∃ name, m.types.get? h = some ⟨name, .struct members span⟩ := by
  unfold shapeAt at hshape
  cases htype : m.typeAt h with
  | error error =>
    rw [show (Env.mk m options depth).module.typeAt h = _ from htype] at hshape
    cases hshape
  | ok type =>
    rw [show (Env.mk m options depth).module.typeAt h = _ from htype] at hshape
    obtain ⟨name, shape⟩ := type
    obtain rfl : shape = _ := Except.ok.inj hshape
    exact ⟨name, Regime.get?_of_typeAt htype⟩

lemma declared_variableType {unplaced : List Id} {p' : Progress}
    (h : Declared m options marks placed unplaced p) {contents pointee : Id} {wrapped : Bool}
    (hcontents : Denotes m options p.assembly.types v.type contents)
    (hrun : variableType ⟨m, options, depth⟩ v.space v.type contents p =
      .ok (pointee, wrapped) p') :
    ∃ mark, MarkOf options v mark ∧ Declared m options (marks ++ [mark]) placed unplaced p' ∧
      ∀ struct d, mark = some (struct, d) → struct = pointee ∧ p'.assembly.IsStruct struct := by
  unfold variableType at hrun
  by_cases hbuffer : v.space.isBuffer = true
  · have hd := isBlock_blockDecoration options v.space
    rw [if_pos hbuffer] at hrun
    obtain ⟨shape, p₁, hfound, hrun⟩ := bind_eq_ok.1 hrun
    obtain ⟨hshape, rfl⟩ := emitIR_eq_ok.1 hfound
    split at hrun
    · obtain ⟨_, p₂, hblock, hrun⟩ := bind_eq_ok.1 hrun
      cases hblock
      obtain ⟨hpointee, rfl⟩ := pure_eq_ok.1 hrun
      cases hpointee
      refine ⟨_, .buffer contents hbuffer, h.block contents hd, ?_⟩
      rintro _ _ ⟨⟩
      refine ⟨rfl, Assembly.Module.IsStruct.mono (L := (plain m options True False).toLaw) ?_
        (changes_decorateBlock trivial _ _ _)⟩
      obtain ⟨key, hlookup, hstruct⟩ := hcontents.lookup
      obtain ⟨layout, rfl⟩ := hstruct _ _ (struct_of_shapeAt hshape)
      exact h.described.isStruct hlookup
    · obtain ⟨layout, p₂, hwrapper, hrun⟩ := bind_eq_ok.1 hrun
      obtain ⟨hlayout, rfl⟩ := emitFault_eq_ok.1 hwrapper
      obtain ⟨id, p₃, htype, hrun⟩ := bind_eq_ok.1 hrun
      cases htype
      obtain ⟨hpointee, rfl⟩ := pure_eq_ok.1 hrun
      cases hpointee
      have hblock : layout.block = some (options.blockDecoration v.space) := by
        obtain ⟨stride, -, hlayout⟩ := except_bind_eq_ok.1 hlayout
        cases hlayout
        rfl
      obtain ⟨hdeclared, hstruct⟩ := declared_wrapper h hblock hd
      refine ⟨_, .buffer _ hbuffer, hdeclared, ?_⟩
      rintro _ _ ⟨⟩
      exact ⟨rfl, hstruct⟩
  · rw [if_neg hbuffer] at hrun
    obtain ⟨-, rfl⟩ := pure_eq_ok.1 hrun
    exact ⟨none, .other (by simpa using hbuffer),
      ⟨h.keyed, h.described, h.marked.unmarked, h.places, h.count, h.structs⟩, nofun⟩

lemma declared_newVariable {mark : Option Mark} (h : Declared m options marks placed [] p)
    {pointee pointer : Id} {storage : StorageClass} (init : Option Id) {ds : Adornment}
    (hds : ds.Plain) (hpointer : p.assembly.types.lookup (.pointer storage pointee) = some pointer)
    (hmark : ∀ struct d, mark = some (struct, d) → struct = pointee ∧ p.assembly.IsStruct struct) :
    Declared m options marks (placed ++ [mark]) [⟨p.assembly.bound⟩] (p.withAssembly
      (p.assembly.grown ds.capability? (.variable pointer ⟨p.assembly.bound⟩ storage init)
        (ds.on ⟨p.assembly.bound⟩) p.assembly.sections.debug)) := by
  set variable_ : Instruction := .variable pointer ⟨p.assembly.bound⟩ storage init with hvariable
  set a := p.assembly.grown ds.capability? variable_ (ds.on ⟨p.assembly.bound⟩)
    p.assembly.sections.debug
  have hreaches : p.assembly.Reaches (plain m options False True).toLaw a :=
    .single (.global p.assembly pointer storage init trivial hds)
  have hvariables : a.globalVariables = p.assembly.globalVariables ++ [variable_] := by
    rw [Assembly.Module.globalVariables, Assembly.Module.declarations_grown, filter_append]
    rfl
  refine ⟨h.keyed.reaches hreaches rfl, hreaches.lax.described h.described,
    h.marked.reaches not_false hreaches, ?_, ?_, fun k struct d hk => ?_⟩
  · show AreVariables a.globalVariables _
    rw [hvariables]
    exact rel_append (append_nil p.globalIds ▸ h.places) (.cons ⟨pointer, _, init, rfl⟩ .nil)
  · show a.globalVariables.length = _
    rw [hvariables, length_append, length_append, h.count]
    rfl
  · rcases Nat.lt_trichotomy k placed.length with hlt | rfl | hgt
    · rw [getElem?_append_left hlt] at hk
      obtain ⟨hpoints, hstruct⟩ := h.structs k struct d hk
      exact ⟨hpoints.mono hreaches, hstruct.mono hreaches⟩
    · rw [getElem?_concat_length] at hk
      obtain ⟨rfl, hstruct⟩ := hmark struct d (Option.some.inj hk)
      refine ⟨⟨pointer, ⟨p.assembly.bound⟩, storage, init, ?_,
        hreaches.mem_declarations (h.described.pointer hpointer)⟩,
        hstruct.mono hreaches⟩
      show a.globalVariables[placed.length]? = _
      rw [hvariables, ← h.count, getElem?_concat_length]
    · rw [getElem?_eq_none (by rw [length_append]; exact hgt)] at hk
      cases hk

/-- Declaring a global variable adds its mark, and no other. -/
lemma declared_declareGlobal {p' : Progress} (h : Declared m options marks marks [] p)
    (hrun : declareGlobal ⟨m, options, depth⟩ v p = .ok () p') :
    ∃ mark, MarkOf options v mark ∧ Declared m options (marks ++ [mark])
      (marks ++ [mark]) [] p' := by
  have henv : (plain m options False False).Admits ⟨m, options, depth⟩ := admits_plain depth
  obtain ⟨contents, p₁, htype, hrun⟩ := bind_eq_ok.1 hrun
  obtain ⟨contentsPointer, p₂, hcontentsPointer, hrun⟩ := bind_eq_ok.1 hrun
  obtain ⟨⟨pointee, wrapped⟩, p₃, hvariable, hrun⟩ := bind_eq_ok.1 hrun
  obtain ⟨pointer, p₄, hpointer, hrun⟩ := bind_eq_ok.1 hrun
  obtain ⟨init, p₅, hinit, hrun⟩ := bind_eq_ok.1 hrun
  obtain ⟨id, p₆, hfresh, hrun⟩ := bind_eq_ok.1 hrun
  obtain ⟨_, p₇, hpush, hrun⟩ := bind_eq_ok.1 hrun
  obtain ⟨_, p₈, hdecorate, hplace⟩ := bind_eq_ok.1 hrun
  have hdenotes := ((Regime.yields_typeIdWithin henv.types depth v.type p).of_ok
    htype).2 h.good
  obtain ⟨h₁, -⟩ := h.step (Regime.obeys_typeId henv.types _) htype
  obtain ⟨h₂, hreaches₂⟩ := h₁.step (.declare (changes_pointerType _ _)) hcontentsPointer
  obtain ⟨mark, hmark, h₃, hstruct⟩ :=
    declared_variableType h₂ (hdenotes.reaches hreaches₂) hvariable
  obtain ⟨h₄, hreaches₄⟩ := h₃.step (.declare (changes_pointerType _ _)) hpointer
  have hlookup : p₄.assembly.types.lookup (.pointer (options.storageClass v.space) pointee) =
    some pointer := by
    cases hpointer
    exact lookup_typeId (.pointer _ _) p₃.assembly
  obtain ⟨h₅, hreaches₅⟩ := h₄.step (Regime.sustains_globalInit (g := [.global pointee]) henv
    mem_cons_self).obeys hinit
  cases hfresh
  cases hpush
  have hstruct₅ : ∀ struct d, mark = some (struct, d) → struct = pointee ∧
    p₅.assembly.IsStruct struct :=
    fun struct d heq => ⟨(hstruct struct d heq).1,
      ((hstruct struct d heq).2.mono hreaches₄).mono hreaches₅⟩
  have h₇ := declared_newVariable h₅ init (plain_globalDecorations v)
    (hreaches₅.lookup_types hlookup) hstruct₅
  rw [decorateGlobal_eq] at hdecorate
  have hname : p₈ = Progress.withAssembly p₅ (nameTarget ⟨p₅.assembly.bound⟩ v.name
      (adorn ⟨p₅.assembly.bound⟩ (globalDecorations v)
      (({ p₅.assembly with bound := p₅.assembly.bound + 1 } :
        Assembly.Module).pushed .globals _)).2).2 := (EStateM.Result.ok.inj hdecorate).2.symm
  rw [adorn_apply] at hname
  have hnamed := changes_nameTarget (L := (plain m options False False).toLaw)
    ⟨p₅.assembly.bound⟩ v.name
  have h₈ := h₇.quiet (q := p₈) (hname ▸ hnamed _)
    (by rw [hname]; exact h₇.keyed.reaches (hnamed _) rfl) (by rw [hname]; rfl)
  obtain rfl := modify_eq_ok.1 hplace
  refine ⟨mark, hmark, h₈.keyed, h₈.described, h₈.marked, ?_, h₈.count, h₈.structs⟩
  simpa [Progress.globalIds] using h₈.places

lemma declared_forM {vs : List IR.GlobalVariable} :
      ∀ {marks} {p p'}, Declared m options marks marks [] p →
      vs.forM (declareGlobal ⟨m, options, depth⟩) p = .ok () p' →
      ∃ new, Forall₂ (MarkOf options) vs new ∧ Declared m options (marks ++ new)
        (marks ++ new) [] p' := by
  induction vs with
  | nil =>
    intro marks p p' h hrun
    obtain ⟨-, rfl⟩ := pure_eq_ok.1 hrun
    exact ⟨[], .nil, by rwa [append_nil]⟩
  | cons v vs ih =>
    intro marks p p' h hrun
    obtain ⟨_, p₁, hfirst, hrest⟩ := bind_eq_ok.1 hrun
    obtain ⟨mark, hmark, h₁⟩ := declared_declareGlobal h hfirst
    obtain ⟨new, hnew, h'⟩ := ih h₁ hrest
    refine ⟨mark :: new, .cons hmark hnew, ?_⟩
    rwa [append_cons]

lemma declared_opening : Declared m options [] [] [] (.opening m options) where
  keyed := Regime.keyed_opening
  described := by
    rw [assembly_opening]
    exact ⟨nofun, nofun, nofun, nofun, nofun⟩
  marked := by
    rw [assembly_opening]
    exact ⟨fun _ => rfl, fun _ => iff_of_false nofun nofun⟩
  places := by
    rw [assembly_opening]
    exact .nil
  count := by
    rw [assembly_opening]
    rfl
  structs := nofun

lemma declared_declareModule
    (hrun : declareModule (.of m options) (.initial (.of m options)) = .ok () p) :
    ∃ marks, Forall₂ (MarkOf options) m.globals.toList marks ∧ Declared m options marks
      marks [] p := by
  obtain ⟨_, p₁, hpreamble, hrun⟩ := bind_eq_ok.1 hrun
  obtain ⟨_, p₂, hoverrides, hrun⟩ := bind_eq_ok.1 hrun
  obtain ⟨_, p₃, hglobals, hfunctions⟩ := bind_eq_ok.1 hrun
  cases hpreamble
  obtain ⟨h₂, -⟩ := declared_opening.step
    (Regime.sustains_declareOverridesFrom (g := []) _ _ _ 0).obeys hoverrides
  obtain ⟨marks, hmarks, h₃⟩ := declared_forM h₂ hglobals
  obtain ⟨ids, p₄, hids, hset⟩ := bind_eq_ok.1 hfunctions
  obtain ⟨h₄, -⟩ := h₃.step (.mapM fun _ _ => .declare changes_freshId) hids
  obtain rfl := modify_eq_ok.1 hset
  exact ⟨marks, hmarks, h₄.keyed, h₄.described, h₄.marked, h₄.places, h₄.count, h₄.structs⟩

section

variable (h : assemble m options = .ok a)
include h

/-- A program that becomes a module was declared before; functions may add variables, but no
blocks. -/
lemma declared_of_assemble :
      ∃ p, declareModule (.of m options) (.initial (.of m options)) = .ok () p ∧
      p.assembly.Reaches (plain m options False True).toLaw a := by
  unfold assemble assembleIn at h
  cases hrun : declareModule (.of m options) (.initial (.of m options)) with
  | error fault p =>
    rw [hrun] at h
    cases h
  | ok _ p =>
    rw [hrun] at h
    obtain ⟨_, -, hdeclared⟩ := declared_declareModule hrun
    have hprogram : (plain m options False True).FitsProgram := Regime.fitsProgram_plain trivial
    obtain ⟨ids, hsize, htrying⟩ := (ends_declareModule _).of_ok hrun
    have hattained := Regime.attained_attemptFunctions hprogram (Env.depthOf m) hsize
      ⟨htrying, .refl, trivial, hdeclared.keyed⟩
    dsimp only at h
    split at h
    · cases h
      exact ⟨p, rfl, hattained.reaches⟩
    · cases h

lemma marks_of_assemble : ∃ marks, Forall₂ (MarkOf options) m.globals.toList marks ∧
      a.Marked marks ∧
      ∀ k struct d, marks[k]? = some (some (struct, d)) → a.PointsTo k struct ∧
      a.IsStruct struct := by
  obtain ⟨p, hrun, hreaches⟩ := declared_of_assemble h
  obtain ⟨marks, hmarks, hdeclared⟩ := declared_declareModule hrun
  refine ⟨marks, hmarks, hdeclared.marked.reaches not_false hreaches, fun k struct d hk => ?_⟩
  obtain ⟨hpoints, hstruct⟩ := hdeclared.structs k struct d hk
  exact ⟨hpoints.mono hreaches, hstruct.mono hreaches⟩

lemma variables_of_assemble :
      ∃ p, declareModule (.of m options) (.initial (.of m options)) = .ok () p ∧
      p.globalIds.length = m.globals.size ∧
      AreVariables (a.globalVariables.take m.globals.size) p.globalIds := by
  obtain ⟨p, hrun, hreaches⟩ := declared_of_assemble h
  obtain ⟨marks, hmarks, hdeclared⟩ := declared_declareModule hrun
  have hvariables : AreVariables p.assembly.globalVariables p.globalIds :=
    append_nil p.globalIds ▸ hdeclared.places
  have hlength : p.assembly.globalVariables.length = m.globals.size :=
    hdeclared.count.trans (hmarks.length_eq.symm.trans Array.length_toList)
  refine ⟨p, hrun, hvariables.length_eq.symm.trans hlength, ?_⟩
  rw [← hlength, ← prefix_iff_eq_take.1 hreaches.globalVariables]
  exact hvariables

end

section

variable (hmarks : Forall₂ (MarkOf options) m.globals.toList marks)
include hmarks

lemma mark_of_buffer {k : Handle .globalVariable} (hv : m.globals.get? k = some v)
    (hbuffer : v.space.isBuffer = true) :
    ∃ struct, marks[k.index]? = some (some (struct, options.blockDecoration v.space)) := by
  have hget : m.globals.toList[k.index]? = some v := by
    rw [← hv]
    exact Array.getElem?_toList
  obtain ⟨hk, rfl⟩ := List.getElem?_eq_some_iff.1 hget
  have hk' : k.index < marks.length := hmarks.length_eq ▸ hk
  have hmark := hmarks.get hk hk'
  rw [get_eq_getElem, get_eq_getElem] at hmark
  rw [getElem?_eq_getElem hk']
  generalize marks[k.index] = mark at hmark
  cases hmark with
  | buffer struct _ => exact ⟨struct, rfl⟩
  | other hother =>
    rw [hother] at hbuffer
    cases hbuffer

lemma buffer_of_mark (hmark : marks[k]? = some (some (struct, d))) :
    ∃ v, m.globals.get? ⟨k⟩ = some v ∧ v.space.isBuffer = true ∧
    d = options.blockDecoration v.space := by
  obtain ⟨hk, hmark⟩ := List.getElem?_eq_some_iff.1 hmark
  have hk' : k < m.globals.toList.length := hmarks.length_eq ▸ hk
  have hof := hmarks.get hk' hk
  rw [get_eq_getElem, get_eq_getElem, hmark] at hof
  refine ⟨_, (Array.getElem?_toList.symm.trans (getElem?_eq_getElem hk') :), ?_⟩
  cases hof with
  | buffer _ hbuffer => exact ⟨hbuffer, rfl⟩

end

lemma mark_on_eq_some (h : Mark.on struct mark = some d) : mark = some (struct, d) := by
  match mark with
  | none => cases h
  | some (target, decoration) =>
    by_cases htarget : target = struct
    · rw [Mark.on, if_pos htarget] at h
      rw [htarget, Option.some.inj h]
    · rw [Mark.on, if_neg htarget] at h
      cases h

/-- A buffer points to a struct with one block decoration, that of the first buffer that points to
it.  So it is the one that its own address space requires, if storage buffers have a storage class
of their own or all buffers that share the struct require the same. -/
theorem buffer_struct_has_one_block_decoration {a : Assembly.Module}
    (h : assemble m options = .ok a) {k : Handle .globalVariable} {v : IR.GlobalVariable}
    (hv : m.globals.get? k = some v) (hbuffer : v.space.isBuffer = true) :
    ∃ struct, a.PointsTo k.index struct ∧ a.IsStruct struct ∧
      (∃ (j : Handle .globalVariable) (w : IR.GlobalVariable), j.index ≤ k.index ∧
        m.globals.get? j = some w ∧ w.space.isBuffer = true ∧ a.PointsTo j.index struct ∧
        (∀ (i : Handle .globalVariable) (u : IR.GlobalVariable), i.index < j.index →
          m.globals.get? i = some u → u.space.isBuffer = true → ¬a.PointsTo i.index struct) ∧
        a.blockDecorations struct = [requiredBlock options w.space]) ∧
      ((options.version.before ⟨1, 3⟩ = false ∨
          ∀ (j : Handle .globalVariable) (w : IR.GlobalVariable), m.globals.get? j = some w →
            w.space.isBuffer = true → a.PointsTo j.index struct →
            requiredBlock options w.space = requiredBlock options v.space) →
        a.blockDecorations struct = [requiredBlock options v.space]) := by
  obtain ⟨marks, hmarks, hmarked, hstructs⟩ := marks_of_assemble h
  have hdisciplined := disciplined_of_assemble h
  obtain ⟨struct, hmark⟩ := mark_of_buffer hmarks hv hbuffer
  obtain ⟨hpoints, hstruct⟩ := hstructs _ _ _ hmark
  have hon : Mark.on struct (some (struct, options.blockDecoration v.space)) = some _ := if_pos rfl
  -- the struct has a mark, hence a first one
  obtain ⟨d, hfirst⟩ : ∃ d, firstMark marks struct = some d := by
    rw [← Option.isSome_iff_exists, firstMark, List.findSome?_isSome_iff]
    exact ⟨_, List.mem_of_getElem? hmark, by rw [hon]; rfl⟩
  obtain ⟨before, mark, after, rfl, hd, hbefore⟩ := List.findSome?_eq_some_iff.1 hfirst
  obtain rfl := mark_on_eq_some hd
  have hat : (before ++ some (struct, d) :: after)[before.length]? =
    some (some (struct, d)) := by simp
  obtain ⟨w, hw, hwbuffer, rfl⟩ := buffer_of_mark hmarks hat
  have hdecorations : a.blockDecorations struct = [requiredBlock options w.space] := by
    rw [hmarked.decorations, hfirst, blockDecoration_eq_required]
    rfl
  have hnotBefore : ∀ {i : Nat} {mark}, i < before.length →
      (before ++ some (struct, options.blockDecoration w.space) :: after)[i]? = some mark →
      Mark.on struct mark = none := by
    intro i mark hi hmark
    rw [List.getElem?_append_left hi] at hmark
    exact hbefore _ (List.mem_of_getElem? hmark)
  refine ⟨struct, hpoints, hstruct, ⟨⟨before.length⟩, w, ?_, hw, hwbuffer,
    (hstructs _ _ _ hat).1, ?_, hdecorations⟩, fun hsame => ?_⟩
  · refine Nat.not_lt.1 fun hlt => ?_
    cases hon.symm.trans (hnotBefore hlt hmark)
  · intro i u hi hu hubuffer hpoints'
    obtain ⟨struct', hmark'⟩ := mark_of_buffer hmarks hu hubuffer
    obtain rfl := (hstructs _ _ _ hmark').1.unique hdisciplined hpoints'
    have hon' : Mark.on struct' (some (struct', options.blockDecoration u.space)) = some _ :=
      if_pos rfl
    cases hon'.symm.trans (hnotBefore hi hmark')
  · rw [hdecorations]
    rcases hsame with hversion | hshared
    · rw [requiredBlock_of_recent hversion, requiredBlock_of_recent hversion]
    · rw [hshared ⟨before.length⟩ w hw hwbuffer (hstructs _ _ _ hat).1]

/-- A uniform buffer and a storage buffer whose contents are one struct. -/
def sharedStruct : IR.Module where
  types := .ofList [⟨none, .scalar ⟨.float, 4⟩⟩, ⟨some "S", .struct [⟨none, ⟨0⟩, none, 0⟩] 4⟩]
  globals := ⟨#[⟨none, .uniform, some ⟨0, 0⟩, ⟨1⟩, none⟩,
    ⟨none, .storage ⟨true, true⟩, some ⟨0, 1⟩, ⟨1⟩, none⟩]⟩

theorem buffer_struct_has_one_block_decoration_sharedStruct :
    ∃ a, assemble sharedStruct {} = .ok a ∧
    ∃ struct, a.PointsTo 1 struct ∧ a.IsStruct struct ∧ a.blockDecorations struct = [.block] := by
  have hsome : (assemble sharedStruct {}).toOption.isSome = true := by decide +kernel
  cases hrun : assemble sharedStruct {} with
  | error failure =>
    rw [hrun] at hsome
    cases hsome
  | ok a =>
    obtain ⟨struct, hpoints, hstruct, -, hdecorations⟩ :=
      buffer_struct_has_one_block_decoration (k := ⟨1⟩) hrun rfl rfl
    exact ⟨a, rfl, struct, hpoints, hstruct, hdecorations (.inl rfl)⟩

/-- In versions without a storage class for storage buffers, such a buffer does not get the
decoration that it requires, if its struct has another one already. -/
theorem storage_buffer_not_bufferBlock : ∃ a, assemble sharedStruct { version := ⟨1, 0⟩ } = .ok a ∧
    ∃ struct, a.PointsTo 1 struct ∧ a.blockDecorations struct = [.block] ∧
      requiredBlock { version := ⟨1, 0⟩ } (.storage ⟨true, true⟩) = .bufferBlock := by
  have hrun : (assemble sharedStruct { version := ⟨1, 0⟩ }).toOption.map
      (fun a => (a.declarations, a.blockDecorations ⟨2⟩)) = some
      ([⟨.typeFloat, [.id ⟨1⟩, .word 32]⟩, ⟨.typeStruct, [.id ⟨2⟩, .id ⟨1⟩]⟩,
        ⟨.typePointer, [.id ⟨3⟩, .word 2, .id ⟨2⟩]⟩, .variable ⟨3⟩ ⟨4⟩ .uniform none,
        .variable ⟨3⟩ ⟨5⟩ .uniform none], [.block]) := by decide +kernel
  cases hassemble : assemble sharedStruct { version := ⟨1, 0⟩ } with
  | error failure =>
    rw [hassemble] at hrun
    cases hrun
  | ok a =>
    rw [hassemble] at hrun
    obtain ⟨hdeclarations, hblocks⟩ := Prod.mk.inj (Option.some.inj hrun)
    refine ⟨a, rfl, ⟨2⟩, ⟨⟨3⟩, ⟨5⟩, .uniform, none, ?_, ?_⟩, hblocks, rfl⟩
    · rw [Assembly.Module.globalVariables, hdeclarations]
      rfl
    · rw [hdeclarations]
      decide

end Shader.Emit
