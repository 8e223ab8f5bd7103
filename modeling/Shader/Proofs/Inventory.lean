import Shader.Proofs.Composites
import Shader.Proofs.Interning

/-!
# What a module declares and needs

Types that are no aggregates and constants are declared once: no two of their declarations say the
same.  What a module needs is told by its declarations and decorations, one by one, and its
capabilities are what these need, each once.

Both are invariants of elementary changes.  A change that declares something new found nothing in
the tables that would be declared in the same way, and it brings the capability that is missing.
-/

namespace Shader.Assembly

open List
open IR (Scalar)

variable {m m' : Module} {L : Law} {key key' : TypeKey} {d : Declarator} {i : Instruction}
    {id id' type type' : Id}
  {c : Option Capability} {ds is is' ds' : List Instruction} {names capabilities :
  Array Instruction} {s' : Scalar} {bits bits' : UInt64} {value value' : ConstantValue}

/-! ### Declarations that say the same -/

/-- What declares types other than arrays and structs. -/
def Opcode.plainTypes : List Opcode :=
  [typeVoid, typeBool, typeInt, typeFloat, typeVector, typeMatrix, typePointer, typeFunction]

/-- What a declaration says of its result: all operands but the result. -/
def Instruction.signature? (i : Instruction) : Option (Opcode × List Operand) :=
  if i.opcode ∈ Opcode.plainTypes then some (i.opcode, i.operands.tail)
  else if i.opcode ∈ Opcode.fixedConstants then some (i.opcode, i.operands.eraseIdx 1)
  else none

/-- The signatures of the declarations. -/
def Module.signatures (m : Module) : List (Opcode × List Operand) :=
  m.declarations.filterMap Instruction.signature?

lemma ofNat_bits_inj {s s' : Scalar} (h : UInt32.ofNat s.bits = UInt32.ofNat s'.bits) :
    s.width = s'.width := by
  have hs := s.width.toNat_lt
  have hs' := s'.width.toNat_lt
  have hbits := congrArg UInt32.toNat h
  simp only [Scalar.bits, UInt32.toNat_ofNat'] at hbits hs hs'
  exact UInt8.toNat_inj.1 (by omega)

lemma scalarDeclarator_inj (hs : L.Narrow s) (hs' : L.Narrow s') (hwide : ¬L.wide)
    (h : scalarDeclarator s = scalarDeclarator s') : s = s' := by
  obtain ⟨kind, width⟩ := s
  obtain ⟨kind', width'⟩ := s'
  have hwidth : width = width' → kind = kind' → (⟨kind, width⟩ : Scalar) = ⟨kind', width'⟩ := by
    rintro rfl rfl
    rfl
  cases kind <;> cases kind' <;> simp [scalarDeclarator, Opcode.typeBool, Opcode.typeInt,
    Opcode.typeFloat] at h
  · exact hwidth (((hs rfl).resolve_left hwide).trans ((hs' rfl).resolve_left hwide).symm) rfl
  all_goals exact hwidth (ofNat_bits_inj h) rfl

/-- A type is known by its declarator. -/
lemma TypeKey.Declares.inj (h : key.Declares m d) (h' : key'.Declares m d) (htidy : m.tables.Tidy)
    (hkey : L.Permits key) (hkey' : L.Permits key') (hwide : ¬L.wide)
    (hd : d.opcode ∈ Opcode.plainTypes) :
    key = key' := by
  have hscalar (s : Scalar) : (scalarDeclarator s).opcode ∈ [Opcode.typeBool, .typeInt,
    .typeFloat] := by
    unfold scalarDeclarator
    cases s.kind <;> simp
  generalize hd' : d = d' at h'
  -- The opcode tells of which kind the type is.
  cases h <;> cases h' <;> first
    | exact absurd (congrArg Declarator.opcode hd') (by dsimp only; decide)
    | exact absurd hd (by dsimp only; decide)
    | exact absurd (hd' ▸ hscalar _) (by dsimp only; decide)
    | simp only [Declarator.mk.injEq, cons.injEq, Operand.id.injEq, Operand.word.injEq, true_and,
    and_true] at hd'
    | skip
  case void.void => rfl
  case scalar.scalar s s' => rw [scalarDeclarator_inj (hkey s rfl) (hkey' s' rfl) hwide hd']
  case vector.vector hs _ _ _ hs' =>
    obtain ⟨rfl, rfl⟩ := hd'
    obtain rfl := TypeKey.scalar.inj ((value_eq_iff htidy.typeIds hs hs').1 rfl)
    rfl
  case matrix.matrix hv _ _ _ _ hv' =>
    obtain ⟨rfl, rfl⟩ := hd'
    obtain ⟨rfl, rfl⟩ := TypeKey.vector.inj ((value_eq_iff htidy.typeIds hv hv').1 rfl)
    rfl
  case pointer.pointer storage _ storage' _ =>
    obtain ⟨hword, rfl⟩ := hd'
    rw [show storage = storage' by cases storage; cases storage'; simpa using hword]
  case function.function =>
    obtain ⟨rfl, hids⟩ := hd'
    rw [map_injective_iff.2 (fun _ _ => Operand.id.inj) hids]

lemma wideOperands_inj (h : wideOperands bits = wideOperands bits') : bits = bits' := by
  simp only [wideOperands, cons.injEq, Operand.word.injEq, and_true] at h
  have hlow := congrArg UInt32.toNat h.1
  have hhigh := congrArg UInt32.toNat h.2
  have hbits := bits.toNat_lt
  have hbits' := bits'.toNat_lt
  simp [Nat.shiftRight_eq_div_pow] at hlow hhigh
  exact UInt64.toNat_inj.1 (by omega)

/-- A constant is known by its type and what is said of it. -/
lemma constantInstruction_inj {id : Id} (hvalue : value.Normal) (hvalue' : value'.Normal)
    (h : (constantInstruction type id value).signature? =
      (constantInstruction type' id' value').signature?) :
      type = type' ∧ value = value' := by
  have hsignature {type id : Id} {value : ConstantValue} (hvalue : value.Normal) :
      (constantInstruction type id value).signature? =
      some ((constantInstruction type id value).opcode,
        .id type :: (constantInstruction type id value).operands.drop 2) := by
    cases value with
    | bool b =>
      cases b with
      | false => exact absurd rfl hvalue.ne_false
      | true => rfl
    | _ => rfl
  rw [hsignature hvalue, hsignature hvalue', Option.some.injEq, Prod.mk.injEq, cons.injEq] at h
  obtain ⟨hopcode, htype, hrest⟩ := h
  refine ⟨Operand.id.inj htype, ?_⟩
  rcases value with (_ | _) | bits | bits | parts | _ | _ <;>
    rcases value' with (_ | _) | bits' | bits' | parts' | _ | _ <;> first
    | rfl
    | exact absurd rfl hvalue.ne_false
    | exact absurd rfl hvalue'.ne_false
    | exact absurd hopcode (by dsimp only [constantInstruction, Instruction.result]; decide)
    | (have hlength := congrArg length hrest
       simp [constantInstruction, wideOperands, Instruction.result] at hlength
       done)
    | skip
  case word.word => rw [Operand.word.inj (cons.inj hrest).1]
  -- An explicit zero is declared like the word zero, which is no normal value.
  case word.explicitZero =>
    exact absurd (congrArg _ (Operand.word.inj (cons.inj hrest).1)) hvalue.ne_zero
  case explicitZero.word =>
    exact absurd (congrArg _ (Operand.word.inj (cons.inj hrest).1).symm) hvalue'.ne_zero
  case wide.wide => rw [wideOperands_inj hrest]
  case composite.composite => rw [map_injective_iff.2 (fun _ _ => Operand.id.inj) hrest]

/-! ### Nothing is declared twice -/

lemma signature?_type (h : key.Declares m d) (id : Id) :
    (d.instruction id).signature? = if d.opcode ∈ Opcode.plainTypes then some (d.opcode, d.operands)
      else none := by
  have huntyped : ∀ o ∈ Opcode.fixedConstants, Opcode.untyped.contains o = false := by decide
  by_cases hd : d.opcode ∈ Opcode.plainTypes
  · rw [if_pos hd]
    exact if_pos hd
  · rw [if_neg hd]
    exact (if_neg hd).trans (if_neg fun hd => by cases h.untyped.symm.trans (huntyped _ hd))

variable {s : Opcode × List Operand}

lemma fst_signature? (h : i.signature? = some s) : s.1 = i.opcode := by
  unfold Instruction.signature? at h
  split at h
  · exact (Option.some.inj h) ▸ rfl
  · split at h
    · exact (Option.some.inj h) ▸ rfl
    · cases h

lemma signature?_specialization (type id : Id) (value : ConstantValue) :
    (specializationInstruction type id value).signature? = none := by
  unfold specializationInstruction
  split <;> rfl

/-- What has a signature is a type or a constant of the tables. -/
lemma Module.Accounts.signature (h : m.Accounts L i) (hs : i.signature? = some s) :
    (∃ key id d, m.types.lookup key = some id ∧ key.Declares m d ∧ s = (d.opcode, d.operands) ∧
      d.opcode ∈ Opcode.plainTypes) ∨
    ∃ key id, (key, id) ∈ m.constants ∧ key.value.Normal ∧
      (constantInstruction key.type id key.value).signature? = some s := by
  cases h with
  | @type key id d hid hd hi =>
    rw [hi, signature?_type hd] at hs
    split at hs
    · exact .inl ⟨key, id, d, hid, hd, (Option.some.inj hs).symm, ‹_›⟩
    · cases hs
  | @constant key id hid hnormal hi => exact .inr ⟨key, id, hid, hnormal, hi ▸ hs⟩
  | specialization type value _ hi =>
    cases (signature?_specialization type _ value).symm.trans (hi ▸ hs)
  | global _ _ _ _ _ hi => rw [hi] at hs; cases hs

/-- No change declares anything under a signature that is taken. -/
lemma Module.Change.signatures (hchange : m.Change L m') (hwide : ¬L.wide) (htidy : m.tables.Tidy)
    (hm : m.Described L) (h : m.signatures.Nodup) : m'.signatures.Nodup := by
  have hdisjoint : ∀ o ∈ Opcode.plainTypes, o ∉ Opcode.fixedConstants := by decide
  have hgrown {c : Option Capability} {i : Instruction} {ds : List Instruction}
      {names : Array Instruction} (hi : ∀ s, i.signature? = some s → ∀ j ∈ m.declarations,
      j.signature? ≠ some s) :
      (m.grown c i ds names).signatures.Nodup := by
    rw [Module.signatures, Module.declarations_grown, filterMap_append]
    refine h.append ?_ ?_
    · rw [filterMap_cons]
      split <;> simp
    · intro s hs hs'
      obtain ⟨j, hj, hs⟩ := mem_filterMap.1 hs
      obtain ⟨_, hi', hnew⟩ := mem_filterMap.1 hs'
      obtain rfl := mem_singleton.1 hi'
      exact hi s hnew j hj hs
  -- only new types and constants have signatures, and their keys were not in the tables
  cases hchange with
  | push i _ _ hglobals => rwa [Module.signatures, Module.declarations_pushed hglobals]
  | @type key d _ names hnone hdeclares hpermits =>
    refine hgrown fun s hs j hj hs' => ?_
    rw [signature?_type hdeclares] at hs
    split at hs
    · cases hs
      rcases (hm.declarations j hj).signature hs' with ⟨key', id, d', hid, hd', heq, -⟩ | ⟨key', id,
        -, hnormal, hs⟩
      · obtain rfl : d = d' := by cases d; cases d'; simp_all
        rw [hd'.inj hdeclares htidy (hm.permits hid) hpermits hwide ‹_›, hnone] at hid
        cases hid
      · exact hdisjoint _ ‹_› (fst_signature? hs ▸ (constantInstruction_fixed _ _
          hnormal.ne_false).1)
    · cases hs
  | @constant key hnone hnormal =>
    refine hgrown fun s hs j hj hs' => ?_
    rcases (hm.declarations j hj).signature hs' with ⟨_, _, d, -, -, heq, hd⟩ | ⟨key', id, hid,
      hnormal', hs''⟩
    · have hopcode : d.opcode = _ := (congrArg Prod.fst heq).symm.trans (fst_signature? hs)
      exact hdisjoint _ hd (hopcode ▸ (constantInstruction_fixed _ _ hnormal.ne_false).1)
    · obtain ⟨htype, hvalue⟩ := constantInstruction_inj hnormal' hnormal (hs''.trans hs.symm)
      obtain rfl : key' = key := by cases key; cases key'; simp_all
      simpa using lookup_eq_none_iff.1 hnone _ hid
  | specialization => exact hgrown fun s hs => by cases (signature?_specialization ..).symm.trans hs
  | global => exact hgrown nofun
  | _ => exact h

lemma Module.Described.ne_constantFalse (h : m.Described L) :
    ∀ i ∈ m.declarations, i.opcode ≠ .constantFalse := by
  intro i hi hopcode
  cases h.declarations i hi with
  | @type key id d _ hd hi =>
    have huntyped := hd.untyped
    rw [show d.opcode = _ from (congrArg Instruction.opcode hi).symm.trans hopcode] at huntyped
    cases huntyped
  | constant _ hnormal hi =>
    rw [hi] at hopcode
    exact absurd (hopcode ▸ (constantInstruction_fixed _ _ hnormal.ne_false).1) (by decide)
  | specialization type value _ hi =>
    rw [hi] at hopcode
    unfold specializationInstruction at hopcode
    split at hopcode <;> exact absurd hopcode (by dsimp only [Instruction.result]; decide)
  | global _ _ _ _ _ hi =>
    rw [hi] at hopcode
    exact absurd hopcode (by dsimp only [Instruction.variable, Instruction.result]; decide)

/-! ### What declarations and decorations need -/

/-- The instruction that asks for a capability. -/
def Capability.instruction (c : Capability) : Instruction := ⟨.capability, [.word c.word]⟩

/-- The capability that a declaration needs: one for numbers of an unusual width. -/
def Instruction.needs? (i : Instruction) : Option Capability :=
  match i.operands with
  | .id _ :: .word width :: _ =>
    if i.opcode = .typeFloat then
      if width = 16 then some .float16 else if width = 64 then some .float64 else none
    else if i.opcode = .typeInt then
      if width = 8 then some .int8 else if width = 16 then some .int16 else if width = 64 then some
        .int64 else none
    else none
  | _ => none

/-- The decoration of the number of a sample. -/
def Instruction.sampled (id : Id) :
    Instruction := .decorate id .builtIn [BuiltInVariable.sampleId.word]

/-- Declarations and annotations need a capability. -/
def Needs (declarations annotations : List Instruction) (c : Capability) : Prop :=
  (∃ i ∈ declarations, i.needs? = some c) ∨ c = .sampleRateShading ∧ ∃ id, .sampled id ∈ annotations

/-- The capabilities are what the declarations and the annotations need. -/
structure Exact (capabilities declarations annotations : List Instruction) : Prop where
  first : capabilities.head? = some Capability.shader.instruction
  nodup : capabilities.Nodup
  needed : ∀ i, i ∈ capabilities ↔
    ∃ c : Capability, i = c.instruction ∧ (c = .shader ∨ Needs declarations annotations c)
  /-- Only variables are numbers of samples. -/
  decorated : ∀ id, .sampled id ∈ annotations →
    ∃ pointer storage init, .variable pointer id storage init ∈ declarations

/-- The capabilities of a module are what it needs. -/
abbrev Module.Exact (m : Module) : Prop :=
  Assembly.Exact m.sections.capabilities.toList m.declarations m.sections.annotations.toList

lemma needs_append {c : Capability} :
    Needs (is ++ is') (ds ++ ds') c ↔ Needs is ds c ∨ Needs is' ds' c := by
  simp only [Needs, mem_append, or_and_right, exists_or, and_or_left]
  exact or_or_or_comm

lemma needs?_type (h : key.Declares m d) (id : Id) :
    (d.instruction id).needs? = key.capability? := by
  cases h with
  | scalar s =>
    obtain ⟨kind, width⟩ := s
    have hwidth := width.toNat_lt
    have hbits (n : Nat) (hn : n < 256) : UInt32.ofNat (width.toNat * 8) = UInt32.ofNat (n * 8) ↔
      width.toNat = n := by
      rw [← UInt32.toNat_inj, UInt32.toNat_ofNat', UInt32.toNat_ofNat']
      omega
    have h8 : UInt32.ofNat (width.toNat * 8) = 8 ↔ _ := hbits 1 (by decide)
    have h16 : UInt32.ofNat (width.toNat * 8) = 16 ↔ _ := hbits 2 (by decide)
    have h64 : UInt32.ofNat (width.toNat * 8) = 64 ↔ _ := hbits 8 (by decide)
    have hne : Opcode.typeInt ≠ .typeFloat := by decide
    unfold TypeKey.capability? widthCapability?
    cases kind <;> simp only [Declarator.instruction, scalarDeclarator, Instruction.needs?,
      Scalar.bits, h8, h16, h64, if_neg hne, if_true] <;> generalize width.toNat = n <;>
      obtain _ | _ | _ | _ | _ | _ | _ | _ | _ | n := n <;> rfl
  | struct layout => obtain ⟨_, _ | _, _⟩ := layout <;> rfl
  | _ => rfl

lemma decorate_eq_sampled {d : Decoration × Option UInt32} :
    Instruction.decorate id d.1 d.2.toList = .sampled id' ↔ id = id' ∧ d = sampleNumber := by
  obtain ⟨⟨word⟩, argument⟩ := d
  cases argument <;> simp [Instruction.decorate, Instruction.sampled, sampleNumber, Operand.words,
    Decoration.builtIn]

lemma decorate_ne_sampled {d : Decoration} (hd : d ≠ .builtIn) (argument : Option UInt32)
    (id id' : Id) :
    Instruction.decorate id d argument.toList ≠ .sampled id' :=
  fun heq => hd (congrArg Prod.fst ((decorate_eq_sampled (d := (d, argument))).1 heq).2)

lemma withCapability_cases (capabilities : Array Instruction) (c : Option Capability) :
    (withCapability capabilities c = capabilities ∧ ∀ c', c = some c' → c'.instruction ∈
      capabilities.toList) ∨
    ∃ c', c = some c' ∧ c'.instruction ∉ capabilities.toList ∧
      withCapability capabilities c = capabilities.push c'.instruction := by
  cases c with
  | none => exact .inl ⟨rfl, nofun⟩
  | some c =>
    by_cases hmem : c.instruction ∈ capabilities
    · refine .inl ⟨if_pos hmem, ?_⟩
      rintro _ ⟨⟩
      exact Array.mem_toList_iff.2 hmem
    · exact .inr ⟨c, rfl, mt Array.mem_toList_iff.1 hmem, if_neg hmem⟩

/-- What is new brings what it needs. -/
lemma Exact.extend {declarations annotations is : List Instruction}
    (h : Exact capabilities.toList declarations annotations)
    (hneeds : ∀ c', c = some c' ↔ Needs is ds c')
    (hds : ∀ id, .sampled id ∈ ds → ∃ pointer storage init, .variable pointer id
      storage init ∈ is) :
    Exact (withCapability capabilities c).toList (declarations ++ is) (annotations ++ ds) := by
  have hcapabilities : (withCapability capabilities c).toList.head? =
      some Capability.shader.instruction ∧ (withCapability capabilities c).toList.Nodup ∧ ∀ i,
      i ∈ (withCapability capabilities c).toList ↔
        i ∈ capabilities.toList ∨ ∃ c', c = some c' ∧ i = c'.instruction := by
    rcases withCapability_cases capabilities c with ⟨heq, hmem⟩ | ⟨c', rfl, hmem, heq⟩
    · rw [heq]
      refine ⟨h.first, h.nodup, fun i => ⟨.inl, ?_⟩⟩
      rintro (hi | ⟨c', hc, rfl⟩)
      · exact hi
      · exact hmem c' hc
    · rw [heq, Array.toList_push, head?_append, h.first]
      refine ⟨rfl, h.nodup.append (.cons nofun .nil) (disjoint_singleton.2 hmem), fun i => ?_⟩
      simp
  obtain ⟨hfirst, hnodup, hmem⟩ := hcapabilities
  refine ⟨hfirst, hnodup, fun i => ?_, fun id hid => ?_⟩
  · simp only [hmem, h.needed, needs_append, hneeds]
    constructor
    · rintro (⟨c', rfl, hc | hc⟩ | ⟨c', hc, rfl⟩)
      · exact ⟨c', rfl, .inl hc⟩
      · exact ⟨c', rfl, .inr (.inl hc)⟩
      · exact ⟨c', rfl, .inr (.inr hc)⟩
    · rintro ⟨c', rfl, hc | hc | hc⟩
      · exact .inl ⟨c', rfl, .inl hc⟩
      · exact .inl ⟨c', rfl, .inr hc⟩
      · exact .inr ⟨c', hc, rfl⟩
  · rcases mem_append.1 hid with hid | hid
    · obtain ⟨pointer, storage, init, hmem⟩ := h.decorated id hid
      exact ⟨pointer, storage, init, mem_append_left _ hmem⟩
    · obtain ⟨pointer, storage, init, hmem⟩ := hds id hid
      exact ⟨pointer, storage, init, mem_append_right _ hmem⟩

namespace Module.Exact

lemma grown (h : m.Exact) (hneeds : ∀ c', c = some c' ↔ Needs [i] ds c')
    (hds : ∀ id, .sampled id ∈ ds → ∃ pointer storage init, .variable pointer id
      storage init ∈ [i]) :
    (m.grown c i ds names).Exact := by
  rw [Module.Exact, declarations_grown]
  show Assembly.Exact _ _ (m.sections.annotations ++ ds.toArray).toList
  rw [Array.toList_append]
  exact h.extend hneeds hds

/-- Most declarations are not decorated in a way that needs something. -/
lemma grown_plain (h : m.Exact) (hi : i.needs? = c) (hds : ∀ id, .sampled id ∉ ds) :
    (m.grown c i ds names).Exact := by
  refine h.grown (fun c' => ?_) fun id hid => absurd hid (hds id)
  simp [Needs, hi, hds]

lemma change (h : m.Exact) (hchange : m.Change L m') : m'.Exact := by
  cases hchange with
  | push i hcapabilities hannotations hglobals =>
    rw [Module.Exact, capabilities_pushed hcapabilities, annotations_pushed hannotations,
      declarations_pushed hglobals]
    exact h
  | @block struct d =>
    have hne (id : Id) : .sampled id ≠ Instruction.decorate struct d [] := fun heq =>
      nomatch (decorate_eq_sampled (d := (d, none))).1 heq.symm
    have hblock : Assembly.Exact (withCapability m.sections.capabilities none).toList
      (m.declarations ++ []) _ :=
      h.extend (by simp [Needs, hne]) fun id hid => absurd (mem_singleton.1 hid) (hne id)
    rw [append_nil, ← Array.toList_push] at hblock
    exact hblock
  | type names _ hdeclares _ _ hds =>
    refine h.grown_plain (needs?_type hdeclares _) fun id hid => ?_
    rcases hds _ hid with ⟨_, stride, heq⟩ | ⟨_, _, _, _, heq⟩
    · exact decorate_ne_sampled (by decide) (some stride) _ id heq.symm
    · exact absurd (congrArg Instruction.opcode heq)
        (by
          dsimp only [Instruction.sampled, Instruction.decorate, Instruction.memberDecorate]
          decide)
  | constant => exact h.grown_plain (by unfold constantInstruction; split <;> rfl) nofun
  | specialization type value number =>
    refine h.grown_plain (by unfold specializationInstruction; split <;> rfl) fun id hid => ?_
    obtain ⟨n, -, heq⟩ := mem_map.1 hid
    exact decorate_ne_sampled (by decide) (some n) _ id heq
  | @global pointer storage init ds =>
    refine h.grown (fun c' => ⟨fun hc => ?_, ?_⟩) fun id hid => ?_
    · unfold Adornment.capability? at hc
      split at hc
      · cases hc
        exact .inr ⟨rfl, _, mem_map.2 ⟨sampleNumber, ‹_›, rfl⟩⟩
      · cases hc
    · rintro (⟨j, hj, hc⟩ | ⟨rfl, id, hid⟩)
      · cases mem_singleton.1 hj
        cases hc
      · obtain ⟨d, hd, heq⟩ := mem_map.1 hid
        obtain ⟨-, rfl⟩ := decorate_eq_sampled.1 heq
        exact if_pos hd
    · obtain ⟨d, hd, heq⟩ := mem_map.1 hid
      obtain ⟨rfl, -⟩ := decorate_eq_sampled.1 heq
      exact ⟨pointer, storage, init, mem_cons_self⟩
  | _ => exact h

end Module.Exact

end Shader.Assembly

namespace Shader.Emit

open Assembly

variable {m : IR.Module} {options : Options} {a : Assembly.Module}

/-- The module of a program is reached from the preamble, where booleans that are not wide stay
so. -/
lemma reaches_of_assemble (wide : Prop) (h : assemble m options = .ok a)
    (hnarrow : ∀ {h type}, m.types.get? h = some type → ∀ scalar, type.shape.scalar? = some scalar →
      (Regime.plain m options True True wide).Narrow scalar) :
    (Progress.opening m options).assembly.Reaches (Regime.plain m options True True wide).toLaw
      a := by
  have hprogram : (Regime.plain m options True True wide).FitsProgram :=
    Regime.fitsProgram_plain trivial hnarrow
  obtain ⟨p, _, hattained, rfl⟩ := Regime.run_assemble hprogram trivial trivial h
  exact hattained.reaches

/-- Types other than arrays and structs, and constants, are declared once, if all booleans are one
wide, and no constant is declared as false. -/
theorem declarations_not_repeated
    (hbool : ∀ h type scalar, m.types.get? h = some type → type.shape.scalar? = some scalar →
      scalar.kind = .bool → scalar.width = 1) (h : assemble m options = .ok a) :
    a.signatures.Nodup ∧ ∀ i ∈ a.declarations, i.opcode ≠ .constantFalse := by
  have hreaches := reaches_of_assemble False h fun hget scalar hscalar hkind =>
    .inr (hbool _ _ scalar hget hscalar hkind)
  have hopening : (Progress.opening m options).assembly.tables.Tidy ∧
      (Progress.opening m options).assembly.Described
        (Regime.plain m options True True False).toLaw ∧
      (Progress.opening m options).assembly.signatures.Nodup := by
    rw [assembly_opening]
    exact ⟨⟨.nil, nofun, .nil, .nil⟩, ⟨nofun, nofun, nofun, nofun, nofun⟩, .nil⟩
  obtain ⟨-, hdescribed, hnodup⟩ :=
    hreaches.keeps (P := fun m' => m'.tables.Tidy ∧ m'.Described _ ∧ m'.signatures.Nodup)
    (fun hchange hm => ⟨((show Assembly.Module.Reaches _ _ _ from .single hchange).tidy hm.1).1,
      hchange.described hm.2.1, hchange.signatures id hm.1 hm.2.1 hm.2.2⟩) hopening
  exact ⟨hnodup, hdescribed.ne_constantFalse⟩

/-- A variable that holds a short number, next to booleans. -/
def halfFloat : IR.Module where
  types := .ofList [⟨none, .scalar ⟨.float, 2⟩⟩, ⟨none, .scalar .bool⟩]
  globals := ⟨#[⟨none, .private, none, ⟨0⟩, none⟩]⟩

lemma assemble_halfFloat : ∃ a, assemble halfFloat {} = .ok a ∧
    Capability.float16.instruction ∈ a.sections.capabilities.toList := by
  have hsome : ((assemble halfFloat {}).toOption.any fun a =>
    decide (Capability.float16.instruction ∈ a.sections.capabilities.toList)) =
      true := by decide +kernel
  cases hrun : assemble halfFloat {} with
  | error failure =>
    rw [hrun] at hsome
    cases hsome
  | ok a =>
    rw [hrun] at hsome
    exact ⟨a, rfl, of_decide_eq_true hsome⟩

theorem declarations_not_repeated_halfFloat :
    ∃ a, assemble halfFloat {} = .ok a ∧ a.signatures.Nodup := by
  obtain ⟨a, hrun, -⟩ := assemble_halfFloat
  refine ⟨a, hrun, (declarations_not_repeated ?_ hrun).1⟩
  rintro ⟨_ | _ | n⟩ type scalar hget hscalar hkind
  · cases hget
    cases hscalar
    cases hkind
  · cases hget
    cases hscalar
    rfl
  · cases hget

/-- The capabilities of a module are what it needs, each once, after the one that all programs
need. -/
theorem capabilities_exact (h : assemble m options = .ok a) : a.Exact := by
  have hopening : (Progress.opening m options).assembly.Exact := by
    rw [assembly_opening]
    refine ⟨rfl, .cons nofun .nil, fun i => ?_, nofun⟩
    simp [Assembly.Module.declarations, Capability.instruction, Needs]
  exact (reaches_of_assemble True h fun _ _ _ _ => .inl trivial).keeps
    (fun hchange hm => hm.change hchange) hopening

theorem capabilities_exact_halfFloat : ∃ a, assemble halfFloat {} = .ok a ∧ a.Exact ∧
    Capability.float16.instruction ∈ a.sections.capabilities.toList := by
  obtain ⟨a, hrun, hmem⟩ := assemble_halfFloat
  exact ⟨a, hrun, capabilities_exact hrun, hmem⟩

end Shader.Emit
