import Mathlib.Data.Nat.Nth
import Shader.Proofs.BufferBlocks
import Shader.Proofs.Composites

/-!
# The numbers of overrides

An override keeps the number that it claims; the others take the least numbers that no override
claims, in their order.  Each becomes a constant of its own that can be specialized, with the bits
of its default.
-/

variable {o : Override}

namespace Shader.Emit

open List
open Assembly (Id Instruction)
open IR (Override)

/-! ### Numbers -/

variable {i : Nat}

section

variable {claimed : List Nat} {next k : Nat}

/-- The numbers that overrides with the given ids get, from `next` on. -/
def overrideNumbers (claimed : List Nat) (next : Nat) : List (Option UInt16) → List Nat
  | [] => []
  | id :: rest =>
    let (number, next) := overrideNumber claimed next id
    number :: overrideNumbers claimed next rest

lemma length_overrideNumbers (claimed : List Nat) (next : Nat) (ids : List (Option UInt16)) :
    (overrideNumbers claimed next ids).length = ids.length := by
  induction ids generalizing next with
  | nil => rfl
  | cons id rest ih => exact congrArg (· + 1) (ih _)

/-- The least number that is not claimed is found among as many as are claimed, and one more. -/
lemma leastUnclaimed_spec (claimed : List Nat) (next : Nat) :
    leastUnclaimed claimed next ∉ claimed ∧ next ≤ leastUnclaimed claimed next ∧
      ∀ n, next ≤ n → n < leastUnclaimed claimed next → n ∈ claimed := by
  unfold leastUnclaimed
  cases hfind : (List.range' next (claimed.length + 1)).find? fun n => !claimed.contains n with
  | none =>
    have hsubset : List.range' next (claimed.length + 1) ⊆ claimed := by
      intro n hn
      simpa using List.find?_eq_none.1 hfind n hn
    have hlength := (nodup_range' 1).length_le_of_subset hsubset
    rw [length_range'] at hlength
    exact absurd hlength (Nat.not_succ_le_self _)
  | some number =>
    obtain ⟨hnot, hmem, hbefore⟩ := List.find?_range'_eq_some.1 hfind
    refine ⟨by simpa using hnot, (mem_range'_1.1 hmem).1, fun n hle hlt => ?_⟩
    simpa using hbefore n hle hlt

/-- An override that claims no number gets the least one left. -/
lemma leastUnclaimed_eq_nth (hk : Nat.count (· ∉ claimed) next = k) :
    leastUnclaimed claimed next = Nat.nth (· ∉ claimed) k ∧
      Nat.count (· ∉ claimed) (leastUnclaimed claimed next + 1) = k + 1 := by
  obtain ⟨hnot, hle, hbetween⟩ := leastUnclaimed_spec claimed next
  have hcount : Nat.count (· ∉ claimed) (leastUnclaimed claimed next) = k := by
    obtain ⟨n, hn⟩ := Nat.exists_eq_add_of_le hle
    rw [← hk, hn, Nat.count_add, Nat.add_eq_left, Nat.count_iff_forall_not]
    exact fun m hm hnot => hnot (hbetween _ (Nat.le_add_right _ _) (by omega))
  refine ⟨?_, ?_⟩
  · rw [← hcount, Nat.nth_count hnot]
  · rw [Nat.count_succ, hcount, if_pos hnot]

/-- A number that is claimed is kept, and the others get the numbers that are left, counting from
`k`. -/
lemma getElem?_overrideNumbers (ids : List (Option UInt16)) :
    ∀ {next k : Nat}, Nat.count (· ∉ claimed) next = k → ∀ {i : Nat} {id : Option UInt16},
    ids[i]? = some id →
      (overrideNumbers claimed next ids)[i]? = some (id.elim
        (Nat.nth (· ∉ claimed) (k + (ids.take i).countP Option.isNone)) UInt16.toNat) := by
  induction ids with
  | nil => exact fun _ _ _ h => nomatch h
  | cons id rest ih =>
    intro next k hk i id' hi
    cases i with
    | zero =>
      obtain rfl := Option.some.inj hi
      cases id with
      | some id => rfl
      | none => exact congrArg some (leastUnclaimed_eq_nth hk).1
    | succ i =>
      cases id with
      | some id => exact ih hk hi
      | none =>
        rw [take_succ_cons, countP_cons_of_pos rfl, ← Nat.add_assoc, Nat.add_right_comm]
        exact ih (leastUnclaimed_eq_nth hk).2 hi

lemma nth_unclaimed_le (claimed : List Nat) (k : Nat) :
    Nat.nth (· ∉ claimed) k ≤ k + claimed.length := by
  refine Nat.le_of_lt_succ (Nat.nth_lt_of_lt_count ?_)
  have hleft : {n ∈ Finset.range (k + claimed.length + 1) | n ∉ claimed} =
      Finset.range (k + claimed.length + 1) \ claimed.toFinset := by
    ext n
    simp
  have hcard := Finset.le_card_sdiff claimed.toFinset (Finset.range (k + claimed.length + 1))
  have hclaimed := claimed.toFinset_card_le
  rw [Finset.card_range] at hcard
  rw [Nat.count_eq_card_filter_range, hleft]
  omega

end

/-- No override claims the number. -/
def Unclaimed (overrides : List Override) (n : Nat) : Prop :=
  ∀ o ∈ overrides, ∀ id, o.id = some id → id.toNat ≠ n

/-- The numbers of overrides: those that are claimed are kept, and the others are the least that no
override claims. -/
structure Numbers (overrides : List Override) (numbers : List Nat) : Prop where
  length : numbers.length = overrides.length
  kept : ∀ (i : Nat) (o : Override) (id : UInt16), overrides[i]? = some o → o.id = some id →
    numbers[i]? = some id.toNat
  least : ∀ (i : Nat) (o : Override), overrides[i]? = some o → o.id = none →
    numbers[i]? = some (Nat.nth (Unclaimed overrides) ((overrides.take i).countP (·.id.isNone)))

section

variable {overrides : List Override} {numbers : List Nat} {j : Nat}

lemma unclaimed_eq (overrides : List Override) :
    Unclaimed overrides = (· ∉ overrides.filterMap fun o => o.id.map UInt16.toNat) := by
  funext n
  simp [Unclaimed]

lemma numbers_overrideNumbers (overrides : List Override) :
    Numbers overrides (overrideNumbers (overrides.filterMap fun o => o.id.map UInt16.toNat) 0
      (overrides.map Override.id)) := by
  have hat : ∀ (i : Nat) (o : Override), overrides[i]? = some o → (overrideNumbers
      (overrides.filterMap fun o => o.id.map UInt16.toNat) 0 (overrides.map Override.id))[i]? =
      some (o.id.elim
        (Nat.nth (Unclaimed overrides) ((overrides.take i).countP (·.id.isNone)))
        UInt16.toNat) := by
    intro i o ho
    have h := getElem?_overrideNumbers (overrides.map Override.id)
      (Nat.count_zero (· ∉ overrides.filterMap fun o => o.id.map UInt16.toNat))
      (i := i) (by rw [List.getElem?_map, ho]; rfl)
    rwa [Nat.zero_add, ← map_take, countP_map, ← unclaimed_eq] at h
  refine ⟨?_, fun i o id ho hid => ?_, fun i o ho hid => ?_⟩
  · rw [length_overrideNumbers, length_map]
  · rw [hat i o ho, hid]
    rfl
  · rw [hat i o ho, hid]
    rfl

/-- An override that claims no number makes the next one take a greater one. -/
lemma countP_take_lt (ho : overrides[i]? = some o) (hid : o.id = none) (hij : i < j) :
    (overrides.take i).countP (·.id.isNone) < (overrides.take j).countP (·.id.isNone) := by
  obtain ⟨hi, rfl⟩ := List.getElem?_eq_some_iff.1 ho
  have htake : (overrides.take (i + 1)).countP (·.id.isNone) =
      (overrides.take i).countP (·.id.isNone) + 1 := by
    rw [take_succ_eq_append_getElem hi, countP_append, countP_singleton, hid]
    rfl
  have hle := (take_sublist_take_left (l := overrides) (show i + 1 ≤ j from hij)).countP_le
    (p := (·.id.isNone))
  omega

namespace Numbers

variable (h : Numbers overrides numbers)
include h

lemma lt (hsize : overrides.length ≤ 2 ^ 32) : ∀ n ∈ numbers, n < 2 ^ 32 := by
  intro n hn
  obtain ⟨i, hi⟩ := mem_iff_getElem?.1 hn
  have hlt : i < overrides.length := h.length ▸ (List.getElem?_eq_some_iff.1 hi).1
  have ho := List.getElem?_eq_getElem hlt
  cases hid : overrides[i].id with
  | some id =>
    rw [Option.some.inj (hi.symm.trans (h.kept i _ id ho hid))]
    exact id.toNat_lt.trans (by decide)
  | none =>
    have hcount := countP_take_lt ho hid hlt
    have hsome : (overrides.filterMap fun o => o.id.map UInt16.toNat).length =
        overrides.countP (fun o => ¬ o.id.isNone) := by
      rw [length_filterMap_eq_countP]
      exact countP_congr fun o _ => by cases o.id <;> simp
    have htotal := overrides.length_eq_countP_add_countP (·.id.isNone)
    have hle := nth_unclaimed_le (overrides.filterMap fun o => o.id.map UInt16.toNat)
      ((overrides.take i).countP (·.id.isNone))
    rw [← unclaimed_eq, ← Option.some.inj (hi.symm.trans (h.least i _ ho hid))] at hle
    rw [take_length] at hcount
    omega

/-- The numbers of the overrides are distinct, if those the program gives are. -/
lemma nodup (hids : (overrides.filterMap Override.id).Nodup) : numbers.Nodup := by
  refine nodup_iff_getElem?_ne_getElem?.2 fun i j hij hj hsame => ?_
  rw [h.length] at hj
  have hi := hij.trans hj
  have hoi := List.getElem?_eq_getElem hi
  have hoj := List.getElem?_eq_getElem hj
  have hinfinite : {n | Unclaimed overrides n}.Infinite := by
    rw [unclaimed_eq]
    exact (finite_toSet _).infinite_compl
  -- a number that is claimed is not among those left
  have hapart : ∀ {o} {id} {k}, o ∈ overrides → o.id = some id →
      some id.toNat ≠ some (Nat.nth (Unclaimed overrides) k) := fun ho hid hsame =>
    Nat.nth_mem_of_infinite hinfinite _ _ ho _ hid (Option.some.inj hsame)
  cases hid : overrides[i].id with
  | some id =>
    rw [h.kept i _ id hoi hid] at hsame
    cases hid' : overrides[j].id with
    | some id' =>
      rw [h.kept j _ id' hoj hid'] at hsame
      have hpairs := pairwise_iff_getElem.1 (pairwise_filterMap.1 hids) i j hi hj hij
      exact hpairs id hid id' hid' (UInt16.toNat_inj.1 (Option.some.inj hsame))
    | none =>
      rw [h.least j _ hoj hid'] at hsame
      exact hapart (getElem_mem hi) hid hsame
  | none =>
    rw [h.least i _ hoi hid] at hsame
    cases hid' : overrides[j].id with
    | some id' =>
      rw [h.kept j _ id' hoj hid'] at hsame
      exact hapart (getElem_mem hj) hid' hsame.symm
    | none =>
      rw [h.least j _ hoj hid'] at hsame
      have hcounts := Nat.nth_injective hinfinite (Option.some.inj hsame)
      exact (countP_take_lt hoi hid hij).ne hcounts

end Numbers

end

end Shader.Emit

namespace Shader.IR

open List

/-- The bits of a literal of 32 bits. -/
def Literal.bits32? : Literal → Option (BitVec 32)
  | i32 value => some value.toBitVec
  | u32 value | f32 value => some value.toBitVec
  | bool _ | i64 _ | u64 _ | f64 _ => none

/-- The bits of a literal of 64 bits. -/
def Literal.bits64? : Literal → Option (BitVec 64)
  | i64 value => some value.toBitVec
  | u64 value | f64 value => some value.toBitVec
  | bool _ | i32 _ | u32 _ | f32 _ => none

/-- The constant expression comes down to the literal. -/
inductive Module.Reduces (m : Module) : Handle .expression → Literal → Prop where
  | literal {h : Handle .expression} {l : Literal} : m.constants.get? h =
    some (.literal l) → m.Reduces h l
  | constant {h value : Handle .expression} {l : Literal} : m.constants.get? h =
      some (.constant value) → m.Reduces value l → m.Reduces h l
  | zero {h : Handle .expression} {type : Handle .type} {t : Ty} {scalar : Scalar} {l : Literal} :
      m.constants.get? h = some (.zeroValue type) → m.types.get? type = some t →
      t.shape = .scalar scalar → Literal.zero? scalar = some l → m.Reduces h l

/-- The literal is the default of an override: what its initial value comes down to, or zero. -/
structure Module.Defaults (m : Module) (o : Override) (l : Literal) : Prop where
  type : ∃ t, m.types.get? o.type = some t ∧ t.shape = .scalar l.scalar
  value : (∃ h, o.init = some h ∧ m.Reduces h l) ∨ o.init = none ∧ Literal.zero? l.scalar = some l

end Shader.IR

namespace Shader.Assembly

open List
open IR (Literal Scalar)

/-! ### Instructions -/

/-- The instruction is a constant that can be specialized, and has the bits of the literal, the low
word first. -/
inductive Encodes (type id : Id) : Literal → Instruction → Prop where
  | flag (value : Bool) : Encodes type id (.bool value)
      (.result (if value then .specConstantTrue else .specConstantFalse) type id [])
  | narrow {l : Literal} {word : UInt32} : l.bits32? = some word.toBitVec →
      Encodes type id l (.result .specConstant type id [.word word])
  | wide {l : Literal} {low high : UInt32} : l.bits64? = some (high.toBitVec ++ low.toBitVec) →
      Encodes type id l (.result .specConstant type id [.word low, .word high])

lemma append_words (bits : UInt64) :
    bits.toBitVec = (bits >>> 32).toUInt32.toBitVec ++ bits.toUInt32.toBitVec := by
  have hhigh : (bits >>> 32).toUInt32.toBitVec = bits.toBitVec.extractLsb' 32 32 := by
    ext i hi
    simp
  have hlow : bits.toUInt32.toBitVec = bits.toBitVec.extractLsb' 0 32 := by
    ext i hi
    simp
  rw [hhigh, hlow, BitVec.extractLsb'_append_extractLsb'_eq_extractLsb' (show 32 = 0 + 32 from rfl)]
  exact BitVec.extractLsb'_eq_self.symm

lemma encodes_specializationInstruction (type id : Id) (l : Literal) :
    Encodes type id l (specializationInstruction type id (.ofLiteral l)) := by
  cases l with
  | bool value => cases value <;> exact .flag _
  | i32 value | u32 value | f32 value => exact .narrow rfl
  | i64 value => exact .wide (congrArg some (append_words value.toUInt64))
  | u64 value | f64 value => exact .wide (congrArg some (append_words value))

namespace Module

/-- The constants that can be specialized. -/
def specialized (m : Module) :
    List Instruction := m.declarations.filter (Opcode.specializable.contains ·.opcode)

/-- The module gets the given constants that can be specialized and the given annotations. -/
structure Gains (m m' : Module) (constants annotations : List Instruction) : Prop where
  constants : m'.specialized = m.specialized ++ constants
  annotations : m'.sections.annotations.toList = m.sections.annotations.toList ++ annotations

variable {m m' m'' : Module} {cs cs' as as' : List Instruction}

lemma Gains.refl (m : Module) : m.Gains m [] [] := ⟨(append_nil _).symm, (append_nil _).symm⟩

lemma Gains.trans (h : m.Gains m' cs as) (h' : m'.Gains m'' cs' as') :
    m.Gains m'' (cs ++ cs') (as ++ as') where
  constants := by rw [h'.constants, h.constants, append_assoc]
  annotations := by rw [h'.annotations, h.annotations, append_assoc]

lemma gains_pushTo (hs : s ≠ .globals) (hs' : s ≠ .annotations) (i : Instruction) (m : Module) :
    m.Gains (pushTo s i m).2 [] [] := by
  by_cases hold : s = .capabilities ∧ m.sections.capabilities.contains i
  · rw [show (pushTo s i m).2 = m from if_pos hold]
    exact .refl m
  · rw [show (pushTo s i m).2 = m.pushed s i from if_neg hold]
    refine ⟨?_, ?_⟩
    · rw [specialized, declarations_pushed hs, append_nil, specialized]
    · rw [annotations_pushed hs', append_nil]

lemma gains_pushTo_annotations (i : Instruction) (m : Module) :
    m.Gains (pushTo .annotations i m).2 [] [i] := ⟨(append_nil _).symm, Array.toList_push⟩

lemma gains_nameTarget (target : Id) (name : Option String) (m : Module) :
    m.Gains (nameTarget target name m).2 [] [] := by
  cases name with
  | none => exact .refl m
  | some name =>
    show m.Gains ((if m.debugNames then pushTo .debug (.name target name) else pure ()) m).2 [] []
    split
    · exact gains_pushTo (by decide) (by decide) _ m
    · exact .refl m

/-- A declaration that is new. -/
lemma Gains.declare (hdeclarations : m'.declarations = m.declarations ++ [i])
    (hannotations : m'.sections.annotations = m.sections.annotations)
    (hcs : [i].filter (Opcode.specializable.contains ·.opcode) = cs) : m.Gains m' cs [] where
  constants := by rw [specialized, hdeclarations, filter_append, hcs, specialized]
  annotations := by rw [hannotations, append_nil]

end Module

open Assembly.Module

lemma gains_scalarType (scalar : Scalar) (m : Module) : m.Gains (scalarType scalar m).2 [] [] := by
  cases hlookup : m.types.lookup (.scalar scalar) with
  | some id =>
    rw [scalarType, internType_of_lookup hlookup]
    exact .refl m
  | none =>
    have hplain : ∀ id, [(scalarDeclarator scalar).instruction id].filter
        (Opcode.specializable.contains ·.opcode) = [] := by
      intro id
      unfold scalarDeclarator
      cases scalar.kind <;> rfl
    simp only [scalarType, internType, bind_apply, get_apply, hlookup]
    -- a capability may come first
    cases widthCapability? scalar with
    | none => exact .declare Array.toList_push rfl (hplain ⟨m.bound⟩)
    | some c =>
      exact (gains_pushTo (by decide) (by decide) _ m).trans
        (.declare Array.toList_push rfl (hplain ⟨(requireCapability c m).2.bound⟩))

/-- A constant that can be specialized is new. -/
lemma gains_specialization (l : Literal) (m : Module) :
    m.Gains (specialization l m).2
      [specializationInstruction (scalarType l.scalar m).1 (specialization l m).1 (.ofLiteral l)]
        [] := by
  refine (gains_scalarType l.scalar m).trans (.declare Array.toList_push rfl ?_)
  exact filter_cons_of_pos (by simpa using (specializationInstruction_specializable _ _ _).1)

/-- The type of the constant is declared as such. -/
lemma declared_specialization (L : Law) (l : Literal) (hm : m.Described L) :
    (scalarDeclarator l.scalar).instruction (scalarType l.scalar m).1 ∈
      (specialization l m).2.declarations := by
  have hreaches : m.Reaches L (specialization l m).2 := changes_specialization l m
  have hlookup : (specialization l m).2.types.lookup (.scalar l.scalar) =
    some (scalarType l.scalar m).1 :=
    lookup_typeId (.scalar l.scalar) m
  obtain ⟨d, hd, hmem⟩ := (hreaches.described hm).types hlookup
  cases hd with
  | scalar => exact hmem

end Shader.Assembly

namespace Shader.Emit

open List
open Assembly
open IR (Literal Override)

/-! ### Defaults -/

section

variable {env : Env} {l : Literal} {name : String}

lemma reduces_of_overrideLiteralWithin (depth : Nat) :
    ∀ {h}, overrideLiteralWithin m depth h = .ok l → m.Reduces h l := by
  induction depth with
  | zero => exact fun h => nomatch h
  | succ depth ih =>
    intro h hrun
    dsimp only [overrideLiteralWithin] at hrun
    split at hrun
    · cases hrun
    · rename_i hfetch
      obtain rfl := Except.ok.inj hrun
      exact .literal (get?_of_fetch hfetch)
    · rename_i hfetch
      exact .constant (get?_of_fetch hfetch) (ih hrun)
    · rename_i hfetch
      split at hrun
      · cases hrun
      · rename_i htype
        split at hrun
        · rename_i hzero
          obtain rfl := Except.ok.inj hrun
          exact .zero (get?_of_fetch hfetch) (Regime.get?_of_typeAt htype) rfl hzero
        · cases hrun
      · cases hrun
    · cases hrun

lemma value_of_overrideDefault (hrun : overrideDefault env name l.scalar init = .ok l) :
    (∃ h, init = some h ∧ env.module.Reduces h l) ∨ init = none ∧
    Literal.zero? l.scalar = some l := by
  cases init with
  | some h => exact .inl ⟨h, rfl, reduces_of_overrideLiteralWithin _ hrun⟩
  | none =>
    dsimp only [overrideDefault] at hrun
    split at hrun
    · rename_i hzero
      exact .inr ⟨rfl, hzero.trans (congrArg some (Except.ok.inj hrun))⟩
    · cases hrun

lemma get?_of_shapeAt (hshape : shapeAt env h = .ok shape) :
    ∃ t, env.module.types.get? h = some t ∧ t.shape = shape := by
  unfold shapeAt at hshape
  cases htype : env.module.typeAt h with
  | error error =>
    rw [htype] at hshape
    cases hshape
  | ok t =>
    rw [htype] at hshape
    exact ⟨t, Regime.get?_of_typeAt htype, Except.ok.inj hshape⟩

lemma defaults_of_checkedDefault (hrun : checkedDefault env name o = .ok l) :
    env.module.Defaults o l := by
  unfold checkedDefault at hrun
  dsimp only at hrun
  split at hrun
  · rename_i shape hshape
    obtain ⟨_, hok, hrun⟩ := except_bind_eq_ok.1 hrun
    obtain rfl := Except.ok.inj hok
    split at hrun
    · rename_i scalar
      obtain ⟨default, hdefault, hrun⟩ := except_bind_eq_ok.1 hrun
      split at hrun
      · rename_i hscalar
        obtain rfl := Except.ok.inj hrun
        subst hscalar
        exact ⟨get?_of_shapeAt hshape, value_of_overrideDefault hdefault⟩
      · cases hrun
    · cases hrun
  · cases hrun

end

/-! ### Declarations -/

/-- The instruction is the constant that an override becomes. -/
def Specialized (m : IR.Module) (declarations : List Instruction) (o : Override) (id : Id)
    (i : Instruction) : Prop :=
  ∃ l type, m.Defaults o l ∧ (scalarDeclarator l.scalar).instruction type ∈ declarations ∧
    Encodes type id l i

section

variable {env : Env} {p p' : Progress} {number next : Nat}

/-- What an override adds. -/
lemma specialized_of_declareOverride (L : Law) (hp : p.assembly.Described L)
    (hrun : declareOverride env number h o p = .ok () p') :
    ∃ id i, p'.overrides = p.overrides.push id ∧
      p.assembly.Gains p'.assembly [i] [.decorate id .specId [UInt32.ofNat number]] ∧
      p.assembly.Reaches L p'.assembly ∧ p.assembly.bound ≤ id.number ∧ id.number <
        p'.assembly.bound ∧ Specialized env.module p'.assembly.declarations o id i := by
  obtain ⟨l, p₁, hdefault, hrest⟩ := bind_eq_ok.1 hrun
  obtain ⟨hchecked, rfl⟩ : checkedDefault env (o.name.getD s!"override{h.index}") o = .ok l ∧
      p₁ = p := by
    revert hdefault
    cases checkedDefault env (o.name.getD s!"override{h.index}") o with
    | ok value =>
      intro hdefault
      obtain ⟨rfl, rfl⟩ := EStateM.Result.ok.inj hdefault
      exact ⟨rfl, rfl⟩
    | error fault => exact fun hdefault => nomatch hdefault
  obtain ⟨-, rfl⟩ := EStateM.Result.ok.inj hrest
  set id := (specialization l p₁.assembly).1 with hid
  set m := (specialization l p₁.assembly).2 with hm
  have hgains :=
    (Module.gains_pushTo_annotations (.decorate id .specId [UInt32.ofNat number]) m).trans
    (Module.gains_nameTarget id (o.name.getD s!"override{h.index}") _)
  have hnames : (m.pushed .annotations (.decorate id .specId [UInt32.ofNat number])).Reaches L _ :=
    changes_nameTarget id (o.name.getD s!"override{h.index}") _
  have hbound :=
    ((extending_pushTo .annotations (.decorate id .specId [UInt32.ofNat number]) m).trans
    (extending_nameTarget id (o.name.getD s!"override{h.index}") _)).bound
  have hdeclared := declared_specialization L l hp
  rw [← Module.declarations_pushed (s := .annotations) nofun] at hdeclared
  exact ⟨id, _, rfl, (gains_specialization l _).trans hgains, (reaches_numbered l _).trans hnames,
    ((declaring_scalarType l.scalar).extending _).bound,
    Nat.lt_of_lt_of_le (Nat.lt_succ_self _) hbound, l, _, defaults_of_checkedDefault hchecked,
    hnames.mem_declarations hdeclared, encodes_specializationInstruction _ _ l⟩

/-- One constant and one decoration for each override, in their order. -/
lemma specialized_of_declareOverridesFrom (L : Law) : ∀ {next} {p}, p.assembly.Described L →
      declareOverridesFrom env claimed next overrides p = .ok () p' →
      ∃ rows, p'.overrides.toList = p.overrides.toList ++ rows.map Prod.fst ∧
        p.assembly.Gains p'.assembly (rows.map Prod.snd) (List.zipWith
          (fun row number => .decorate row.1 .specId [UInt32.ofNat number]) rows
          (overrideNumbers claimed next (overrides.map (·.2.id)))) ∧
        p.assembly.Reaches L p'.assembly ∧ (∀ row ∈ rows, p.assembly.bound ≤ row.1.number) ∧
        rows.Pairwise (·.1.number < ·.1.number) ∧
        List.Forall₂ (fun o row => Specialized env.module p'.assembly.declarations o row.1 row.2)
          (overrides.map Prod.snd) rows := by
  induction overrides with
  | nil =>
    intro next p hp hrun
    obtain ⟨-, rfl⟩ := pure_eq_ok.1 hrun
    exact ⟨[], (append_nil _).symm, .refl _, .refl, nofun, .nil, .nil⟩
  | cons o rest ih =>
    intro next p hp hrun
    obtain ⟨_, p₁, hfirst, hrest⟩ := bind_eq_ok.1 hrun
    obtain ⟨id, i, hid, hgains, hreaches, hle, hlt, hspecialized⟩ :=
      specialized_of_declareOverride L hp hfirst
    obtain ⟨rows, hids, hgains', hreaches', hle', hsorted, hrows⟩ :=
      ih (hreaches.described hp) hrest
    refine ⟨(id, i) :: rows, ?_, hgains.trans hgains', hreaches.trans hreaches', ?_, ?_, ?_⟩
    · rw [hids, hid, Array.toList_push, append_assoc]
      rfl
    · exact forall_mem_cons.2 ⟨hle, fun row hrow => (hle.trans hlt.le).trans (hle' row hrow)⟩
    · exact pairwise_cons.2 ⟨fun row hrow => hlt.trans_le (hle' row hrow), hsorted⟩
    · obtain ⟨l, type, hdefault, hdeclared, hencodes⟩ := hspecialized
      exact .cons ⟨l, type, hdefault, hreaches'.mem_declarations hdeclared, hencodes⟩ hrows

end

/-- The overrides of a program, as constants that can be specialized: their ids and instructions, in
their order, and their numbers. -/
structure SpecializesOverrides (m : IR.Module) (p : Progress) (rows : List (Id × Instruction))
    (numbers : List Nat) : Prop where
  ids : p.overrides.toList = rows.map Prod.fst
  distinct : (rows.map Prod.fst).Nodup
  constants : p.assembly.declarations.filter (Opcode.specializable.contains ·.opcode) =
    rows.map Prod.snd
  annotations : p.assembly.sections.annotations.toList = List.zipWith
    (fun row number => .decorate row.1 .specId [UInt32.ofNat number]) rows numbers
  defaults : List.Forall₂ (fun o row => Specialized m p.assembly.declarations o row.1 row.2)
    m.overrides.toList rows
  numbered : Numbers m.overrides.toList numbers
  unique : (m.overrides.toList.filterMap Override.id).Nodup → m.overrides.size ≤ 2 ^ 32 →
    (numbers.map UInt32.ofNat).Nodup

/-- Each override becomes a constant of its own that can be specialized, in their order.  It has the
type and the bits of its default, and is decorated with its number. -/
theorem overrides_specialized {env : Env} {p : Progress}
    (hrun : (do declarePreamble; declareOverrides env : EmitM Unit) (.initial env) = .ok () p) :
    ∃ rows numbers, SpecializesOverrides env.module p rows numbers := by
  obtain ⟨_, p₁, hpreamble, hoverrides⟩ := bind_eq_ok.1 hrun
  obtain ⟨-, rfl⟩ := EStateM.Result.ok.inj hpreamble
  set m₀ : Assembly.Module := { debugNames := env.options.debugNames } with hm₀
  have hstart : m₀.Gains (declarePreamble m₀).2 [] [] :=
    (Module.gains_pushTo (by decide) (by decide) _ m₀).trans (Module.gains_pushTo (by decide)
      (by decide) _ _)
  have hdescribed : (declarePreamble m₀).2.Described {} := by
    rw [show (declarePreamble m₀).2 = _ from assembly_opening env.module env.options]
    exact ⟨nofun, nofun, nofun, nofun, nofun⟩
  obtain ⟨rows, hids, hgains, -, -, hsorted, hrows⟩ :=
    specialized_of_declareOverridesFrom {} hdescribed hoverrides
  obtain ⟨hconstants, hannotations⟩ := hstart.trans hgains
  have hclaims : env.module.overrides.entries.map (·.2.id) = env.module.overrides.toList.map
    Override.id := by
    rw [← Arena.map_snd_entries, map_map]
    rfl
  rw [Arena.map_snd_entries] at hrows
  rw [hclaims] at hannotations
  have hnumbers := numbers_overrideNumbers env.module.overrides.toList
  refine ⟨rows, _, hids, ?_, hconstants, hannotations, hrows, hnumbers, fun hnodup hsize => ?_⟩
  · refine pairwise_map.2 (hsorted.imp fun hlt hsame => ?_)
    exact Nat.ne_of_lt hlt (congrArg Id.number hsame)
  · refine Nodup.map_on (fun a ha b hb hsame => ?_) (hnumbers.nodup hnodup)
    have hfits := hnumbers.lt (by simpa [Arena.size, Arena.toList] using hsize)
    have hwords := congrArg UInt32.toNat hsame
    rwa [UInt32.toNat_ofNat_of_lt' (hfits a ha), UInt32.toNat_ofNat_of_lt' (hfits b hb)] at hwords

/-- Three sizes, the first one with a number of its own and a default of 64 bits. -/
def sizesModule : IR.Module where
  types := .ofList [⟨none, .scalar .u32⟩, ⟨none, .scalar .u64⟩]
  constants := ⟨⟨#[.literal (.u64 0x100000002), .constant ⟨0⟩]⟩, #[⟨1⟩, ⟨1⟩]⟩
  overrides := ⟨#[⟨some "width", some 1, ⟨1⟩, some ⟨1⟩⟩, ⟨some "height", none, ⟨0⟩, none⟩,
    ⟨some "depth", none, ⟨0⟩, none⟩]⟩

theorem overrides_specialized_sizes : ∃ p rows numbers,
    (do declarePreamble; declareOverrides (.of sizesModule {}) : EmitM Unit)
      (.initial (.of sizesModule {})) = .ok () p ∧
    SpecializesOverrides sizesModule p rows numbers := by
  have hok : EStateM.Result.casesOn (motive := fun _ => Bool)
      ((do declarePreamble; declareOverrides (.of sizesModule {}) : EmitM Unit)
      (.initial (.of sizesModule {}))) (fun _ _ => true) (fun _ _ => false) =
      true := by decide +kernel
  cases hrun : (do declarePreamble; declareOverrides (.of sizesModule {}) : EmitM Unit)
      (.initial (.of sizesModule {})) with
  | ok _ p =>
    obtain ⟨rows, numbers, h⟩ := overrides_specialized hrun
    exact ⟨p, rows, numbers, rfl, h⟩
  | error fault p =>
    rw [hrun] at hok
    cases hok

end Shader.Emit
