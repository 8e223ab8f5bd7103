import Shader.Proofs.Change

/-!
# Types and constants are declared once

A request asks a module for a type, a constant, a block decoration or just a new id.  Whatever is
asked for, and in whatever order, equal requests get equal answers and different ones different
answers.  What equal means depends on the kind of request: types are known by their structure,
constants by their type and their value, where false, zero and composites of nulls are the null of
their type.

After every request it is known where each request so far finds its answer (`Recalled`).  A table
that grows never moves what is in it, so that this stays true (`Recalled.mono`), and the answers
can be compared through the keys that were asked for.

Ids are numbers without a bound here.  As long as there are fewer than 2 ^ 32, what is said of them
holds of their words (`Serves.word_eq_iff`).  Constants and nulls are found in one table; with sets
of their ids beside it, which grow where a constant is declared, the outcome is the same
(`Cache.constant_eq`).
-/

namespace Shader.Assembly

open List
open IR (Scalar Literal)

variable {α β : Type} {k k' : TypeKey} {value : ConstantValue} {m m' : Module} {v w : UInt32}
    {l l' : Literal}

/-! ### Requests -/

/-- What a module can be asked for. -/
inductive Request where
  | type (key : TypeKey)
  | constant (type : Id) (value : ConstantValue)
  | literal (literal : Literal)
  | null (type : Id)
  | index (value : UInt32)
  | specialization (default : Literal)
  | block (struct : Id) (decoration : Decoration)
  | id

/-- What the answer to a request is the id of. -/
inductive Subject where
  | type
  | constant
  | specialization
deriving DecidableEq

namespace Request

def subject? : Request → Option Subject
  | type _ => some .type
  | constant .. | literal _ | null _ | index _ => some .constant
  | specialization _ => some .specialization
  | block .. | id => none

/-- Answers a request; a decoration has no answer. -/
def serve : Request → DeclareM (Option Id)
  | type key => some <$> typeId key
  | constant t value => some <$> Assembly.constant t value
  | literal l => some <$> literalConstant l
  | null t => some <$> nullConstant t
  | index value => some <$> indexConstant value
  | specialization default => some <$> Assembly.specialization default
  | block struct decoration => do
    decorateBlock struct decoration
    return none
  | id => some <$> freshId

/-- The ids that a constant is asked to be made of. -/
def parts : Request → List Id
  | constant _ value => value.parts
  | _ => []

/-- The parts of a composite were issued. -/
def Admissible (m : Module) (r : Request) : Prop := ∀ part ∈ r.parts, part.number < m.bound

instance (m : Module) (r : Request) : Decidable (r.Admissible m) :=
  inferInstanceAs (Decidable (∀ part ∈ r.parts, part.number < m.bound))

end Request

/-- The requests that lead from an empty module to a module, each with its answer, the first one
first. -/
inductive Serves : List (Request × Option Id) → Module → Prop where
  | nil (debugNames : Bool) : Serves [] { debugNames }
  | snoc {history : List (Request × Option Id)} {m : Module} {r : Request} :
      Serves history m → r.Admissible m → Serves (history ++ [(r, (r.serve m).1)]) (r.serve m).2

/-- Requests declare no variables. -/
abbrev Law.requests : Law := { globals := False }

/-! ### Nulls -/

/-- Whether the id is declared as a null. -/
def Module.declaresNull (m : Module) (id : Id) : Bool :=
  m.declarations.any fun i => i.opcode == .constantNull && i.result? == some id

/-- The value that a constant has in the end: false, zero and composites of nulls are null. -/
def ConstantValue.canonical (m : Module) : ConstantValue → ConstantValue
  | bool value => if value then .bool true else .null
  | word bits => if bits = 0 then .null else .word bits
  | wide bits => if bits = 0 then .null else .wide bits
  | composite parts => if parts ≠ [] ∧ parts.all m.declaresNull then .null else .composite parts
  | null => .null
  | explicitZero => .explicitZero

lemma opcode_constantInstruction_eq_null {id : Id} :
    (constantInstruction type id value).opcode = .constantNull ↔ value = .null := by
  cases value with
  | bool value =>
    cases value with
    | false => exact iff_of_false (show Opcode.constantFalse ≠ .constantNull by decide) nofun
    | true => exact iff_of_false (show Opcode.constantTrue ≠ .constantNull by decide) nofun
  | null => exact iff_of_true rfl rfl
  | composite => exact iff_of_false (show Opcode.constantComposite ≠ .constantNull by decide) nofun
  | word | wide | explicitZero =>
    exact iff_of_false (show Opcode.constant ≠ .constantNull by decide) nofun

lemma opcode_specializationInstruction_ne_null (type id : Id) (value : ConstantValue) :
    (specializationInstruction type id value).opcode ≠ .constantNull := by
  unfold specializationInstruction
  split
  · exact show Opcode.specConstantTrue ≠ .constantNull by decide
  · exact show Opcode.specConstantFalse ≠ .constantNull by decide
  all_goals exact show Opcode.specConstant ≠ .constantNull by decide

lemma declaresNull_eq_isNull (h : m.Described .requests) (id : Id) :
    m.declaresNull id = m.isNull id := by
  rw [Bool.eq_iff_iff, isNull_iff]
  simp only [Module.declaresNull, any_eq_true, Bool.and_eq_true, beq_iff_eq]
  constructor
  · rintro ⟨i, hi, hopcode, hresult⟩
    cases h.declarations i hi with
    | @type key id' d _ hd hi =>
      have huntyped := hd.untyped
      rw [show d.opcode = _ from (congrArg Instruction.opcode hi).symm.trans hopcode] at huntyped
      cases huntyped
    | @constant key id' hmem _ hi =>
      subst hi
      obtain ⟨type, value⟩ := key
      obtain rfl := opcode_constantInstruction_eq_null.1 hopcode
      cases (constantInstruction_spec _ _ _).1.symm.trans hresult
      exact ⟨type, hmem⟩
    | specialization type value _ hi =>
      subst hi
      exact absurd hopcode (opcode_specializationInstruction_ne_null _ _ _)
    | global _ _ _ _ hglobals => cases hglobals
  · rintro ⟨type, hmem⟩
    exact ⟨_, h.constants hmem, rfl, (constantInstruction_spec type id .null).1⟩

lemma normalize_word (m : Module) (bits : UInt32) :
    m.normalize (.word bits) = if bits = 0 then .null else .word bits := by
  unfold Module.normalize
  split <;> simp_all

lemma normalize_wide (m : Module) (bits : UInt64) :
    m.normalize (.wide bits) = if bits = 0 then .null else .wide bits := by
  unfold Module.normalize
  split <;> simp_all

lemma normalize_eq_canonical (h : m.Described .requests) (value : ConstantValue) :
    m.normalize value = value.canonical m := by
  have hnull : m.isNull = m.declaresNull := funext fun id => (declaresNull_eq_isNull h id).symm
  cases value with
  | bool value => cases value <;> rfl
  | word bits => exact normalize_word m bits
  | wide bits => exact normalize_wide m bits
  | composite parts =>
    cases parts with
    | nil => rfl
    | cons part parts =>
      simp only [Module.normalize, ConstantValue.canonical, hnull, ne_eq, reduceCtorEq,
        not_false_eq_true, true_and]
  | null | explicitZero => rfl

lemma normalize_of_enters {m' : Module} (h : m.tables.Enters m'.tables)
    (hparts : ∀ part ∈ value.parts, part.number < m.bound) :
    m'.normalize value = m.normalize value := by
  cases value with
  | composite parts =>
    cases parts with
    | nil => rfl
    | cons part parts =>
      have hall : (part :: parts).all m'.isNull = (part :: parts).all m.isNull := by
        rw [Bool.eq_iff_iff, all_eq_true, all_eq_true]
        exact forall₂_congr fun u hu => by rw [h.isNull (hparts u hu)]
      simp only [Module.normalize, hall]
  | bool value => cases value <;> rfl
  | word bits => rw [normalize_word, normalize_word]
  | wide bits => rw [normalize_wide, normalize_wide]
  | null | explicitZero => rfl

/-! ### Where answers are found -/

/-- The value of an index. -/
def ConstantValue.ofIndex (value : UInt32) : ConstantValue :=
  if value = 0 then .explicitZero else .word value

lemma normalize_ofIndex (m : Module) (value : UInt32) :
    m.normalize (.ofIndex value) = .ofIndex value := by
  unfold ConstantValue.ofIndex
  split
  · rfl
  · rename_i hvalue
    rw [normalize_word, if_neg hvalue]

lemma ConstantValue.ofIndex_inj : ofIndex v = ofIndex w ↔ v = w := by
  unfold ofIndex
  constructor
  · intro h
    split at h <;> split at h <;> simp_all
  · rintro rfl
    rfl

/-- The key that a request for a constant asks for. -/
inductive Request.Asks (m : Module) : Request → ConstantKey → Prop where
  | constant {type : Id} {value : ConstantValue} : (∀ part ∈ value.parts, part.number < m.bound) →
      Asks m (.constant type value) ⟨type, m.normalize value⟩
  | literal {literal : Literal} {type : Id} : m.types.lookup (.scalar literal.scalar) = some type →
      Asks m (.literal literal) ⟨type, m.normalize (.ofLiteral literal)⟩
  | null {type : Id} : Asks m (.null type) ⟨type, .null⟩
  | index {value : UInt32} {type : Id} : m.types.lookup (.scalar .u32) = some type →
      Asks m (.index value) ⟨type, .ofIndex value⟩

/-- The module knows the answer to a request. -/
inductive Request.Recalled (m : Module) : Request → Option Id → Prop where
  | type {key : TypeKey} {id : Id} : m.types.lookup key = some id → Recalled m (.type key) (some id)
  | constant {r : Request} {key : ConstantKey} {id : Id} : r.Asks m key →
      m.constants.lookup key = some id → Recalled m r (some id)
  | specialization {default : Literal} {id : Id} : id ∈ m.specializations →
      Recalled m (.specialization default) (some id)
  | block {struct : Id} {decoration : Decoration} : struct ∈ m.blocks →
      Recalled m (.block struct decoration) none
  | id {id : Id} : id.number < m.bound → Recalled m .id (some id)

section

variable {r r' : Request} {key key' : ConstantKey} {a b : Option Id} {s s' : Subject}

lemma Request.Asks.mono (h : r.Asks m key) (htidy : m'.tables.Tidy)
    (henters : m.tables.Enters m'.tables) : r.Asks m' key := by
  cases h with
  | constant hparts =>
    rw [← normalize_of_enters henters hparts]
    exact .constant fun part hpart => Nat.lt_of_lt_of_le (hparts part hpart) henters.bound
  | literal htype =>
    rw [← normalize_of_enters henters (ConstantValue.parts_ofLiteral _ ▸ forall_mem_nil _)]
    exact .literal (htidy.lookup_types henters htype)
  | null => exact .null
  | index htype => exact .index (htidy.lookup_types henters htype)

lemma Request.Asks.subject (h : r.Asks m key) : r.subject? = some .constant := by
  cases h <;> rfl

lemma Request.Asks.unique (h : r.Asks m key) (h' : r.Asks m key') : key = key' := by
  cases h with
  | constant | null =>
    cases h'
    rfl
  | literal htype =>
    cases h' with
    | literal htype' => rw [Option.some.inj (htype.symm.trans htype')]
  | index htype =>
    cases h' with
    | index htype' => rw [Option.some.inj (htype.symm.trans htype')]

lemma Request.Recalled.mono (h : r.Recalled m a) (htidy : m'.tables.Tidy)
    (henters : m.tables.Enters m'.tables) (hblocks : m.blocks ⊆ m'.blocks) : r.Recalled m' a := by
  cases h with
  | type hlookup => exact .type (htidy.lookup_types henters hlookup)
  | constant hasks hlookup =>
    exact .constant (hasks.mono htidy henters) (htidy.lookup_constants henters hlookup)
  | specialization hmem =>
    obtain ⟨new, hnew, -⟩ := henters.specializations
    refine .specialization ?_
    rw [show m'.specializations = _ from hnew]
    exact mem_append_right _ hmem
  | block hmem => exact .block (hblocks hmem)
  | id hlt => exact .id (Nat.lt_of_lt_of_le hlt henters.bound)

lemma Request.Recalled.lt_bound {id : Id} (h : r.Recalled m (some id)) (htidy : m.tables.Tidy) :
    id.number < m.bound := by
  cases h with
  | type hlookup =>
    exact htidy.bounded id (mem_append_left _ (mem_map.2 ⟨_, mem_of_lookup hlookup, rfl⟩))
  | constant _ hlookup =>
    exact htidy.bounded id (mem_append_right _ (mem_append_left _
      (mem_map.2 ⟨_, mem_of_lookup hlookup, rfl⟩)))
  | specialization hmem => exact htidy.bounded id (mem_append_right _ (mem_append_right _ hmem))
  | id hlt => exact hlt

lemma Request.Recalled.mem {id : Id} (h : r.Recalled m (some id)) (hs : r.subject? = some s) :
    id ∈ match s with
      | .type => m.types.map Prod.snd
      | .constant => m.constants.map Prod.snd
      | .specialization => m.specializations := by
  cases h with
  | type hlookup =>
    cases hs
    exact mem_map.2 ⟨_, mem_of_lookup hlookup, rfl⟩
  | constant hasks hlookup =>
    cases hasks.subject.symm.trans hs
    exact mem_map.2 ⟨_, mem_of_lookup hlookup, rfl⟩
  | specialization hmem =>
    cases hs
    exact hmem
  | id => cases hs

lemma Request.Recalled.ne (htidy : m.tables.Tidy) (h : r.Recalled m a) (h' : r'.Recalled m b)
    (hs : r.subject? = some s) (hs' : r'.subject? = some s') (hne : s ≠ s') : a ≠ b := by
  rintro rfl
  cases a with
  | none =>
    cases h with
    | block => cases hs
  | some id =>
    have hmem := h.mem hs
    have hmem' := h'.mem hs'
    cases s <;> cases s' <;> dsimp only at hmem hmem'
    case type.type | constant.constant | specialization.specialization => exact hne rfl
    case type.constant => exact htidy.type_ne_constant hmem hmem' rfl
    case constant.type => exact htidy.type_ne_constant hmem' hmem rfl
    case type.specialization => exact htidy.type_ne_specialization hmem hmem' rfl
    case specialization.type => exact htidy.type_ne_specialization hmem' hmem rfl
    case constant.specialization => exact htidy.constant_ne_specialization hmem hmem' rfl
    case specialization.constant => exact htidy.constant_ne_specialization hmem' hmem rfl

lemma type_eq_iff (htidy : m.tables.Tidy) (h : (Request.type k).Recalled m a)
    (h' : (Request.type k').Recalled m b) : a = b ↔ k = k' := by
  cases h with
  | constant hasks => cases hasks
  | type hlookup =>
    cases h' with
    | constant hasks => cases hasks
    | type hlookup' =>
      rw [Option.some.injEq]
      exact value_eq_iff htidy.typeIds hlookup hlookup'

lemma constant_eq_iff (htidy : m.tables.Tidy) (h : r.Recalled m a) (h' : r'.Recalled m b)
    (hasks : r.Asks m key) (hasks' : r'.Asks m key') : a = b ↔ key = key' := by
  cases h with
  | constant hasked hlookup =>
    cases h' with
    | constant hasked' hlookup' =>
      obtain rfl := hasks.unique hasked
      obtain rfl := hasks'.unique hasked'
      rw [Option.some.injEq]
      exact value_eq_iff htidy.constantIds hlookup hlookup'
    | type | specialization | block | id => cases hasks'
  | type | specialization | block | id => cases hasks

lemma Request.Recalled.asks (h : r.Recalled m a) (hs : r.subject? = some .constant) :
    ∃ key id, r.Asks m key ∧ m.constants.lookup key = some id ∧ a = some id := by
  cases h with
  | constant hasks hlookup => exact ⟨_, _, hasks, hlookup, rfl⟩
  | type | specialization | block | id => cases hs

end

/-! ### Serving a request -/

lemma map_apply (f : α → β) (act : DeclareM α) (m : Module) :
    (f <$> act) m = (f (act m).1, (act m).2) := rfl

lemma changes_serve (r : Request) : Changes .requests r.serve := by
  cases r with
  | type key => exact fun _ => reaches_typeId (Law.permits_of trivial) fun _ _ => trivial
  | constant => exact fun _ => reaches_constant fun _ _ => trivial
  | literal literal => exact changes_literalConstant literal
  | null type => exact changes_nullConstant type
  | index value => exact changes_indexConstant value
  | specialization default => exact changes_specialization default
  | block struct decoration => exact changes_decorateBlock trivial struct _
  | id => exact changes_freshId

lemma recalled_scalarConstant (htidy : m.tables.Tidy) (scalar : Scalar)
    (hparts : value.parts = []) :
    let t := scalarType scalar m
    (constant t.1 value t.2).2.types.lookup (.scalar scalar) = some t.1 ∧
      (constant t.1 value t.2).2.constants.lookup
        ⟨t.1, (constant t.1 value t.2).2.normalize value⟩ = some (constant t.1 value t.2).1 := by
  intro t
  have htype := (changes_serve (.type (.scalar scalar)) m).tidy htidy
  obtain ⟨hvalue, henters⟩ := (reaches_constant (L := .requests) (m := t.2) fun _ _ =>
    trivial).tidy htype.1
  refine ⟨hvalue.lookup_types henters (lookup_internType _ _ m), ?_⟩
  rw [normalize_of_enters henters (hparts ▸ forall_mem_nil _)]
  exact lookup_constant t.1 value t.2

lemma recalled_serve (htidy : m.tables.Tidy) {r : Request} (hr : r.Admissible m) :
    r.Recalled (r.serve m).2 (r.serve m).1 := by
  cases r with
  | type key => exact .type (lookup_typeId key m)
  | constant type value =>
    have hreaches : m.Reaches .requests (Assembly.constant type value m).2 :=
      reaches_constant fun _ _ => trivial
    have henters := (hreaches.tidy htidy).2
    refine .constant (.constant fun part hpart => Nat.lt_of_lt_of_le (hr part hpart) henters.bound)
      ?_
    rw [show (Request.constant type value).serve m = _ from map_apply _ _ _,
      normalize_of_enters henters hr]
    exact lookup_constant type value m
  | literal literal =>
    obtain ⟨htype, hvalue⟩ := recalled_scalarConstant htidy literal.scalar
      (ConstantValue.parts_ofLiteral literal)
    exact .constant (.literal htype) hvalue
  | null type => exact .constant .null (lookup_constant type .null m)
  | index value =>
    have hparts : (ConstantValue.ofIndex value).parts = [] := by
      unfold ConstantValue.ofIndex
      split <;> rfl
    obtain ⟨htype, hvalue⟩ := recalled_scalarConstant htidy .u32 hparts
    rw [normalize_ofIndex] at hvalue
    exact .constant (.index htype) hvalue
  | specialization default => exact .specialization (mem_specialization default m)
  | block struct decoration => exact .block (mem_blocks_decorateBlock struct decoration m)
  | id => exact .id (Nat.lt_succ_self _)

lemma serve_of_recalled {r : Request} (h : r.Recalled m a)
    (hspecialization : r.subject? ≠ some .specialization) (hid : r ≠ .id) : r.serve m = (a, m) := by
  cases h with
  | type hlookup =>
    rw [show (Request.type _).serve m = _ from map_apply _ _ _, typeId_of_lookup hlookup]
  | constant hasks hlookup =>
    cases hasks with
    | constant =>
      rw [show (Request.constant _ _).serve m = _ from map_apply _ _ _, constant_of_lookup hlookup]
    | literal htype =>
      rw [show (Request.literal _).serve m = _ from map_apply _ _ _, literalConstant, bind_apply,
        scalarType, internType_of_lookup htype, constant_of_lookup hlookup]
    | null =>
      rw [show (Request.null _).serve m = _ from map_apply _ _ _, nullConstant,
        constant_of_lookup hlookup]
    | @index value _ htype =>
      have hvalue : (if value = 0 then ConstantValue.explicitZero else .word value) =
        ConstantValue.ofIndex value := rfl
      rw [show (Request.index _).serve m = _ from map_apply _ _ _, indexConstant, bind_apply,
        scalarType, internType_of_lookup htype, hvalue, constant_of_lookup (normalize_ofIndex m
        value ▸ hlookup)]
  | specialization => exact absurd rfl hspecialization
  | block hmem =>
    show (none, (decorateBlock _ _ m).2) = _
    rw [decorateBlock_of_mem hmem]
  | id => exact absurd rfl hid

lemma bound_le_serve (htidy : m.tables.Tidy) {r : Request}
    (hr : r.subject? = some .specialization ∨ r = .id) :
    ∃ id, (r.serve m).1 = some id ∧ m.bound ≤ id.number := by
  rcases hr with hr | rfl
  · cases r with
    | specialization default =>
      exact ⟨_, rfl, ((changes_serve (.type (.scalar default.scalar)) m).tidy htidy).2.bound⟩
    | _ => cases hr
  · exact ⟨_, rfl, Nat.le_refl _⟩

/-! ### Histories -/

lemma tidy_empty (debugNames : Bool) : ({ debugNames } : Module).tables.Tidy :=
  ⟨.nil, forall_mem_nil _, .nil, .nil⟩

namespace Serves

variable {history : List (Request × Option Id)}

section

variable (h : Serves history m)
include h

lemma tidy : m.tables.Tidy := by
  induction h with
  | nil debugNames => exact tidy_empty debugNames
  | snoc _ _ ih => exact ((changes_serve _ _).tidy ih).1

lemma accounted : m.Described .requests := by
  induction h with
  | nil debugNames => exact ⟨nofun, nofun, nofun, nofun, nofun⟩
  | snoc _ _ ih => exact (changes_serve _ _).described ih

lemma recalled : ∀ e ∈ history, e.1.Recalled m e.2 := by
  induction h with
  | nil => exact forall_mem_nil _
  | @snoc history m r hserves hr ih =>
    obtain ⟨htidy, henters⟩ := (changes_serve r m).tidy hserves.tidy
    refine forall_mem_append.2 ⟨fun e he => ?_, forall_mem_singleton.2 ?_⟩
    · exact (ih e he).mono htidy henters (changes_serve r m).blocks
    · exact recalled_serve hserves.tidy hr

/-- The id of a specialization constant answers no other request. -/
lemma specialization_new : ∀ before default a after,
    history = before ++ (.specialization default, a) :: after → ∀ e ∈ before ++ after, e.2 ≠ a := by
  induction h with
  | nil =>
    intro before default a after heq
    exact absurd heq.symm (by simp)
  | @snoc history m r hserves hr ih =>
    intro before default a after heq
    obtain ⟨htidy, henters⟩ := (changes_serve r m).tidy hserves.tidy
    rcases eq_nil_or_concat after with rfl | ⟨rest, last, rfl⟩
    · -- The request is the last one, and its answer is newer than all others.
      obtain ⟨rfl, hlast⟩ := append_inj' heq rfl
      obtain ⟨rfl, rfl⟩ := Prod.mk.inj (cons.inj hlast).1
      intro e he hsame
      rw [append_nil] at he
      obtain ⟨id, hid, hle⟩ := bound_le_serve (r := .specialization default) hserves.tidy (.inl rfl)
      have hold := hserves.recalled e he
      rw [hsame, hid] at hold
      exact absurd (hold.lt_bound hserves.tidy) (Nat.not_lt.2 hle)
    · rw [concat_eq_append, ← cons_append, ← append_assoc] at heq
      obtain ⟨hhistory, hlast⟩ := append_inj' heq rfl
      obtain rfl := (cons.inj hlast).1
      rw [concat_eq_append, ← append_assoc]
      refine forall_mem_append.2 ⟨ih before default a rest hhistory, forall_mem_singleton.2 ?_⟩
      have hold := hserves.recalled (.specialization default, a) (by simp [hhistory])
      have hnew := recalled_serve hserves.tidy hr
      intro hsame
      by_cases hfresh : r.subject? = some .specialization ∨ r = .id
      · obtain ⟨id, hid, hle⟩ := bound_le_serve hserves.tidy hfresh
        rw [← hsame, hid] at hold
        exact absurd (hold.lt_bound hserves.tidy) (Nat.not_lt.2 hle)
      · have hkept := hold.mono htidy henters (changes_serve r m).blocks
        obtain ⟨hspecialization, hid⟩ := not_or.1 hfresh
        cases hs : r.subject? with
        | some s => exact hnew.ne htidy hkept hs rfl (fun heq => hspecialization (heq ▸ hs)) hsame
        | none =>
          cases r with
          | block =>
            rw [← hsame] at hkept
            cases hkept
          | id => exact hid rfl
          | _ => cases hs

end

end Serves

/-- What is known about the answers to a list of requests, when it led to a module. -/
structure Deduplicated (history : List (Request × Option Id)) (m : Module) : Prop where
  types : ∀ k a k' a', (.type k, a) ∈ history → (.type k', a') ∈ history → (a = a' ↔ k = k')
  constants : ∀ t v a t' v' a', (.constant t v, a) ∈ history → (.constant t' v', a') ∈ history →
    (a = a' ↔ t = t' ∧ v.canonical m = v'.canonical m)
  literals : ∀ l a l' a', (.literal l, a) ∈ history → (.literal l', a') ∈ history →
    (a = a' ↔ l = l')
  apart : ∀ r a r' a' s s', (r, a) ∈ history → (r', a') ∈ history → r.subject? = some s →
    r'.subject? = some s' → s ≠ s' → a ≠ a'
  specializations : ∀ before default a after,
    history = before ++ (.specialization default, a) :: after → ∀ e ∈ before ++ after, e.2 ≠ a
  /-- An index is declared by its value, also when that is zero, and by nothing else. -/
  indices : ∀ v a, (.index v, a) ∈ history → ∃ id type, a = some id ∧
    .result .constant type id [.word v] ∈ m.sections.globals ∧
    ∀ i ∈ m.sections.globals, i.result? = some id → i = .result .constant type id [.word v]
  indices_ne : ∀ v a v' a', (.index v, a) ∈ history → (.index v', a') ∈ history → (a = a' ↔ v = v')
  repeated : ∀ r a, (r, a) ∈ history → r.subject? ≠ some .specialization → r ≠ .id →
    r.serve m = (a, m)

lemma normalize_word_inj : m.normalize (.word a) = m.normalize (.word b) ↔ a = b := by
  rw [normalize_word, normalize_word]
  split <;> split <;> simp_all [eq_comm]

lemma normalize_wide_inj : m.normalize (.wide a) = m.normalize (.wide b) ↔ a = b := by
  rw [normalize_wide, normalize_wide]
  split <;> split <;> simp_all [eq_comm]

lemma normalize_ofLiteral_inj (hscalar : l.scalar = l'.scalar)
    (hvalue : m.normalize (.ofLiteral l) = m.normalize (.ofLiteral l')) : l = l' := by
  cases l <;> cases l' <;> first
    | (cases hscalar; done)
    | simp only [ConstantValue.ofLiteral, normalize_word_inj, normalize_wide_inj] at hvalue
  case bool.bool a b => cases a <;> cases b <;> first | rfl | cases hvalue
  case i32.i32 => exact congrArg (fun w => Literal.i32 (.ofUInt32 w)) hvalue
  case i64.i64 => exact congrArg (fun w => Literal.i64 (.ofUInt64 w)) hvalue
  all_goals rw [hvalue]

lemma constantInstruction_ofIndex (type id : Id) (value : UInt32) :
    constantInstruction type id (.ofIndex value) = .result .constant type id [.word value] := by
  unfold ConstantValue.ofIndex
  split
  · rename_i hzero
    rw [hzero]
    rfl
  · rfl

lemma constant_declared (htidy : m.tables.Tidy) (haccounted : m.Described .requests) {id : Id}
    (h : (key, id) ∈ m.constants) : constantInstruction key.type id key.value ∈ m.sections.globals ∧
      ∀ i ∈ m.sections.globals, i.result? = some id → i = constantInstruction key.type id
        key.value := by
  refine ⟨Array.mem_toList_iff.1 (haccounted.constants h), fun i hi hresult => ?_⟩
  have hid : id ∈ m.constants.map Prod.snd := mem_map.2 ⟨_, h, rfl⟩
  cases haccounted.declarations i (Array.mem_toList_iff.2 hi) with
  | @type key' id' d hlookup hd hi =>
    subst hi
    cases (Instruction.result?_untyped hd.untyped id' _).symm.trans hresult
    exact absurd rfl (htidy.type_ne_constant (mem_map.2 ⟨_, mem_of_lookup hlookup, rfl⟩) hid)
  | @constant key' id' hmem _ hi =>
    subst hi
    cases (constantInstruction_spec _ _ _).1.symm.trans hresult
    cases inj_on_of_nodup_map htidy.constantIds h hmem rfl
    rfl
  | specialization type value hmem hi =>
    subst hi
    cases (specializationInstruction_spec _ _ _).1.symm.trans hresult
    exact absurd rfl (htidy.constant_ne_specialization hid hmem)
  | global _ _ _ _ hglobals => cases hglobals

/-- However a module is asked for types, constants, decorations and ids, it declares every type and
every constant once: equal requests have equal answers, different ones different answers, and a
request that is repeated changes nothing. -/
theorem requests_deduplicated {history : List (Request × Option Id)} {m : Module}
    (h : Serves history m) : Deduplicated history m := by
  have htidy := h.tidy
  have hrecalled (r : Request) (a : Option Id) (he : (r, a) ∈ history) : r.Recalled m a :=
    h.recalled _ he
  refine ⟨fun k a k' a' he he' => ?_, fun t v a t' v' a' he he' => ?_, fun l a l' a' he he' => ?_,
    fun r a r' a' s s' he he' hs hs' hne => ?_, h.specialization_new, fun v a he => ?_,
    fun v a v' a' he he' => ?_, fun r a he hs hid => ?_⟩
  · exact type_eq_iff htidy (hrecalled _ _ he) (hrecalled _ _ he')
  · obtain ⟨key, -, hasks, -⟩ := (hrecalled _ _ he).asks rfl
    obtain ⟨key', -, hasks', -⟩ := (hrecalled _ _ he').asks rfl
    rw [constant_eq_iff htidy (hrecalled _ _ he) (hrecalled _ _ he') hasks hasks']
    cases hasks
    cases hasks'
    rw [ConstantKey.mk.injEq, normalize_eq_canonical h.accounted,
      normalize_eq_canonical h.accounted]
  · obtain ⟨key, -, hasks, -⟩ := (hrecalled _ _ he).asks rfl
    obtain ⟨key', -, hasks', -⟩ := (hrecalled _ _ he').asks rfl
    rw [constant_eq_iff htidy (hrecalled _ _ he) (hrecalled _ _ he') hasks hasks']
    cases hasks with
    | literal htype =>
      cases hasks' with
      | literal htype' =>
        rw [ConstantKey.mk.injEq, value_eq_iff htidy.typeIds htype htype', TypeKey.scalar.injEq]
        refine ⟨fun ⟨hscalar, hvalue⟩ => normalize_ofLiteral_inj hscalar hvalue, ?_⟩
        rintro rfl
        exact ⟨rfl, rfl⟩
  · exact (hrecalled _ _ he).ne htidy (hrecalled _ _ he') hs hs' hne
  · obtain ⟨key, id, hasks, hlookup, rfl⟩ := (hrecalled _ _ he).asks rfl
    cases hasks with
    | @index value type _ =>
      have hdeclared := constant_declared htidy h.accounted (mem_of_lookup hlookup)
      rw [constantInstruction_ofIndex] at hdeclared
      exact ⟨id, type, rfl, hdeclared⟩
  · obtain ⟨key, -, hasks, -⟩ := (hrecalled _ _ he).asks rfl
    obtain ⟨key', -, hasks', -⟩ := (hrecalled _ _ he').asks rfl
    rw [constant_eq_iff htidy (hrecalled _ _ he) (hrecalled _ _ he') hasks hasks']
    cases hasks with
    | index htype =>
      cases hasks' with
      | index htype' =>
        obtain rfl := Option.some.inj (htype.symm.trans htype')
        rw [ConstantKey.mk.injEq, ConstantValue.ofIndex_inj]
        exact and_iff_right rfl
  · exact serve_of_recalled (hrecalled r a he) hs hid

/-- Zero in three ways, composites of nulls and of other parts, an index that is zero, and constants
that can be specialized. -/
theorem requests_deduplicated_zeros : ∃ history m, Serves history m ∧
    history.map Prod.snd = [some ⟨2⟩, some ⟨3⟩, some ⟨3⟩, some ⟨3⟩, some ⟨4⟩, some ⟨5⟩, some ⟨5⟩,
      some ⟨6⟩, some ⟨8⟩, some ⟨9⟩, some ⟨10⟩, some ⟨3⟩] ∧
    Deduplicated history m := by
  have htypes := ((Serves.nil true).snoc (r := .type (.vector .f32 2)) (by decide)).snoc
    (r := .literal (.f32 0)) (by decide)
  have hzeros := ((htypes.snoc (r := .null ⟨1⟩) (by decide)).snoc (r := .constant ⟨1⟩ (.word 0))
    (by decide)).snoc (r := .id) (by decide)
  have hcomposites := ((hzeros.snoc (r := .constant ⟨2⟩ (.composite [⟨3⟩, ⟨3⟩])) (by decide)).snoc
    (r := .null ⟨2⟩) (by decide)).snoc (r := .constant ⟨2⟩ (.composite [⟨3⟩, ⟨4⟩])) (by decide)
  have hall := (((hcomposites.snoc (r := .index 0) (by decide)).snoc (r := .specialization (.f32 0))
    (by decide)).snoc (r := .specialization (.f32 0)) (by decide)).snoc
    (r := .literal (.f32 0)) (by decide)
  exact ⟨_, _, hall, by decide +kernel, requests_deduplicated hall⟩

/-! ### Ids as words -/

/-- The word of an id. -/
def Id.word (id : Id) : UInt32 := UInt32.ofNat id.number

/-- A counter of words issues the words of the ids. -/
lemma word_freshId (m : Module) :
    (freshId m).1.word = UInt32.ofNat m.bound ∧
      UInt32.ofNat (freshId m).2.bound = UInt32.ofNat m.bound + 1 :=
  ⟨rfl, UInt32.ofNat_add m.bound 1⟩

/-- While the bound fits into a word, ids that were issued are known by their words. -/
lemma word_eq_iff {m : Module} {u v : Id} (hbound : m.bound < UInt32.size) (hu : u.number < m.bound)
    (hv : v.number < m.bound) : u.word = v.word ↔ u = v := by
  refine ⟨fun h => ?_, congrArg Id.word⟩
  have hnumber := congrArg UInt32.toNat h
  rw [Id.word, Id.word, UInt32.toNat_ofNat_of_lt' (Nat.lt_trans hu hbound),
    UInt32.toNat_ofNat_of_lt' (Nat.lt_trans hv hbound)] at hnumber
  cases u
  cases v
  exact congrArg Id.mk hnumber

/-- Whatever is said about answers to requests holds of their words while the bound fits into
one. -/
lemma Serves.word_eq_iff {history : List (Request × Option Id)} {m : Module}
    (h : Serves history m) (hbound : m.bound < UInt32.size) {e e' : Request × Option Id}
    (he : e ∈ history) (he' : e' ∈ history) : e.2.map Id.word = e'.2.map Id.word ↔ e.2 = e'.2 := by
  have hissued : ∀ e ∈ history, ∀ u, e.2 = some u → u.number < m.bound := by
    intro e he u hu
    have hrecalled := h.recalled e he
    rw [hu] at hrecalled
    exact hrecalled.lt_bound h.tidy
  cases hu : e.2 with
  | none => cases e'.2 <;> simp
  | some u =>
    cases hv : e'.2 with
    | none => simp
    | some v =>
      simpa using Assembly.word_eq_iff hbound (hissued e he u hu) (hissued e' he' v hv)

/-! ### Sets of constants and of nulls -/

/-- A module with the ids of its constants and of its nulls as sets of their own. -/
structure Cache extends Module where
  constantIds : List Id
  nullIds : List Id
  mem_constantIds : ∀ id, id ∈ constantIds ↔ toModule.isConstant id
  mem_nullIds : ∀ id, id ∈ nullIds ↔ toModule.isNull id

namespace Cache

/-- What becomes of a value if the nulls are those of the set. -/
def normalize (c : Cache) : ConstantValue → ConstantValue
  | .bool false | .word 0 | .wide 0 => .null
  | .composite parts =>
    if parts ≠ [] ∧ parts.all c.nullIds.contains then .null else .composite parts
  | value => value

/-- The module with a new constant. -/
def declared (m : Module) (key : ConstantKey) : Module :=
  { m with
    bound := m.bound + 1
    sections := m.sections.push (constantInstruction key.type ⟨m.bound⟩ key.value) .globals
    constants := (key, ⟨m.bound⟩) :: m.constants }

lemma mem_constantIds_declared (c : Cache) (key : ConstantKey) (id : Id) :
    id ∈ ⟨c.bound⟩ :: c.constantIds ↔ (declared c.toModule key).isConstant id := by
  rw [mem_cons, c.mem_constantIds, declared, Module.isConstant, Module.isConstant, any_cons,
    Bool.or_eq_true, beq_iff_eq, eq_comm]

lemma mem_nullIds_declared (c : Cache) (key : ConstantKey) (id : Id) :
    id ∈ (if key.value = .null then ⟨c.bound⟩ :: c.nullIds else c.nullIds) ↔
      (declared c.toModule key).isNull id := by
  rw [declared, Module.isNull, any_cons, Bool.or_eq_true, ← Module.isNull, ← c.mem_nullIds,
    Bool.and_eq_true, beq_iff_eq, beq_iff_eq]
  by_cases hnull : key.value = .null
  · rw [if_pos hnull, mem_cons, and_iff_left hnull]
    exact or_congr_left eq_comm
  · rw [if_neg hnull]
    exact (or_iff_right fun h => hnull h.2).symm

/-- Declares a constant; here the sets grow. -/
def declare (c : Cache) (key : ConstantKey) : Cache where
  toModule := declared c.toModule key
  constantIds := ⟨c.bound⟩ :: c.constantIds
  nullIds := if key.value = .null then ⟨c.bound⟩ :: c.nullIds else c.nullIds
  mem_constantIds := mem_constantIds_declared c key
  mem_nullIds := mem_nullIds_declared c key

/-- The id of a constant, which is declared if it was not before. -/
def constant (type : Id) (value : ConstantValue) (c : Cache) : Id × Cache :=
  (c.constants.lookup ⟨type, c.normalize value⟩).elim
    (⟨c.bound⟩, c.declare ⟨type, c.normalize value⟩) fun id => (id, c)

lemma normalize_eq (c : Cache) (value : ConstantValue) :
    c.normalize value = c.toModule.normalize value := by
  have hnull : c.nullIds.contains = c.toModule.isNull := by
    funext id
    rw [Bool.eq_iff_iff, contains_iff_mem]
    exact c.mem_nullIds id
  unfold normalize
  split
  · rfl
  · rfl
  · rfl
  · rename_i parts
    cases parts with
    | nil => rfl
    | cons part parts => rw [hnull]; simp [Module.normalize]
  · rename_i hbool hword hwide hcomposite
    unfold Module.normalize
    split <;> simp_all

/-- With the sets, constants are declared as they are without them. -/
lemma constant_eq (type : Id) (value : ConstantValue) (c : Cache) :
    ((c.constant type value).1, (c.constant type value).2.toModule) =
      Assembly.constant type value c.toModule := by
  rw [constant, normalize_eq]
  cases hlookup : c.constants.lookup ⟨type, c.toModule.normalize value⟩ with
  | some id => exact (constant_of_lookup hlookup).symm
  | none =>
    simp only [Assembly.constant, bind_apply, get_apply, hlookup]
    rfl

end Cache

end Shader.Assembly
