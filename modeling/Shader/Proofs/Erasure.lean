import Shader.Proofs.Adherence
import Shader.Proofs.Interning

/-!
# Types are identified up to erasure

What types of a program have in common if they get one id is their erasure: atomics become their
scalars, address spaces become storage classes, and the names of types other than structs, the spans
of structs and the bindings of members are dropped.  An id stands for one erasure, and an erasure
for one id, however requests for types follow on each other and on whatever else a module is asked
for.
-/

namespace Shader.Emit

open List Assembly
open IR (Scalar TypeShape StructMember)

/-- What a type tells of itself, apart from what it is made of. -/
inductive Label where
  | scalar (scalar : Scalar)
  | vector (size : UInt32) (scalar : Scalar)
  | matrix (columns rows : UInt32) (scalar : Scalar)
  | pointer (storage : StorageClass)
  | array (size : IR.ArraySize) (stride : UInt32)
  /-- The names and offsets of members belong to the struct. -/
  | struct (name : Option String) (members : List (Option String × UInt32))

/-- What is left of a type. -/
inductive Erasure where
  | node (label : Label) (components : List Erasure)

/-- The label of a type. -/
def Label.of (options : Options) (type : IR.Ty) : Label :=
  match type.shape with
  | .scalar s | .atomic s => .scalar s
  | .vector size s => .vector size.toWord s
  | .matrix columns rows s => .matrix columns.toWord rows.toWord s
  | .pointer _ space => .pointer (options.storageClass space)
  | .array _ size stride => .array size stride
  | .struct members _ => .struct type.name (members.map fun member => (member.name, member.offset))

/-- The erasure of a type of the program. -/
inductive Erases (m : IR.Module) (options : Options) : Handle .type → Erasure → Prop where
  | node {h : Handle .type} {type : IR.Ty} {es : List Erasure} : m.types.get? h = some type →
      es.length = type.shape.components.length →
      (∀ (k : Nat) (c : Handle .type) (e : Erasure), type.shape.components[k]? = some c →
      es[k]? = some e →
        Erases m options c e) → Erases m options h (.node (.of options type) es)

/-- The column stride of what is left of a matrix, or of an array of matrices. -/
def Erasure.stride : Erasure → Option UInt32
  | .node (.matrix _ rows scalar) _ => some ((if rows = 2 then 2 else 4) * scalar.width.toUInt32)
  | .node (.array ..) (base :: _) => base.stride
  | _ => none

/-- The structure of a type with the given label, over the ids of its components and their
strides. -/
inductive Label.Keys : Label → List Id → List (Option UInt32) → TypeKey → Prop where
  | scalar (s : Scalar) {strides : List (Option UInt32)} : Keys (.scalar s) [] strides (.scalar s)
  | vector (size : UInt32) (s : Scalar) {strides : List (Option UInt32)} :
      Keys (.vector size s) [] strides (.vector s size)
  | matrix (columns rows : UInt32) (s : Scalar) {strides : List (Option UInt32)} :
      Keys (.matrix columns rows s) [] strides (.matrix columns rows s)
  | pointer (storage : StorageClass) (base : Id) {strides : List (Option UInt32)} :
      Keys (.pointer storage) [base] strides (.pointer storage base)
  | array (base : Id) (length stride : UInt32) {strides : List (Option UInt32)} :
      Keys (.array (.fixed length) stride) [base] strides (.array base length stride)
  | runtimeArray (base : Id) (stride : UInt32) {strides : List (Option UInt32)} :
      Keys (.array .runtime stride) [base] strides (.runtimeArray base stride)
  | struct {name : Option String} {fields : List (Option String × UInt32)} {ids : List Id}
      {strides : List (Option UInt32)} {layouts : List MemberLayout} :
      layouts.map (fun l => (l.name, l.offset)) = fields → layouts.map MemberLayout.type = ids →
      layouts.map MemberLayout.matrixStride = strides →
      Keys (.struct name fields) ids strides (.struct ⟨name, layouts, none⟩)

section

variable {m : IR.Module} {options : Options} {types : List (TypeKey × Id)} {h : Handle .type}
    {e e' : Erasure}
  {id id' : Id} {key key' : TypeKey} {label label' : Label} {ids ids' : List Id}
  {strides strides' : List (Option UInt32)}

lemma Label.Keys.inj (hkey : label.Keys ids strides key) (hkey' : label'.Keys ids' strides' key) :
    label = label' ∧ ids = ids' := by
  cases hkey with
  | struct hfields hids _ =>
    cases hkey' with
    | struct hfields' hids' _ => exact ⟨by rw [← hfields, ← hfields'], hids.symm.trans hids'⟩
  | _ =>
    cases hkey'
    exact ⟨rfl, rfl⟩

lemma Label.Keys.unique (hkey : label.Keys ids strides key) (hkey' : label.Keys ids strides key') :
    key = key' := by
  cases hkey with
  | @struct _ _ _ _ layouts hfields hids hstrides =>
    cases hkey' with
    | @struct _ _ _ _ layouts' hfields' hids' hstrides' =>
      have hlength : layouts.length =
        layouts'.length := by rw [← length_map, hids, ← hids', length_map]
      have hsame : layouts = layouts' := by
        refine ext_getElem hlength fun k hk hk' => ?_
        have hfield := congrArg (·[k]?) (hfields.trans hfields'.symm)
        have hid := congrArg (·[k]?) (hids.trans hids'.symm)
        have hstride := congrArg (·[k]?) (hstrides.trans hstrides'.symm)
        simp only [getElem?_map, getElem?_eq_getElem hk, getElem?_eq_getElem hk', Option.map_some,
          Option.some.injEq, Prod.mk.injEq] at hfield hid hstride
        cases hl : layouts[k]
        cases hl' : layouts'[k]
        simp_all
      rw [hsame]
  | _ =>
    cases hkey'
    rfl

/-- A type has one erasure. -/
lemma Erases.unique (he : Erases m options h e) : ∀ {e'}, Erases m options h e' → e = e' := by
  induction he with
  | @node h type es hget hlength _ ih =>
    intro e' he'
    cases he' with
    | @node _ type' es' hget' hlength' hparts' =>
      cases hget.symm.trans hget'
      have hsame : es = es' := by
        refine ext_getElem (hlength.trans hlength'.symm) fun k hk hk' => ?_
        have hk'' : k < type.shape.components.length := hlength ▸ hk
        exact ih k _ _ (getElem?_eq_getElem hk'') (getElem?_eq_getElem hk)
          (hparts' k _ _ (getElem?_eq_getElem hk'') (getElem?_eq_getElem hk'))
      rw [hsame]

lemma Erases.stride_eq : ∀ {h e s}, Erases m options h e →
    matrixStrideWithin m depth h = .ok s → s = e.stride := by
  induction depth with
  | zero => exact fun _ hs => nomatch hs
  | succ depth ih =>
    intro h e s he hs
    cases he with
    | @node _ type es hget hlength hparts =>
      obtain ⟨name, shape⟩ := type
      simp only [matrixStrideWithin, IR.Module.typeAt, hget] at hs
      cases shape with
      | matrix columns rows scalar =>
        cases hs
        cases rows <;> rfl
      | array base size stride =>
        obtain ⟨e, rfl⟩ := length_eq_one_iff.1 hlength
        rw [Label.of, Erasure.stride]
        exact ih (hparts 0 base e rfl rfl) hs
      | _ =>
        cases hs
        rfl

/-! ### Ids that stand for erasures -/

/-- The id stands for the erasure in the tables of a module. -/
inductive Stands (types : List (TypeKey × Id)) : Id → Erasure → Prop where
  | node {label : Label} {es : List Erasure} {ids : List Id} {id : Id} {key : TypeKey} :
      ids.length = es.length →
      (∀ (k : Nat) (i : Id) (e : Erasure), ids[k]? = some i → es[k]? = some e → Stands types i e) →
      label.Keys ids (es.map Erasure.stride) key → types.lookup key = some id → Stands types id
      (.node label es)

/-- Ids are the same exactly when they stand for the same. -/
lemma Stands.eq_iff (htypes : (types.map Prod.snd).Nodup) (hid : Stands types id e) :
    ∀ {id' e'}, Stands types id' e' → (id = id' ↔ e = e') := by
  induction hid with
  | @node label es ids id key hlength _ hkey hlookup ih =>
    intro id' e' hid'
    cases hid' with
    | @node label' es' ids' _ key' hlength' hparts' hkey' hlookup' =>
      have hpart {k : Nat} (hk : k < ids.length) (hk' : k < ids'.length) (hes : k < es.length)
          (hes' : k < es'.length) : ids[k] = ids'[k] ↔ es[k] = es'[k] :=
        ih k _ _ (getElem?_eq_getElem hk) (getElem?_eq_getElem hes)
          (hparts' k _ _ (getElem?_eq_getElem hk') (getElem?_eq_getElem hes'))
      -- Ids are the same if keys are, and a key is given by the label, the ids and the strides of
      -- the parts.
      rw [value_eq_iff htypes hlookup hlookup']
      constructor
      · rintro rfl
        obtain ⟨rfl, rfl⟩ := hkey.inj hkey'
        have hsame : es = es' := ext_getElem (hlength.symm.trans hlength') fun k hk hk' =>
          (hpart (hlength ▸ hk) (hlength ▸ hk) hk hk').1 rfl
        rw [hsame]
      · intro heq
        obtain ⟨rfl, rfl⟩ := Erasure.node.inj heq
        have hsame : ids = ids' := ext_getElem (hlength.trans hlength'.symm) fun k hk hk' =>
          (hpart hk hk' (hlength ▸ hk) (hlength ▸ hk)).2 rfl
        subst hsame
        exact hkey.unique hkey'

/-- What stands for the components of a type, and its structure over those ids, stands for the
type. -/
lemma stands_of_components (hget : m.types.get? h = some type)
    (hlength : ids.length = type.shape.components.length)
    (hparts : ∀ (k : Nat) c i, type.shape.components[k]? = some c → ids[k]? = some i →
      ∃ e, Erases m options c e ∧ Stands types i e) (hkey :
      ∀ es : List Erasure, es.length = ids.length →
      (∀ (k : Nat) c e, type.shape.components[k]? = some c → es[k]? = some e →
        Erases m options c e) →
      (Label.of options type).Keys ids (es.map Erasure.stride) key) (hlookup :
      types.lookup key = some id) :
        ∃ e, Erases m options h e ∧ Stands types id e := by
  have hall (k : Fin ids.length) : ∃ e, Erases m options
      (type.shape.components.get (k.cast hlength)) e ∧ Stands types (ids.get k) e :=
      hparts k _ _ (getElem?_eq_getElem _) (getElem?_eq_getElem _)
  choose f hf using hall
  have herases (k : Nat) (c : Handle .type) (e : Erasure) (hc : type.shape.components[k]? = some c)
      (he : (ofFn f)[k]? = some e) : Erases m options c e := by
    obtain ⟨hk, rfl⟩ := List.getElem?_eq_some_iff.1 he
    obtain ⟨_, rfl⟩ := List.getElem?_eq_some_iff.1 hc
    rw [List.getElem_ofFn]
    exact (hf ⟨k, by simpa using hk⟩).1
  refine ⟨_, .node hget (length_ofFn.trans hlength) herases,
    .node length_ofFn.symm (fun k i e hi he => ?_) (hkey _ length_ofFn herases) hlookup⟩
  obtain ⟨hk, rfl⟩ := List.getElem?_eq_some_iff.1 he
  obtain ⟨_, rfl⟩ := List.getElem?_eq_some_iff.1 hi
  rw [List.getElem_ofFn]
  exact (hf _).2

/-- A type that has an id has an erasure, which the id stands for. -/
lemma Denotes.stands (hid : Denotes m options types h id) :
    ∃ e, Erases m options h e ∧ Stands types id e := by
  have hone {base : Handle .type} {b : Id} (ih : ∃ e, Erases m options base e ∧ Stands types b e)
      (k : Nat) (c i) (hc : [base][k]? = some c) (hi : [b][k]? = some i) : ∃ e, Erases m options c
      e ∧ Stands types i e := by
    cases k with
    | zero =>
      cases hc
      cases hi
      exact ih
    | succ => nomatch hc
  induction hid with
  | scalar hget hlookup | atomic hget hlookup =>
    exact stands_of_components hget rfl nofun (fun _ _ _ => .scalar _) hlookup
  | vector hget hlookup =>
    exact stands_of_components hget rfl nofun (fun _ _ _ => .vector _ _) hlookup
  | matrix hget hlookup =>
    exact stands_of_components hget rfl nofun (fun _ _ _ => .matrix _ _ _) hlookup
  | pointer hget _ hlookup ih =>
    exact stands_of_components hget rfl (hone ih) (fun _ _ _ => .pointer _ _) hlookup
  | array hget _ hlookup ih =>
    exact stands_of_components hget rfl (hone ih) (fun _ _ _ => .array _ _ _) hlookup
  | runtimeArray hget _ hlookup ih =>
    exact stands_of_components hget rfl (hone ih) (fun _ _ _ => .runtimeArray _ _) hlookup
  | @struct h name members layouts span id hget hlength _ hlays hlookup ih =>
    have hmembers {k : Nat} {c : Handle .type} (hc : (members.map (·.type))[k]? = some c) :
        ∃ member, members[k]? = some member ∧ member.type = c :=
        Option.map_eq_some_iff.1 (getElem?_map ▸ hc)
    have hids : (layouts.map MemberLayout.type).length =
      (members.map (·.type)).length := by simp [hlength]
    refine stands_of_components hget hids (fun k c i hc hi => ?_) (fun es hes herases => ?_) hlookup
    · obtain ⟨member, hmember, rfl⟩ := hmembers hc
      obtain ⟨layout, hlayout, rfl⟩ := Option.map_eq_some_iff.1 (getElem?_map ▸ hi)
      exact ih k member layout hmember hlayout
    · refine .struct (ext_getElem (by simp [hlength]) fun k hk hk' => ?_) rfl
        (ext_getElem (by simp [hes]) fun k hk hk' => ?_)
      all_goals
        simp only [length_map] at hk hk'
        have hlays := hlays k _ _ (getElem?_eq_getElem (by omega)) (getElem?_eq_getElem hk)
        simp only [getElem_map]
      · rw [hlays.name, hlays.offset]
      · obtain ⟨depth, hstride⟩ := hlays.stride
        refine Erases.stride_eq (herases k _ _ ?_ (getElem?_eq_getElem hk')) hstride
        exact (getElem?_map).trans (congrArg _ (getElem?_eq_getElem (by omega)))

end

/-! ### Runs -/

/-- What leads from the beginning of emission to a point of it: types are asked for, each with the
id it gets or to no avail, between requests of other kinds. -/
inductive Runs (m : IR.Module) (options : Options) :
    List (Handle .type × Id) → Progress → Prop where
  | nil : Runs m options [] (.initial (.of m options))
  | type {history : List (Handle .type × Id)} {p p' : Progress} {h : Handle .type} {id : Id} :
      Runs m options history p → typeId (.of m options) h p = .ok id p' → Runs m options
      ((h, id) :: history) p'
  | failed {history : List (Handle .type × Id)} {p p' : Progress} {h : Handle .type}
      {fault : Fault} :
      Runs m options history p → typeId (.of m options) h p = .error fault p' →
      Runs m options history p'
  | request {history : List (Handle .type × Id)} {p : Progress} (r : Request) :
      Runs m options history p → Runs m options history
      { p with assembly := (r.serve p.assembly).2 }

section

variable {m : IR.Module} {options : Options} {history : List (Handle .type × Id)} {p p' : Progress}

/-- What is true after every step: ids are those of the tables, in which each id has one entry. -/
structure Runs.Sound (m : IR.Module) (options : Options) (history : List (Handle .type × Id))
    (p : Progress) : Prop where
  keyed : p.Keyed m options
  tidy : p.assembly.tables.Tidy
  denotes : ∀ entry ∈ history, Denotes m options p.assembly.types entry.1 entry.2

lemma Runs.Sound.reaches (h : Runs.Sound m options history p)
    (hreaches : p.assembly.Reaches L p'.assembly)
    (hkeyed : p'.Keyed m options) : Runs.Sound m options history p' :=
  ⟨hkeyed, (hreaches.tidy h.tidy).1, fun entry hentry => (h.denotes entry hentry).reaches hreaches⟩

lemma Runs.sound (h : Runs m options history p) : Runs.Sound m options history p := by
  let R : Regime m options := .plain m options True True
  have htype (h : Handle .type) (p : Progress) :
      R.Yields (typeId (.of m options) h) p fun id a => Denotes m options a.types h id :=
    Regime.yields_typeIdWithin (Regime.fitsTypes_plain _) _ h p
  induction h with
  | nil =>
    exact ⟨fun h _ hid => (nomatch (Slots.get?_empty _ h).symm.trans hid), tidy_empty _, nofun⟩
  | @type history p p' h id _ hrun ih =>
    obtain ⟨hlater, hid⟩ := (htype h p).of_ok hrun
    obtain ⟨hreaches, hp'⟩ := hlater.run ⟨trivial, ih.keyed⟩
    obtain ⟨hkeyed, htidy, hdenotes⟩ := ih.reaches hreaches hp'.keyed
    exact ⟨hkeyed, htidy, forall_mem_cons.2 ⟨hid ⟨trivial, ih.keyed⟩, hdenotes⟩⟩
  | @failed history p p' h fault _ hrun ih =>
    have hends := htype h p
    rw [Regime.Yields, Ends, hrun] at hends
    obtain ⟨hreaches, hp'⟩ := hends.run ⟨trivial, ih.keyed⟩
    exact ih.reaches hreaches hp'.keyed
  | @request history p r _ ih =>
    exact ih.reaches (changes_serve r p.assembly)
      (ih.keyed.reaches (changes_serve r p.assembly) rfl)

/-- Any two types that get ids have erasures, and get the same id exactly if their erasures are the
same. -/
theorem typeId_eq_iff_erasure_eq (h : Runs m options history p) {t t' : Handle .type} {id id' : Id}
    (ht : (t, id) ∈ history) (ht' : (t', id') ∈ history) :
    ∃ e e', Erases m options t e ∧ Erases m options t' e' ∧
      (∀ e₁, Erases m options t e₁ → e₁ = e) ∧ (∀ e₁, Erases m options t' e₁ → e₁ = e') ∧
      (id = id' ↔ e = e') := by
  obtain ⟨e, he, hid⟩ := (h.sound.denotes _ ht).stands
  obtain ⟨e', he', hid'⟩ := (h.sound.denotes _ ht').stands
  exact ⟨e, e', he, he', fun _ h => h.unique he, fun _ h => h.unique he',
    hid.eq_iff h.sound.tidy.typeIds hid'⟩

/-- A counter, and the number that is left of it. -/
def countedTypes : IR.Module :=
  { types := .ofList [⟨"counter", .atomic .u32⟩, ⟨none, .scalar .u32⟩] }

theorem typeId_eq_atomic : ∃ id p, Runs countedTypes {} [(⟨1⟩, id), (⟨0⟩, id)] p ∧
    ∃ e, Erases countedTypes {} ⟨1⟩ e ∧ Erases countedTypes {} ⟨0⟩ e := by
  have hruns : ∃ id p, Runs countedTypes {} [(⟨1⟩, id), (⟨0⟩, id)] p :=
    ⟨_, _, .type (.type .nil rfl) rfl⟩
  obtain ⟨id, p, hruns⟩ := hruns
  obtain ⟨e, e', he, he', _, _, hsame⟩ := typeId_eq_iff_erasure_eq hruns mem_cons_self
    (mem_cons_of_mem _ mem_cons_self)
  exact ⟨id, p, hruns, e, he, hsame.1 rfl ▸ he'⟩

end

end Shader.Emit
