import Mathlib.Data.List.Nodup
import Mathlib.Data.List.Perm.Basic
import Shader.Proofs.Declaration
import Shader.Proofs.Instruction

/-!
# Every id is issued once and defined once

Ids are issued in order.  An id that was issued is defined by some instruction of the module, or it
is still owed.  So the ids that are defined, together with those that are owed, are all ids below
the bound, each of them once (`Sound.numbered`).  When nothing is owed any more, every id that is in
use is defined.

The declarations of the module are in order: each has a greater result than those before it, and
uses only results of those before it (`InOrder`).

A step of construction is described by what it needs to know about the ids it is given, and what is
known about the ids it answers with (`Upholds`): that they were issued, or that they are declared in
the module.
-/

namespace Shader.Assembly

open List

variable {α : Type} {u target type label pointee element : Id} {m m' m₃ : Module} {i : Instruction}
    {s : Section} {pending pending' : List Id} {d d' : Draft} {bound : Nat}

/-! ### All instructions of a module under construction -/

/-- The instructions of a draft, in some order. -/
def Draft.written (d : Draft) : List Instruction :=
  d.declaration :: (d.parameterInstructions ++ (d.locals.toList ++
    (d.closed.toList.flatMap Block.instructions ++ d.current.toList.flatMap
    OpenBlock.instructions)))

namespace Module

/-- The instructions of a module that are not those of its draft. -/
def settled (m : Module) : List Instruction :=
  m.sections.instructions ++ m.functions.toList.flatMap Function.instructions

/-- The instructions of a module, those of its draft included. -/
def all (m : Module) : List Instruction := m.settled ++ m.draft.toList.flatMap Draft.written

/-- The declarations of a module: its types, constants and variables. -/
def declarations (m : Module) : List Instruction := m.sections.globals.toList

/-- The id was issued. -/
def Issued (m : Module) (u : Id) : Prop := 0 < u.number ∧ u.number < m.bound

/-- The id is declared in the module. -/
def Global (m : Module) (u : Id) : Prop := u ∈ definitions m.declarations

/-- The id is in one of the tables of what is declared. -/
def Recorded (m : Module) (u : Id) : Prop :=
  (∃ key, (key, u) ∈ m.types) ∨ (∃ key, (key, u) ∈ m.constants) ∨ u ∈ m.specializations

end Module

/-- The ids below a bound. -/
def idsBelow (bound : Nat) : List Id := (range' 1 (bound - 1)).map Id.mk

lemma mem_idsBelow : u ∈ idsBelow bound ↔ 0 < u.number ∧ u.number < bound := by
  simp only [idsBelow, mem_map, mem_range'_1]
  constructor
  · rintro ⟨n, hn, rfl⟩
    dsimp only
    omega
  · intro hu
    exact ⟨u.number, by omega, rfl⟩

lemma nodup_idsBelow (bound : Nat) : (idsBelow bound).Nodup :=
  Nodup.map (fun _ _ h => congrArg Id.number h) (nodup_range')

lemma idsBelow_succ (h : 0 < bound) : idsBelow (bound + 1) = idsBelow bound ++ [⟨bound⟩] := by
  obtain ⟨n, rfl⟩ := Nat.exists_eq_succ_of_ne_zero (Nat.ne_of_gt h)
  simp only [idsBelow, Nat.succ_eq_add_one, Nat.add_sub_cancel]
  rw [range'_1_concat, map_append, Nat.add_comm]
  rfl

/-- Each instruction has a result, which is greater than those before it, and it uses only these. -/
inductive InOrder : List Instruction → Prop where
  | nil : InOrder []
  | snoc {code : List Instruction} {i : Instruction} {u : Id} : InOrder code → i.result? = some u →
      (∀ v ∈ definitions code, v.number < u.number) → (∀ v ∈ i.uses, v ∈ definitions code) →
      InOrder (code ++ [i])

/-! ### What holds during construction -/

/-- The module is sound as far as it is built; the ids of the list are still owed. -/
structure Module.Sound (pending : List Id) (m : Module) : Prop where
  positive : 0 < m.bound
  numbered : (definitions m.all ++ pending).Perm (idsBelow m.bound)
  issued : ∀ i ∈ m.all, ∀ u ∈ i.uses, m.Issued u
  inOrder : InOrder m.declarations
  recorded : ∀ u, m.Recorded u → m.Global u
  imported : ∀ u, m.mathImport = some u → m.Issued u

/-- More ids are issued, and more is declared. -/
structure Module.Grows (m m' : Module) : Prop where
  bound : m.bound ≤ m'.bound
  globals : ∀ u, m.Global u → m'.Global u

namespace Module

lemma Grows.refl (m : Module) : m.Grows m := ⟨Nat.le_refl _, fun _ => id⟩

lemma Grows.trans {m₁ m₂ : Module} (h : m₁.Grows m₂) (h' : m₂.Grows m₃) : m₁.Grows m₃ :=
  ⟨Nat.le_trans h.bound h'.bound, fun u hu => h'.globals u (h.globals u hu)⟩

lemma Issued.grows (hu : m.Issued u) (h : m.Grows m') :
    m'.Issued u := ⟨hu.1, Nat.lt_of_lt_of_le hu.2 h.bound⟩

lemma mem_declarations (hi : i ∈ m.declarations) : i ∈ m.all :=
  mem_append_left _ (mem_append_left _ (mem_flatMap.2 ⟨.globals, Section.mem_all _, hi⟩))

namespace Sound

lemma perm (h : m.Sound pending) (hperm : pending.Perm pending') : m.Sound pending' :=
  { h with numbered := ((Perm.refl _).append hperm.symm).trans h.numbered }

lemma issued_of_mem (h : m.Sound pending) (hu : u ∈ definitions m.all ++ pending) :
    m.Issued u := mem_idsBelow.1 (h.numbered.mem_iff.1 hu)

lemma issued_of_global (h : m.Sound pending) (hu : m.Global u) : m.Issued u := by
  obtain ⟨i, hi, hresult⟩ := mem_filterMap.1 hu
  exact h.issued_of_mem (mem_append_left _ (mem_filterMap.2 ⟨i, mem_declarations hi, hresult⟩))

lemma issue (h : m.Sound pending) :
    { m with bound := m.bound + 1 }.Sound (⟨m.bound⟩ :: pending) := by
  have hgrows : m.Grows { m with bound := m.bound + 1 } := ⟨Nat.le_succ _, fun _ => id⟩
  refine ⟨Nat.succ_pos _, ?_, fun i hi u hu => (h.issued i hi u hu).grows hgrows,
    h.inOrder, h.recorded, fun u hu => (h.imported u hu).grows hgrows⟩
  rw [idsBelow_succ h.positive]
  exact perm_middle.trans ((Perm.cons _ h.numbered).trans (perm_append_singleton _ _).symm)

lemma add (is : List Instruction) (h : m.Sound (definitions is ++ pending))
    (hall : m'.all.Perm (is ++ m.all)) (hbound : m'.bound = m.bound)
    (huses : ∀ i ∈ is, ∀ u ∈ i.uses, m.Issued u) (horder : InOrder m'.declarations)
    (hrecorded : ∀ u, m'.Recorded u → m'.Global u) (himport : m'.mathImport = m.mathImport) :
    m'.Sound pending := by
  have hissued : ∀ u, m.Issued u ↔ m'.Issued u := fun u => by simp only [Issued, hbound]
  refine ⟨hbound ▸ h.positive, ?_, fun i hi u hu => ?_, horder, hrecorded, ?_⟩
  · have hdefinitions : (definitions m'.all).Perm (definitions is ++ definitions m.all) := by
      rw [← definitions_append]
      exact hall.filterMap _
    rw [hbound]
    refine ((hdefinitions.append (.refl pending)).trans ?_).trans h.numbered
    rw [← append_assoc]
    exact perm_append_comm.append (.refl _)
  · refine (hissued u).1 ?_
    rcases mem_append.1 (hall.mem_iff.1 hi) with hi | hi
    · exact huses i hi u hu
    · exact h.issued i hi u hu
  · rw [himport]
    exact fun u hu => (hissued u).1 (h.imported u hu)

end Sound

end Module

/-! ### Sections -/

lemma perm_flatMap_push [DecidableEq α] (hf : ∀ x, f' x = if a = x then f x ++ [b] else f x) :
    ∀ {l : List α}, l.Nodup → a ∈ l → (l.flatMap f').Perm (b :: l.flatMap f)
  | x :: l, hnodup, ha => by
    obtain ⟨hx, hl⟩ := nodup_cons.1 hnodup
    rw [flatMap_cons, flatMap_cons, hf x]
    by_cases hax : a = x
    · have hrest : l.flatMap f' = l.flatMap f := by
        refine flatMap_congr fun y hy => ?_
        rw [hf, if_neg]
        rintro rfl
        exact hx (hax ▸ hy)
      rw [if_pos hax, hrest, append_assoc]
      exact perm_middle
    · rw [if_neg hax]
      exact ((Perm.refl _).append (perm_flatMap_push hf hl
        ((mem_cons.1 ha).resolve_left hax))).trans perm_middle

lemma Sections.perm_push (s : Sections) (i : Instruction) (a : Section) :
    (s.push i a).instructions.Perm (i :: s.instructions) := by
  refine perm_flatMap_push (fun x => ?_) (by decide) (Section.mem_all a)
  rw [Sections.get_push]
  split
  · exact Array.toList_push
  · rfl

/-- An instruction is added to a section. -/
def Module.pushed (m : Module) (s : Section) (i : Instruction) : Module :=
  { m with sections := m.sections.push i s }

lemma Module.perm_pushed (m : Module) (s : Section) (i : Instruction) :
    (m.pushed s i).all.Perm (i :: m.all) :=
  ((Sections.perm_push m.sections i s).append_right _).append_right _

lemma Module.declarations_pushed (hs : s ≠ .globals) (i : Instruction) :
    (m.pushed s i).declarations = m.declarations := by
  have hget := Sections.get_push m.sections i s .globals
  rw [if_neg hs] at hget
  exact congrArg Array.toList hget

/-! ### Facts about ids -/

/-- What is known about an id, or about an id for each of several modules. -/
inductive Fact (α : Type) where
  /-- It was issued. -/
  | issued (u : α)
  /-- It is declared in the module. -/
  | global (u : α)

def Fact.Holds (m : Module) : Fact Id → Prop
  | issued u => m.Issued u
  | global u => m.Global u

variable {g : List (Fact Id)}

lemma Fact.Holds.grows {x : Fact Id} (hx : x.Holds m) (h : m.Grows m') : x.Holds m' := by
  cases x with
  | issued u => exact Module.Issued.grows hx h
  | global u => exact h.globals u hx

/-- The facts hold. -/
def Module.Knows (m : Module) (g : List (Fact Id)) : Prop := ∀ x ∈ g, x.Holds m

lemma Module.Knows.grows (hg : m.Knows g) (h : m.Grows m') :
    m'.Knows g := fun x hx => (hg x hx).grows h

lemma Module.Knows.nil (m : Module) : m.Knows [] := forall_mem_nil _

lemma Module.Knows.append (h : m.Knows g) (h' : m.Knows g') :
    m.Knows (g ++ g') := forall_mem_append.2 ⟨h, h'⟩

/-- It is known that the id was issued. -/
def Attested {α : Type} (g : List (Fact α)) (u : α) : Prop := .issued u ∈ g ∨ .global u ∈ g

section

variable {g g' : List (Fact α)} {u v : α}

@[simp] lemma attested_issued_cons : Attested (.issued v :: g) u ↔ u = v ∨ Attested g u := by
  simp only [Attested, mem_cons, Fact.issued.injEq, reduceCtorEq, false_or, or_assoc]

@[simp] lemma attested_global_cons : Attested (.global v :: g) u ↔ u = v ∨ Attested g u := by
  simp only [Attested, mem_cons, Fact.global.injEq, reduceCtorEq, false_or]
  tauto

@[simp] lemma attested_append : Attested (g ++ g') u ↔ Attested g u ∨ Attested g' u := by
  simp only [Attested, mem_append]
  tauto

@[simp] lemma attested_map_issued {ids : List α} : Attested (ids.map .issued) u ↔ u ∈ ids := by
  simp [Attested]

end

lemma Module.Sound.attested (h : m.Sound pending) (hg : m.Knows g) (hu : Attested g u) :
    m.Issued u := by
  rcases hu with hu | hu
  · exact hg _ hu
  · exact h.issued_of_global (hg _ hu)

/-! ### Steps of construction -/

/-- The step keeps the module sound, and leaves drafts and functions alone.  What it needs to know
are the facts it is given, and more is known afterwards. -/
def Upholds {α : Type} (g : List (Fact Id)) (act : DeclareM α) (facts : α → List (Fact Id)) :
    Prop :=
  ∀ ⦃m : Module⦄ ⦃pending⦄, m.Sound pending → m.Knows g →
    (act m).2.Sound pending ∧ m.Grows (act m).2 ∧ (act m).2.Knows (facts (act m).1) ∧
      (act m).2.draft = m.draft

namespace Upholds

variable {β : Type} {k : α → List (Fact Id)}

protected lemma pure (h : ∀ x ∈ k a, x ∈ g) : Upholds g (pure a) k :=
  fun m _ hm hg => ⟨hm, .refl m, fun x hx => hg x (h x hx), rfl⟩

/-- One step after the other: the second knows the facts of the first. -/
protected lemma bind {act : DeclareM α} {next : α → DeclareM β} (h : Upholds g act k)
    (h' : ∀ a, Upholds (k a ++ g) (next a) l) : Upholds g (act >>= next) l := by
  intro m pending hm hg
  obtain ⟨hm₁, hgrows, hfacts, hdraft⟩ := h hm hg
  obtain ⟨hm₂, hgrows', hfacts', hdraft'⟩ := h' _ hm₁ (hfacts.append (hg.grows hgrows))
  exact ⟨hm₂, hgrows.trans hgrows', hfacts', hdraft'.trans hdraft⟩

protected lemma get : Upholds g (get : DeclareM Module) fun _ => [] :=
  fun m _ hm _ => ⟨hm, .refl m, .nil m, rfl⟩

lemma modify (hall : ∀ m, (change m).all = m.all) (hbound : ∀ m, (change m).bound = m.bound)
    (hglobals : ∀ m, (change m).declarations = m.declarations)
    (hdraft : ∀ m, (change m).draft = m.draft)
    (hrecorded : ∀ m u, (change m).Recorded u → m.Recorded u ∨ .global u ∈ g)
    (himport : ∀ m u, (change m).mathImport = some u → m.mathImport = some u ∨ Attested g u) :
    Upholds g (modify change : DeclareM Unit) fun _ => [] := by
  intro m pending hm hg
  have hgrows : m.Grows (change m) :=
    ⟨Nat.le_of_eq (hbound m).symm, fun u hu => by rwa [Module.Global, hglobals]⟩
  refine ⟨⟨hbound m ▸ hm.positive, ?_, fun i hi u hu => ?_, hglobals m ▸ hm.inOrder, fun u hu => ?_,
    fun u hu => ?_⟩, hgrows, .nil _, hdraft m⟩
  · show (definitions (change m).all ++ pending).Perm (idsBelow (change m).bound)
    rw [hall, hbound]
    exact hm.numbered
  · exact (hm.issued i (hall m ▸ hi) u hu).grows hgrows
  · rcases hrecorded m u hu with hu | hu
    · exact hgrows.globals u (hm.recorded u hu)
    · exact hgrows.globals u (hg _ hu)
  · rcases himport m u hu with hu | hu
    · exact (hm.imported u hu).grows hgrows
    · exact (hm.attested hg hu).grows hgrows

end Upholds

/-! ### Ids and sections -/

lemma Module.Sound.push (h : m.Sound (definitions [i] ++ pending)) (hs : s ≠ .globals)
    (huses : ∀ u ∈ i.uses, m.Issued u) : (m.pushed s i).Sound pending ∧ m.Grows (m.pushed s i) := by
  have hglobals := Module.declarations_pushed (m := m) hs i
  have hsame : ∀ u, m.Global u → (m.pushed s i).Global u :=
    fun u hu => by rwa [Module.Global, hglobals]
  refine ⟨h.add [i] (m.perm_pushed s i) rfl ?_ ?_ (fun u hu => hsame u (h.recorded u hu)) rfl,
    ⟨Nat.le_refl _, hsame⟩⟩
  · exact forall_mem_singleton.2 huses
  · rw [hglobals]
    exact h.inOrder

lemma Module.Sound.declare (h : m.Sound pending) (hresult : i.result? = some ⟨m.bound⟩)
    (huses : ∀ u ∈ i.uses, m.Global u) :
    (({ m with bound := m.bound + 1 } : Module).pushed .globals i).Sound pending ∧
      m.Grows (({ m with bound := m.bound + 1 } : Module).pushed .globals i) ∧
        (({ m with bound := m.bound + 1 } : Module).pushed .globals i).Global ⟨m.bound⟩ := by
  set m₁ : Module := { m with bound := m.bound + 1 } with hm₁
  have hgrows₁ : m.Grows m₁ := ⟨Nat.le_succ _, fun _ => id⟩
  have hglobals : (m₁.pushed .globals i).declarations = m₁.declarations ++ [i] := Array.toList_push
  have hdefinitions : definitions [i] = [⟨m.bound⟩] := by
    rw [definitions_cons, hresult]
    rfl
  have hold : ∀ u, m.Global u → (m₁.pushed .globals i).Global u := fun u hu => by
    rw [Module.Global, hglobals, definitions_append]
    exact mem_append_left _ hu
  refine ⟨Module.Sound.add [i] ?_ (m₁.perm_pushed .globals i) rfl ?_ ?_
    (fun u hu => hold u (h.recorded u hu)) rfl, ⟨Nat.le_succ _, hold⟩, ?_⟩
  · rw [hdefinitions]
    exact h.issue
  · exact forall_mem_singleton.2 fun u hu => (h.issued_of_global (huses u hu)).grows hgrows₁
  · rw [hglobals]
    exact .snoc h.inOrder hresult (fun v hv => (h.issued_of_global hv).2) huses
  · rw [Module.Global, hglobals, definitions_append, hdefinitions]
    exact mem_append_right _ mem_cons_self

lemma upholds_pushTo (hs : s ≠ .globals) (hi : Opcode.resultless.contains i.opcode)
    (huses : ∀ u ∈ i.operands.filterMap Operand.id?, Attested g u) :
    Upholds g (pushTo s i) fun _ => [] := by
  intro m pending hm hg
  by_cases hold : s = .capabilities ∧ m.sections.capabilities.contains i
  · have hsame : (pushTo s i m).2 = m := if_pos hold
    rw [hsame]
    exact ⟨hm, .refl m, .nil m, rfl⟩
  · have hpushed : (pushTo s i m).2 = m.pushed s i := if_neg hold
    rw [hpushed]
    obtain ⟨hsound, hgrows⟩ := Module.Sound.push (by rwa [definitions_of_resultless hi]) hs
      fun u hu => hm.attested hg (huses u (Instruction.uses_of_resultless hi ▸ hu))
    exact ⟨hsound, hgrows, .nil _, rfl⟩

lemma upholds_requireCapability (c : Capability) : Upholds g (requireCapability c) fun _ => [] :=
  upholds_pushTo nofun rfl nofun

lemma Upholds.declare {i : Id → Instruction} {next : Id → DeclareM α}
    (hresult : ∀ id, (i id).result? = some id) (huses : ∀ id, ∀ u ∈ (i id).uses, .global u ∈ g)
    (h : ∀ id, Upholds (.global id :: g) (next id) facts) : Upholds g (do
      let id ← freshId
      pushTo .globals (i id)
      next id) facts := by
  intro m pending hm hg
  obtain ⟨hsound, hgrows, hglobal⟩ := hm.declare (hresult ⟨m.bound⟩) fun u hu => hg _ (huses _ u hu)
  obtain ⟨hm', hgrows', hfacts, hdraft⟩ :=
    h ⟨m.bound⟩ hsound (forall_mem_cons.2 ⟨hglobal, hg.grows hgrows⟩)
  exact ⟨hm', hgrows.trans hgrows', hfacts, hdraft⟩

lemma upholds_mathImport : Upholds g mathImport ([.issued ·]) := by
  intro m pending hm hg
  simp only [mathImport, bind_apply, get_apply]
  cases h : m.mathImport with
  | some id => exact ⟨hm, .refl m, forall_mem_singleton.2 (hm.imported id h), rfl⟩
  | none =>
    set m₁ : Module := { m with bound := m.bound + 1 } with hm₁
    set i : Instruction := ⟨.extInstImport, [.id ⟨m.bound⟩, .text "GLSL.std.450"]⟩ with hi
    obtain ⟨hsound, hgrows⟩ := Module.Sound.push (i := i) (s := .imports) hm.issue nofun nofun
    have hnew : (m₁.pushed .imports i).Issued ⟨m.bound⟩ := ⟨hm.positive, Nat.lt_succ_self _⟩
    refine ⟨⟨hsound.positive, hsound.numbered, hsound.issued, hsound.inOrder, hsound.recorded, ?_⟩,
      ⟨Nat.le_succ _, hgrows.globals⟩, forall_mem_singleton.2 hnew, rfl⟩
    intro u hu
    cases hu
    exact hnew

/-! ### Types -/

lemma upholds_decorate (h : Attested g target) (d : Decoration) (words : List UInt32) :
    Upholds g (pushTo .annotations (.decorate target d words)) fun _ => [] := by
  refine upholds_pushTo nofun rfl ?_
  intro u hu
  simp only [Instruction.decorate, filterMap_cons, Operand.id?, Operand.filterMap_id?_words,
    mem_singleton] at hu
  exact hu ▸ h

lemma upholds_memberDecorate (h : Attested g target) (index : UInt32) (d : Decoration)
    (words : List UInt32) :
    Upholds g (pushTo .annotations (.memberDecorate target index d words)) fun _ => [] := by
  refine upholds_pushTo nofun rfl ?_
  intro u hu
  simp only [Instruction.memberDecorate, filterMap_cons, Operand.id?,
    Operand.filterMap_id?_words, mem_singleton] at hu
  exact hu ▸ h

lemma Attested.append {g : List (Fact α)} {u : α} (h : Attested g u) (g' : List (Fact α)) :
    Attested (g' ++ g) u :=
  h.imp (mem_append_right _) (mem_append_right _)

lemma upholds_decorateBlock (h : Attested g target) (d : Decoration) :
    Upholds g (decorateBlock target d) fun _ => [] := by
  refine .bind .get fun m => ?_
  split
  · exact .pure nofun
  · refine .bind (.modify (fun _ => rfl) (fun _ => rfl) (fun _ => rfl)
      (fun _ => rfl) (fun _ _ => .inl) fun _ _ => .inl) fun _ => upholds_decorate h d []

lemma upholds_pushName (hi : Opcode.resultless.contains i.opcode)
    (huses : ∀ u ∈ i.operands.filterMap Operand.id?, Attested g u) :
    Upholds g (pushName i) fun _ => [] := by
  refine .bind .get fun m => ?_
  split
  · exact upholds_pushTo nofun hi huses
  · exact .pure nofun

lemma upholds_adorns {id : Id} (h : Attested g id) :
    Adorns (fun act => Upholds g act fun _ => []) id where
  pure _ := .pure nofun
  bind := .bind
  name _ := upholds_pushName rfl (forall_mem_singleton.2 h)
  memberName _ _ := upholds_pushName rfl (forall_mem_singleton.2 h)
  stride _ := upholds_decorate h _ _
  capability _ := upholds_requireCapability _
  decorate _ _ _ := upholds_decorate h _ _
  member _ _ _ _ := upholds_memberDecorate h _ _ _

lemma upholds_nameTarget (h : Attested g target) (name : Option String) :
    Upholds g (nameTarget target name) fun _ => [] := (upholds_adorns h).nameTarget name

lemma upholds_decorateType {id : Id} (h : Attested g id) (key : TypeKey) :
    Upholds g (decorateType id key) fun _ => [] :=
  (upholds_adorns h).decorateType fun _ _ _ _ => upholds_decorateBlock h _

/-- The ids that a declarator mentions, which has to be that of a type. -/
def Declarator.facts (d : Declarator) :
    List (Fact Id) := (d.operands.filterMap Operand.id?).map .global

/-- Interning a type keeps the ledger sound, whether it was there or is new. -/
lemma upholds_internType (key : TypeKey) {declarator : DeclareM Declarator}
    (huntyped : ∀ m, Opcode.untyped.contains (declarator m).1.opcode)
    (h : Upholds g declarator Declarator.facts) :
    Upholds g (internType key declarator) ([.global ·]) := by
  intro m pending hm hg
  simp only [internType, bind_apply, get_apply]
  cases hlookup : m.types.lookup key with
  | some id =>
    exact ⟨hm, .refl m, forall_mem_singleton.2 (hm.recorded id (.inl ⟨key, mem_of_lookup hlookup⟩)),
      rfl⟩
  | none =>
    obtain ⟨hm₁, hgrows, hfacts, hdraft⟩ := h hm hg
    set d := (declarator m).1 with hd
    have hop := huntyped m
    have hlast : Upholds d.facts (do
        let id ← freshId
        pushTo .globals ⟨d.opcode, .id id :: d.operands⟩
        decorateType id key
        modify fun m => { m with types := (key, id) :: m.types }
        return id) ([.global ·]) := by
      refine .declare (fun id => ?_) (fun id u hu => ?_) fun id => ?_
      · exact Instruction.result?_untyped hop id d.operands
      · rw [Instruction.uses_untyped hop] at hu
        exact mem_map.2 ⟨u, hu, rfl⟩
      · refine .bind (upholds_decorateType (.inr mem_cons_self) key) fun _ => ?_
        refine .bind (.modify (fun _ => rfl) (fun _ => rfl) (fun _ => rfl)
          (fun _ => rfl) (fun m u hu => ?_) fun _ _ => .inl) fun _ => ?_
        · rcases hu with ⟨k, hk⟩ | hu
          · rcases mem_cons.1 hk with heq | hk
            · cases heq
              exact .inr mem_cons_self
            · exact .inl (.inl ⟨k, hk⟩)
          · exact .inl (.inr hu)
        · exact .pure (by simp)
    obtain ⟨hm₂, hgrows', hfacts', hdraft'⟩ := hlast hm₁ hfacts
    exact ⟨hm₂, hgrows.trans hgrows', hfacts', hdraft'.trans hdraft⟩

lemma upholds_scalarType (scalar : IR.Scalar) : Upholds g (scalarType scalar) ([.global ·]) := by
  have hkind : Opcode.untyped.contains (scalarDeclarator scalar).opcode ∧
      (scalarDeclarator scalar).facts = [] := by
    unfold scalarDeclarator
    cases scalar.kind <;> exact ⟨rfl, rfl⟩
  have hanswer : Upholds g (pure (scalarDeclarator scalar)) Declarator.facts :=
    .pure (by rw [hkind.2]; exact forall_mem_nil _)
  refine upholds_internType _ (fun m => ?_) ?_
  · cases widthCapability? scalar <;> exact hkind.1
  · cases widthCapability? scalar with
    | none => exact hanswer
    | some c => exact .bind (upholds_requireCapability c) fun _ => hanswer

lemma upholds_vectorType (scalar : IR.Scalar) (size : UInt32) :
    Upholds g (vectorType scalar size) ([.global ·]) :=
  upholds_internType _ (fun _ => rfl) <| .bind (upholds_scalarType scalar) fun _ =>
    .pure (forall_mem_singleton.2 mem_cons_self)

lemma upholds_matrixType (columns rows : UInt32) (scalar : IR.Scalar) :
    Upholds g (matrixType columns rows scalar) ([.global ·]) :=
  upholds_internType _ (fun _ => rfl) <| .bind (upholds_vectorType scalar rows) fun _ =>
    .pure (forall_mem_singleton.2 mem_cons_self)

lemma upholds_voidType : Upholds g voidType ([.global ·]) :=
    upholds_internType _ (fun _ => rfl) (.pure nofun)

lemma upholds_pointerType (h : .global pointee ∈ g) (storage : StorageClass) :
    Upholds g (pointerType storage pointee) ([.global ·]) :=
  upholds_internType _ (fun _ => rfl) (.pure (forall_mem_singleton.2 h))

/-! ### Constants -/

/-- The ids that a constant is made of. -/
def ConstantValue.parts : ConstantValue → List Id
  | composite parts => parts
  | _ => []

lemma Module.parts_normalize (m : Module) (value : ConstantValue) :
    ∀ u ∈ (m.normalize value).parts, u ∈ value.parts := by
  intro u hu
  unfold Module.normalize at hu
  split at hu
  · cases hu
  · cases hu
  · cases hu
  · split at hu
    · cases hu
    · exact hu
  · exact hu

lemma constantInstruction_spec (type id : Id) (value : ConstantValue) :
    (constantInstruction type id value).result? = some id ∧
      (constantInstruction type id value).uses = type :: value.parts := by
  unfold constantInstruction
  split <;> refine ⟨Instruction.result?_result rfl .., (Instruction.uses_result rfl ..).trans ?_⟩
  case h_5 parts => rw [Operand.filterMap_id?_ids]; rfl
  all_goals rfl

lemma upholds_constant {value : ConstantValue} (htype : .global type ∈ g)
    (hparts : ∀ u ∈ value.parts, .global u ∈ g) :
    Upholds g (constant type value) ([.global ·]) := by
  intro m pending hm hg
  simp only [constant, bind_apply, get_apply]
  set key : ConstantKey := ⟨type, m.normalize value⟩ with hkey
  cases hlookup : m.constants.lookup key with
  | some id =>
    exact ⟨hm, .refl m, forall_mem_singleton.2
      (hm.recorded id (.inr (.inl ⟨key, mem_of_lookup hlookup⟩))), rfl⟩
  | none =>
    have hrun : Upholds g (do
        let id ← freshId
        pushTo .globals (constantInstruction type id key.value)
        modify fun m => { m with constants := (key, id) :: m.constants }
        return id) ([.global ·]) := by
      refine .declare (fun id => (constantInstruction_spec _ _ _).1)
        (fun id u hu => ?_) fun id => ?_
      · rw [(constantInstruction_spec _ _ _).2] at hu
        rcases mem_cons.1 hu with rfl | hu
        · exact htype
        · exact hparts u (m.parts_normalize value u hu)
      · refine .bind (.modify (fun _ => rfl) (fun _ => rfl) (fun _ => rfl)
          (fun _ => rfl) (fun m u hu => ?_) fun _ _ => .inl) fun _ => ?_
        · rcases hu with hu | ⟨k, hk⟩ | hu
          · exact .inl (.inl hu)
          · rcases mem_cons.1 hk with heq | hk
            · cases heq
              exact .inr mem_cons_self
            · exact .inl (.inr (.inl ⟨k, hk⟩))
          · exact .inl (.inr (.inr hu))
        · exact .pure (by simp)
    exact hrun hm hg

lemma upholds_nullConstant (h : .global type ∈ g) : Upholds g (nullConstant type) ([.global ·]) :=
  upholds_constant h nofun

lemma ConstantValue.parts_ofLiteral (literal : IR.Literal) : (ofLiteral literal).parts = [] := by
  cases literal <;> rfl

lemma upholds_literalConstant (literal : IR.Literal) :
    Upholds g (literalConstant literal) ([.global ·]) :=
  .bind (upholds_scalarType _) fun _ => upholds_constant mem_cons_self
    (ConstantValue.parts_ofLiteral literal ▸ forall_mem_nil _)

lemma upholds_indexConstant (value : UInt32) : Upholds g (indexConstant value) ([.global ·]) := by
  refine .bind (upholds_scalarType _) fun _ => upholds_constant mem_cons_self ?_
  split <;> exact forall_mem_nil _

lemma specializationInstruction_spec (type id : Id) (value : ConstantValue) :
    (specializationInstruction type id value).result? = some id ∧
      (specializationInstruction type id value).uses = [type] := by
  unfold specializationInstruction
  split <;> exact ⟨Instruction.result?_result rfl .., Instruction.uses_result rfl ..⟩

lemma upholds_specialization (literal : IR.Literal) :
    Upholds g (specialization literal) ([.global ·]) := by
  refine .bind (upholds_scalarType _) fun type => ?_
  refine .declare (fun id => (specializationInstruction_spec _ _ _).1)
    (fun id u hu => ?_) fun id => ?_
  · rw [(specializationInstruction_spec _ _ _).2] at hu
    exact mem_singleton.1 hu ▸ mem_cons_self
  · refine .bind (.modify (fun _ => rfl) (fun _ => rfl) (fun _ => rfl)
      (fun _ => rfl) (fun m u hu => ?_) fun _ _ => .inl) fun _ => ?_
    · rcases hu with hu | hu | hu
      · exact .inl (.inl hu)
      · exact .inl (.inr (.inl hu))
      · rcases mem_cons.1 hu with rfl | hu
        · exact .inr mem_cons_self
        · exact .inl (.inr (.inr hu))
    · exact .pure (by simp)

/-! ### Types by their keys -/

/-- What has to be declared before a type. -/
def TypeKey.facts : TypeKey → List (Fact Id)
  | array element _ _ | runtimeArray element _ | pointer _ element => [.global element]
  | struct layout => (layout.members.map MemberLayout.type).map .global
  | function result parameters => .global result :: parameters.map .global
  | _ => []

lemma upholds_arrayType (h : .global element ∈ g) (length stride : UInt32) :
    Upholds g (arrayType element length stride) ([.global ·]) := by
  refine upholds_internType _ (fun _ => rfl) (.bind (upholds_indexConstant length)
    fun _ => .pure ?_)
  exact forall_mem_cons.2 ⟨mem_cons_of_mem _ h, forall_mem_singleton.2 mem_cons_self⟩

lemma upholds_typeId (h : ∀ x ∈ key.facts, x ∈ g) : Upholds g (typeId key) ([.global ·]) := by
  cases key with
  | void => exact upholds_voidType
  | scalar scalar => exact upholds_scalarType scalar
  | vector scalar size => exact upholds_vectorType scalar size
  | matrix columns rows scalar => exact upholds_matrixType columns rows scalar
  | array element length stride => exact upholds_arrayType (h _ mem_cons_self) length stride
  | runtimeArray element stride => exact upholds_internType _ (fun _ => rfl) (.pure h)
  | struct layout =>
    refine upholds_internType _ (fun _ => rfl) (.pure ?_)
    rw [Declarator.facts, Operand.filterMap_id?_ids]
    exact h
  | pointer storage pointee => exact upholds_pointerType (h _ mem_cons_self) storage
  | function result parameters =>
    refine upholds_internType _ (fun _ => rfl) (.pure ?_)
    rw [Declarator.facts, filterMap_cons, Operand.id?, Operand.filterMap_id?_ids]
    exact h

/-! ### Functions -/

/-- How far a draft is. -/
inductive Openness where
  /-- No block is open. -/
  | blank
  /-- A block is open. -/
  | opened
  /-- No block is open, and there are blocks. -/
  | closed
  /-- There are blocks. -/
  | begun

def Draft.Is (d : Draft) : Openness → Prop
  | .blank => d.current = none
  | .opened => d.current.isSome
  | .closed => d.current = none ∧ d.closed ≠ #[]
  | .begun => d.current.isSome ∨ d.closed ≠ #[]

lemma Draft.Is.begun (h : d.Is o) (ho : o ≠ .blank) : d.Is .begun := by
  cases o with
  | blank => exact absurd rfl ho
  | opened => exact .inl h
  | closed => exact .inr h.2
  | begun => exact h

lemma Draft.written_beginBlock (h : d.beginBlock label = .ok d') :
    d'.written = d.written ++ [.label label] ∧ d'.Is .opened := by
  unfold Draft.beginBlock at h
  cases hcurrent : d.current with
  | some block =>
    rw [hcurrent] at h
    cases h
  | none =>
    rw [hcurrent] at h
    cases h
    refine ⟨?_, rfl⟩
    simp only [Draft.written, hcurrent, Option.toList_none, Option.toList_some, flatMap_nil,
      flatMap_cons, append_nil, OpenBlock.instructions, cons_append, append_assoc]

lemma Draft.exists_beginBlock (h : d.Is .blank) (label : Id) :
    ∃ d', d.beginBlock label = .ok d' := by
  unfold Draft.beginBlock
  rw [show d.current = none from h]
  exact ⟨_, rfl⟩

lemma Draft.exists_terminate (h : d.Is .opened) (i : Instruction) :
    ∃ d', d.terminate i = .ok d' ∧ d'.written = d.written ++ [i] ∧ d'.Is .closed := by
  obtain ⟨block, hblock⟩ := Option.isSome_iff_exists.1 h
  unfold Draft.terminate
  rw [hblock]
  refine ⟨_, rfl, ?_, rfl, Array.push_ne_empty⟩
  simp only [Draft.written, hblock, Option.toList_none, Option.toList_some, flatMap_nil,
    flatMap_cons, append_nil, flatMap_append, Array.toList_push, OpenBlock.close,
    OpenBlock.instructions, Block.instructions, cons_append, append_assoc]

lemma Draft.exists_push (h : d.Is .opened) (hi : i.isTerminator = false) :
    ∃ d', d.push i = .ok d' ∧ d'.written = d.written ++ [i] ∧ d'.Is .opened := by
  obtain ⟨head, closed, current⟩ := d
  obtain ⟨block, rfl⟩ := Option.isSome_iff_exists.1 h
  unfold Draft.push
  rw [hi]
  refine ⟨_, rfl, ?_, rfl⟩
  simp only [Draft.written, Option.toList_some, flatMap_nil, flatMap_cons, append_nil,
    Array.toList_push, OpenBlock.instructions, cons_append, append_assoc]

lemma Draft.exists_finish (h : d.Is .closed) :
    ∃ f, d.finish = .ok f ∧ f.instructions.Perm d.written := by
  obtain ⟨head, closed, current⟩ := d
  obtain ⟨rfl, hclosed⟩ := h
  refine ⟨_, dif_neg hclosed, ?_⟩
  simp only [Function.instructions, FunctionHead.instructions, Draft.written, Option.toList_none,
    flatMap_nil, append_nil, cons_append]
  refine Perm.cons _ (Perm.append_left _ ?_)
  cases hblocks : closed.toList with
  | nil => exact absurd (Array.toList_eq_nil_iff.1 hblocks) hclosed
  | cons block rest =>
    simp only [map_cons, Block.instructions, flatMap_cons, append_assoc, cons_append, ← flatMap_def]
    exact perm_middle.symm

namespace Module

lemma all_of_draft (hd : m.draft = some d) : m.all = m.settled ++ d.written := by
  simp only [all, hd, Option.toList_some, flatMap_cons, flatMap_nil, append_nil]

lemma all_of_no_draft (hd : m.draft = none) : m.all = m.settled := by
  simp only [all, hd, Option.toList_none, flatMap_nil, append_nil]

lemma Sound.draft (h : m.Sound (definitions is ++ pending)) (hd : m.draft = some d)
    (hwritten : d'.written.Perm (is ++ d.written)) (huses : ∀ i ∈ is, ∀ u ∈ i.uses, m.Issued u) :
    ({ m with draft := some d' } : Module).Sound pending := by
  refine h.add _ ?_ rfl huses h.inOrder h.recorded rfl
  have hall : ({ m with draft := some d' } : Module).all = m.settled ++ d'.written :=
    all_of_draft rfl
  rw [hall, all_of_draft hd]
  refine (hwritten.append_left _).trans ?_
  rw [← append_assoc, ← append_assoc]
  exact perm_append_comm.append_right _

lemma Sound.openFunction {head : FunctionHead} (hdraft : m.draft = none)
    (hlocals : head.locals = #[])
    (h : m.Sound ((head.id :: head.parameters.toList.map Parameter.id) ++ pending))
    (htype : m.Issued head.typeId) (hreturn : m.Issued head.returnType)
    (hparameters : ∀ p ∈ head.parameters, m.Issued p.type) :
    ({ m with draft := some { toFunctionHead := head } } : Module).Sound pending := by
  have hwritten : ({ toFunctionHead := head } : Draft).written =
      head.declaration :: head.parameterInstructions := by
    simp only [Draft.written, hlocals, flatMap_nil, Option.toList_none, append_nil,
      Array.toList_empty]
  have hdefinitions : definitions (head.declaration :: head.parameterInstructions) =
      head.id :: head.parameters.toList.map Parameter.id := by
    rw [definitions_cons, FunctionHead.declaration, Instruction.result?_result rfl]
    refine congrArg (head.id :: ·) ?_
    simp only [definitions, FunctionHead.parameterInstructions, filterMap_map]
    rw [← filterMap_eq_map]
    exact filterMap_congr fun p _ => Instruction.result?_result rfl ..
  rw [← hdefinitions] at h
  refine h.add _ ?_ rfl ?_ h.inOrder h.recorded rfl
  · have hall : ({ m with draft := some { toFunctionHead := head } } : Module).all =
        m.settled ++ ({ toFunctionHead := head } : Draft).written := all_of_draft rfl
    rw [hall, hwritten, all_of_no_draft hdraft]
    exact perm_append_comm
  · intro i hi u hu
    rcases mem_cons.1 hi with rfl | hi
    · rcases mem_cons.1 hu with rfl | hu
      · exact hreturn
      · obtain rfl := mem_singleton.1 hu
        exact htype
    · obtain ⟨p, hp, rfl⟩ := mem_map.1 hi
      rw [Instruction.uses_result rfl] at hu
      obtain rfl := mem_singleton.1 hu
      exact hparameters p (Array.mem_toList_iff.1 hp)

lemma Sound.closeFunction (h : m.Sound pending) (hd : m.draft = some d)
    (hf : f.instructions.Perm d.written) :
    ({ m with draft := none, functions := m.functions.push f } : Module).Sound pending := by
  refine Sound.add [] h ?_ rfl nofun h.inOrder h.recorded rfl
  rw [nil_append, all_of_draft hd, all_of_no_draft rfl]
  simp only [settled, Array.toList_push, flatMap_append, flatMap_cons, flatMap_nil,
    append_nil, append_assoc]
  exact (hf.append_left _).append_left _

lemma Sound.abandon (h : m.Sound pending) :
    ∃ dropped, ({ m with draft := none } : Module).Sound (dropped ++ pending) := by
  refine ⟨definitions (m.draft.toList.flatMap Draft.written), h.positive, ?_, ?_, h.inOrder,
    h.recorded, h.imported⟩
  · rw [all_of_no_draft rfl, ← append_assoc, ← definitions_append]
    exact h.numbered
  · rw [all_of_no_draft rfl]
    exact fun i hi => h.issued i (mem_append_left _ hi)

lemma Sound.issued_label (h : m.Sound pending) (hd : m.draft = some d)
    (hlabel : d.label? = some label) :
    m.Issued label := by
  obtain ⟨block, hblock, rfl⟩ := Option.map_eq_some_iff.1 hlabel
  refine h.issued_of_mem (mem_append_left _ (mem_filterMap.2 ⟨.label block.label, ?_, rfl⟩))
  rw [all_of_draft hd, Draft.written, hblock]
  simp only [Option.toList_some, flatMap_cons, OpenBlock.instructions, mem_append, mem_cons]
  tauto

end Module

end Shader.Assembly
