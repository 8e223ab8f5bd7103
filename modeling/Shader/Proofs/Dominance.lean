import Mathlib.Data.List.Nodup
import Mathlib.Data.List.Pairwise
import Mathlib.Data.Set.Basic
import Shader.Proofs.Instruction

/-!
# Dominance, and which ids are available where

A block strictly dominates another when control comes through it on every way from the first block
to the other.  An operand is available when its definition comes before it in the block, or in a
block that strictly dominates.  The operands of a phi are used at the end of the block they are
paired with.

That all operands are available follows from a certificate: a set of ids for the start of each
block, such that an id at the start of a block is defined in each block that leads to it or is there
at its start already (`BlockOk`).  The start of the first block has no ids.
-/

namespace Shader.Assembly

open List

variable {before blocks blocks' : List Block} {b c : Block} {A A' outside' outside : Set Id}
    {u : Id} {code : List Instruction}
  {i j : Instruction}

/-! ### Control flow -/

/-- The labels that control can go to from the end of a block. -/
def Instruction.targets (i : Instruction) : List Id :=
  match i.opcode with
  | .branch => i.uses
  | .branchConditional | .switch => i.uses.tail
  | _ => []

@[simp] lemma Instruction.targets_branch (l : Id) : (branch l).targets = [l] := rfl

@[simp] lemma Instruction.targets_branchConditional (c l l' : Id) :
    (branchConditional c l l').targets = [l, l'] := rfl

@[simp] lemma Instruction.targets_ret : ret.targets = [] := rfl

@[simp] lemma Instruction.targets_returnValue (c : Id) : (returnValue c).targets = [] := rfl

@[simp] lemma Instruction.targets_kill : kill.targets = [] := rfl

/-- A way from the first block to a block, with the blocks that it passes, the last one first. -/
inductive Trail (blocks : List Block) : List Block → Block → Prop where
  | start {b : Block} : blocks.head? = some b → Trail blocks [] b
  | step {before : List Block} {b c : Block} : Trail blocks before b → c ∈ blocks →
      c.label ∈ b.terminator.targets → Trail blocks (b :: before) c

/-- Control can get to the block. -/
def Reachable (blocks : List Block) (b : Block) : Prop := ∃ before, Trail blocks before b

/-- Control gets to `b` only through `a`, which is another block. -/
def StrictlyDominates (blocks : List Block) (a b : Block) : Prop :=
  a ≠ b ∧ ∀ before, Trail blocks before b → a ∈ before

lemma Trail.suffix {after : List Block} (h : Trail blocks (after ++ b :: before) c) :
    Trail blocks before b := by
  induction after generalizing c with
  | nil =>
    cases h with
    | step h _ _ => exact h
  | cons a after ih =>
    cases h with
    | step h _ _ => exact ih h

lemma Trail.simple : ∀ {before}, Trail blocks before b → ∃ before, Trail blocks before b ∧
    b ∉ before := by
  intro before
  induction hn : before.length using Nat.strong_induction_on generalizing before with
  | _ n ih =>
    intro h
    by_cases hb : b ∈ before
    · obtain ⟨after, before', rfl⟩ := append_of_mem hb
      refine ih before'.length ?_ rfl h.suffix
      simp only [length_append, length_cons] at hn
      omega
    · exact ⟨before, h, hb⟩

lemma Trail.mem (h : Trail blocks before b) : ∀ c ∈ before, c ∈ blocks := by
  induction h with
  | start _ => exact nofun
  | @step before b c h _ _ ih =>
    intro a ha
    rcases mem_cons.1 ha with rfl | ha
    · cases h with
      | start hb => exact mem_of_mem_head? hb
      | step _ hmem _ => exact hmem
    · exact ih a ha

/-! ### Availability -/

/-- The values of a phi, each with the label of the block it comes from. -/
def Instruction.phiPairs (i : Instruction) : List (Id × Id) :=
  if i.opcode = .phi then pairs (i.uses.drop 1) else []
where
  pairs : List Id → List (Id × Id)
    | value :: parent :: rest => (value, parent) :: pairs rest
    | _ => []

/-- The ids that an instruction uses where it stands. -/
def Instruction.usesHere (i : Instruction) : List Id :=
  if i.opcode = .phi then i.uses.take 1 else i.uses

lemma Instruction.usesHere_result (htyped : op.isTyped) (hphi : op ≠ .phi) (type id : Id)
    (operands : List Operand) :
    (result op type id operands).usesHere = type :: operands.filterMap Operand.id? := by
  rw [usesHere, uses_result htyped]
  exact if_neg hphi

/-- If the id is the result of an instruction of the function, that comes before, in the block or in
one that strictly dominates. -/
def Available (blocks : List Block) (b : Block) (before : List Instruction) (u : Id) : Prop :=
  ∀ c ∈ blocks, ∀ j ∈ c.instructions, j.opcode ≠ .label → j.result? = some u →
    (c = b ∧ j ∈ before) ∨ StrictlyDominates blocks c b

/-- The operands of an instruction are available. -/
structure OperandsAvailable (blocks : List Block) (b : Block) (before : List Instruction)
    (i : Instruction) : Prop where
  here : ∀ u ∈ i.usesHere, Available blocks b before u
  phi : ∀ pair ∈ i.phiPairs, ∃ parent ∈ blocks, parent.label = pair.2 ∧
    Available blocks parent parent.instructions pair.1

/-- All operands in the blocks that control can get to are available. -/
def AllAvailable (blocks : List Block) : Prop :=
  ∀ b ∈ blocks, Reachable blocks b → ∀ before i after, b.instructions = before ++ i :: after →
    OperandsAvailable blocks b before i

/-! ### Certificates -/

/-- The ids that are available at the start of blocks. -/
abbrev Certificate := Id → Option (Set Id)

/-- Some ids, and the results of some code. -/
def plus (A : Set Id) (code : List Instruction) : Set Id := A ∪ {u | u ∈ results code}

/-- The id is available, or it is no result of the function. -/
def Usable (outside : Set Id) (A : Set Id) (u : Id) : Prop := u ∈ A ∨ u ∈ outside

section

variable (Γ : Certificate) (outside : Set Id) (blocks : List Block)

/-- An instruction uses what is available. -/
structure InstructionOk (A : Set Id) (i : Instruction) : Prop where
  here : ∀ u ∈ i.usesHere, Usable outside A u
  phi : ∀ pair ∈ i.phiPairs, ∃ b ∈ blocks, b.label = pair.2 ∧ ∃ A₀, Γ b.label = some A₀ ∧
    Usable outside (plus A₀ b.body.toList) pair.1

/-- Each instruction uses what is available at the start or defined before it. -/
def CodeOk (A : Set Id) (code : List Instruction) : Prop :=
  ∀ before i after, code = before ++ i :: after → InstructionOk Γ outside blocks (plus A before) i

/-- A block uses what is available, and what the blocks need that it leads to is available at its
end. -/
def BlockOk (b : Block) : Prop :=
  ∃ A, Γ b.label = some A ∧ CodeOk Γ outside blocks A b.body.toList ∧
    InstructionOk Γ outside blocks (plus A b.body.toList) b.terminator ∧
    b.terminator.result? = none ∧
    ∀ t ∈ b.terminator.targets, ∃ A', Γ t = some A' ∧ A' ⊆ plus A b.body.toList

end

@[simp] lemma plus_nil (A : Set Id) : plus A [] = A := by
  simp [plus]

lemma plus_append (A : Set Id) (a b : List Instruction) : plus A (a ++ b) = plus (plus A a) b := by
  ext u
  simp only [plus, results_append, mem_append, Set.mem_union, Set.mem_ofPred_eq]
  tauto

lemma subset_plus (A : Set Id) (code : List Instruction) : A ⊆ plus A code := Set.subset_union_left

lemma Usable.mono (h : Usable outside A u) (hA : A ⊆ A') (houtside : outside ⊆ outside') :
    Usable outside' A' u := h.imp (hA ·) (houtside ·)

/-! ### Certificates are sound -/

lemma mem_results : u ∈ results code ↔ ∃ j ∈ code, j.opcode ≠ .label ∧ j.result? = some u := by
  simp [results, definitions, and_assoc]

lemma mem_results_body (hterminator : b.terminator.result? = none) (hj : j ∈ b.instructions)
    (hlabel : j.opcode ≠ .label) (hu : j.result? = some u) : u ∈ results b.body.toList := by
  rw [Block.instructions, mem_cons, mem_append, mem_singleton] at hj
  rcases hj with rfl | hj | rfl
  · exact absurd rfl hlabel
  · exact mem_results.2 ⟨j, hj, hlabel, hu⟩
  · rw [hterminator] at hu
    cases hu

lemma Block.instructions_eq_cons_append {label : Instruction} {before after : List Instruction}
    (h : b.instructions = label :: before ++ i :: after) :
    label = .label b.label ∧ ((before = b.body.toList ∧ i = b.terminator) ∨
      ∃ after', b.body.toList = before ++ i :: after') := by
  obtain ⟨rfl, htail⟩ := cons.inj h
  refine ⟨rfl, ?_⟩
  change b.body.toList ++ [b.terminator] = before ++ i :: after at htail
  rcases eq_nil_or_concat after with rfl | ⟨after, last, rfl⟩
  · obtain ⟨hbody, hlast⟩ := append_inj' htail rfl
    exact .inl ⟨hbody.symm, (cons.inj hlast).1.symm⟩
  · rw [concat_eq_append, ← cons_append, ← append_assoc] at htail
    exact .inr ⟨after, (append_inj' htail rfl).1⟩

section

variable (hdistinct : (definitions (blocks.flatMap Block.instructions)).Nodup)
include hdistinct

lemma eq_of_mem_results (hb : b ∈ blocks) (hc : c ∈ blocks) (hub : u ∈ results b.body.toList)
    (huc : u ∈ results c.body.toList) : b = c := by
  have hbody : ∀ d : Block, u ∈ results d.body.toList → u ∈ definitions d.instructions := by
    intro d hd
    rw [Block.instructions, definitions_cons, definitions_append]
    simp [mem_definitions_of_mem_results hd]
  rw [definitions, filterMap_flatMap, nodup_flatMap] at hdistinct
  by_contra hne
  have hsymm : Std.Symm (Function.onFun List.Disjoint
      fun b : Block => b.instructions.filterMap Instruction.result?) :=
    ⟨fun _ _ hdisjoint _ hx hy => hdisjoint hy hx⟩
  exact hdistinct.2.forall hb hc hne (hbody b hub) (hbody c huc)

lemma mem_before_of_mem_results (hb : b ∈ blocks) {before after : List Instruction}
    (hcode : b.instructions = before ++ after) (hu : u ∈ results before) {j : Instruction}
    (hj : j ∈ b.instructions) (hresult : j.result? = some u) : j ∈ before := by
  have hblock : (definitions b.instructions).Nodup := by
    rw [definitions, filterMap_flatMap, nodup_flatMap] at hdistinct
    exact hdistinct.1 b hb
  rw [hcode, definitions_append, nodup_append] at hblock
  rw [hcode, mem_append] at hj
  refine hj.resolve_right fun hj => ?_
  exact hblock.2.2 u (mem_definitions_of_mem_results hu) u (mem_filterMap.2 ⟨j, hj, hresult⟩) rfl

end

section

variable {Γ : Certificate} (hok : ∀ b ∈ blocks, BlockOk Γ outside blocks b)
 (hfirst : ∀ b, blocks.head? = some b → Γ b.label = some ∅)
 (hdistinct : (definitions (blocks.flatMap Block.instructions)).Nodup)
include hok hfirst

lemma Trail.defines (h : Trail blocks before b) (hA : Γ b.label = some A) (hu : u ∈ A) :
    ∃ c ∈ before, u ∈ results c.body.toList := by
  induction h generalizing A with
  | start hb =>
    rw [hfirst _ hb] at hA
    cases hA
    exact hu.elim
  | @step before b c htrail _ htarget ih =>
    have hb : b ∈ blocks := by
      cases htrail with
      | start hb => exact mem_of_mem_head? hb
      | step _ hmem _ => exact hmem
    obtain ⟨A₀, hA₀, -, -, -, htargets⟩ := hok b hb
    obtain ⟨A', hA', hsub⟩ := htargets _ htarget
    obtain rfl : A' = A := Option.some.inj (hA'.symm.trans hA)
    rcases hsub hu with hu | hu
    · obtain ⟨d, hd, hdu⟩ := ih hA₀ hu
      exact ⟨d, mem_cons_of_mem _ hd, hdu⟩
    · exact ⟨b, mem_cons_self, hu⟩

include hdistinct

lemma dominates_of_mem (hc : c ∈ blocks) (hA : Γ b.label = some A) (hu : u ∈ A)
    (huc : u ∈ results c.body.toList) : ∀ before, Trail blocks before b → c ∈ before := by
  intro before htrail
  obtain ⟨d, hd, hud⟩ := htrail.defines hok hfirst hA hu
  rw [eq_of_mem_results hdistinct hc (htrail.mem d hd) huc hud]
  exact hd

lemma available_of_mem (hb : Reachable blocks b) (hA : Γ b.label = some A) (hu : u ∈ A)
    (before : List Instruction) : Available blocks b before u := by
  intro c hc j hj hlabel hresult
  obtain ⟨-, -, -, -, hterminator, -⟩ := hok c hc
  have huc := mem_results_body hterminator hj hlabel hresult
  have hdominates := dominates_of_mem hok hfirst hdistinct hc hA hu huc
  refine .inr ⟨?_, hdominates⟩
  rintro rfl
  obtain ⟨_, htrail⟩ := hb
  obtain ⟨_, htrail, hnot⟩ := htrail.simple
  exact hnot (hdominates _ htrail)

lemma available_at_end (hb : b ∈ blocks) (hA : Γ b.label = some A) (hu : u ∈ plus A b.body.toList) :
    Available blocks b b.instructions u := by
  intro c hc j hj hlabel hresult
  by_cases hbc : c = b
  · exact .inl ⟨hbc, hbc ▸ hj⟩
  · obtain ⟨-, -, -, -, hterminator, -⟩ := hok c hc
    have huc := mem_results_body hterminator hj hlabel hresult
    rcases hu with hu | hu
    · exact .inr ⟨hbc, dominates_of_mem hok hfirst hdistinct hc hA hu huc⟩
    · exact absurd (eq_of_mem_results hdistinct hc hb huc hu) hbc

/-- If all blocks are good, every operand is available. -/
lemma allAvailable_of_blockOk
    (houtside : ∀ u ∈ outside, u ∉ results (blocks.flatMap Block.instructions)) :
    AllAvailable blocks := by
  have hnever : ∀ u ∈ outside, ∀ b before, Available blocks b before u := by
    intro u hu b before c hc j hj hlabel hresult
    have hmem : j ∈ blocks.flatMap Block.instructions := mem_flatMap.2 ⟨c, hc, hj⟩
    exact absurd (mem_results.2 ⟨j, hmem, hlabel, hresult⟩) (houtside u hu)
  intro b hb hreachable before i after hcode
  obtain ⟨A, hA, hbody, hterminator, -, -⟩ := hok b hb
  cases before with
  | nil =>
    obtain ⟨rfl, -⟩ := cons.inj hcode
    exact ⟨nofun, nofun⟩
  | cons label before =>
    obtain ⟨rfl, hplace⟩ := Block.instructions_eq_cons_append hcode
    have hi : InstructionOk Γ outside blocks (plus A before) i := by
      rcases hplace with ⟨rfl, rfl⟩ | ⟨after', hbefore⟩
      · exact hterminator
      · exact hbody before i after' hbefore
    -- an operand comes from every path to the block, from above in it, or from outside
    refine ⟨fun u hu => ?_, fun pair hpair => ?_⟩
    · rcases hi.here u hu with (hu | hu) | hu
      · exact available_of_mem hok hfirst hdistinct hreachable hA hu _
      · intro c hc j hj hlabel hresult
        obtain ⟨-, -, -, -, hnone, -⟩ := hok c hc
        have hub : u ∈ results (.label b.label :: before) := hu
        have hbody' : u ∈ results b.body.toList := by
          obtain ⟨j', hj', hlabel', hresult'⟩ := mem_results.1 hub
          obtain ⟨-, -, -, -, hnone', -⟩ := hok b hb
          exact mem_results_body hnone' (hcode ▸ mem_append_left _ hj') hlabel' hresult'
        obtain rfl := eq_of_mem_results hdistinct hc hb (mem_results_body hnone hj hlabel
          hresult) hbody'
        exact .inl ⟨rfl, mem_before_of_mem_results hdistinct hc hcode hub hj hresult⟩
      · exact hnever u hu _ _
    · obtain ⟨parent, hparent, hlabel, A₀, hA₀, hvalue⟩ := hi.phi pair hpair
      refine ⟨parent, hparent, hlabel, ?_⟩
      rcases hvalue with hvalue | hvalue
      · exact available_at_end hok hfirst hdistinct hparent hA₀ hvalue
      · exact hnever _ hvalue _ _

end

/-! ### More blocks, and more that is outside -/

section

variable {Γ Γ' Γ₃ : Certificate}

/-- `Γ'` says what `Γ` says, and more. -/
def Certificate.Extends (Γ Γ' : Certificate) : Prop := ∀ l A, Γ l = some A → Γ' l = some A

lemma Certificate.Extends.refl (Γ : Certificate) : Γ.Extends Γ := fun _ _ h => h

lemma Certificate.Extends.trans {Γ₁ Γ₂ : Certificate} (h : Γ₁.Extends Γ₂) (h' : Γ₂.Extends Γ₃) :
    Γ₁.Extends Γ₃ := fun l A hA => h' l A (h l A hA)

section

variable (hΓ : Γ.Extends Γ') (houtside : outside ⊆ outside') (hblocks : blocks ⊆ blocks')
include hΓ houtside hblocks

lemma InstructionOk.mono (h : InstructionOk Γ outside blocks A i) (hA : A ⊆ A') :
    InstructionOk Γ' outside' blocks' A' i where
  here u hu := (h.here u hu).mono hA houtside
  phi pair hpair := by
    obtain ⟨b, hb, hlabel, A₀, hA₀, hvalue⟩ := h.phi pair hpair
    exact ⟨b, hblocks hb, hlabel, A₀, hΓ _ _ hA₀, hvalue.mono (subset_refl _) houtside⟩

lemma CodeOk.mono (h : CodeOk Γ outside blocks A code) :
    CodeOk Γ' outside' blocks' A code := fun before i after hcode =>
  (h before i after hcode).mono hΓ houtside hblocks (subset_refl _)

lemma BlockOk.mono (h : BlockOk Γ outside blocks b) : BlockOk Γ' outside' blocks' b := by
  obtain ⟨A, hA, hbody, hterminator, hnone, htargets⟩ := h
  refine ⟨A, hΓ _ _ hA, hbody.mono hΓ houtside hblocks,
    hterminator.mono hΓ houtside hblocks (subset_refl _), hnone, fun t ht => ?_⟩
  obtain ⟨A', hA', hsub⟩ := htargets t ht
  exact ⟨A', hΓ _ _ hA', hsub⟩

end

lemma CodeOk.nil (A : Set Id) : CodeOk Γ outside blocks A [] := fun before i after h => by simp at h

lemma CodeOk.concat (h : CodeOk Γ outside blocks A code)
    (hi : InstructionOk Γ outside blocks (plus A code) i) :
    CodeOk Γ outside blocks A (code ++ [i]) := by
  intro before j after hcode
  rcases eq_nil_or_concat after with rfl | ⟨after, last, rfl⟩
  · obtain ⟨rfl, hlast⟩ := append_inj' hcode rfl
    obtain rfl := (cons.inj hlast).1
    exact hi
  · rw [concat_eq_append, ← cons_append, ← append_assoc] at hcode
    exact h before j after (append_inj' hcode rfl).1

end

/-! ### The variables of a function -/

/-- A block with variables in front of its body. -/
def Block.lead (locals : Array Instruction) (b : Block) :
    Block := { b with body := locals ++ b.body }

/-- The blocks of a function as they are written: its variables lead the first one. -/
def Function.layout (f : Function) : List Block :=
  match f.blocks.toList with
  | [] => []
  | b :: rest => b.lead f.locals :: rest

lemma Function.instructions_eq (f : Function) :
    f.instructions = f.declaration :: f.parameterInstructions ++ f.layout.flatMap
      Block.instructions := by
  unfold Function.instructions FunctionHead.instructions Function.layout
  cases f.blocks.toList with
  | nil => rfl
  | cons b rest => simp [Block.lead, Block.instructions, flatMap]

section

variable {Γ : Certificate} {locals : Array Instruction} {first : Block} {rest : List Block}

/-- The certificate for blocks of which the first one is led by variables: these are available
everywhere else. -/
def Certificate.lead (Γ : Certificate) (locals : Array Instruction) (first : Block) : Certificate :=
  fun l => if l = first.label then some ∅ else (Γ l).map (plus · locals.toList)

/-- What is outside, without variables. -/
def without (outside : Set Id) (locals : Array Instruction) : Set Id :=
  {u | u ∈ outside ∧ u ∉ results locals.toList}

lemma Usable.lead (h : Usable outside A u) (hA : plus A locals.toList ⊆ A') :
    Usable (without outside locals) A' u := by
  rcases h with h | h
  · exact .inl (hA (.inl h))
  · by_cases hu : u ∈ results locals.toList
    · exact .inl (hA (.inr hu))
    · exact .inr ⟨h, hu⟩

lemma targets_lead (hA : plus A locals.toList ⊆ A')
    (htargets : ∀ t ∈ i.targets, ∃ B, Γ t = some B ∧ B ⊆ A) :
    ∀ t ∈ i.targets, ∃ B, Γ.lead locals first t = some B ∧ B ⊆ A' := by
  intro t ht
  obtain ⟨B, hB, hsub⟩ := htargets t ht
  by_cases hlabel : t = first.label
  · exact ⟨∅, if_pos hlabel, Set.empty_subset _⟩
  · refine ⟨plus B locals.toList, by simp [Certificate.lead, hlabel, hB], ?_⟩
    exact subset_trans (Set.union_subset_union_left _ hsub) hA

variable (hfirst : Γ first.label = some ∅) (hlabels : ∀ b ∈ rest, b.label ≠ first.label)
include hfirst hlabels

/-- Each block has a counterpart that is led by the variables, at the start of which or in which
they are available. -/
lemma exists_lead (hb : b ∈ first :: rest) (hA : Γ b.label = some A) :
    ∃ b' ∈ first.lead locals :: rest, b'.label = b.label ∧ ∃ A', Γ.lead locals first
      b'.label = some A' ∧
        plus (plus A b.body.toList) locals.toList ⊆ plus A' b'.body.toList := by
  rcases mem_cons.1 hb with rfl | hb
  · cases hfirst.symm.trans hA
    refine ⟨b.lead locals, mem_cons_self, rfl, ∅, if_pos rfl, ?_⟩
    intro u hu
    simp only [plus, Block.lead, Array.toList_append, results_append] at hu ⊢
    simp at hu ⊢
    tauto
  · refine ⟨b, mem_cons_of_mem _ hb, rfl, plus A locals.toList, ?_, ?_⟩
    · simp [Certificate.lead, hlabels b hb, hA]
    · intro u hu
      simp only [plus] at hu ⊢
      simp at hu ⊢
      tauto

lemma InstructionOk.lead (h : InstructionOk Γ outside (first :: rest) A i)
    (hA : plus A locals.toList ⊆ A') : InstructionOk (Γ.lead locals first) (without outside locals)
      (first.lead locals :: rest) A' i where
  here u hu := (h.here u hu).lead hA
  phi pair hpair := by
    obtain ⟨b, hb, hlabel, A₀, hA₀, hvalue⟩ := h.phi pair hpair
    obtain ⟨b', hb', hlabel', A₀', hA₀', hsub⟩ := exists_lead hfirst hlabels hb hA₀
    exact ⟨b', hb', hlabel'.trans hlabel, A₀', hA₀', hvalue.lead hsub⟩

lemma blockOk_lead_first (hlocals : ∀ i ∈ locals.toList, i.phiPairs = [] ∧
      ∀ u ∈ i.usesHere, u ∈ outside ∧ u ∉ results locals.toList)
    (hok : BlockOk Γ outside (first :: rest) first) :
    BlockOk (Γ.lead locals first) (without outside locals) (first.lead locals :: rest)
      (first.lead locals) := by
  obtain ⟨A, hA, hbody, hterminator, hnone, htargets⟩ := hok
  cases hfirst.symm.trans hA
  have hplus : ∀ code, plus (plus ∅ code) locals.toList ⊆ plus ∅ (locals.toList ++ code) := by
    intro code u hu
    simp only [plus, results_append] at hu ⊢
    simp at hu ⊢
    tauto
  have hend : plus (plus ∅ first.body.toList) locals.toList ⊆ plus ∅
    (first.lead locals).body.toList := by
    rw [Block.lead, Array.toList_append]
    exact hplus _
  refine ⟨∅, if_pos rfl, ?_, hterminator.lead hfirst hlabels hend, hnone,
    targets_lead hend htargets⟩
  intro before i after hcode
  rw [Block.lead, Array.toList_append] at hcode
  rcases append_eq_append_iff.1 hcode with ⟨mid, hbefore, hrest⟩ | ⟨mid, hfront, hrest⟩
  · rw [hbefore]
    exact (hbody mid i after hrest).lead hfirst hlabels (hplus mid)
  · cases mid with
    | nil =>
      rw [append_nil] at hfront
      have hi : InstructionOk Γ outside (first :: rest) (plus ∅ []) i := hbody [] i after hrest.symm
      rw [← hfront]
      exact hi.lead hfirst hlabels (by simp)
    | cons j mid =>
      obtain ⟨rfl, -⟩ := cons.inj hrest
      obtain ⟨hphi, huses⟩ := hlocals i (hfront ▸ mem_append_right _ mem_cons_self)
      exact ⟨fun u hu => .inr (huses u hu), by simp [hphi]⟩

lemma blockOk_lead_rest (hb : b ∈ rest) (hok : BlockOk Γ outside (first :: rest) b) :
    BlockOk (Γ.lead locals first) (without outside locals) (first.lead locals :: rest) b := by
  obtain ⟨A, hA, hbody, hterminator, hnone, htargets⟩ := hok
  have hplus : ∀ code, plus (plus A code) locals.toList ⊆ plus (plus A locals.toList) code := by
    intro code u hu
    simp only [plus] at hu ⊢
    simp at hu ⊢
    tauto
  refine ⟨plus A locals.toList, by simp [Certificate.lead, hlabels b hb, hA], ?_,
    hterminator.lead hfirst hlabels (hplus _), hnone, targets_lead (hplus _) htargets⟩
  intro before i after hcode
  exact (hbody before i after hcode).lead hfirst hlabels (hplus before)

end

lemma perm_lead (locals : Array Instruction) (first : Block) (rest : List Block) :
    ((first.lead locals :: rest).flatMap Block.instructions).Perm
      (locals.toList ++ (first :: rest).flatMap Block.instructions) := by
  simp only [flatMap_cons, Block.lead, Block.instructions, Array.toList_append,
    cons_append, append_assoc]
  exact perm_middle.symm

/-- A function has all its operands available if its blocks without the variables have a
certificate.  A variable is outside for these; what it is made of is declared elsewhere. -/
lemma Function.allAvailable {f : Function} {outside : Set Id}
    (hok : ∀ b ∈ f.blocks.toList, BlockOk Γ outside f.blocks.toList b)
    (hfirst : ∀ b, f.blocks.toList.head? = some b → Γ b.label = some ∅)
    (hdistinct : (definitions f.locals.toList ++ definitions f.code).Nodup)
    (houtside : ∀ u ∈ outside, u ∉ results f.code)
    (hlocals : ∀ i ∈ f.locals.toList, i.phiPairs = [] ∧
      ∀ u ∈ i.usesHere, u ∈ outside ∧ u ∉ results f.locals.toList) : AllAvailable f.layout := by
  unfold Function.layout
  unfold Function.code at hdistinct houtside
  generalize f.blocks.toList = blocks at *
  cases blocks with
  | nil => exact fun _ h => absurd h not_mem_nil
  | cons first rest =>
    have hfirst := hfirst first rfl
    have hlabels : ∀ b ∈ rest, b.label ≠ first.label := by
      intro b hb heq
      have hmem : first.label ∈ definitions (rest.flatMap Block.instructions) := by
        refine mem_filterMap.2 ⟨.label b.label, mem_flatMap.2 ⟨b, hb, mem_cons_self⟩, ?_⟩
        rw [heq]
        rfl
      rw [flatMap_cons, definitions_append] at hdistinct
      exact (nodup_append.1 (nodup_append.1 hdistinct).2.1).2.2 first.label
        (mem_filterMap.2 ⟨.label first.label, mem_cons_self, rfl⟩) _ hmem rfl
    have hok' : ∀ b ∈ first.lead f.locals :: rest, BlockOk (Γ.lead f.locals first)
        (without outside f.locals) (first.lead f.locals :: rest) b := by
      intro b hb
      rcases mem_cons.1 hb with rfl | hb
      · exact blockOk_lead_first hfirst hlabels hlocals (hok first mem_cons_self)
      · exact blockOk_lead_rest hfirst hlabels hb (hok b (mem_cons_of_mem _ hb))
    refine allAvailable_of_blockOk hok' (fun b hb => ?_) ?_ ?_
    · cases hb
      exact if_pos rfl
    · rw [← definitions_append] at hdistinct
      exact ((perm_lead f.locals first rest).filterMap _).nodup_iff.2 hdistinct
    · rintro u ⟨hu, hnot⟩ hmem
      obtain ⟨j, hj, hj'⟩ := mem_results.1 hmem
      rcases mem_append.1 ((perm_lead f.locals first rest).mem_iff.1 hj) with hj | hj
      · exact hnot (mem_results.2 ⟨j, hj, hj'⟩)
      · exact houtside u hu (mem_results.2 ⟨j, hj, hj'⟩)

end Shader.Assembly
