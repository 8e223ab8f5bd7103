import Shader.Proofs.Dominance
import Shader.Proofs.Function

/-!
# The graph of the blocks of a function

A block may end with a merge instruction right before its terminator.  It announces where control
comes together again, and in a loop where the next round starts.  Blocks that are put together in
this way are *structured*, and they run *forward* if control goes back to headers of loops only.

While a body is emitted, some labels wait for their blocks.  The blocks so far are a good graph if
every label that they refer to waits for its block or belongs to a block after the first one
(`Graph`).  Opening and closing blocks keeps a graph good.
-/

namespace Shader.Assembly

open List

variable {i : Instruction} {l : Id}

/-! ### Merge instructions -/

namespace Instruction

def isMerge (i : Instruction) : Bool := i.opcode == .selectionMerge || i.opcode == .loopMerge

/-- The labels that a merge instruction announces. -/
def announced (i : Instruction) : List Id := if i.isMerge then i.uses else []

/-- The instruction neither ends a block nor announces how it ends. -/
def isInner (i : Instruction) : Bool := !i.isTerminator && !i.isMerge

/-- The terminator that a merge instruction asks for. -/
def AsksFor (i terminator : Instruction) : Prop :=
  (i.opcode = .selectionMerge → terminator.opcode = .branchConditional ∨
    terminator.opcode = .switch) ∧
  (i.opcode = .loopMerge → terminator.opcode = .branch)

@[simp] lemma announced_selectionMerge (merge : Id) : (selectionMerge merge).announced = [merge] :=
  rfl

@[simp] lemma announced_loopMerge (merge next : Id) :
    (loopMerge merge next).announced = [merge, next] := rfl

lemma isInner_iff : i.isInner ↔ i.isTerminator = false ∧ i.isMerge = false := by simp [isInner]

lemma announced_of_isInner (h : i.isInner) :
    i.announced = [] := by simp [announced, (isInner_iff.1 h).2]

lemma isInner_of_isTyped (h : i.opcode.isTyped) : i.isInner := by
  refine isInner_iff.2 ⟨Opcode.not_isTerminator_of_isTyped h, ?_⟩
  simp only [isMerge, Bool.or_eq_false_iff, beq_eq_false_iff_ne]
  constructor <;>
  · intro hi
    rw [hi] at h
    cases h

lemma isInner_of_isEffect (h : i.opcode.isEffect) : i.isInner := by
  have hall : ∀ op ∈ Opcode.effects,
      op.isTerminator = false ∧ (op == .selectionMerge || op == .loopMerge) = false := by decide
  exact isInner_iff.2 (hall _ (contains_iff_mem.1 h))

end Instruction

namespace Block

/-- The labels that the merge instructions of a block announce. -/
def announced (b : Block) : List Id := b.body.toList.flatMap Instruction.announced

/-- The labels that a block refers to. -/
def references (b : Block) : List Id := b.terminator.targets ++ b.announced

lemma mem_announced {b : Block} (hi : i ∈ b.body) (hl : l ∈ i.announced) :
    l ∈ b.announced := mem_flatMap_of_mem (Array.mem_toList_iff.2 hi) hl

/-- The block is the header of a loop. -/
def IsHeader (b : Block) : Prop := ∃ merge next, .loopMerge merge next ∈ b.body

end Block

/-! ### Structured blocks -/

/-- Every block is closed by its terminator alone, every label that is referred to is that of a
block after the first one, and every branch that depends on a value is announced, except for those
back to the header of a loop. -/
structure Structured (blocks : List Block) : Prop where
  nonempty : blocks ≠ []
  distinct : (blocks.map Block.label).Nodup
  ended : ∀ b ∈ blocks, b.terminator.isTerminator ∧ ∀ i ∈ b.body, i.isTerminator = false
  referred : ∀ b ∈ blocks, ∀ l ∈ b.references, l ∈ blocks.tail.map Block.label
  merging : ∀ b ∈ blocks, ∀ before i after, b.body.toList = before ++ i :: after → i.isMerge →
    after = [] ∧ i.AsksFor b.terminator
  switching : ∀ b ∈ blocks, b.terminator.opcode = .switch → ∃ merge, .selectionMerge merge ∈ b.body
  branching : ∀ before b after, blocks = before ++ b :: after →
    b.terminator.opcode = .branchConditional → (∃ merge, .selectionMerge merge ∈ b.body) ∨
      ∃ header ∈ before, ∃ merge next, .loopMerge merge next ∈ header.body ∧
        b.terminator.targets = [merge, header.label]
  once : (blocks.flatMap Block.announced).Nodup

/-- Control goes to later blocks, or back to the header of a loop. -/
def Forward (blocks : List Block) : Prop :=
  ∀ before b after, blocks = before ++ b :: after → ∀ l ∈ b.terminator.targets,
    l ∈ after.map Block.label ∨ ∃ header ∈ before, header.label = l ∧ header.IsHeader

/-- Phis come first in their blocks, and their parents are the two blocks that control comes from:
the first one chooses on the first value, the second one has no choice. -/
def PhisNameParents (blocks : List Block) : Prop :=
  ∀ b ∈ blocks, ∀ before i after, b.body.toList = before ++ i :: after → i.opcode = .phi →
    before = [] ∧ ∃ type id l p r q, i = .result .phi type id (Operand.ids [l, p, r, q]) ∧ p ≠ q ∧
      (∀ c ∈ blocks, b.label ∈ c.terminator.targets ↔ c.label = p ∨ c.label = q) ∧
      (∃ c ∈ blocks, c.label = p ∧ ∃ accept reject, c.terminator = .branchConditional l
      accept reject) ∧ ∃ c ∈ blocks, c.label = q ∧ c.terminator = .branch b.label

/-- A phi joins the values of the two blocks that lead to its block: the first one chooses on its
value and announces the block, the second one has no choice. -/
inductive Instruction.Joins (blocks : List Block) (label : Id) : Instruction → Prop where
  | intro (left right : Block) {l r : Id} (type id accept reject : Id) : left ∈ blocks →
      .selectionMerge label ∈ left.body → left.terminator = .branchConditional l accept reject →
      label ∈ left.terminator.targets → right ∈ blocks → right.terminator = .branch label →
      (∀ c ∈ blocks, label ∈ c.terminator.targets → c = left ∨ c = right) →
      Joins blocks label (.result .phi type id (Operand.ids [l, left.label, r, right.label]))

variable {blocks : List Block}

lemma Instruction.Joins.concat {label : Id} {b : Block} (h : i.Joins blocks label)
    (hb : label ∉ b.terminator.targets) : i.Joins (blocks ++ [b]) label := by
  obtain ⟨left, right, type, id, accept, reject, hleft, hmerge, hchoice, htarget, hright,
    hbranch, honly⟩ := h
  refine .intro left right type id accept reject (mem_append_left _ hleft) hmerge hchoice htarget
    (mem_append_left _ hright) hbranch (forall_mem_append.2 ⟨honly, forall_mem_singleton.2 ?_⟩)
  exact fun hmem => absurd hmem hb

/-- A phi comes first in a block, which does not wait any more, and joins the blocks that lead
there. -/
def PhisJoin (P : List Id) (blocks : List Block) (label : Id) (body : List Instruction) : Prop :=
  ∀ before i after, body = before ++ i :: after → i.opcode = .phi →
    before = [] ∧ label ∉ P ∧ i.Joins blocks label

/-- The ways in which a block is put together, after the given blocks. -/
inductive Block.Shape (before : List Block) (b : Block) : Prop where
  | leaves : (∀ i ∈ b.body.toList, i.isInner) → b.terminator.isTerminator →
      b.terminator.opcode ≠ .branchConditional → b.terminator.opcode ≠ .switch → Shape before b
  | selects {inner : List Instruction} {merge : Id} :
      b.body.toList = inner ++ [.selectionMerge merge] → (∀ i ∈ inner, i.isInner) →
      b.terminator.opcode = .branchConditional ∨ b.terminator.opcode = .switch → Shape before b
  | loops {inner : List Instruction} {merge next : Id} :
      b.body.toList = inner ++ [.loopMerge merge next] → (∀ i ∈ inner, i.isInner) →
      b.terminator.opcode = .branch → Shape before b
  | repeats {header : Block} {c merge next : Id} : (∀ i ∈ b.body.toList, i.isInner) →
      header ∈ before → .loopMerge merge next ∈ header.body →
      b.terminator = .branchConditional c merge header.label → Shape before b

namespace Block.Shape

variable {before : List Block} {b : Block} {front : List Instruction}

lemma body (h : b.Shape before) :
      (∀ i ∈ b.body.toList, i.isInner) ∨ ∃ inner i, b.body.toList = inner ++ [i] ∧
      (∀ j ∈ inner, j.isInner) ∧ i.isTerminator = false ∧ i.AsksFor b.terminator := by
  cases h with
  | leaves hinner _ _ _ => exact .inl hinner
  | selects hbody hinner hterminator =>
    exact .inr ⟨_, _, hbody, hinner, rfl, fun _ => hterminator, nofun⟩
  | loops hbody hinner hterminator =>
    exact .inr ⟨_, _, hbody, hinner, rfl, nofun, fun _ => hterminator⟩
  | repeats hinner _ _ _ => exact .inl hinner

lemma terminator (h : b.Shape before) : b.terminator.isTerminator := by
  cases h with
  | leaves _ hterminator _ _ => exact hterminator
  | selects _ _ hterminator =>
    rcases hterminator with h | h <;> simp only [Instruction.isTerminator, h] <;> rfl
  | loops _ _ hterminator =>
    simp only [Instruction.isTerminator, hterminator]
    rfl
  | repeats _ _ _ hterminator =>
    rw [hterminator]
    rfl

lemma not_isTerminator (h : b.Shape before) : ∀ i ∈ b.body.toList, i.isTerminator = false := by
  intro i hi
  rcases h.body with hinner | ⟨inner, j, hbody, hinner, hj, -⟩
  · exact (Instruction.isInner_iff.1 (hinner i hi)).1
  · rw [hbody] at hi
    rcases mem_append.1 hi with hi | hi
    · exact (Instruction.isInner_iff.1 (hinner i hi)).1
    · exact mem_singleton.1 hi ▸ hj

lemma merging (h : b.Shape before) (hsplit : b.body.toList = front ++ i :: rest) (hi : i.isMerge) :
    rest = [] ∧ i.AsksFor b.terminator := by
  have hmem : i ∈ b.body.toList := by simp [hsplit]
  rcases h.body with hinner | ⟨inner, j, hbody, hinner, -, hasks⟩
  · have := (Instruction.isInner_iff.1 (hinner i hmem)).2
    rw [hi] at this
    cases this
  · rcases eq_nil_or_concat rest with rfl | ⟨rest, last, rfl⟩
    · obtain ⟨-, hlast⟩ := append_inj' (hsplit.symm.trans hbody) rfl
      obtain rfl := (cons.inj hlast).1
      exact ⟨rfl, hasks⟩
    · -- an instruction that is not the last one is an inner one
      rw [concat_eq_append, ← cons_append, ← append_assoc] at hsplit
      obtain ⟨hfront, -⟩ := append_inj' (hsplit.symm.trans hbody) rfl
      have := (Instruction.isInner_iff.1 (hinner i (by simp [← hfront]))).2
      rw [hi] at this
      cases this

end Block.Shape

lemma structured_of_shape (hnonempty : blocks ≠ []) (hdistinct : (blocks.map Block.label).Nodup)
    (hshape : ∀ before b after, blocks = before ++ b :: after → b.Shape before)
    (hreferred : ∀ b ∈ blocks, ∀ l ∈ b.references, l ∈ blocks.tail.map Block.label)
    (honce : (blocks.flatMap Block.announced).Nodup) : Structured blocks := by
  have hall : ∀ b ∈ blocks, ∃ before, b.Shape before := fun b hb => by
    obtain ⟨before, after, hsplit⟩ := append_of_mem hb
    exact ⟨before, hshape before b after hsplit⟩
  refine ⟨hnonempty, hdistinct, fun b hb => ?_, hreferred, fun b hb _ _ _ hsplit hi => ?_,
    fun b hb hswitch => ?_, fun before b after hsplit hbranch => ?_, honce⟩
  · obtain ⟨_, h⟩ := hall b hb
    exact ⟨h.terminator, fun i hi => h.not_isTerminator i (Array.mem_toList_iff.2 hi)⟩
  · obtain ⟨_, h⟩ := hall b hb
    exact h.merging hsplit hi
  · obtain ⟨_, h⟩ := hall b hb
    cases h with
    | leaves _ _ _ hne => exact absurd hswitch hne
    | @selects _ merge hbody _ _ => exact ⟨merge, Array.mem_toList_iff.1 (by simp [hbody])⟩
    | loops _ _ hterminator => cases hterminator.symm.trans hswitch
    | repeats _ _ _ hterminator =>
      rw [hterminator] at hswitch
      cases hswitch
  · cases hshape before b after hsplit with
    | leaves _ _ hne _ => exact absurd hbranch hne
    | @selects _ merge hbody _ _ => exact .inl ⟨merge, Array.mem_toList_iff.1 (by simp [hbody])⟩
    | loops _ _ hterminator => cases hterminator.symm.trans hbranch
    | @repeats header _ merge next _ hheader hmem hterminator =>
      exact .inr ⟨header, hheader, merge, next, hmem, by rw [hterminator]; rfl⟩

/-! ### The variables of a function -/

section

variable {locals : Array Instruction} {first b : Block} {before rest : List Block}
  (hlocals : ∀ i ∈ locals.toList, i.isInner)
include hlocals

lemma Block.announced_lead : (b.lead locals).announced = b.announced := by
  have hnone : locals.toList.flatMap Instruction.announced = [] :=
    flatMap_eq_nil_iff.2 fun i hi => Instruction.announced_of_isInner (hlocals i hi)
  simp only [Block.announced, Block.lead, Array.toList_append, flatMap_append, hnone, nil_append]

lemma Block.Shape.lead (h : b.Shape before) : (b.lead locals).Shape before := by
  have happend : ∀ {inner}, (∀ i ∈ inner, i.isInner) → ∀ i ∈ locals.toList ++ inner, i.isInner :=
    fun hinner => forall_mem_append.2 ⟨hlocals, hinner⟩
  have hbody : (b.lead locals).body.toList = locals.toList ++ b.body.toList := Array.toList_append
  cases h with
  | leaves hinner h₁ h₂ h₃ => exact .leaves (hbody ▸ happend hinner) h₁ h₂ h₃
  | selects hsplit hinner h =>
    exact .selects (by rw [hbody, hsplit, append_assoc]) (happend hinner) h
  | loops hsplit hinner h => exact .loops (by rw [hbody, hsplit, append_assoc]) (happend hinner) h
  | repeats hinner hheader hmem h => exact .repeats (hbody ▸ happend hinner) hheader hmem h

omit hlocals in
lemma Block.Shape.after_lead (h : b.Shape (first :: before)) :
    b.Shape (first.lead locals :: before) := by
  cases h with
  | leaves h₁ h₂ h₃ h₄ => exact .leaves h₁ h₂ h₃ h₄
  | selects h₁ h₂ h₃ => exact .selects h₁ h₂ h₃
  | loops h₁ h₂ h₃ => exact .loops h₁ h₂ h₃
  | repeats hinner hheader hmem h =>
    rcases mem_cons.1 hheader with rfl | hheader
    · exact .repeats hinner mem_cons_self (Array.mem_append_right _ hmem) h
    · exact .repeats hinner (mem_cons_of_mem _ hheader) hmem h

omit hlocals in
lemma Block.exists_lead (h : b ∈ first :: rest) :
    ∃ c ∈ first.lead locals :: rest, c.label = b.label ∧ c.terminator = b.terminator := by
  rcases mem_cons.1 h with rfl | h
  · exact ⟨_, mem_cons_self, rfl, rfl⟩
  · exact ⟨b, mem_cons_of_mem _ h, rfl, rfl⟩

omit hlocals in
lemma phisNameParents_lead (hlocals : ∀ i ∈ locals.toList, i.opcode ≠ .phi)
    (hdistinct : ((first :: rest).map Block.label).Nodup)
    (hreferred : ∀ b ∈ first :: rest, ∀ l ∈ b.references, l ∈ rest.map Block.label)
    (hphis : ∀ b ∈ first :: rest, PhisJoin [] (first :: rest) b.label b.body.toList) :
    PhisNameParents (first.lead locals :: rest) := by
  intro b hb before i after hsplit hi
  have hjoins : before = [] ∧ i.Joins (first :: rest) b.label := by
    rcases mem_cons.1 hb with rfl | hb
    · -- nothing leads to the first block
      have hmem : i ∈ locals.toList ++ first.body.toList := by
        rw [← Array.toList_append]
        exact hsplit ▸ mem_append_right _ mem_cons_self
      rcases mem_append.1 hmem with hmem | hmem
      · exact absurd hi (hlocals i hmem)
      · obtain ⟨front, back, hbody⟩ := append_of_mem hmem
        obtain ⟨-, -, hjoins⟩ := hphis first mem_cons_self front i back hbody hi
        obtain ⟨_, _, -, -, -, -, hleft, -, -, htarget, -⟩ := hjoins
        exact absurd (hreferred _ hleft _ (mem_append_left _ htarget)) (nodup_cons.1 hdistinct).1
    · obtain ⟨hbefore, -, hjoins⟩ := hphis b (mem_cons_of_mem _ hb) before i after hsplit hi
      exact ⟨hbefore, hjoins⟩
  obtain ⟨hbefore, left, right, type, id, accept, reject, hleft, -, hchoice, htarget, hright,
    hbranch, honly⟩ :=
    hjoins
  have hinj := inj_on_of_nodup_map hdistinct
  refine ⟨hbefore, type, id, _, _, _, _, rfl, fun heq => ?_, ?_, ?_, ?_⟩
  · rw [hinj hleft hright heq, hbranch] at hchoice
    cases hchoice
  · have hiff : ∀ c ∈ first :: rest, b.label ∈ c.terminator.targets ↔
        c.label = left.label ∨ c.label = right.label := by
      refine fun c hc => ⟨fun h => (honly c hc h).imp (congrArg _) (congrArg _), ?_⟩
      rintro (heq | heq)
      · exact hinj hc hleft heq ▸ htarget
      · rw [hinj hc hright heq, hbranch]
        exact mem_cons_self
    exact forall_mem_cons.2 (forall_mem_cons.1 hiff)
  · obtain ⟨c, hc, hlabel, hterminator⟩ := Block.exists_lead hleft
    exact ⟨c, hc, hlabel, accept, reject, hterminator.trans hchoice⟩
  · obtain ⟨c, hc, hlabel, hterminator⟩ := Block.exists_lead hright
    exact ⟨c, hc, hlabel, hterminator.trans hbranch⟩

lemma structured_lead (hdistinct : ((first :: rest).map Block.label).Nodup)
    (hshape : ∀ before b after, first :: rest = before ++ b :: after → b.Shape before)
    (hreferred : ∀ b ∈ first :: rest, ∀ l ∈ b.references, l ∈ rest.map Block.label)
    (honce : ((first :: rest).flatMap Block.announced).Nodup) :
    Structured (first.lead locals :: rest) := by
  refine structured_of_shape (cons_ne_nil _ _) hdistinct (fun before b after hsplit => ?_)
    (forall_mem_cons.2 ⟨?_, fun b hb => hreferred b (mem_cons_of_mem _ hb)⟩) ?_
  · rcases cons_eq_append_iff.1 hsplit with ⟨rfl, hcons⟩ | ⟨before, rfl, rfl⟩
    · obtain ⟨rfl, rfl⟩ := cons.inj hcons
      exact (hshape [] first _ rfl).lead hlocals
    · exact (hshape (first :: before) b after rfl).after_lead
  · show ∀ l ∈ first.terminator.targets ++ (first.lead locals).announced, _
    rw [Block.announced_lead hlocals]
    exact hreferred first mem_cons_self
  · rw [flatMap_cons, Block.announced_lead hlocals, ← flatMap_cons]
    exact honce

omit hlocals in
lemma Forward.lead (h : Forward (first :: rest)) : Forward (first.lead locals :: rest) := by
  intro before b after hsplit l hl
  rcases cons_eq_append_iff.1 hsplit with ⟨rfl, hcons⟩ | ⟨before, rfl, rfl⟩
  · obtain ⟨rfl, rfl⟩ := cons.inj hcons
    exact (h [] first _ rfl l hl).imp_right fun ⟨_, hmem, _⟩ => absurd hmem not_mem_nil
  · refine (h (first :: before) b after rfl l hl).imp_right ?_
    rintro ⟨header, hmem, hlabel, merge, next, hloop⟩
    rcases mem_cons.1 hmem with rfl | hmem
    · exact ⟨_, mem_cons_self, hlabel, merge, next, Array.mem_append_right _ hloop⟩
    · exact ⟨header, mem_cons_of_mem _ hmem, hlabel, merge, next, hloop⟩

end

end Shader.Assembly

namespace Shader.Emit

open List Assembly

variable {i t : Instruction} {l label : Id} {s s' : Site} {r : Record} {restack : Bool}
    {b header : Block}

/-! ### Labels -/

/-- The labels of the blocks so far, that of the open one last. -/
def Body.labels (σ : Body) : List Id := σ.closed.map Block.label ++ σ.label?.toList

/-- The blocks so far with what is in them, the open one last. -/
def Body.parts (σ : Body) : List (Id × List Instruction) :=
  σ.closed.map (fun b => (b.label, b.body.toList)) ++ σ.current?.toList.map fun b =>
    (b.label, b.body.toList)

namespace Body

variable {σ σ' : Body}

lemma mem_labels_of_parts (h : part ∈ σ.parts) : part.1 ∈ σ.labels := by
  have hmap : σ.parts.map Prod.fst = σ.labels := by
    simp only [parts, labels, label?, map_append, map_map]
    cases σ.current? <;> rfl
  exact hmap ▸ mem_map_of_mem h

lemma labels_same (hclosed : σ'.closed = σ.closed) (hcurrent : σ'.current? = σ.current?) :
    σ'.labels = σ.labels := by
  simp only [Body.labels, Body.label?, hclosed, hcurrent]

lemma Pushes.labels (h : σ.Pushes i σ') : σ'.labels = σ.labels := by
  obtain ⟨_, -, -, hclosed⟩ := h.current
  simp only [Body.labels, h.label?, hclosed]

lemma Closes.labels (h : σ.Closes i σ') : σ'.labels = σ.labels := by
  obtain ⟨b, hb, hb', hclosed⟩ := h.current
  simp only [Body.labels, Body.label?, hclosed, hb, hb', map_append, map_cons, map_nil,
    Option.map_some, Option.map_none, Option.toList_some, Option.toList_none, append_nil]
  rfl

lemma Opens.labels (h : σ.Opens label σ') : σ'.labels = σ.labels ++ [label] := by
  obtain ⟨hb, hb', hclosed⟩ := h.current
  simp only [Body.labels, Body.label?, hclosed, hb, hb', Option.map_some, Option.map_none,
    Option.toList_some, Option.toList_none, append_nil]

end Body

lemma Move.labels (h : Move restack s r s') : ∃ more, s'.body.labels = s.body.labels ++ more := by
  cases h with
  | extend h => exact ⟨[], by rw [append_nil, Body.labels_same h.closed h.current?]⟩
  | issueLabel | issueResult | reorder _ | value _ | stack _ => exact ⟨[], (append_nil _).symm⟩
  | result _ h | push _ h | close _ h => exact ⟨[], by rw [append_nil, h.labels]⟩
  | «open» _ h => exact ⟨_, h.labels⟩

lemma Moves.labels (h : Moves restack s r s') : ∃ more, s'.body.labels = s.body.labels ++ more := by
  induction h with
  | nil => exact ⟨[], (append_nil _).symm⟩
  | cons hmove _ ih =>
    obtain ⟨new, hnew⟩ := hmove.labels
    obtain ⟨more, hmore⟩ := ih
    exact ⟨new ++ more, by rw [hmore, hnew, append_assoc]⟩

lemma Moves.mem_tail_labels (h : Moves restack s r s') (hl : l ∈ s.body.labels.tail) :
    l ∈ s'.body.labels.tail := by
  obtain ⟨more, hmore⟩ := h.labels
  rw [hmore]
  cases hlabels : s.body.labels with
  | nil =>
    rw [hlabels] at hl
    exact absurd hl not_mem_nil
  | cons first rest =>
    rw [hlabels] at hl
    exact mem_append_left _ hl

/-! ### Good graphs -/

/-- Control may come back: to the header of a loop or, if anything goes, to where its next round
starts. -/
def Body.Resumes (anything : Prop) (σ : Body) (l : Id) : Prop :=
  (anything ∧ ∃ header ∈ σ.closed, ∃ merge, .loopMerge merge l ∈ header.body) ∨
    ∃ header ∈ σ.closed, header.label = l ∧ header.IsHeader

/-- The blocks so far are put together well.  The labels `P` wait for their blocks.  Unless anything
goes, control goes to labels that wait for their blocks, to later blocks, or back to the header of a
loop. -/
structure Graph (anything : Prop) (P : List Id) (σ : Body) : Prop where
  begun : σ.current? = none → σ.closed ≠ []
  inner : ∀ b, σ.current? = some b → ∀ i ∈ b.body.toList, i.isInner
  shape : ∀ before b after, σ.closed = before ++ b :: after → b.Shape before
  referred : ∀ b ∈ σ.closed, ∀ l ∈ b.references, l ∈ P ∨ l ∈ σ.labels.tail
  once : (σ.closed.flatMap Block.announced).Nodup
  issued : ∀ l ∈ P ++ σ.labels, l.number < σ.bound
  headers : ∀ b ∈ σ.closed, b.IsHeader → (∀ l ∈ b.announced, b.label.number < l.number) ∧
    ∀ c ∈ σ.closed, b.label ∉ c.announced
  phis : ∀ part ∈ σ.parts, PhisJoin P σ.closed part.1 part.2
  forward : ∀ before b after, σ.closed = before ++ b :: after → ∀ l ∈ b.terminator.targets,
    anything ∨ l ∈ P ∨ l ∈ after.map Block.label ++ σ.label?.toList ∨
      ∃ header ∈ before, header.label = l ∧ header.IsHeader

lemma split_concat {l before after : List α} {x b : α} (h : l ++ [x] = before ++ b :: after) :
    (before = l ∧ b = x ∧ after = []) ∨ ∃ rest, after = rest ++ [x] ∧ l = before ++ b :: rest := by
  rcases eq_nil_or_concat after with rfl | ⟨rest, last, rfl⟩
  · obtain ⟨hl, hx⟩ := append_inj' h rfl
    exact .inl ⟨hl.symm, (cons.inj hx).1.symm, rfl⟩
  · rw [concat_eq_append, ← cons_append, ← append_assoc] at h
    obtain ⟨hl, hx⟩ := append_inj' h rfl
    obtain rfl := (cons.inj hx).1
    exact .inr ⟨rest, concat_eq_append .., hl⟩

namespace Graph

variable {anything : Prop} {P P' : List Id} {σ σ₁ σ' : Body} (hgraph : Graph anything P σ)
include hgraph

lemma same (hclosed : σ'.closed = σ.closed) (hcurrent : σ'.current? = σ.current?)
    (hbound : σ.bound ≤ σ'.bound) : Graph anything P σ' where
  begun hnone := hclosed ▸ hgraph.begun (hcurrent ▸ hnone)
  inner b hb := hgraph.inner b (hcurrent ▸ hb)
  shape := hclosed ▸ hgraph.shape
  referred := by
    rw [hclosed, Body.labels_same hclosed hcurrent]
    exact hgraph.referred
  once := hclosed ▸ hgraph.once
  issued l hl := by
    rw [Body.labels_same hclosed hcurrent] at hl
    exact Nat.lt_of_lt_of_le (hgraph.issued l hl) hbound
  headers := hclosed ▸ hgraph.headers
  phis := by
    rw [Body.parts, hclosed, hcurrent]
    exact hgraph.phis
  forward := by
    rw [hclosed, show σ'.label? = σ.label? by simp only [Body.label?, hcurrent]]
    exact hgraph.forward

lemma extend (h : σ.Extends σ') : Graph anything P σ' := hgraph.same h.closed h.current? h.bound

lemma issue : Graph anything P σ.issue := hgraph.extend (Body.extends_issue σ)

lemma sameCode (h : σ.SameCode σ') : Graph anything P σ' :=
  hgraph.same h.closed h.current? (Nat.le_of_eq h.bound.symm)

lemma withValues (values : Valuation) : Graph anything P (σ.withValues values) :=
  hgraph.same rfl rfl (Nat.le_refl _)

lemma withFlow (flow : ControlStack) : Graph anything P (σ.withFlow flow) :=
  hgraph.same rfl rfl (Nat.le_refl _)

lemma references_issued (hb : b ∈ σ.closed) (hl : l ∈ b.references) : l.number < σ.bound :=
  hgraph.issued l (mem_append.2 ((hgraph.referred b hb l hl).imp_right mem_of_mem_tail))

lemma announced_issued : ∀ b ∈ σ.closed, ∀ l ∈ b.announced, l.number < σ.bound :=
  fun _ hb _ hl => hgraph.references_issued hb (mem_append_right _ hl)

lemma await (hP : P ⊆ P') (hnew : ∀ l ∈ P', l ∈ P ∨ l.number < σ.bound ∧ l ∉ σ.labels) :
    Graph anything P' σ :=
  { hgraph with
    referred := fun b hb l hl => (hgraph.referred b hb l hl).imp_left (@hP l)
    issued := forall_mem_append.2 ⟨fun l hl => (hnew l hl).elim
      (fun hl => hgraph.issued l (mem_append_left _ hl)) And.left,
      fun l hl => hgraph.issued l (mem_append_right _ hl)⟩
    phis := fun part hpart before i after hsplit hi => by
      obtain ⟨hbefore, hwaits, hjoins⟩ := hgraph.phis part hpart before i after hsplit hi
      refine ⟨hbefore, fun hmem => ?_, hjoins⟩
      exact (hnew _ hmem).elim hwaits fun hnew => hnew.2 (Body.mem_labels_of_parts hpart)
    forward := fun before b after hsplit l hl =>
      (hgraph.forward before b after hsplit l hl).imp_right (Or.imp_left (@hP l)) }

lemma perm (hP : P.Perm P') : Graph anything P' σ :=
  hgraph.await hP.subset fun _ hl => .inl (hP.symm.subset hl)

lemma issueLabel : Graph anything (σ.nextId :: P) σ.issue := by
  refine hgraph.issue.await (subset_cons_self _ _) (forall_mem_cons.2 ⟨.inr ⟨?_, ?_⟩,
    fun _ => .inl⟩)
  · exact Nat.lt_succ_self _
  · exact fun hmem => Nat.lt_irrefl _ (hgraph.issued _ (mem_append_right P hmem))

lemma push (hi : i.isInner) (h : σ.Pushes i σ')
    (hphi : i.opcode = .phi → ∀ b, σ.current? = some b → b.body = #[] ∧ b.label ∉ P ∧
      i.Joins σ.closed b.label) : Graph anything P σ' := by
  obtain ⟨b, hb, hb', hclosed⟩ := h.current
  refine ⟨fun hnone => ?_, fun c hc => ?_, hclosed ▸ hgraph.shape, ?_, hclosed ▸ hgraph.once, ?_,
    hclosed ▸ hgraph.headers, ?_, ?_⟩
  · cases hb'.symm.trans hnone
  · cases hb'.symm.trans hc
    rw [Array.toList_push]
    exact forall_mem_append.2 ⟨hgraph.inner b hb, forall_mem_singleton.2 hi⟩
  · rw [hclosed, h.labels]
    exact hgraph.referred
  · rw [h.labels, h.same.bound]
    exact hgraph.issued
  · have hphis := hgraph.phis
    rw [Body.parts, hb] at hphis
    rw [Body.parts, hclosed, hb']
    obtain ⟨hclosedPhis, hopenPhis⟩ := forall_mem_append.1 hphis
    refine forall_mem_append.2 ⟨hclosedPhis, forall_mem_singleton.2 fun before j after hsplit hj =>
      ?_⟩
    rcases split_concat (Array.toList_push.symm.trans hsplit) with ⟨rfl, rfl, -⟩ | ⟨rest, -, hsplit⟩
    · obtain ⟨hempty, hrest⟩ := hphi hj b hb
      exact ⟨by rw [hempty], hrest⟩
    · exact hopenPhis _ (mem_singleton_self _) before j rest hsplit hj
  · rw [hclosed, h.label?]
    exact hgraph.forward

lemma not_resumes (h : i.Joins σ.closed label) : ¬σ.Resumes anything label := by
  obtain ⟨_, _, -, -, -, -, hleft, hmerge, -⟩ := h
  rintro (⟨-, header, hheader, merge, hloop⟩ | ⟨header, hheader, rfl, hloop⟩)
  · -- what is announced twice is announced by one instruction
    have honce := hgraph.once
    have hflat : σ.closed.flatMap Block.announced =
        (σ.closed.flatMap fun b => b.body.toList).flatMap Instruction.announced :=
        flatMap_assoc.symm
    have hmem : ∀ {b} {i}, b ∈ σ.closed → i ∈ b.body → i ∈ σ.closed.flatMap fun b =>
      b.body.toList :=
      fun hb hi => mem_flatMap_of_mem hb (Array.mem_toList_iff.2 hi)
    rw [hflat, nodup_flatMap] at honce
    have : Std.Symm (Function.onFun List.Disjoint Instruction.announced) :=
      ⟨fun _ _ h _ hl hl' => h hl' hl⟩
    exact honce.2.forall (hmem hleft hmerge) (hmem hheader hloop)
      (fun heq => nomatch congrArg Instruction.opcode heq)
      mem_cons_self (mem_cons_of_mem _ mem_cons_self)
  · exact (hgraph.headers header hheader hloop).2 _ hleft (Block.mem_announced hmerge mem_cons_self)

/-- Closing a block keeps the graph good, if the block refers to labels that wait. -/
lemma close {b : Block} (hclosed : σ'.closed = σ.closed ++ [b]) (hcurrent : σ'.current? = none)
    (hlabel : σ.label? = some b.label) (hbound : σ'.bound = σ.bound) (hshape : b.Shape σ.closed)
    (hreferred : ∀ l ∈ b.references, l ∈ P ∨ l ∈ σ.labels.tail) (honce : b.announced.Nodup)
    (hnew : ∀ l ∈ b.announced, ∀ c ∈ σ.closed, ∀ l' ∈ c.announced, l'.number < l.number)
    (hheader : b.IsHeader → (∀ l ∈ b.announced, b.label.number < l.number) ∧
      ∀ c ∈ σ.closed, ∀ l ∈ c.announced, l.number < b.label.number)
    (hphis : PhisJoin P σ.closed b.label b.body.toList)
    (hforward : ∀ l ∈ b.terminator.targets, l ∈ P ∨ σ.Resumes anything l) :
    Graph anything P σ' := by
  have hnone : σ'.label? = none := by simp only [Body.label?, hcurrent, Option.map_none]
  have hlabels : σ'.labels = σ.labels := by
    simp only [Body.labels, hclosed, hlabel, hnone, map_append, map_cons, map_nil,
      Option.toList_some, Option.toList_none, append_nil]
  -- every clause splits into what it says of the new block and what it said before
  refine ⟨fun _ => by simp [hclosed], fun c hc => ?_, fun before c after hsplit => ?_,
    ?_, ?_, ?_, ?_, ?_, fun before c after hsplit l hl => ?_⟩
  · cases hcurrent.symm.trans hc
  · rw [hclosed] at hsplit
    rcases split_concat hsplit with ⟨rfl, rfl, -⟩ | ⟨rest, -, hsplit⟩
    · exact hshape
    · exact hgraph.shape before c rest hsplit
  · rw [hclosed, hlabels]
    exact forall_mem_append.2 ⟨hgraph.referred, forall_mem_singleton.2 hreferred⟩
  · rw [hclosed, flatMap_append, nodup_append]
    refine ⟨hgraph.once, by simpa using honce, fun l hl l' hl' => ?_⟩
    rintro rfl
    obtain ⟨c, hc, hl⟩ := mem_flatMap.1 hl
    exact Nat.lt_irrefl _ (hnew l (by simpa using hl') c hc l hl)
  · rw [hlabels, hbound]
    exact hgraph.issued
  · rw [hclosed]
    refine forall_mem_append.2 ⟨fun c hc hloop => ?_, forall_mem_singleton.2 fun hloop => ?_⟩
    · obtain ⟨holder, hold⟩ := hgraph.headers c hc hloop
      refine ⟨holder, forall_mem_append.2 ⟨hold, forall_mem_singleton.2 fun hmem => ?_⟩⟩
      obtain ⟨merge, next, hloop⟩ := hloop
      have hmerge : merge ∈ c.announced := Block.mem_announced hloop mem_cons_self
      exact Nat.lt_asymm (holder merge hmerge) (hnew _ hmem c hc merge hmerge)
    · obtain ⟨holder, hold⟩ := hheader hloop
      exact ⟨holder, forall_mem_append.2 ⟨fun c hc hmem => Nat.lt_irrefl _ (hold c hc _ hmem),
        forall_mem_singleton.2 fun hmem => Nat.lt_irrefl _ (holder _ hmem)⟩⟩
  · rw [Body.parts, hclosed, hcurrent]
    have hall : ∀ part ∈ (σ.closed ++ [b]).map (fun b => (b.label, b.body.toList)),
        PhisJoin P σ.closed part.1 part.2 := by
      rw [map_append]
      exact forall_mem_append.2 ⟨(forall_mem_append.1 hgraph.phis).1, forall_mem_singleton.2 hphis⟩
    rw [Option.toList_none, map_nil, append_nil]
    intro part hpart before i after hsplit hi
    obtain ⟨hbefore, hwaits, hjoins⟩ := hall part hpart before i after hsplit hi
    refine ⟨hbefore, hwaits, hjoins.concat fun hmem => ?_⟩
    exact (hforward _ hmem).elim hwaits (hgraph.not_resumes hjoins)
  · rw [hclosed] at hsplit
    rw [hnone, Option.toList_none, append_nil]
    rcases split_concat hsplit with ⟨rfl, rfl, rfl⟩ | ⟨rest, rfl, hrest⟩
    · rcases hforward l hl with hl | ⟨hany, -⟩ | hl
      · exact .inr (.inl hl)
      · exact .inl hany
      · exact .inr (.inr (.inr hl))
    · rw [map_append]
      have := hgraph.forward before c rest hrest l hl
      rwa [hlabel] at this

lemma closePlain (h : σ.Closes i σ')
    (hshape : ∀ b : Block, (∀ j ∈ b.body.toList, j.isInner) → b.terminator = i → b.Shape σ.closed)
    (hreferred : ∀ l ∈ i.targets, l ∈ P ∨ l ∈ σ.labels.tail)
    (hforward : ∀ l ∈ i.targets, l ∈ P ∨ σ.Resumes anything l) : Graph anything P σ' := by
  obtain ⟨b, hb, hb', hclosed⟩ := h.current
  have hnone : (b.close i).announced = [] :=
    flatMap_eq_nil_iff.2 fun j hj => Instruction.announced_of_isInner (hgraph.inner b hb j hj)
  refine hgraph.close hclosed hb' ?_ h.same.bound (hshape _ (hgraph.inner b hb) rfl) ?_ ?_
    ?_ ?_ ?_ hforward
  · simp only [Body.label?, hb, Option.map_some]
    rfl
  · rw [Block.references, hnone, append_nil]
    exact hreferred
  · rw [hnone]
    exact nodup_nil
  · rw [hnone]
    exact forall_mem_nil _
  · rintro ⟨merge, next, hloop⟩
    cases hgraph.inner b hb _ (Array.mem_toList_iff.2 hloop)
  · exact hgraph.phis (b.label, b.body.toList) (mem_append_right _ (by simp [hb]))

lemma leave (h : σ.Closes i σ') (hi : i.isTerminator) (hbranch : i.opcode ≠ .branchConditional)
    (hswitch : i.opcode ≠ .switch) (hreferred : ∀ l ∈ i.targets, l ∈ P ∨ l ∈ σ.labels.tail)
    (hforward : ∀ l ∈ i.targets, l ∈ P ∨ σ.Resumes anything l) : Graph anything P σ' :=
  hgraph.closePlain h (fun _ hinner hterminator => .leaves hinner (hterminator ▸ hi)
    (hterminator ▸ hbranch) (hterminator ▸ hswitch)) hreferred hforward

lemma goTo (h : σ.Closes (.branch label) σ') (hlabel : label ∈ P) : Graph anything P σ' :=
  hgraph.leave h rfl nofun nofun (forall_mem_singleton.2 (.inl hlabel))
    (forall_mem_singleton.2 (.inl hlabel))

lemma quit (h : σ.Closes i σ') (hi : i.isTerminator) (htargets : i.targets = [])
    (hbranch : i.opcode ≠ .branchConditional) (hswitch : i.opcode ≠ .switch) :
    Graph anything P σ' :=
  hgraph.leave h hi hbranch hswitch (htargets ▸ forall_mem_nil _) (htargets ▸ forall_mem_nil _)

lemma announced_of_closes (h : σ.Closes t σ') (hc : c ∈ σ'.closed) (hl : l ∈ c.announced) :
    ∃ c ∈ σ.closed, l ∈ c.announced := by
  obtain ⟨b, hb, -, hclosed⟩ := h.current
  rw [hclosed] at hc
  rcases mem_append.1 hc with hc | hc
  · exact ⟨c, hc, hl⟩
  · obtain rfl := mem_singleton.1 hc
    obtain ⟨i, hi, hl⟩ := mem_flatMap.1 hl
    rw [Instruction.announced_of_isInner (hgraph.inner b hb i hi)] at hl
    exact absurd hl not_mem_nil

lemma announce (hpush : σ.Pushes i σ₁) (hclose : σ₁.Closes t σ')
    (hshape : ∀ (b : Block) (inner : List Instruction), b.body.toList = inner ++ [i] →
      (∀ j ∈ inner, j.isInner) → b.terminator = t → b.Shape σ.closed)
    (hreferred : ∀ l ∈ t.targets ++ i.announced, l ∈ P) (honce : i.announced.Nodup)
    (hi : i.opcode ≠ .phi)
    (hnew : ∀ l ∈ i.announced, ∀ c ∈ σ.closed, ∀ l' ∈ c.announced, l'.number < l.number)
    (hheader : i.opcode = .loopMerge → ∀ label, σ.label? = some label →
      (∀ l ∈ i.announced, label.number < l.number) ∧
        ∀ c ∈ σ.closed, ∀ l ∈ c.announced, l.number < label.number) : Graph anything P σ' := by
  obtain ⟨b, hb, hb₁, hclosed₁⟩ := hpush.current
  obtain ⟨b₁, hb₁', hb', hclosed⟩ := hclose.current
  cases hb₁.symm.trans hb₁'
  have hbound : σ'.bound = σ.bound := hclose.same.bound.trans hpush.same.bound
  have hannounced : (OpenBlock.close { b with body := b.body.push i } t).announced =
    i.announced := by
    have hnone : b.body.toList.flatMap Instruction.announced = [] :=
      flatMap_eq_nil_iff.2 fun j hj => Instruction.announced_of_isInner (hgraph.inner b hb j hj)
    simp [Block.announced, OpenBlock.close, hnone]
  have hlabel : σ.label? = some b.label := by simp only [Body.label?, hb, Option.map_some]
  refine hgraph.close (hclosed.trans (by rw [hclosed₁])) hb' hlabel hbound
    (hshape _ b.body.toList Array.toList_push (hgraph.inner b hb) rfl) ?_ (hannounced ▸ honce)
    (hannounced ▸ hnew) ?_ ?_ fun l hl => .inl (hreferred l (mem_append_left _ hl))
  · rw [Block.references, hannounced]
    exact fun l hl => .inl (hreferred l hl)
  · rintro ⟨merge, next, hloop⟩
    rw [hannounced]
    rcases Array.mem_push.1 hloop with hloop | rfl
    · cases hgraph.inner b hb _ (Array.mem_toList_iff.2 hloop)
    · exact hheader rfl b.label hlabel
  · intro before j after hsplit hj
    rcases split_concat (Array.toList_push.symm.trans hsplit) with ⟨-, rfl, -⟩ | ⟨rest, -, hsplit⟩
    · exact absurd hj hi
    · exact hgraph.phis (b.label, b.body.toList) (mem_append_right _ (by simp [hb])) before
        j rest hsplit hj

lemma select {merge : Id} (hpush : σ.Pushes (.selectionMerge merge) σ₁) (hclose : σ₁.Closes t σ')
    (ht : t.opcode = .branchConditional ∨ t.opcode = .switch) (htargets : t.targets ⊆ P)
    (hmerge : merge ∈ P) (hnew : ∀ c ∈ σ.closed, ∀ l ∈ c.announced, l.number < merge.number) :
    Graph anything P σ' := by
  refine hgraph.announce hpush hclose (fun b inner hbody hinner hterminator => ?_) ?_
    (nodup_singleton merge) nofun (forall_mem_singleton.2 hnew) nofun
  · exact .selects hbody hinner (hterminator ▸ ht)
  · exact forall_mem_append.2 ⟨htargets, forall_mem_singleton.2 hmerge⟩

lemma again {merge next : Id} (h : σ.Closes (.branchConditional c merge header.label) σ')
    (hmerge : merge ∈ P) (hheader : header ∈ σ.closed) (hloop : .loopMerge merge next ∈ header.body)
    (hlater : header.label ∈ σ.labels.tail) : Graph anything P σ' :=
  hgraph.closePlain h (fun _ hinner => .repeats hinner hheader hloop)
    (forall_mem_cons.2 ⟨.inl hmerge, forall_mem_singleton.2 (.inr hlater)⟩)
    (forall_mem_cons.2 ⟨.inl hmerge, forall_mem_singleton.2
      (.inr (.inr ⟨header, hheader, rfl, merge, next, hloop⟩))⟩)

lemma tail_labels (h : σ.Opens label σ') : σ'.labels.tail = σ.labels.tail ++ [label] := by
  obtain ⟨hb, -, -⟩ := h.current
  rw [h.labels, tail_append_of_ne_nil (by simp [Body.labels, hgraph.begun hb])]

/-- Opening a block whose label waits keeps the graph good. -/
lemma «open» (h : σ.Opens label σ') (hP : P.Perm (label :: P')) : Graph anything P' σ' := by
  obtain ⟨hb, hb', hclosed⟩ := h.current
  have hnone : σ.label? = none := by simp only [Body.label?, hb, Option.map_none]
  refine ⟨fun hnone => ?_, fun b hb => ?_, hclosed ▸ hgraph.shape, ?_, hclosed ▸ hgraph.once, ?_,
    hclosed ▸ hgraph.headers, ?_, ?_⟩
  · cases hb'.symm.trans hnone
  · cases hb'.symm.trans hb
    exact forall_mem_nil _
  · rw [hclosed, hgraph.tail_labels h]
    intro b hb l hl
    rcases hgraph.referred b hb l hl with hl | hl
    · rcases mem_cons.1 (hP.subset hl) with rfl | hl
      · exact .inr (mem_append_right _ (mem_singleton_self _))
      · exact .inl hl
    · exact .inr (mem_append_left _ hl)
  · rw [h.labels, h.same.bound]
    intro l hl
    refine hgraph.issued l ?_
    simp only [mem_append, hP.mem_iff, mem_cons] at hl ⊢
    tauto
  · have hparts : σ'.parts = σ.parts ++ [(label, [])] := by simp [Body.parts, hclosed, hb, hb']
    rw [hparts, hclosed]
    refine forall_mem_append.2 ⟨fun part hpart before i after hsplit hi => ?_,
      forall_mem_singleton.2 fun before i after hsplit => by simp at hsplit⟩
    obtain ⟨hbefore, hwaits, hjoins⟩ := hgraph.phis part hpart before i after hsplit hi
    exact ⟨hbefore, fun hmem => hwaits (hP.symm.subset (mem_cons_of_mem _ hmem)), hjoins⟩
  · rw [hclosed, h.label?]
    intro before b after hsplit l hl
    have := hgraph.forward before b after hsplit l hl
    rw [hnone, Option.toList_none, append_nil] at this
    rcases this with hl | hl | hl | hl
    · exact .inl hl
    · rcases mem_cons.1 (hP.subset hl) with rfl | hl
      · exact .inr (.inr (.inl (mem_append_right _ (mem_singleton_self _))))
      · exact .inr (.inl hl)
    · exact .inr (.inr (.inl (mem_append_left _ hl)))
    · exact .inr (.inr (.inr hl))

end Graph

end Shader.Emit
