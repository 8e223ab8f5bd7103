import Shader.Proofs.ConditionCode

/-!
# Executing flags

A small machine executes the blocks of a function whose values are flags.  A phi takes the value
that is paired with the block control came from.  Executing the code of a condition evaluates it
from left to right.
-/

namespace Shader.Assembly

open List

/-- A point in the execution of a function whose values are flags. -/
structure Cursor where
  block : Id
  /-- The block that control came from. -/
  origin : Option Id
  /-- How many instructions of the block were executed. -/
  position : Nat
  values : Id → Option Bool
  /-- The pointers that were loaded from, in order. -/
  loads : List Id

namespace Cursor

/-- The start of the first block. -/
def start (label : Id) : Cursor := ⟨label, none, 0, fun _ => none, []⟩

/-- An instruction has given a value. -/
def assign (p : Cursor) (result : Id) (value : Bool) : Cursor :=
  { p with
    position := p.position + 1
    values := fun id => if id = result then some value else p.values id }

/-- Control goes to another block. -/
def goTo (p : Cursor) (target : Id) : Cursor :=
  { p with block := target, origin := some p.block, position := 0 }

/-- The value that a phi pairs with the block that control came from. -/
def phiValue? (origin : Option Id) : List Operand → Option Id
  | .id value :: .id parent :: rest =>
    if origin = some parent then some value else phiValue? origin rest
  | _ => none

/-- The effect of an instruction inside a block.  There is none for instructions that have nothing
to do with flags. -/
def execute? (memory : Id → Bool) (p : Cursor) (i : Instruction) : Option Cursor :=
  match i.opcode, i.operands with
  | .load, [.id _, .id result, .id pointer] =>
    some { p.assign result (memory pointer) with loads := p.loads ++ [pointer] }
  | .logicalNot, [.id _, .id result, .id operand] => do
    let value ← p.values operand
    return p.assign result !value
  | .phi, .id _ :: .id result :: pairs => do
    let source ← phiValue? p.origin pairs
    let value ← p.values source
    return p.assign result value
  | .selectionMerge, _ => some { p with position := p.position + 1 }
  | _, _ => none

/-- Where a terminator leads: to another block, or out of the function with a value. -/
def terminate? (p : Cursor) (i : Instruction) : Option (Cursor ⊕ Bool) :=
  match i.opcode, i.operands with
  | .branch, [.id target] => some (.inl (p.goTo target))
  | .branchConditional, [.id condition, .id accept, .id reject] => do
    let value ← p.values condition
    return .inl (p.goTo (if value then accept else reject))
  | .returnValue, [.id result] => do
    let value ← p.values result
    return .inr value
  | _, _ => none

section

variable {memory : Id → Bool} {p : Cursor} {result operand accept reject : Assembly.Id}
    {value : Bool} {pairs : List Operand}

lemma execute?_logicalNot (h : p.values operand = some value) :
    p.execute? memory (.result .logicalNot type result [.id operand]) =
      some (p.assign result !value) := by
  show (p.values operand).bind _ = _
  rw [h]
  rfl

lemma execute?_phi (hsource : phiValue? p.origin pairs = some operand)
    (h : p.values operand = some value) :
    p.execute? memory (.result .phi type result pairs) = some (p.assign result value) := by
  show (phiValue? p.origin pairs).bind _ = _
  rw [hsource]
  show (p.values operand).bind _ = _
  rw [h]
  rfl

lemma terminate?_branchConditional (h : p.values operand = some value) :
    p.terminate? (.branchConditional operand accept reject) =
      some (.inl (p.goTo (if value then accept else reject))) := by
  show (p.values operand).bind _ = _
  rw [h]
  rfl

lemma terminate?_returnValue (h : p.values operand = some value) :
    p.terminate? (.returnValue operand) = some (.inr value) := by
  show (p.values operand).bind _ = _
  rw [h]
  rfl

end

end Cursor

namespace Function

/-- One step of execution. -/
def next? (fn : Function) (memory : Id → Bool) (p : Cursor) : Option (Cursor ⊕ Bool) := do
  let block ← fn.blocks.toList.find? (·.label = p.block)
  match block.body.toList[p.position]? with
  | some i => (p.execute? memory i).map .inl
  | none => p.terminate? block.terminator

/-- Execution leads from one point to another. -/
def Reaches (fn : Function) (memory : Id → Bool) : Cursor → Cursor → Prop :=
  Relation.ReflTransGen fun p q => fn.next? memory p = some (.inl q)

/-- Execution from the first block on returns a value, after loading from the given pointers. -/
def Returns (fn : Function) (memory : Id → Bool) (value : Bool) (loads : List Id) : Prop :=
  ∃ first p, fn.blocks[0]? = some first ∧ fn.Reaches memory (.start first.label) p ∧
    fn.next? memory p = some (.inr value) ∧ p.loads = loads

end Function

end Shader.Assembly

namespace Shader.Emit

open List Assembly
open IR (Condition Expression)

variable {value conjunction : Bool} {before rest : List Block} {operands : List Operand}
    {flag : Assembly.Id}

namespace Spot

/-- The labels of the blocks so far. -/
def labels (s : Spot) : List Id := s.closed.toList.map Block.label ++ [s.block.label]

lemma labels_next (terminator : Instruction) (label : Id) (s : Spot) :
    (s.next terminator label).labels = s.labels ++ [label] := by
  simp only [labels, next, Array.toList_push, map_append]
  rfl

lemma labels_fork (conjunction : Bool) (left : Id) (s : Spot) :
    (s.fork conjunction left).labels = s.labels ++ [⟨s.bound⟩] := labels_next ..

/-- The labels so far were issued. -/
def Labelled (s : Spot) : Prop := ∀ l ∈ s.labels, l.number < s.bound

/-- The place of the next instruction, as a point of execution. -/
def point (s : Spot) (origin : Option Id) (values : Id → Option Bool) (loads : List Id) : Cursor :=
  ⟨s.block.label, origin, s.block.body.size, values, loads⟩

/-- The function has the code up to the place. -/
def Starts (s : Spot) (fn : Function) : Prop :=
  ∃ b rest, fn.blocks.toList = s.closed.toList ++ b :: rest ∧ b.label = s.block.label ∧
    s.block.body.toList <+: b.body.toList

/-- The function has the code up to the place, where a block ends. -/
def Ends (s : Spot) (terminator : Instruction) (fn : Function) : Prop :=
  ∃ rest, fn.blocks.toList = s.closed.toList ++ s.block.close terminator :: rest

section

variable {fn : Function} {s : Spot} {i : Instruction} {label left right : Assembly.Id}
    {memory : Id → Bool}
  {origin : Option Assembly.Id} {values : Id → Option Bool} {loads loads' : List Assembly.Id}

lemma Ends.starts (h : s.Ends i fn) : s.Starts fn := by
  obtain ⟨rest, hrest⟩ := h
  exact ⟨_, rest, hrest, rfl, prefix_rfl⟩

lemma Starts.ends (h : (s.next i label).Starts fn) : s.Ends i fn := by
  obtain ⟨b, rest, hrest, -, -⟩ := h
  refine ⟨b :: rest, ?_⟩
  rw [hrest]
  simp [next]

lemma Starts.of_push (h : (s.push i).Starts fn) : s.Starts fn := by
  obtain ⟨b, rest, hrest, hlabel, hbody⟩ := h
  refine ⟨b, rest, hrest, hlabel, IsPrefix.trans ?_ hbody⟩
  simp [push]

section

variable (hlabels : (fn.blocks.toList.map Block.label).Nodup)
include hlabels

lemma find?_block (hblocks : fn.blocks.toList = before ++ b :: rest) :
    fn.blocks.toList.find? (·.label = b.label) = some b := by
  refine find?_eq_some_iff_append.2 ⟨by simp, before, rest, hblocks, fun a ha => ?_⟩
  rw [hblocks, map_append, map_cons] at hlabels
  have hne := (nodup_append.1 hlabels).2.2 a.label (mem_map.2 ⟨a, ha, rfl⟩) b.label mem_cons_self
  simpa using hne

lemma next?_push (h : (s.push i).Starts fn) : fn.next? memory (s.point origin values loads) =
      ((s.point origin values loads).execute? memory i).map .inl := by
  obtain ⟨b, rest, hrest, hlabel, hbody⟩ := h
  have hfind := find?_block hlabels hrest
  rw [hlabel] at hfind
  have hget : b.body.toList[s.block.body.size]? = some i := by
    obtain ⟨more, hmore⟩ := hbody
    rw [← hmore]
    simp [push]
  unfold Function.next?
  rw [show fn.blocks.toList.find? (·.label = (s.point origin values loads).block) =
    some b from hfind]
  simp only [Option.bind_eq_bind, Option.bind_some]
  rw [show b.body.toList[(s.point origin values loads).position]? = some i from hget]

lemma next?_terminate (h : s.Ends i fn) :
    fn.next? memory (s.point origin values loads) = (s.point origin values loads).terminate? i := by
  obtain ⟨rest, hrest⟩ := h
  have hfind := find?_block hlabels hrest
  unfold Function.next?
  rw [show fn.blocks.toList.find? (·.label = (s.point origin values loads).block) =
    some (s.block.close i) from hfind]
  simp only [Option.bind_eq_bind, Option.bind_some]
  rw [show (s.block.close i).body.toList[(s.point origin values loads).position]? = none by
    simp [point, OpenBlock.close]]
  rfl

end

lemma terminate?_circuitBranch {p : Cursor} {merge : Id} (h : p.values left = some value) :
    p.terminate? (circuitBranch conjunction left right merge) =
      some (.inl (p.goTo (if value = conjunction then right else merge))) := by
  cases conjunction
  · refine (Cursor.terminate?_branchConditional h).trans ?_
    cases value <;> rfl
  · refine (Cursor.terminate?_branchConditional h).trans ?_
    cases value <;> rfl

section

variable (hlabels : (fn.blocks.toList.map Block.label).Nodup)
include hlabels

lemma reaches_result (h : (s.result op type operands).2.Starts fn)
    (hexecute : (s.point origin values loads).execute? memory (.result op type s.nextId operands) =
      some { (s.point origin values loads).assign s.nextId value with loads := loads' }) :
    fn.Reaches memory (s.point origin values loads) ((s.result op type operands).2.point origin
        (fun id => if id = s.nextId then some value else values id) loads') := by
  refine .single ((next?_push hlabels h).trans ?_)
  rw [show (s.issue.point origin values loads).execute? memory (.result op type s.nextId operands) =
    _ from hexecute]
  simp [point, result, push, issue, Cursor.assign]

lemma reaches_branch
    (h : (s.next (.branch label) label).Starts fn) : fn.Reaches memory (s.point origin values loads)
      ((s.next (.branch label) label).point (some s.block.label) values loads) :=
  .single (next?_terminate hlabels h.ends)

/-- A value that leaves the result open leads to the block of the right operand, and one that
settles it leads to the merge block. -/
lemma reaches_fork {left : Id} (h : (s.fork conjunction left).Starts fn)
    (hvalue : values left = some value) :
    fn.Reaches memory (s.point origin values loads)
      ⟨if value = conjunction then s.nextId else s.issue.nextId, some s.block.label, 0,
        values, loads⟩ := by
  have hmerge : fn.Reaches memory (s.point origin values loads)
      ((s.issue.issue.push (.selectionMerge s.issue.nextId)).point origin values loads) := by
    refine .single ((next?_push hlabels h.ends.starts).trans ?_)
    simp only [point, push, Array.size_push]
    rfl
  exact hmerge.tail ((next?_terminate hlabels h.ends).trans (terminate?_circuitBranch hvalue))

end

end

end Spot

section

variable {place : Handle .globalVariable → Assembly.Id} {fn : Function} {s : Spot}

lemma Spot.Starts.of_code (c : Condition) :
    ∀ {s}, (code flag place c s).2.Starts fn → s.Starts fn := by
  induction c with
  | read g => exact fun h => h.of_push
  | not c ih => exact fun h => ih h.of_push
  | shortCircuit conjunction left right ihl ihr =>
    intro s h
    have hright := (Spot.Starts.ends h.of_push).starts
    exact ihl (Spot.Starts.ends (ihr hright)).starts.of_push

variable (flag place) in
/-- The labels in the code of a condition are new and distinct. -/
lemma labels_code (c : Condition) :
    ∀ s, ∃ new, (code flag place c s).2.labels = s.labels ++ new ∧ new.Nodup ∧
    (∀ l ∈ new, s.bound ≤ l.number ∧ l.number < (code flag place c s).2.bound) ∧
    s.bound ≤ (code flag place c s).1.number ∧
    (code flag place c s).1.number < (code flag place c s).2.bound := by
  induction c with
  | read g =>
    exact fun s => ⟨[], (append_nil _).symm, .nil, forall_mem_nil _, Nat.le_refl _,
      Nat.lt_succ_self _⟩
  | not c ih =>
    intro s
    obtain ⟨new, hlabels, hnodup, hnew, hid, hid'⟩ := ih s
    refine ⟨new, hlabels, hnodup, fun l hl => ⟨(hnew l hl).1, Nat.lt_succ_of_lt (hnew l hl).2⟩, ?_,
      Nat.lt_succ_self _⟩
    exact Nat.le_of_lt (Nat.lt_of_le_of_lt hid hid')
  | shortCircuit conjunction left right ihl ihr =>
    intro s
    obtain ⟨newl, hlabelsl, hnodupl, hnewl, hidl, hidl'⟩ := ihl s
    obtain ⟨newr, hlabelsr, hnodupr, hnewr, hidr, hidr'⟩ :=
      ihr ((code flag place left s).2.fork conjunction (code flag place left s).1)
    set l := code flag place left s
    set r := code flag place right (l.2.fork conjunction l.1)
    have hfork : (l.2.fork conjunction l.1).bound = l.2.bound + 2 := rfl
    rw [hfork] at hidr hnewr
    -- the merge block has an id before those of the right operand, but comes after them
    refine ⟨newl ++ (⟨l.2.bound⟩ :: newr ++ [⟨l.2.bound + 1⟩]), ?_, ?_, ?_, ?_, Nat.lt_succ_self _⟩
    · have hclosed : (code flag place (.shortCircuit conjunction left right) s).2.labels =
          r.2.labels ++ [⟨l.2.bound + 1⟩] := Spot.labels_next ..
      rw [hclosed, hlabelsr, Spot.labels_fork, hlabelsl]
      simp
    · refine nodup_append.2 ⟨hnodupl, ?_, ?_⟩
      · refine nodup_append.2 ⟨nodup_cons.2 ⟨fun hmem => ?_, hnodupr⟩, nodup_singleton _, ?_⟩
        · have := (hnewr _ hmem).1
          simp only at this
          omega
        · rintro a ha b hb rfl
          obtain rfl := mem_singleton.1 hb
          rcases mem_cons.1 ha with heq | ha
          · have := congrArg Id.number heq
            simp only at this
            omega
          · have := (hnewr _ ha).1
            simp only at this
            omega
      · rintro a ha b hb rfl
        have hlow := (hnewl _ ha).2
        simp only [cons_append, mem_cons, mem_append, not_mem_nil, or_false] at hb
        rcases hb with rfl | hb | rfl
        · simp only at hlow; omega
        · have := (hnewr _ hb).1
          omega
        · simp only at hlow; omega
    · have hbound : (code flag place (.shortCircuit conjunction left right) s).2.bound =
        r.2.bound + 1 := rfl
      rw [hbound]
      intro x hx
      simp only [cons_append, mem_append, mem_cons, not_mem_nil, or_false] at hx
      rcases hx with hx | rfl | hx | rfl
      · have := hnewl x hx
        omega
      · simp only; omega
      · have := hnewr x hx
        omega
      · simp only; omega
    · have hid : (code flag place (.shortCircuit conjunction left right) s).1.number = r.2.bound :=
        rfl
      rw [hid]
      omega

variable (flag place) in
lemma Spot.Labelled.code (h : s.Labelled) (c : Condition) : (code flag place c s).2.Labelled := by
  obtain ⟨new, hlabels, -, hnew, hid, hid'⟩ := labels_code flag place c s
  intro l hl
  rw [hlabels] at hl
  rcases mem_append.1 hl with hl | hl
  · have := h l hl
    omega
  · exact (hnew l hl).2

lemma Spot.Labelled.fork {s : Spot} (h : s.Labelled) (conjunction : Bool) (left : Id) :
    (s.fork conjunction left).Labelled := by
  intro l hl
  have hbound : (s.fork conjunction left).bound = s.bound + 2 := rfl
  rw [labels_fork] at hl
  rcases mem_append.1 hl with hl | hl
  · have := h l hl
    omega
  · obtain rfl := mem_singleton.1 hl
    simp only
    omega

variable (flag place) in
lemma block_label_code (c : Condition) : ∀ s, (code flag place c s).2.block.label = s.block.label ∨
      s.bound ≤ (code flag place c s).2.block.label.number := by
  induction c with
  | read g => exact fun s => .inl rfl
  | not c ih => exact ih
  | shortCircuit conjunction left right =>
    intro s
    obtain ⟨-, -, -, -, hid, hid'⟩ := labels_code flag place left s
    refine .inr ?_
    show s.bound ≤ (code flag place left s).2.bound + 1
    omega

variable (flag place) in
lemma block_label_right_ne {s : Spot} (h : s.Labelled) (conjunction : Bool) (left : Id)
    (right : Condition) :
    (code flag place right (s.fork conjunction left)).2.block.label ≠ s.block.label := by
  intro heq
  have hold := h s.block.label (mem_append_right _ (mem_singleton.2 rfl))
  have hstart : (s.fork conjunction left).block.label.number = s.bound := rfl
  have hbound : (s.fork conjunction left).bound = s.bound + 2 := rfl
  rcases block_label_code flag place right (s.fork conjunction left) with hlabel | hlabel
  · rw [← heq, hlabel] at hold
    omega
  · rw [heq] at hlabel
    omega

/-- The code of a condition loads the flags it reads, in order, and leaves its value. -/
lemma reaches_code (hlabels : (fn.blocks.toList.map Block.label).Nodup) (memory : Id → Bool)
    (c : Condition) : ∀ {s} origin values loads, (code flag place c s).2.Starts fn → s.Labelled →
      ∃ origin' values', fn.Reaches memory (s.point origin values loads)
          ((code flag place c s).2.point origin' values'
            (loads ++ (c.reads fun g => memory (place g)).map place)) ∧
        values' (code flag place c s).1 = some (c.value fun g => memory (place g)) ∧
        ∀ id, id.number < s.bound → values' id = values id := by
  -- values of earlier ids are kept, so that the left operand's is still there at the phi
  induction c with
  | read g =>
    intro s origin values loads hstarts _
    refine ⟨origin, fun id => if id = s.nextId then some (memory (place g)) else values id,
      Spot.reaches_result hlabels hstarts rfl, if_pos rfl, fun id hid => if_neg ?_⟩
    rintro rfl
    exact Nat.lt_irrefl _ hid
  | not c ih =>
    intro s origin values loads hstarts hs
    obtain ⟨origin', values', hreaches, hvalue, hkept⟩ := ih origin values loads hstarts.of_push hs
    obtain ⟨-, -, -, -, hid, hid'⟩ := labels_code flag place c s
    set r := code flag place c s
    refine ⟨origin',
      fun id => if id = r.2.nextId then some (!c.value fun g => memory (place g)) else values' id,
      hreaches.trans (Spot.reaches_result hlabels hstarts (Cursor.execute?_logicalNot hvalue)),
      if_pos rfl, fun id hid => (if_neg ?_).trans (hkept id hid)⟩
    rintro rfl
    simp only [Spot.nextId] at hid
    omega
  | shortCircuit conjunction left right ihl ihr =>
    intro s origin values loads hstarts hs
    obtain ⟨-, -, -, -, hidl, hidl'⟩ := labels_code flag place left s
    have hl := hs.code flag place left
    set l := code flag place left s
    obtain ⟨-, -, -, -, hidr, hidr'⟩ := labels_code flag place right (l.2.fork conjunction l.1)
    have hne := block_label_right_ne flag place hl conjunction l.1 right
    set r := code flag place right (l.2.fork conjunction l.1)
    have hopened : (l.2.fork conjunction l.1).bound = l.2.bound + 2 := rfl
    -- the places of the code, from its end back to its start
    have hphi : (r.2.next (.branch l.2.issue.nextId) l.2.issue.nextId).Starts fn := hstarts.of_push
    have hbranch := hphi.ends
    have hright := Spot.Starts.of_code right hbranch.starts
    obtain ⟨origin₁, values₁, hreach₁, hvalue₁, hkept₁⟩ :=
      ihl origin values loads hright.ends.starts.of_push hs
    have hsplit := hreach₁.trans (Spot.reaches_fork hlabels hright hvalue₁)
    have hfresh : ∀ id, id.number < s.bound → id ≠ r.2.nextId := by
      rintro id hid rfl
      simp only [Spot.nextId] at hid
      omega
    by_cases htaken : (left.value fun g => memory (place g)) = conjunction
    · -- the right operand is evaluated in its own block, and the phi selects its value
      rw [if_pos htaken] at hsplit
      obtain ⟨origin₂, values₂, hreach₂, hvalue₂, hkept₂⟩ := ihr (some l.2.block.label) values₁
        (loads ++ (left.reads fun g => memory (place g)).map place) hbranch.starts
        (hl.fork conjunction l.1)
      have hsource : Cursor.phiValue? (some r.2.block.label)
          (Operand.ids [l.1, l.2.block.label, r.1, r.2.block.label]) = some r.1 := by
        simp [Cursor.phiValue?, Operand.ids, hne]
      refine ⟨some r.2.block.label,
        fun id => if id = r.2.nextId then some (right.value fun g => memory (place g)) else
        values₂ id, ?_, (if_pos rfl).trans ?_,
        fun id hid => (if_neg (hfresh id hid)).trans ((hkept₂ id (by omega)).trans (hkept₁ id hid))⟩
      · rw [Condition.reads, if_pos htaken, map_append, ← append_assoc]
        exact hsplit.trans (hreach₂.trans ((Spot.reaches_branch hlabels hphi).trans
          (Spot.reaches_result hlabels hstarts (Cursor.execute?_phi hsource hvalue₂))))
      · rw [Condition.value_shortCircuit, if_pos htaken]
    · -- control goes to the merge block at once, and the phi selects the value of the left operand
      rw [if_neg htaken] at hsplit
      have hsource : Cursor.phiValue? (some l.2.block.label)
          (Operand.ids [l.1, l.2.block.label, r.1, r.2.block.label]) = some l.1 := if_pos rfl
      refine ⟨some l.2.block.label,
        fun id => if id = r.2.nextId then some (left.value fun g => memory (place g)) else
        values₁ id, ?_, (if_pos rfl).trans ?_, fun id hid => (if_neg (hfresh id hid)).trans
        (hkept₁ id hid)⟩
      · rw [Condition.reads, if_neg htaken, append_nil]
        exact hsplit.trans (Spot.reaches_result hlabels hstarts
          (Cursor.execute?_phi hsource hvalue₁))
      · rw [Condition.value_shortCircuit, if_neg htaken]

end

lemma returns_returning {fn : Function}
    (hblocks : fn.blocks = returning flag place c ⟨bound + 1, #[], { label := ⟨bound⟩ }⟩)
    (memory : Id → Bool) :
    fn.Returns memory (c.value fun g => memory (place g))
    ((c.reads fun g => memory (place g)).map place) := by
  set s : Spot := ⟨bound + 1, #[], { label := ⟨bound⟩ }⟩ with hs
  obtain ⟨new, hnew, hnodup, hissued, -, -⟩ := labels_code flag place c s
  have hends : (code flag place c s).2.Ends (.returnValue (code flag place c s).1) fn :=
    ⟨[], by rw [hblocks, returning, Array.toList_push]⟩
  have hlabels : (fn.blocks.toList.map Block.label).Nodup := by
    have heq : fn.blocks.toList.map Block.label = (code flag place c s).2.labels := by
      rw [hblocks, returning, Array.toList_push, map_append]
      rfl
    rw [heq, hnew]
    refine nodup_cons.2 ⟨fun hmem => ?_, hnodup⟩
    exact absurd (hissued _ hmem).1 (Nat.not_succ_le_self bound)
  have hlabelled : s.Labelled := by
    intro l hl
    obtain rfl := mem_singleton.1 hl
    exact Nat.lt_succ_self bound
  obtain ⟨b, rest, hrest, hlabel, -⟩ := Spot.Starts.of_code c hends.starts
  obtain ⟨origin, values, hreach, hvalue, -⟩ :=
    reaches_code hlabels memory c none (fun _ => none) [] hends.starts hlabelled
  have hstart : Cursor.start b.label = s.point none (fun _ => none) [] := by
    rw [hlabel]
    rfl
  refine ⟨b, _, ?_, hstart ▸ hreach, ?_, rfl⟩
  · rw [← Array.getElem?_toList, hrest]
    rfl
  · exact (Spot.next?_terminate hlabels hends).trans (Cursor.terminate?_returnValue hvalue)

end Shader.Emit
