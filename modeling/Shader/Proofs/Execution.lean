import Shader.Proofs.Dominance
import Shader.Proofs.Emission

/-!
# Running statements and running code

Control flow is looked at apart from values: wherever a condition or a selector decides, the next
decision of a given list is taken.  What is seen of a run are its side effects, each by its rank,
and how it ends.  The rank of a statement is the number of side effects before it in the preorder
of the body, the rank of an instruction the number of effects before it in the code.

Statements run by recursion on their structure, with a bound on the rounds of each loop
(`Statement.run`).  Code runs step by step from its first instruction (`Assembly.step`).
-/

namespace Shader

open List

/-! ### Decisions and observations -/

/-- What control flow asks for: a flag where it branches, a word where it switches. -/
inductive Decision where
  | flag (value : Bool)
  | word (value : UInt32)
deriving DecidableEq, Repr

/-- Takes the next decision, a flag. -/
def flag? : List Decision → Option (Bool × List Decision)
  | .flag value :: rest => some (value, rest)
  | _ => none

/-- Takes the next decision, a word. -/
def word? : List Decision → Option (UInt32 × List Decision)
  | .word value :: rest => some (value, rest)
  | _ => none

/-- How the run of a function ends. -/
inductive Ending where
  | returned
  | killed
  /-- The next decision is missing or of the wrong kind. -/
  | starved
  /-- There is nowhere to go. -/
  | strayed
deriving DecidableEq, Repr

/-- What is seen of a run up to some time: the ranks of the side effects, how the run ended if it
did, and the decisions that are left. -/
structure Observation where
  effects : List Nat
  ending : Option Ending
  left : List Decision
deriving DecidableEq, Repr

end Shader

/-! ### Statements -/

namespace Shader.IR

open List

/-- How control leaves a statement. -/
inductive Exit where
  /-- It goes on behind the statement. -/
  | through
  /-- It leaves the innermost loop or switch. -/
  | broken
  /-- It goes to the continuing part of the innermost loop. -/
  | continued
  | ended (ending : Ending)
  /-- It was still inside when the rounds of a loop were used up. -/
  | unfinished
deriving DecidableEq, Repr

/-- How a function ends when control leaves its body. -/
def Exit.ending? : Exit → Option Ending
  | through => some .returned
  | broken | continued => some .strayed
  | ended ending => some ending
  | unfinished => none

/-- A run of a statement. -/
structure Trace where
  effects : List Nat
  exit : Exit
  left : List Decision
deriving DecidableEq, Repr

namespace Trace

/-- The same run, after other side effects. -/
def after (effects : List Nat) (t : Trace) : Trace := { t with effects := effects ++ t.effects }

/-- Goes on behind the statement, if control does. -/
def andThen (t : Trace) (next : List Decision → Trace) : Trace :=
  match t.exit with
  | .through => (next t.left).after t.effects
  | _ => t

lemma exit_andThen {t : Trace} {next : List Decision → Trace}
    (h : (t.andThen next).exit = .through) :
    t.exit = .through ∧ (next t.left).exit = .through := by
  unfold andThen at h
  split at h
  · exact ⟨‹_›, h⟩
  · exact absurd h ‹_›

/-- Control that leaves the construct goes on behind it. -/
def catchBreak (t : Trace) : Trace :=
  match t.exit with
  | .broken => { t with exit := .through }
  | _ => t

end Trace

inductive LoopPart where
  | body
  | continuing
deriving DecidableEq, Repr

/-- Runs a loop from the start of one of its parts; `asks` tells whether a flag can end it after
the continuing part. -/
def loopRun (body continuing : List Decision → Trace) (asks : Bool) :
    Nat → LoopPart → List Decision → Trace
  | 0, _, ds => ⟨[], .unfinished, ds⟩
  | rounds + 1, .body, ds =>
    let t := body ds
    match t.exit with
    | .through | .continued =>
      (loopRun body continuing asks rounds .continuing t.left).after t.effects
    | _ => t.catchBreak
  | rounds + 1, .continuing, ds =>
    let t := continuing ds
    match t.exit with
    | .through =>
      if asks then
        match flag? t.left with
        | some (true, left) => { t with left }
        | some (false, left) => (loopRun body continuing asks rounds .body left).after t.effects
        | none => { t with exit := .ended .starved }
      else (loopRun body continuing asks rounds .body t.left).after t.effects
    | .continued => (loopRun body continuing asks rounds .continuing t.left).after t.effects
    | _ => t.catchBreak

/-- The case lists the word. -/
def SwitchCase.lists (c : SwitchCase) (word : UInt32) : Bool :=
  c.values.any fun value => value.word? == some word

/-- The case that a word selects: the one that lists it, or else the first default. -/
def chosenCase? (cases : List SwitchCase) (word : UInt32) : Option Nat :=
  (cases.findIdx? (·.lists word)).or (cases.findIdx? (·.isDefault))

mutual

/-- Runs a statement whose first side effect has the given rank.  Each loop takes at most as many
rounds as given, where body and continuing part count as a round each. -/
def Statement.run (rounds : Nat) : Statement → Nat → List Decision → Trace
  | .store .., rank, ds | .call .., rank, ds | .atomic .., rank, ds => ⟨[rank], .through, ds⟩
  | .barrier b, rank, ds => ⟨if b.isEmpty then [] else [rank], .through, ds⟩
  | .emit _, _, ds => ⟨[], .through, ds⟩
  | .block body, rank, ds => bodyRun rounds body rank ds
  | .ifElse _ accept reject, rank, ds =>
    match flag? ds with
    | some (true, left) => bodyRun rounds accept rank left
    | some (false, left) => bodyRun rounds reject (rank + bodyEffectCount accept) left
    | none => ⟨[], .ended .starved, ds⟩
  | .switch _ cases, rank, ds =>
    match word? ds with
    | some (word, left) => (casesRun rounds cases (chosenCase? cases word) rank left).catchBreak
    | none => ⟨[], .ended .starved, ds⟩
  | .loop body continuing breakIf, rank, ds =>
    loopRun (bodyRun rounds body rank)
      (bodyRun rounds continuing (rank + bodyEffectCount body)) breakIf.isSome rounds .body ds
  | .break, _, ds => ⟨[], .broken, ds⟩
  | .continue, _, ds => ⟨[], .continued, ds⟩
  | .return _, _, ds => ⟨[], .ended .returned, ds⟩
  | .kill, _, ds => ⟨[], .ended .killed, ds⟩
termination_by structural s => s

def bodyRun (rounds : Nat) : List Statement → Nat → List Decision → Trace
  | [], _, ds => ⟨[], .through, ds⟩
  | s :: rest, rank, ds =>
    (Statement.run rounds s rank ds).andThen (bodyRun rounds rest (rank + s.effectCount))
termination_by structural body => body

/-- Runs the case with the given index, if there is one. -/
def casesRun (rounds : Nat) : List SwitchCase → Option Nat → Nat → List Decision → Trace
  | c :: _, some 0, rank, ds => caseRun rounds c rank ds
  | c :: rest, some (index + 1), rank, ds =>
    casesRun rounds rest (some index) (rank + caseEffectCount c) ds
  | _, _, _, ds => ⟨[], .through, ds⟩
termination_by structural cases => cases

def caseRun (rounds : Nat) : SwitchCase → Nat → List Decision → Trace
  | ⟨_, body⟩, rank, ds => bodyRun rounds body rank ds
termination_by structural c => c

end

/-- Runs a function, up to a number of rounds of each loop. -/
def Function.run (f : Function) (rounds : Nat) (ds : List Decision) : Observation :=
  let t := bodyRun rounds f.body 0 ds
  ⟨t.effects, t.exit.ending?, t.left⟩

end Shader.IR

/-! ### Code -/

namespace Shader.Assembly

open List

variable {code a b is : List Instruction} {i j : Instruction} {label condition accept reject value :
    Id} {n : Nat} {es es' effects : List Nat} {ds left : List Decision}

/-- Where control goes from an instruction. -/
inductive Transfer where
  | next
  | goto (label : Id)
  /-- To one of two labels, as the next flag tells. -/
  | branch (accept reject : Id)
  /-- To the label that is paired with the next word, or to the default. -/
  | switch (default : Id) (cases : List (UInt32 × Id))
  | stop (ending : Ending)
deriving DecidableEq, Repr

/-- The words of a switch, each with its label. -/
def casePairs : List Operand → List (UInt32 × Id)
  | .word word :: .id label :: rest => (word, label) :: casePairs rest
  | _ => []

def Instruction.transfer (i : Instruction) : Transfer :=
  if i.isTerminator then
    match i.opcode, i.operands with
    | .branch, [.id label] => .goto label
    | .branchConditional, [.id _, .id accept, .id reject] => .branch accept reject
    | .switch, .id _ :: .id default :: cases => .switch default (casePairs cases)
    | .return, _ | .returnValue, _ => .stop .returned
    | .kill, _ => .stop .killed
    | _, _ => .stop .strayed
  else .next

@[simp] lemma Instruction.transfer_branchConditional (condition accept reject : Id) :
    (branchConditional condition accept reject).transfer = .branch accept reject := rfl

@[simp] lemma Instruction.transfer_switch (value default : Id) (cases : List Operand) :
    transfer ⟨.switch, .id value :: .id default :: cases⟩ = .switch default (casePairs cases) := rfl

/-- Where control is: in front of the instruction at a position, or nowhere any more. -/
inductive Control where
  | at (position : Nat)
  | ended (ending : Ending)
deriving DecidableEq, Repr

def Control.ending? : Control → Option Ending
  | .at _ => none
  | .ended ending => some ending

/-- The place of a label. -/
def goTo (code : List Instruction) (label : Id) : Control :=
  match code.findIdx? (· = .label label) with
  | some position => .at position
  | none => .ended .strayed

/-- A state of a run of code. -/
structure Machine where
  control : Control
  left : List Decision
  effects : List Nat
deriving DecidableEq, Repr

/-- Where control goes from the instruction at a position, and the decisions left. -/
def Transfer.take (code : List Instruction) (position : Nat) (ds : List Decision) :
    Transfer → Control × List Decision
  | .next => (.at (position + 1), ds)
  | .goto label => (goTo code label, ds)
  | .branch accept reject =>
    match flag? ds with
    | some (value, left) => (goTo code (if value then accept else reject), left)
    | none => (.ended .starved, ds)
  | .switch default cases =>
    match word? ds with
    | some (word, left) => (goTo code ((cases.lookup word).getD default), left)
    | none => (.ended .starved, ds)
  | .stop ending => (.ended ending, ds)

/-- Executes one instruction; a run that has ended stays as it is. -/
def step (code : List Instruction) (m : Machine) : Machine :=
  match m.control with
  | .ended _ => m
  | .at position =>
    match code[position]? with
    | none => { m with control := .ended .strayed }
    | some i =>
      let (control, left) := i.transfer.take code position m.left
      ⟨control, left, m.effects ++ if i.isEffect then [effectCount (code.take position)] else []⟩

/-- The code of the blocks of a function as it is written. -/
def Function.written (f : Function) : List Instruction := f.layout.flatMap Block.instructions

/-- Runs a function from its first block, for a number of steps. -/
def Function.run (f : Function) (steps : Nat) (ds : List Decision) : Observation :=
  let m := (step f.written)^[steps] ⟨.at 0, ds, []⟩
  ⟨m.effects, m.control.ending?, m.left⟩

/-! ### Places in code -/

/-- The instructions stand at a position of the code. -/
def Stands (code : List Instruction) (position : Nat) (is : List Instruction) : Prop :=
  is <+: code.drop position

lemma stands_append : Stands code n (a ++ b) ↔ Stands code n a ∧ Stands code (n + a.length) b := by
  simp only [Stands, ← drop_drop]
  constructor
  · rintro ⟨rest, h⟩
    rw [← h, append_assoc, drop_left]
    exact ⟨prefix_append _ _, prefix_append _ _⟩
  · rintro ⟨⟨rest, h⟩, h'⟩
    rw [← h, drop_left] at h'
    rw [← h]
    exact prefix_append_right_inj a |>.2 h'

lemma stands_cons : Stands code n (i :: is) ↔ Stands code n [i] ∧ Stands code (n + 1) is := by
  rw [← singleton_append, stands_append]
  rfl

lemma stands_pair : Stands code n [i, j] ↔ Stands code n [i] ∧ Stands code (n + 1)
    [j] := stands_cons

namespace Stands

lemma getElem? (h : Stands code n [i]) : code[n]? = some i := by
  obtain ⟨rest, h⟩ := h
  rw [← head?_drop, ← h]
  rfl

lemma rank {rank count : Nat} (h : Stands code n is) (hrank : effectCount (code.take n) = rank)
    (hcount : effectCount is = count) : effectCount (code.take (n + is.length)) = rank + count := by
  obtain ⟨rest, h⟩ := h
  rw [take_add, effectCount_append, ← h, take_left, hrank, hcount]

end Stands

/-- The labels of a list of instructions, in order. -/
def labels (code : List Instruction) :
    List Id := definitions (code.filter fun i => i.opcode = .label)

@[simp] lemma labels_append (a b : List Instruction) : labels (a ++ b) = labels a ++ labels b := by
  simp only [labels, filter_append, definitions_append]

lemma labels_label (label : Id) (code : List Instruction) :
    labels (.label label :: code) = label :: labels code := rfl

lemma mem_labels (h : .label label ∈ code) : label ∈ labels code :=
  mem_filterMap.2 ⟨_, mem_filter.2 ⟨h, rfl⟩, rfl⟩

lemma goTo_label (hlabels : (labels code).Nodup) (h : Stands code n [.label label]) :
    goTo code label = .at n := by
  have hlength : (code.take n).length = n :=
    length_take_of_le (Nat.le_of_lt (List.getElem?_eq_some_iff.1 h.getElem?).1)
  obtain ⟨rest, h⟩ := h
  have hcode : code = code.take n ++ .label label ::
    rest := by rw [← singleton_append, h, take_append_drop]
  have hbefore : (code.take n).findIdx? (· = .label label) = none := by
    refine findIdx?_eq_none_iff.2 fun i hi => decide_eq_false ?_
    rintro rfl
    rw [hcode, labels_append, labels_label] at hlabels
    exact (nodup_append.1 hlabels).2.2 label (mem_labels hi) label mem_cons_self rfl
  have hat : code.findIdx? (· = .label label) = some n := by
    rw [hcode, findIdx?_append, hbefore]
    simp [findIdx?_cons, hlength]
  rw [goTo, hat]

/-! ### Steps -/

/-- In a number of steps, control gets from one place to another, with the decisions left there,
and the effects happen. -/
def Runs (code : List Instruction) (steps : Nat) (c : Control) (ds : List Decision)
    (effects : List Nat) (c' : Control) (ds' : List Decision) : Prop :=
  ∀ before, (step code)^[steps] ⟨c, ds, before⟩ = ⟨c', ds', before ++ effects⟩

/-- The instruction has no effect, and control goes on behind it. -/
def Instruction.isPassive (i : Instruction) : Bool := !i.isTerminator && !i.isEffect

lemma Instruction.isPassive_iff : i.isPassive ↔ i.isTerminator = false ∧ i.isEffect = false := by
  simp only [isPassive, Bool.and_eq_true, Bool.not_eq_true']

lemma Instruction.transfer_of_not_isTerminator (h : i.isTerminator = false) :
    i.transfer = .next := by
  rw [transfer, h]
  rfl

lemma Instruction.not_isTerminator_of_isEffect (h : i.isEffect) : i.isTerminator = false := by
  have hall : ∀ op ∈ Opcode.effects, op.isTerminator = false := by decide
  exact hall _ (contains_iff_mem.1 h)

lemma effectCount_of_isPassive (h : ∀ i ∈ code, i.isPassive) : effectCount code = 0 := by
  refine countP_eq_zero.2 fun i hi heffect => ?_
  rw [(Instruction.isPassive_iff.1 (h i hi)).2] at heffect
  cases heffect

namespace Runs

variable {m m' : Nat} {c c' c₁ : Control} {ds' ds₁ : List Decision} {cases : List Operand}

lemma refl : Runs code 0 c ds [] c ds := fun before => by
  rw [append_nil]
  rfl

lemma trans (h : Runs code m c ds es c₁ ds₁) (h' : Runs code m' c₁ ds₁ es' c' ds') :
    Runs code (m + m') c ds (es ++ es') c' ds' := fun before => by
  rw [Nat.add_comm, Function.iterate_add_apply, h, h', append_assoc]

lemma one (h : Stands code n [i]) (hnext : i.transfer.take code n ds = (c', ds')) :
    Runs code 1 (.at n) ds (if i.isEffect then [effectCount (code.take n)] else []) c' ds' := by
  intro effects
  rw [Function.iterate_one]
  simp only [step, h.getElem?, hnext]

lemma goto (h : Stands code n [.branch label]) :
    Runs code 1 (.at n) ds [] (goTo code label) ds := one h rfl

lemma branch {value : Bool} (h : Stands code n [.branchConditional condition accept reject])
    (hflag : flag? ds = some (value, ds')) :
    Runs code 1 (.at n) ds [] (goTo code (if value then accept else reject)) ds' :=
  one h (by simp only [Instruction.transfer_branchConditional, Transfer.take, hflag])

lemma branch_starved (h : Stands code n [.branchConditional condition accept reject])
    (hflag : flag? ds = none) : Runs code 1 (.at n) ds [] (.ended .starved) ds :=
  one h (by simp only [Instruction.transfer_branchConditional, Transfer.take, hflag])

lemma switch {default : Id} (h : Stands code n [⟨.switch, .id value :: .id default :: cases⟩])
    (hword : word? ds = some (word, ds')) :
    Runs code 1 (.at n) ds [] (goTo code (((casePairs cases).lookup word).getD default)) ds' :=
  one h (by simp only [Instruction.transfer_switch, Transfer.take, hword])

lemma switch_starved {default : Id}
    (h : Stands code n [⟨.switch, .id value :: .id default :: cases⟩])
    (hword : word? ds = none) : Runs code 1 (.at n) ds [] (.ended .starved) ds :=
  one h (by simp only [Instruction.transfer_switch, Transfer.take, hword])

lemma passive (h : Stands code n [i]) (hi : i.isPassive) :
    Runs code 1 (.at n) ds [] (.at (n + 1)) ds := by
  obtain ⟨hterminator, heffect⟩ := Instruction.isPassive_iff.1 hi
  have hstep : Runs code 1 (.at n) ds _ (.at (n + 1)) ds :=
    one h (by rw [Instruction.transfer_of_not_isTerminator hterminator, Transfer.take])
  rwa [heffect] at hstep

lemma effect (h : Stands code n [i]) (hi : i.isEffect) :
    Runs code 1 (.at n) ds [effectCount (code.take n)] (.at (n + 1)) ds := by
  have hnext :=
    Instruction.transfer_of_not_isTerminator (Instruction.not_isTerminator_of_isEffect hi)
  have hstep : Runs code 1 (.at n) ds _ (.at (n + 1)) ds := one h (by rw [hnext, Transfer.take])
  rwa [if_pos hi] at hstep

lemma passives (h : Stands code n is) (hpassive : ∀ i ∈ is, i.isPassive) :
    Runs code is.length (.at n) ds [] (.at (n + is.length)) ds := by
  induction is generalizing n with
  | nil => exact refl
  | cons i is ih =>
    obtain ⟨hi, his⟩ := forall_mem_cons.1 hpassive
    obtain ⟨hfirst, hrest⟩ := stands_cons.1 h
    rw [length_cons, Nat.add_comm, ← Nat.add_assoc]
    exact (passive hfirst hi).trans (ih hrest his)

end Runs

/-! ### Functions -/

lemma Function.written_eq {f : Function} {label : Instruction} {rest : List Instruction}
    (h : f.code = label :: rest) : f.written = label :: (f.locals.toList ++ rest) := by
  simp only [Function.code, Function.written, Function.layout] at h ⊢
  cases hblocks : f.blocks.toList with
  | nil => simp [hblocks] at h
  | cons b bs =>
    simp only [hblocks, flatMap_cons, Block.instructions, cons_append] at h
    obtain ⟨rfl, rfl⟩ := cons.inj h
    simp [Block.lead, Block.instructions]

lemma Function.run_eq {f : Function} {c : Control}
    (h : Runs f.written n (.at 0) ds effects c left) :
    f.run n ds = ⟨effects, c.ending?, left⟩ := by
  unfold Function.run
  rw [h]
  rfl

lemma prefix_step (code : List Instruction) (m : Machine) :
    m.effects <+: (step code m).effects := by
  unfold step
  split
  · exact prefix_rfl
  · split
    · exact prefix_rfl
    · exact prefix_append _ _

lemma iterate_step_of_ended (h : m.control = .ended ending) (k : Nat) : (step code)^[k] m = m := by
  refine Function.iterate_fixed ?_ k
  unfold step
  rw [h]

/-- The effects of a run of a function are the first of those of a longer run, which is the same if
the shorter one has ended. -/
lemma Function.run_add (f : Function) (n k : Nat) (ds : List Decision) :
    (f.run n ds).effects <+: (f.run (n + k) ds).effects ∧
      ((f.run n ds).ending ≠ none → f.run (n + k) ds = f.run n ds) := by
  unfold Function.run
  rw [Nat.add_comm, Function.iterate_add_apply]
  generalize (step f.written)^[n] ⟨.at 0, ds, []⟩ = m
  refine ⟨?_, fun hended => ?_⟩
  · induction k generalizing m with
    | zero => exact prefix_rfl
    | succ k ih => exact (prefix_step _ m).trans (ih _)
  · cases hcontrol : m.control with
    | «at» position => exact absurd (congrArg Control.ending? hcontrol) hended
    | ended ending => rw [iterate_step_of_ended hcontrol]

end Shader.Assembly
