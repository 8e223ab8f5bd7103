import Shader.Proofs.Drafting

/-!
# Functions as one list of blocks

A function under construction can also be kept as one list of blocks, each of which may lack its
terminator.  Nothing in such a list says that only the last block may be open: to begin a block is
refused while the last one is open, and to finish a function is to search for a block without a
terminator.  Main result: steps do the same to such a list and to a draft, faults included, so the
list is always that of a draft and no block but the last is ever open (`block_lists_simulate`).
-/

namespace Shader.Assembly

/-- A block that may lack its terminator. -/
structure PendingBlock where
  label : Id
  body : Array Instruction := #[]
  terminator : Option Instruction := none
deriving DecidableEq, Repr

def PendingBlock.instructions (b : PendingBlock) : List Instruction :=
  .label b.label :: (b.body.toList ++ b.terminator.toList)

/-- A function under construction, with all its blocks in one list. -/
structure BlockList extends FunctionHead where
  blocks : Array PendingBlock := #[]
deriving DecidableEq, Repr

namespace BlockList

/-- The last block, if it lacks its terminator. -/
def open? (l : BlockList) : Option PendingBlock :=
  l.blocks.back?.filter (·.terminator.isNone)

/-- Changes the last block, if it lacks its terminator. -/
def changeOpen (fault : Inconsistency) (change : PendingBlock → PendingBlock) (l : BlockList) :
    Except Inconsistency BlockList :=
  match l.open? with
  | some b => .ok { l with blocks := l.blocks.pop.push (change b) }
  | none   => .error fault

def beginBlock (label : Id) (l : BlockList) : Except Inconsistency BlockList :=
  match l.open? with
  | some b => .error (.blockOpen label b.label)
  | none   => .ok { l with blocks := l.blocks.push { label } }

def terminate (i : Instruction) : BlockList → Except Inconsistency BlockList :=
  changeOpen (.nothingToTerminate i.opcode) fun b => { b with terminator := some i }

def push (i : Instruction) (l : BlockList) : Except Inconsistency BlockList :=
  if i.isTerminator then l.terminate i
  else l.changeOpen (.outsideBlock i.opcode) fun b => { b with body := b.body.push i }

/-- Checks that there are blocks, and that a search for one without a terminator finds none. -/
def finish (l : BlockList) : Except Inconsistency Unit :=
  if l.blocks = #[] then .error (.noBlocks l.id) else
    match l.blocks.find? (·.terminator.isNone) with
    | some b => .error (.unterminated b.label l.id)
    | none   => .ok ()

def instructions (l : BlockList) : List Instruction :=
  l.toFunctionHead.instructions (l.blocks.toList.map PendingBlock.instructions)

end BlockList

/-- What a step inside a function does to its list of blocks. -/
def Step.changeBlocks? : Step → Option (BlockList → Except Inconsistency BlockList)
  | addParameter type id => some fun l => .ok { l with parameters := l.parameters.push ⟨type, id⟩ }
  | addVariable i => some fun l => .ok { l with locals := l.locals.push i }
  | beginBlock label => some (BlockList.beginBlock label)
  | push i => some (BlockList.push i)
  | terminate i => some (BlockList.terminate i)
  | finish => some fun l => l.finish.map fun _ => l
  | _ => none

/-! ### The list of a draft -/

def Block.pending (b : Block) : PendingBlock := ⟨b.label, b.body, some b.terminator⟩

def OpenBlock.pending (b : OpenBlock) : PendingBlock := ⟨b.label, b.body, none⟩

namespace Draft

/-- The closed blocks of a draft, and then the open one. -/
def blockList (d : Draft) : BlockList where
  toFunctionHead := d.toFunctionHead
  blocks :=
    match d.current with
    | none   => d.closed.map Block.pending
    | some b => (d.closed.map Block.pending).push b.pending

/-- The search for a block without a terminator finds none among the closed ones. -/
lemma find?_closed (closed : Array Block) :
    (closed.map Block.pending).find? (·.terminator.isNone) = none := by
  rw [Array.find?_eq_none]
  intro b hb
  obtain ⟨c, -, rfl⟩ := Array.mem_map.1 hb
  simp [Block.pending]

lemma open?_blockList (d : Draft) : d.blockList.open? = d.current.map OpenBlock.pending := by
  obtain ⟨head, closed, _ | block⟩ := d
  · rw [BlockList.open?, blockList, Array.back?_map]
    cases closed.back? <;> rfl
  · rw [BlockList.open?, blockList, Array.back?_push]
    rfl

lemma beginBlock_blockList (label : Id) (d : Draft) :
    d.blockList.beginBlock label = (d.beginBlock label).map blockList := by
  unfold BlockList.beginBlock
  rw [open?_blockList]
  obtain ⟨head, closed, _ | block⟩ := d <;> rfl

lemma terminate_blockList (i : Instruction) (d : Draft) :
    d.blockList.terminate i = (d.terminate i).map blockList := by
  unfold BlockList.terminate BlockList.changeOpen
  rw [open?_blockList]
  obtain ⟨head, closed, _ | block⟩ := d
  · rfl
  · simp [blockList, terminate, Except.map, OpenBlock.pending, OpenBlock.close, Block.pending]

lemma push_blockList (i : Instruction) (d : Draft) :
    d.blockList.push i = (d.push i).map blockList := by
  unfold BlockList.push push
  split
  · exact terminate_blockList i d
  · unfold BlockList.changeOpen
    rw [open?_blockList]
    obtain ⟨head, closed, _ | block⟩ := d
    · rfl
    · simp [blockList, Except.map, OpenBlock.pending]

/-- Whether and why a draft cannot be finished is what the search in its list says. -/
lemma finish_blockList (d : Draft) : d.blockList.finish = d.finish.map fun _ => () := by
  obtain ⟨head, closed, _ | block⟩ := d
  · dsimp only [BlockList.finish, blockList, finish]
    rw [find?_closed]
    by_cases hempty : closed = #[]
    · simp [hempty, Except.map]
    · simp [hempty, Except.map]
  · dsimp only [BlockList.finish, blockList, finish]
    rw [Array.find?_push, find?_closed]
    simp [OpenBlock.pending, Except.map]

lemma instructions_blockList (d : Draft) : d.blockList.instructions = d.instructions := by
  have hclosed : PendingBlock.instructions ∘ Block.pending = Block.instructions := rfl
  obtain ⟨head, closed, _ | block⟩ := d
  · simp [BlockList.instructions, instructions, blockList, hclosed]
  · simp [BlockList.instructions, instructions, blockList, hclosed, OpenBlock.pending,
      PendingBlock.instructions, OpenBlock.instructions]

lemma instructions_of_finish {d : Draft} {f : Function} (h : d.finish = .ok f) :
    f.instructions = d.instructions := by
  obtain ⟨head, closed, _ | block⟩ := d
  · unfold finish at h
    dsimp only at h
    split at h
    · cases h
    · cases h
      simp [Function.instructions, instructions]
  · cases h

end Draft

/-- A step does the same to a draft and to its list of blocks. -/
lemma Step.changeBlocks?_blockList (s : Step) (d : Draft) :
    (s.changeBlocks?.map fun change => change d.blockList) =
      s.change?.map fun change => (change d).map Draft.blockList := by
  cases s with
  | openFunction | closeFunction | abandonFunction | addParameter | addVariable => rfl
  | beginBlock label => exact congrArg some (Draft.beginBlock_blockList label d)
  | push i => exact congrArg some (Draft.push_blockList i d)
  | terminate i => exact congrArg some (Draft.terminate_blockList i d)
  | finish =>
    refine congrArg some ?_
    dsimp only
    rw [Draft.finish_blockList]
    cases d.finish <;> rfl

/-! ### Runs -/

/-- What is left where a change is tried; one that is refused changes nothing. -/
def attempt {α : Type} (change? : Option (α → Except Inconsistency α)) (x : α) : α :=
  match change? with
  | none => x
  | some change =>
    match change x with
    | .ok y    => y
    | .error _ => x

/-- Steps that are tried one after another. -/
def attemptAll {α : Type} (change? : Step → Option (α → Except Inconsistency α)) (x : α)
    (steps : List Step) : α :=
  steps.foldl (fun x s => attempt (change? s) x) x

lemma attempt_blockList (s : Step) (d : Draft) :
    attempt s.changeBlocks? d.blockList = (attempt s.change? d).blockList := by
  have hstep := s.changeBlocks?_blockList d
  cases hs : s.change? with
  | none =>
    rw [hs] at hstep
    rw [Option.map_eq_none_iff.1 hstep]
    rfl
  | some change =>
    rw [hs] at hstep
    obtain ⟨change', hs', hchange⟩ := Option.map_eq_some_iff.1 hstep
    dsimp only at hchange
    rw [hs', attempt, attempt, hchange]
    cases change d <;> rfl

lemma attemptAll_blockList (d : Draft) (steps : List Step) :
    attemptAll Step.changeBlocks? d.blockList steps =
      (attemptAll Step.change? d steps).blockList := by
  induction steps generalizing d with
  | nil => rfl
  | cons s rest ih =>
    calc attemptAll Step.changeBlocks? d.blockList (s :: rest)
      _ = attemptAll Step.changeBlocks? (attempt s.changeBlocks? d.blockList) rest := rfl
      _ = attemptAll Step.changeBlocks? (attempt s.change? d).blockList rest := by
        rw [attempt_blockList]
      _ = (attemptAll Step.change? d (s :: rest)).blockList := ih _

/-- Steps inside a function change the draft of the module and nothing else. -/
lemma outcome_attemptAll (m : Module) (d : Draft) (steps : List Step)
    (hinside : ∀ s ∈ steps, s.change?.isSome) :
    steps.foldl (fun m s => (s.outcome m).2) { m with draft := some d } =
      { m with draft := some (attemptAll Step.change? d steps) } := by
  induction steps generalizing d with
  | nil => rfl
  | cons s rest ih =>
    obtain ⟨change, hs⟩ := Option.isSome_iff_exists.1 (hinside s List.mem_cons_self)
    have hstep : (s.outcome { m with draft := some d }).2 =
        { m with draft := some (attempt s.change? d) } := by
      rw [Step.outcome, Step.act_of_change? hs, hs, onDraft, attempt]
      cases hd : change d <;> simp [hd]
    rw [List.foldl_cons, hstep]
    exact ih _ fun s hs => hinside s (List.mem_cons_of_mem _ hs)

/-- A list of blocks to which steps are done one after another has no open block but the last.  It
is the list of the draft that a module gets when the function is opened without blocks and the same
steps are tried there.  It can be finished when the draft can, to the same instructions, and if not,
then for the same reason. -/
theorem block_lists_simulate (head : FunctionHead) (steps : List Step) (m : Module)
    (hm : m.draft = none) (hinside : ∀ s ∈ steps, s.change?.isSome) :
    ∃ (l : BlockList) (d : Draft),
      attemptAll Step.changeBlocks? { toFunctionHead := head } steps = l ∧
      (Step.openFunction head :: steps).foldl (fun m s => (s.outcome m).2) m =
        { m with draft := some d } ∧
      d.blockList = l ∧
      (∀ b ∈ l.blocks.pop, b.terminator.isSome) ∧
      (d.finish.map fun f => f.instructions) = l.finish.map fun _ => l.instructions := by
  have hopened : ((Step.openFunction head).outcome m).2 =
      { m with draft := some { toFunctionHead := head } } := by
    rw [Step.outcome, Step.act, openFunction, hm]
  have hempty : Draft.blockList { toFunctionHead := head } = { toFunctionHead := head } := by
    simp [Draft.blockList]
  have hlist := attemptAll_blockList { toFunctionHead := head } steps
  rw [hempty] at hlist
  rw [List.foldl_cons, hopened, outcome_attemptAll m _ steps hinside, hlist]
  refine ⟨_, _, rfl, rfl, rfl, ?_, ?_⟩
  all_goals generalize attemptAll Step.change? _ _ = d
  · obtain ⟨head, closed, current⟩ := d
    have hclosed : ∀ b ∈ closed.map Block.pending, b.terminator.isSome := by
      intro b hb
      obtain ⟨c, -, rfl⟩ := Array.mem_map.1 hb
      rfl
    cases current with
    | none =>
      intro b hb
      rw [← Array.mem_toList_iff, Array.toList_pop] at hb
      exact hclosed b (Array.mem_toList_iff.1 (List.dropLast_subset _ hb))
    | some block => simpa [Draft.blockList] using hclosed
  · rw [Draft.finish_blockList, Draft.instructions_blockList]
    cases hfinish : d.finish with
    | error cause => rfl
    | ok f => exact congrArg Except.ok (Draft.instructions_of_finish hfinish)

end Shader.Assembly
