import Shader.Assembly.Module
import Shader.Proofs.Instruction

/-!
# Steps of construction

A function is opened, gets parameters, variables and blocks, and is closed or abandoned, step by
step.  A step that fails changes nothing, except that a function that cannot be closed is lost
(`failed_step_keeps_module`).  In whatever order steps are tried, the functions that come out
consist of what was accepted between their opening and their closing (`functions_as_built`).
-/

namespace Shader.Assembly

open List

inductive Step where
  | openFunction (head : FunctionHead)
  | addParameter (type id : Id)
  | addVariable (i : Instruction)
  | beginBlock (label : Id)
  | push (i : Instruction)
  | terminate (i : Instruction)
  | finish
  | closeFunction
  | abandonFunction
deriving DecidableEq

namespace Step

def act : Step → BuildM Unit
  | openFunction head => Assembly.openFunction head
  | addParameter type id => Assembly.addParameter type id
  | addVariable i => Assembly.addVariable i
  | beginBlock label => Assembly.beginBlock label
  | push i => pushInstruction i
  | terminate i => Assembly.terminate i
  | finish => checkDraft
  | closeFunction => Assembly.closeFunction
  | abandonFunction => Assembly.abandonFunction

/-- What a step inside a function does to the draft. -/
def change? : Step → Option (Draft → Except Inconsistency Draft)
  | addParameter type id => some fun d => .ok (d.addParameter type id)
  | addVariable i => some fun d => .ok (d.addVariable i)
  | beginBlock label => some (Draft.beginBlock label)
  | push i => some (Draft.push i)
  | terminate i => some (Draft.terminate i)
  | finish => some fun d => d.finish.map fun _ => d
  | _ => none

def parameters : Step → List Parameter
  | addParameter type id => [⟨type, id⟩]
  | _ => []

def locals : Step → List Instruction
  | addVariable i => [i]
  | _ => []

/-- What a step adds to the blocks. -/
def code : Step → List Instruction
  | beginBlock label => [.label label]
  | push i | terminate i => [i]
  | _ => []

/-- All that a step can do: it is accepted, or fails with a fault. -/
inductive Does (m : Module) : Step → Option Fault → Module → Prop where
  | opened (head : FunctionHead) : m.draft = none →
    Does m (openFunction head) none { m with draft := some { toFunctionHead := head } }
  | changed : s.change? = some change → m.draft = some d → change d = .ok d' →
    Does m s none { m with draft := some d' }
  | closed : m.draft = some d → d.finish = .ok f →
    Does m closeFunction none { m with draft := none, functions := m.functions.push f }
  | abandoned : Does m abandonFunction none { m with draft := none }
  | refused (fault : Fault) : Does m s (some fault) m
  | lost : m.draft = some d → d.finish = .error cause →
    Does m closeFunction (some (.inconsistent cause)) { m with draft := none }

/-- A step as an answer and the module that it leaves. -/
def outcome (s : Step) (m : Module) : Option Fault × Module :=
  match s.act m with
  | .ok () m => (none, m)
  | .error fault m => (some fault, m)

lemma checkDraft_eq : checkDraft = onDraft fun d => d.finish.map fun _ => d := by
  funext m
  obtain ⟨_, _, _, _ | d, _⟩ := m
  · rfl
  · cases hfinish : d.finish <;> simp [checkDraft, currentDraft, onDraft, hfinish, Except.map, bind,
      EStateM.bind, pure, EStateM.pure]
    rfl

lemma act_of_change? {change : Draft → Except Inconsistency Draft} {s : Step}
    (h : s.change? = some change) : s.act = onDraft change := by
  cases s <;> cases h
  case finish => exact checkDraft_eq
  all_goals rfl

lemma does_outcome (s : Step) (m : Module) : s.Does m (s.outcome m).1 (s.outcome m).2 := by
  cases hchange : s.change? with
  | some change =>
    rw [outcome, act_of_change? hchange, onDraft]
    cases hdraft : m.draft with
    | none => exact .refused _
    | some d =>
      dsimp only
      cases hd : change d with
      | error cause => exact .refused _
      | ok d' => exact .changed hchange hdraft hd
  | none =>
    cases s with
    | openFunction head =>
      rw [outcome, act, Assembly.openFunction]
      cases hdraft : m.draft with
      | none => exact .opened head hdraft
      | some d => exact .refused _
    | closeFunction =>
      rw [outcome, act, Assembly.closeFunction]
      cases hdraft : m.draft with
      | none => exact .refused _
      | some d =>
        dsimp only
        cases hfinish : d.finish with
        | error cause => exact .lost hdraft hfinish
        | ok f => exact .closed hdraft hfinish
    | abandonFunction => exact .abandoned
    | _ => cases hchange

end Step

/-- The module after steps that are tried one after another, and those that were accepted. -/
def run (steps : List Step) : Module × List Step :=
  steps.foldl (fun (m, done) s => ((s.outcome m).2, if (s.outcome m).1.isNone then done ++
    [s] else done)) ({}, [])

/-- A step that fails leaves the module as it was, or it was to close a function that cannot be
finished: then this function is dropped, and all else is as it was. -/
theorem failed_step_keeps_module {s : Step} {m m' : Module} {fault : Fault}
    (h : s.act m = .error fault m') :
    m' = m ∨ s = .closeFunction ∧ (∃ d cause, m.draft = some d ∧ d.finish = .error cause ∧
      fault = .inconsistent cause) ∧ m' = { m with draft := none } := by
  have hdoes := s.does_outcome m
  simp only [Step.outcome, h] at hdoes
  cases hdoes with
  | refused => exact .inl rfl
  | lost hdraft hfinish => exact .inr ⟨rfl, ⟨_, _, hdraft, hfinish, rfl⟩, rfl⟩

theorem failed_step_keeps_module_outsideBlock :
    let m := (run [.openFunction ⟨⟨3⟩, ⟨2⟩, ⟨1⟩, #[], #[]⟩]).1
    ∃ m', (Step.push .ret).act m = .error (.inconsistent (.nothingToTerminate .return)) m' ∧
      m' = m := by
  refine ⟨_, rfl, (failed_step_keeps_module (s := .push .ret) rfl).resolve_right ?_⟩
  rintro ⟨h, -⟩
  cases h

/-- A function with an unfinished block is lost when it is closed, though closing fails. -/
theorem failed_close_loses_function :
    ∃ m, (run [.openFunction ⟨⟨3⟩, ⟨2⟩, ⟨1⟩, #[], #[]⟩, .beginBlock ⟨4⟩]).1 = m ∧ m.draft.isSome ∧
      Step.closeFunction.act m = .error (.inconsistent (.unterminated ⟨4⟩ ⟨3⟩))
        { m with draft := none } :=
  ⟨_, rfl, rfl, rfl⟩

/-! ### Runs -/

/-- A draft is what steps make of a function that is opened with the head `start`. -/
structure Draft.Written (d : Draft) (start : FunctionHead) (steps : List Step) : Prop where
  inside : ∀ s ∈ steps, s.change?.isSome
  head : d.toFunctionHead = { start with
    parameters := start.parameters ++ (steps.flatMap Step.parameters).toArray
    locals := start.locals ++ (steps.flatMap Step.locals).toArray }
  code : d.code = steps.flatMap Step.code
  closed : ∀ b ∈ d.closed, ∀ i ∈ b.body, i.isTerminator = false
  current : ∀ b ∈ d.current, ∀ i ∈ b.body, i.isTerminator = false

namespace Draft.Written

variable {d d' : Draft} {s : Step} {start : FunctionHead} {steps : List Step}

lemma add (h : d.Written start steps) (hs : s.change?.isSome)
    (hhead : d'.toFunctionHead = { d.toFunctionHead with
      parameters := d.parameters ++ s.parameters.toArray, locals := d.locals ++ s.locals.toArray })
    (hcode : d'.code = d.code ++ s.code)
    (hclosed : ∀ b ∈ d'.closed, ∀ i ∈ b.body, i.isTerminator = false)
    (hcurrent : ∀ b ∈ d'.current, ∀ i ∈ b.body, i.isTerminator = false) :
    d'.Written start (steps ++ [s]) where
  inside := forall_mem_append.2 ⟨h.inside, forall_mem_singleton.2 hs⟩
  head := by simp [hhead, h.head, Array.append_assoc]
  code := by simp [hcode, h.code]
  closed := hclosed
  current := hcurrent

/-- A terminator ends the open block, behind its code. -/
lemma terminate {i : Instruction} (h : d.Written start steps) (hd : d.terminate i = .ok d')
    (hs : s.change?.isSome) (hadds : (s.parameters, s.locals, s.code) = ([], [], [i])) :
    d'.Written start (steps ++ [s]) := by
  simp only [Prod.mk.injEq] at hadds
  obtain ⟨head, closed, current⟩ := d
  cases current with
  | none => cases hd
  | some block =>
    cases hd
    refine h.add hs ?_ ?_ ?_ nofun
    · simp [hadds]
    · simp [hadds, Draft.code, OpenBlock.close, Block.instructions, OpenBlock.instructions]
    · intro b hb
      rcases Array.mem_push.1 hb with hb | rfl
      · exact h.closed b hb
      · exact h.current block rfl

/-- A step inside a function adds to the draft exactly what the step says. -/
lemma change {change : Draft → Except Inconsistency Draft} (h : d.Written start steps)
    (hs : s.change? = some change) (hd : change d = .ok d') : d'.Written start (steps ++ [s]) := by
  have hsome : s.change?.isSome := by rw [hs]; rfl
  obtain ⟨head, closed, current⟩ := d
  cases s with
  | openFunction | closeFunction | abandonFunction => cases hs
  | addParameter | addVariable =>
    cases hs
    cases hd
    refine h.add hsome ?_ ?_ h.closed h.current <;>
      simp [addParameter, addVariable, Draft.code, Step.parameters, Step.locals, Step.code]
  | beginBlock label =>
    cases hs
    cases current with
    | some => cases hd
    | none =>
      cases hd
      refine h.add hsome ?_ ?_ h.closed ?_ <;>
        simp [Draft.code, OpenBlock.instructions, Step.parameters, Step.locals, Step.code]
  | push i =>
    cases hs
    unfold Draft.push at hd
    split at hd
    · exact h.terminate hd hsome rfl
    · cases current with
      | none => cases hd
      | some block =>
        cases hd
        refine h.add hsome ?_ ?_ h.closed fun b hb j hj => ?_
        · simp [Step.parameters, Step.locals]
        · simp [Draft.code, OpenBlock.instructions, Step.code]
        · cases hb
          rcases Array.mem_push.1 hj with hj | rfl
          · exact h.current block rfl j hj
          · exact Bool.eq_false_iff.2 ‹_›
  | terminate i =>
    cases hs
    exact h.terminate hd hsome rfl
  | finish =>
    cases hs
    dsimp only at hd
    generalize Draft.finish ⟨head, closed, current⟩ = finished at hd
    cases finished with
    | error => cases hd
    | ok f =>
      cases hd
      refine h.add hsome ?_ ?_ h.closed h.current <;> simp [Step.parameters, Step.locals, Step.code]

end Draft.Written

/-- A function came out of the steps: between its opening and its closing they made what it consists
of. -/
def Function.CameOf (f : Function) (done : List Step) : Prop :=
  ∃ before start inside after, done = before ++ .openFunction start ::
    (inside ++ .closeFunction :: after) ∧
    Draft.Written { toFunctionHead := f.toFunctionHead, closed := f.blocks } start inside

variable {done : List Step}

lemma Function.CameOf.append {f : Function} (h : Function.CameOf f done) (more : List Step) :
    f.CameOf (done ++ more) := by
  obtain ⟨before, start, inside, after, rfl, hwritten⟩ := h
  exact ⟨before, start, inside, after ++ more, by simp, hwritten⟩

/-- The functions of a module, and its draft, came out of the steps that were accepted. -/
structure Module.Built (m : Module) (done : List Step) : Prop where
  draft : ∀ d ∈ m.draft, ∃ before start inside, done = before ++ .openFunction start :: inside ∧
    d.Written start inside
  functions : ∀ f ∈ m.functions, f.CameOf done
  count : m.functions.size = done.count .closeFunction

/-- One step, taken or refused, leaves a module that the steps taken so far have built. -/
lemma Module.Built.step {m : Module} (h : m.Built done) (s : Step) :
    (s.outcome m).2.Built (if (s.outcome m).1.isNone then done ++ [s] else done) := by
  have hdoes := s.does_outcome m
  generalize s.outcome m = answer at hdoes ⊢
  obtain ⟨fault, m'⟩ := answer
  have hkept := fun f hf => (h.functions f hf).append [s]
  cases hdoes with
  | opened head _ =>
    refine ⟨?_, hkept, by simp [h.count]⟩
    rintro d ⟨⟩
    exact ⟨done, head, [], rfl, nofun, by simp, rfl, nofun, nofun⟩
  | changed hs hdraft hd =>
    obtain ⟨before, start, inside, rfl, hwritten⟩ := h.draft _ hdraft
    refine ⟨?_, hkept, ?_⟩
    · rintro d ⟨⟩
      exact ⟨before, start, inside ++ [s], by simp, hwritten.change hs hd⟩
    · have hne : s ≠ .closeFunction := by rintro rfl; cases hs
      simp [h.count, hne]
  | @closed d f hdraft hfinish =>
    obtain ⟨before, start, inside, rfl, hwritten⟩ := h.draft _ hdraft
    refine ⟨nofun, ?_, by simp [h.count, Nat.add_assoc]⟩
    intro g hg
    rcases Array.mem_push.1 hg with hg | rfl
    · exact hkept g hg
    · refine ⟨before, start, inside, [], by simp, ?_⟩
      obtain ⟨head, closed, _ | block⟩ := d
      · unfold Draft.finish at hfinish
        dsimp only at hfinish
        split at hfinish
        · cases hfinish
        · cases hfinish
          exact hwritten
      · cases hfinish
  | abandoned => exact ⟨nofun, hkept, by simp [h.count]⟩
  | refused => exact h
  | lost => exact ⟨nofun, h.functions, h.count⟩

lemma built_run (steps : List Step) : (run steps).1.Built (run steps).2 := by
  refine foldlRecOn (motive := fun state : Module × List Step => state.1.Built state.2) steps _ ?_
    fun state h s _ => h.step s
  exact ⟨nofun, nofun, rfl⟩

/-- The blocks of a draft by their labels, with the terminators that they have. -/
def Draft.terminators (d : Draft) : List (Id × Option Instruction) :=
  d.closed.toList.map (fun b => (b.label, some b.terminator)) ++ d.current.toList.map
    (·.label, none)

/-- Whatever steps are tried on an empty module: while a function is open no other one can be
opened, and all its blocks but the last are terminated.  A finished function has blocks; its
instructions are the declaration, the parameters and block after block the label, the body and the
terminator, with the variables behind the first label.  Parameters, variables and code, labels
included, are those of the steps that were accepted between opening and closing, in order, and no
body holds a terminator. -/
theorem functions_as_built (steps : List Step) :
    ∃ m done, run steps = (m, done) ∧
      (∀ d ∈ m.draft, (∀ head, ∃ fault, (Step.openFunction head).act m = .error fault m) ∧
        (∀ b ∈ d.terminators.dropLast, b.2.isSome) ∧
        ∃ before start inside, done = before ++ .openFunction start :: inside ∧
          d.Written start inside) ∧
      (∀ f ∈ m.functions, f.CameOf done ∧
        ∃ first rest, f.blocks.toList = first :: rest ∧ f.instructions =
          f.declaration :: f.parameterInstructions ++
            (.label first.label :: f.locals.toList ++ first.body.toList ++ [first.terminator]) ++
            rest.flatMap fun b => .label b.label :: b.body.toList ++ [b.terminator]) ∧
      m.functions.size = done.count .closeFunction := by
  have hbuilt := built_run steps
  generalize run steps = state at hbuilt ⊢
  obtain ⟨m, done⟩ := state
  refine ⟨m, done, rfl, fun d hd => ⟨fun head => ?_, ?_, hbuilt.draft d hd⟩, fun f hf =>
    ⟨hbuilt.functions f hf, ?_⟩, hbuilt.count⟩
  · rw [Step.act, openFunction, show m.draft = some d from hd]
    exact ⟨_, rfl⟩
  · unfold Draft.terminators
    cases d.current with
    | none =>
      intro b hb
      have hmem := dropLast_subset _ hb
      rw [Option.toList_none, map_nil, append_nil] at hmem
      obtain ⟨c, -, rfl⟩ := mem_map.1 hmem
      rfl
    | some block => simp
  · cases hblocks : f.blocks.toList with
    | nil => exact absurd (Array.toList_eq_nil_iff.1 hblocks) f.nonempty
    | cons first rest =>
      refine ⟨first, rest, rfl, ?_⟩
      simp [Function.instructions, FunctionHead.instructions, hblocks, Block.instructions, flatMap]
      rfl

/-- A function with a parameter and a variable, and a second block that is begun too early and begun
again when the first one is closed. -/
example :
    let load : Instruction := .result .load ⟨1⟩ ⟨8⟩ [.id ⟨4⟩]
    let built := run [.openFunction { id := ⟨3⟩, typeId := ⟨2⟩, returnType := ⟨1⟩ },
      .addParameter ⟨1⟩ ⟨4⟩, .beginBlock ⟨5⟩, .addVariable (.result .variable ⟨6⟩ ⟨7⟩ []),
      .push load, .beginBlock ⟨9⟩, .push (.branch ⟨9⟩), .beginBlock ⟨9⟩, .terminate .ret,
      .closeFunction]
    built.1.draft = none ∧ built.2.length = 9 ∧
      built.1.functions.toList.map Function.instructions = [[
        .result .function ⟨1⟩ ⟨3⟩ [.word noControl, .id ⟨2⟩],
        .result .functionParameter ⟨1⟩ ⟨4⟩ [], .label ⟨5⟩, .result .variable ⟨6⟩ ⟨7⟩ [],
        load, .branch ⟨9⟩, .label ⟨9⟩, .ret]] := by
  decide

end Shader.Assembly
