import Shader.Proofs.Progress

/-!
# The elementary steps of the emission of a body

The state of the emission of a body is looked at through a few views: the blocks that are closed,
the block that is open, the code of both, and the next id.  Four elementary steps change the
code or the ids: a new id is issued, an instruction is pushed to the open block, the open block
is closed, a block is opened.  Each of them leaves the rest of the state as it is.
-/

namespace Shader.Emit

open List Assembly
open IR (Expression)

variable {σ σ' σ₃ : Body} {id label : Id} {α : Type} {a : Unit} {i : Instruction}

namespace Body

/-! ### Views -/

/-- The number of the next id. -/
def bound (σ : Body) : Nat := σ.progress.assembly.bound

/-- The next id. -/
def nextId (σ : Body) : Id := ⟨σ.bound⟩

def draft? (σ : Body) : Option Draft := σ.progress.assembly.draft

/-- The blocks that are closed. -/
def closed (σ : Body) : List Block := σ.draft?.elim [] fun d => d.closed.toList

/-- The block that is open. -/
def current? (σ : Body) : Option OpenBlock := σ.draft?.bind Draft.current

/-- The label of the open block. -/
def label? (σ : Body) : Option Id := σ.current?.map OpenBlock.label

/-- All instructions so far, in the order they were emitted. -/
def code (σ : Body) : List Instruction :=
  σ.closed.flatMap Block.instructions ++ σ.current?.elim [] OpenBlock.instructions

/-- The id stands for something that was there before the statements: an argument, a local
variable, or a pointer to the contents of a global variable. -/
def Held (σ : Body) (id : Id) : Prop := id ∈ σ.arguments ∨ id ∈ σ.locals ∨ some id ∈ σ.contents

/-! ### Changes -/

def withProgress (σ : Body) (p : Progress) : Body := { σ with progress := p }

def withDraft (σ : Body) (d : Draft) : Body :=
  { σ with progress := { σ.progress with assembly := { σ.progress.assembly with draft := some d } }
    }

def withValues (σ : Body) (values : Valuation) : Body := { σ with values }

def withFlow (σ : Body) (flow : ControlStack) : Body := { σ with flow }

/-- The state after the next id is issued. -/
def issue (σ : Body) : Body :=
  σ.withProgress (σ.progress.withAssembly { σ.progress.assembly with bound :=
    σ.progress.assembly.bound + 1 })

/-- `σ'` is `σ` with more declarations. -/
structure Extends (σ σ' : Body) : Prop where
  progress : σ.progress.Extends σ'.progress
  values : σ'.values = σ.values
  arguments : σ'.arguments = σ.arguments
  locals : σ'.locals = σ.locals
  contents : σ'.contents = σ.contents
  flow : σ'.flow = σ.flow

lemma Extends.refl (σ : Body) : σ.Extends σ := ⟨.refl _, rfl, rfl, rfl, rfl, rfl⟩

lemma Extends.trans {σ₁ σ₂ : Body} (h : σ₁.Extends σ₂) (h' : σ₂.Extends σ₃) : σ₁.Extends σ₃ :=
  ⟨h.progress.trans h'.progress, h'.values.trans h.values, h'.arguments.trans h.arguments,
    h'.locals.trans h.locals, h'.contents.trans h.contents, h'.flow.trans h.flow⟩

lemma extends_withProgress (h : σ.progress.Extends p) :
    σ.Extends (σ.withProgress p) := ⟨h, rfl, rfl, rfl, rfl, rfl⟩

section

variable (h : σ.Extends σ')
include h

lemma Extends.draft? : σ'.draft? = σ.draft? := h.progress.draft

lemma Extends.closed : σ'.closed = σ.closed := by simp only [Body.closed, h.draft?]

lemma Extends.current? : σ'.current? = σ.current? := by simp only [Body.current?, h.draft?]

lemma Extends.label? : σ'.label? = σ.label? := by simp only [Body.label?, h.current?]

lemma Extends.code : σ'.code = σ.code := by simp only [Body.code, h.closed, h.current?]

lemma Extends.bound : σ.bound ≤ σ'.bound := h.progress.bound

end

/-- An instruction joins the open block. -/
inductive Pushes (i : Instruction) (σ : Body) : Body → Prop where
  | intro {d : Draft} {b : OpenBlock} : σ.draft? = some d → d.current = some b →
      Pushes i σ (σ.withDraft { d with current := some { b with body := b.body.push i } })

/-- The open block is closed. -/
inductive Closes (i : Instruction) (σ : Body) : Body → Prop where
  | intro {d : Draft} {b : OpenBlock} : σ.draft? = some d → d.current = some b →
      Closes i σ (σ.withDraft { d with closed := d.closed.push (b.close i), current := none })

/-- A block is opened. -/
inductive Opens (label : Id) (σ : Body) : Body → Prop where
  | intro {d : Draft} : σ.draft? = some d → d.current = none →
      Opens label σ (σ.withDraft { d with current := some { label } })

/-- `σ'` differs from `σ` in its code only. -/
structure SameButCode (σ σ' : Body) : Prop where
  bound : σ'.bound = σ.bound
  finished : σ'.progress.outcome = σ.progress.outcome
  declared : ∀ id, σ'.progress.Declared id ↔ σ.progress.Declared id
  values : σ'.values = σ.values
  arguments : σ'.arguments = σ.arguments
  locals : σ'.locals = σ.locals
  contents : σ'.contents = σ.contents
  flow : σ'.flow = σ.flow

lemma sameButCode_withDraft (σ : Body) (d : Draft) : SameButCode σ (σ.withDraft d) :=
  ⟨rfl, rfl, fun _ => Iff.rfl, rfl, rfl, rfl, rfl, rfl⟩

namespace Pushes

variable (h : Pushes i σ σ')
include h

lemma same : SameButCode σ σ' := by
  obtain ⟨_, _⟩ := h
  exact sameButCode_withDraft _ _

lemma current : ∃ b, σ.current? = some b ∧
    σ'.current? = some { b with body := b.body.push i } ∧ σ'.closed = σ.closed := by
  obtain ⟨hd, hb⟩ := h
  rename_i d b
  refine ⟨b, ?_, rfl, ?_⟩
  · simp only [Body.current?, hd, Option.bind_some, hb]
  · simp only [Body.closed, hd]
    rfl

lemma code : σ'.code = σ.code ++ [i] := by
  obtain ⟨b, hb, hb', hc⟩ := h.current
  simp only [Body.code, hb, hb', hc, Option.elim_some, OpenBlock.instructions, Array.toList_push,
    append_assoc, cons_append]

lemma label? : σ'.label? = σ.label? := by
  obtain ⟨b, hb, hb', -⟩ := h.current
  simp only [Body.label?, hb, hb', Option.map_some]

end Pushes

namespace Closes

variable (h : Closes i σ σ')
include h

lemma same : SameButCode σ σ' := by
  obtain ⟨_, _⟩ := h
  exact sameButCode_withDraft _ _

lemma current : ∃ b, σ.current? = some b ∧ σ'.current? = none ∧ σ'.closed = σ.closed ++
    [b.close i] := by
  obtain ⟨hd, hb⟩ := h
  rename_i d b
  refine ⟨b, ?_, rfl, ?_⟩
  · simp only [Body.current?, hd, Option.bind_some, hb]
  · simp only [Body.closed, hd, Option.elim_some]
    exact Array.toList_push

lemma code : σ'.code = σ.code ++ [i] := by
  obtain ⟨b, hb, hb', hc⟩ := h.current
  simp only [Body.code, hb, hb', hc, Option.elim_some, Option.elim_none, OpenBlock.instructions,
    flatMap_append, flatMap_cons, flatMap_nil, Block.instructions, OpenBlock.close,
    append_nil, append_assoc, cons_append]

end Closes

namespace Opens

variable (h : Opens label σ σ')
include h

lemma same : SameButCode σ σ' := by
  obtain ⟨_, _⟩ := h
  exact sameButCode_withDraft _ _

lemma current : σ.current? = none ∧ σ'.current? = some { label } ∧ σ'.closed = σ.closed := by
  obtain ⟨hd, hb⟩ := h
  refine ⟨?_, rfl, ?_⟩
  · simp only [Body.current?, hd, Option.bind_some, hb]
  · simp only [Body.closed, hd]
    rfl

lemma code : σ'.code = σ.code ++ [.label label] := by
  obtain ⟨hb, hb', hc⟩ := h.current
  simp only [Body.code, hb, hb', hc, Option.elim_some, Option.elim_none,
    OpenBlock.instructions, append_nil]

lemma label? : σ'.label? = some label := by
  obtain ⟨-, hb', -⟩ := h.current
  simp only [Body.label?, hb', Option.map_some]

end Opens

/-! ### Views after an id is issued -/

@[simp] lemma bound_issue (σ : Body) : σ.issue.bound = σ.bound + 1 := rfl
@[simp] lemma values_issue (σ : Body) : σ.issue.values = σ.values := rfl

lemma extends_issue (σ : Body) : σ.Extends σ.issue :=
  extends_withProgress (Progress.extends_withAssembly (extending_freshId _))

end Body

/-! ### Runs of elementary steps -/

lemma freshId_eq_ok : (liftM freshId : BodyM Id) σ = .ok id σ' ↔ id = σ.nextId ∧ σ' = σ.issue := by
  show EStateM.Result.ok σ.nextId σ.issue = .ok id σ' ↔ _
  rw [EStateM.Result.ok.injEq, eq_comm (a := σ.nextId), eq_comm (a := σ.issue)]

lemma extends_of_declare (h : Assembly.Extending act) {a : α}
    (hrun : (liftM act : BodyM α) σ = .ok a σ') : σ.Extends σ' := by
  cases hrun
  exact Body.extends_withProgress (Progress.extends_withAssembly (h σ.progress.assembly))

lemma declared_of_declare (h : Assembly.Declaring act)
    (hrun : (liftM act : BodyM Id) σ = .ok id σ') :
    σ.Extends σ' ∧ σ'.progress.Declared id := by
  refine ⟨extends_of_declare h.extending hrun, ?_⟩
  cases hrun
  exact .inl (h σ.progress.assembly).2

lemma lift_run (act : EmitM α) (σ : Body) : (liftM act : BodyM α) σ = match act σ.progress with
    | .ok value p => .ok value (σ.withProgress p)
    | .error fault p => .error fault (σ.withProgress p) := rfl

lemma lift_eq_ok {act : EmitM α} {a : α} : (liftM act : BodyM α) σ = .ok a σ' ↔
      ∃ p, act σ.progress = .ok a p ∧ σ' = σ.withProgress p := by
  rw [lift_run]
  cases act σ.progress with
  | ok value p =>
    constructor
    · intro h
      cases h
      exact ⟨p, rfl, rfl⟩
    · rintro ⟨p', h, rfl⟩
      cases h
      rfl
  | error fault p => exact ⟨nofun, nofun⟩

lemma extends_of_emit {act : EmitM α} (h : Extending act) {a : α}
    (hrun : (liftM act : BodyM α) σ = .ok a σ') : σ.Extends σ' := by
  obtain ⟨p, hact, rfl⟩ := lift_eq_ok.1 hrun
  exact Body.extends_withProgress (h hact)

lemma declared_of_emit {act : EmitM Id} (h : Declaring act)
    (hrun : (liftM act : BodyM Id) σ = .ok id σ') :
    σ.Extends σ' ∧ σ'.progress.Declared id := by
  obtain ⟨p, hact, rfl⟩ := lift_eq_ok.1 hrun
  exact ⟨Body.extends_withProgress (h hact).1, (h hact).2⟩

lemma exceptIR_eq_ok {x : Except IR.Error α} {a : α} :
    (liftM x : BodyM α) σ = .ok a σ' ↔ x = .ok a ∧ σ = σ' := by
  cases x with
  | ok b => exact ok_eq_ok
  | error e => exact ⟨nofun, nofun⟩

lemma except_eq_ok {x : Except Fault α} {a : α} :
    (liftM x : BodyM α) σ = .ok a σ' ↔ x = .ok a ∧ σ = σ' := by
  cases x with
  | ok b => exact ok_eq_ok
  | error e => exact ⟨nofun, nofun⟩

lemma liftBuild_run (act : BuildM α) (p : Progress) :
    (liftM act : EmitM α) p = match act p.assembly with
    | .ok value m => .ok value (p.withAssembly m)
    | .error fault m => .error (.construction fault) (p.withAssembly m) := rfl

lemma liftBuild_eq_ok {act : BuildM α} {p p' : Progress} {a : α} :
      (liftM act : EmitM α) p = .ok a p' ↔
      ∃ m, act p.assembly = .ok a m ∧ p' = p.withAssembly m := by
  rw [liftBuild_run]
  cases act p.assembly with
  | ok value m =>
    constructor
    · intro h
      cases h
      exact ⟨m, rfl, rfl⟩
    · rintro ⟨m', h, rfl⟩
      cases h
      rfl
  | error fault m => exact ⟨nofun, nofun⟩

lemma build_eq_ok {act : BuildM α} {a : α} : (liftM act : BodyM α) σ = .ok a σ' ↔
      ∃ m, act σ.progress.assembly = .ok a m ∧ σ' = σ.withProgress (σ.progress.withAssembly m) := by
  show (liftM (liftM act : EmitM α) : BodyM α) σ = _ ↔ _
  rw [lift_eq_ok]
  constructor
  · rintro ⟨p, h, rfl⟩
    obtain ⟨m, hm, rfl⟩ := liftBuild_eq_ok.1 h
    exact ⟨m, hm, rfl⟩
  · rintro ⟨m, hm, rfl⟩
    exact ⟨_, liftBuild_eq_ok.2 ⟨m, hm, rfl⟩, rfl⟩

lemma onDraft_eq_ok {change : Draft → Except Assembly.Inconsistency Draft}
    (hrun : (liftM (onDraft change) : BodyM Unit) σ = .ok a σ') :
    ∃ d d', σ.draft? = some d ∧ change d = .ok d' ∧ σ' = σ.withDraft d' := by
  obtain ⟨m, hm, rfl⟩ := build_eq_ok.1 hrun
  simp only [onDraft] at hm
  cases hd : σ.progress.assembly.draft with
  | none =>
    rw [hd] at hm
    cases hm
  | some d =>
    simp only [hd] at hm
    cases hc : change d with
    | error cause =>
      rw [hc] at hm
      cases hm
    | ok d' =>
      rw [hc] at hm
      cases hm
      exact ⟨d, d', hd, hc, rfl⟩

lemma pushes_of_emit (hi : i.isTerminator = false) (hrun : emit i σ = .ok a σ') :
    σ.Pushes i σ' := by
  obtain ⟨d, d', hd, hc, rfl⟩ := onDraft_eq_ok hrun
  obtain ⟨head, closed, current⟩ := d
  simp only [Draft.push, hi, Bool.false_eq_true, if_false] at hc
  cases current with
  | none => cases hc
  | some b =>
    cases hc
    exact .intro hd rfl

lemma closes_of_terminate (hrun : terminate i σ = .ok a σ') : σ.Closes i σ' := by
  obtain ⟨d, d', hd, hc, rfl⟩ := onDraft_eq_ok hrun
  simp only [Draft.terminate] at hc
  cases hb : d.current with
  | none =>
    rw [hb] at hc
    cases hc
  | some b =>
    rw [hb] at hc
    cases hc
    exact .intro hd hb

lemma opens_of_beginBlock (hrun : beginBlock label σ = .ok a σ') : σ.Opens label σ' := by
  obtain ⟨d, d', hd, hc, rfl⟩ := onDraft_eq_ok hrun
  simp only [Draft.beginBlock] at hc
  cases hb : d.current with
  | some b =>
    rw [hb] at hc
    cases hc
  | none =>
    rw [hb] at hc
    cases hc
    exact .intro hd hb

lemma openLabel?_eq_ok {label : Option Id} (hrun : openLabel? σ = .ok label σ') :
    label = σ.label? ∧ σ' = σ := by
  simp only [openLabel?, bind_eq_ok, pure_eq_ok] at hrun
  obtain ⟨d, σ₁, hd, rfl, rfl⟩ := hrun
  obtain ⟨m, hm, rfl⟩ := build_eq_ok.1 hd
  simp only [currentDraft] at hm
  cases hdraft : σ.progress.assembly.draft with
  | none =>
    rw [hdraft] at hm
    cases hm
  | some d' =>
    rw [hdraft] at hm
    cases hm
    refine ⟨?_, rfl⟩
    simp only [Body.label?, Body.current?, Body.draft?, hdraft, Option.bind_some, Draft.label?]

end Shader.Emit
