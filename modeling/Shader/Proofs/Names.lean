import Shader.Proofs.Declaration
import Shader.Proofs.Length

/-!
# Modules without their names

Debug names are all that the debug section holds, and nothing reads that section, nor the entry
points.  A declaration that is made in a module without them declares the same and leaves what is
left of the module without them (`Nameless.erase`).  On the way, every instruction is open-ended or
short (`Neat`).
-/

namespace Shader.Assembly

open List
open IR (Scalar Literal)

variable {α : Type} {m : Module} {s : Section} {i : Instruction}

namespace Module

/-- The module without its entry points and, if so wanted, without its debug names. -/
def nameless (silent : Bool) (m : Module) : Module :=
  { m with
    sections := { m.sections with debug := cond silent #[] m.sections.debug, entryPoints := #[] }
    debugNames := !silent && m.debugNames }

end Module

/-- All instructions of a draft are open-ended or short. -/
structure Draft.Neat (d : Draft) : Prop where
  locals : ∀ i ∈ d.locals, i.Regular
  bodies : ∀ b ∈ d.closed, ∀ i ∈ b.body, i.Regular
  terminators : ∀ b ∈ d.closed, b.terminator.Regular
  current : ∀ b ∈ d.current, ∀ i ∈ b.body, i.Regular

/-- All instructions are open-ended or short, and the debug section holds names only, if it holds
anything. -/
structure Module.Neat (m : Module) : Prop where
  sections : ∀ s, ∀ i ∈ m.sections.get s, i.Regular
  functions : ∀ f ∈ m.functions, ∀ i ∈ f.instructions, i.Regular
  draft : ∀ d ∈ m.draft, d.Neat
  names : ∀ i ∈ m.sections.debug, i.opcode = .name ∨ i.opcode = .memberName
  silent : m.debugNames = false → m.sections.debug = #[]

/-- A declaration that does not depend on names and entry points. -/
structure Nameless {α : Type} (act : DeclareM α) : Prop where
  erase : ∀ silent m, act (m.nameless silent) = ((act m).1, (act m).2.nameless silent)
  neat : ∀ m, m.Neat → (act m).2.Neat
  kept : ∀ m, (act m).2.debugNames = m.debugNames ∧ (act m).2.sections.entryPoints =
    m.sections.entryPoints

namespace Nameless

variable {β : Type}

protected lemma pure (a : α) :
    Nameless (pure a) := ⟨fun _ _ => rfl, fun _ h => h, fun _ => ⟨rfl, rfl⟩⟩

protected lemma bind {next : α → DeclareM β} (h : Nameless act)
    (h' : ∀ m, Nameless (next (act m).1)) :
    Nameless (act >>= next) where
  erase silent m := by
    show next (act (m.nameless silent)).1 (act (m.nameless silent)).2 = _
    rw [h.erase]
    exact (h' m).erase _ _
  neat m hm := (h' m).neat _ (h.neat m hm)
  kept m := ⟨((h' m).kept _).1.trans (h.kept m).1, ((h' m).kept _).2.trans (h.kept m).2⟩

lemma read {next : Module → DeclareM α}
    (hnext : ∀ silent (m : Module), next (m.nameless silent) = next m)
    (h : ∀ m, Nameless (next m)) : Nameless (get >>= next) where
  erase silent m := by
    show next (m.nameless silent) (m.nameless silent) = _
    rw [hnext]
    exact (h m).erase silent m
  neat m hm := (h m).neat m hm
  kept m := (h m).kept m

lemma modify (herase : ∀ silent m, change (m.nameless silent) = (change m).nameless silent)
    (hsections : ∀ m, (change m).sections = m.sections)
    (hfunctions : ∀ m, (change m).functions = m.functions)
    (hdraft : ∀ m, (change m).draft = m.draft)
    (hflag : ∀ m, (change m).debugNames = m.debugNames) :
    Nameless (modify change : DeclareM Unit) where
  erase silent m := Prod.ext rfl (herase silent m)
  neat m hm := by
    show (change m).Neat
    constructor
    · rw [hsections]
      exact hm.sections
    · rw [hfunctions]
      exact hm.functions
    · rw [hdraft]
      exact hm.draft
    · rw [hsections]
      exact hm.names
    · rw [hsections, hflag]
      exact hm.silent
  kept m := ⟨hflag m, congrArg Sections.entryPoints (hsections m)⟩

end Nameless

/-! ### Elementary declarations -/

lemma nameless_freshId : Nameless freshId where
  erase _ _ := rfl
  neat _ hm := ⟨hm.sections, hm.functions, hm.draft, hm.names, hm.silent⟩
  kept _ := ⟨rfl, rfl⟩

lemma Module.Neat.push (hm : m.Neat) (hi : i.Regular)
    (hnames : s = .debug → m.debugNames = true ∧ (i.opcode = .name ∨ i.opcode = .memberName)) :
    Module.Neat { m with sections := m.sections.push i s } where
  sections t j hj := by
    rw [Sections.get_push] at hj
    split at hj
    · obtain hj | rfl := Array.mem_push.1 hj
      · exact hm.sections t j hj
      · exact hi
    · exact hm.sections t j hj
  functions := hm.functions
  draft := hm.draft
  names j hj := by
    have hj : j ∈ (m.sections.push i s).get .debug := hj
    rw [Sections.get_push] at hj
    split at hj
    · rename_i hs
      obtain hj | rfl := Array.mem_push.1 hj
      · exact hm.names j hj
      · exact (hnames hs).2
    · exact hm.names j hj
  silent hflag := by
    show (m.sections.push i s).get .debug = #[]
    rw [Sections.get_push, if_neg]
    · exact hm.silent hflag
    · intro hs
      exact absurd ((hnames hs).1.symm.trans hflag) (by decide)

lemma Module.Neat.pushTo (hm : m.Neat) (hs : s ≠ .debug) (hi : i.Regular) :
    (Assembly.pushTo s i m).2.Neat := by
  show Module.Neat (if _ then _ else _)
  split
  · exact hm
  · exact hm.push hi fun h => absurd h hs

lemma nameless_pushTo (hs : s ≠ .debug ∧ s ≠ .entryPoints) (hi : i.Regular) :
    Nameless (pushTo s i) where
  erase silent m := by
    refine Prod.ext rfl ?_
    show (if s = .capabilities ∧ m.sections.capabilities.contains i then m.nameless silent
      else { m.nameless silent with sections := (m.nameless silent).sections.push i s }) =
        Module.nameless silent (if _ then _ else _)
    split
    · rfl
    · cases s <;> first | rfl | exact absurd rfl hs.1 | exact absurd rfl hs.2
  neat m hm := hm.pushTo hs.1 hi
  kept m := by
    show Module.debugNames (if _ then _ else _) = _ ∧
      Sections.entryPoints (Module.sections (if _ then _ else _)) = _
    split
    · exact ⟨rfl, rfl⟩
    · cases s <;> first | exact ⟨rfl, rfl⟩ | exact absurd rfl hs.2

lemma nameless_pushName (hi : i.Regular) (hop : i.opcode = .name ∨ i.opcode = .memberName) :
    Nameless (pushName i) where
  erase silent m := by
    refine Prod.ext rfl ?_
    show ((if !silent && m.debugNames then pushTo .debug i else pure () : DeclareM Unit)
      (m.nameless silent)).2 = ((if m.debugNames then pushTo .debug i else pure () : DeclareM Unit)
      m).2.nameless silent
    cases silent <;> cases m.debugNames <;> rfl
  neat m hm := by
    show ((if m.debugNames then pushTo .debug i else pure () : DeclareM Unit) m).2.Neat
    split
    · rename_i hflag
      exact hm.push hi fun _ => ⟨hflag, hop⟩
    · exact hm
  kept m := by
    show ((if m.debugNames then pushTo .debug i else pure () : DeclareM Unit) m).2.debugNames = _ ∧
      ((if m.debugNames then pushTo .debug i else pure () : DeclareM Unit)
      m).2.sections.entryPoints = _
    split <;> exact ⟨rfl, rfl⟩

lemma nameless_requireCapability (c : Capability) : Nameless (requireCapability c) :=
  nameless_pushTo (by decide) (.short rfl)

lemma nameless_decorate (target : Id) (d : Decoration) (hlength : operands.length ≤ 9) :
    Nameless (pushTo .annotations (.decorate target d operands)) := by
  refine nameless_pushTo (by decide) (.inr ?_)
  show 1 + (1 + (1 + ((Operand.words operands).map Operand.wordCount).sum)) ≤ 12
  rw [Operand.wordCount_words]
  omega

lemma nameless_adorns (id : Id) : Adorns Nameless id where
  pure := .pure
  bind h h' := .bind h fun _ => h' _
  name _ := nameless_pushName (.inl rfl) (.inl rfl)
  memberName _ _ := nameless_pushName (.inl rfl) (.inr rfl)
  stride _ := nameless_decorate _ _ (by simp)
  capability := nameless_requireCapability
  decorate d words hlength := nameless_decorate _ _ (by omega)
  member index d words hlength := by
    refine nameless_pushTo (by decide) (.inr ?_)
    show 1 + (1 + (1 + (1 + ((Operand.words words).map Operand.wordCount).sum))) ≤ 12
    rw [Operand.wordCount_words]
    omega

lemma nameless_nameTarget (target : Id) (name : Option String) :
    Nameless (nameTarget target name) :=
  (nameless_adorns target).nameTarget name

lemma nameless_mathImport : Nameless mathImport := by
  refine .read (fun _ _ => rfl) fun m => ?_
  cases m.mathImport with
  | some id => exact .pure id
  | none =>
    exact .bind nameless_freshId fun m => .bind (nameless_pushTo (by decide) (.short rfl)) fun _ =>
      .bind (.modify (fun _ _ => rfl) (fun _ => rfl) (fun _ => rfl) (fun _ => rfl) fun _ => rfl)
        fun _ => .pure _

/-! ### Types -/

lemma nameless_decorateBlock (struct : Id) (d : Decoration) :
    Nameless (decorateBlock struct d) := by
  refine .read (fun _ _ => rfl) fun m => ?_
  split
  · exact .pure ()
  · exact .bind (.modify (fun _ _ => rfl) (fun _ => rfl) (fun _ => rfl) (fun _ => rfl) fun _ => rfl)
      fun _ => nameless_decorate _ _ (by simp)

lemma nameless_decorateType (id : Id) (key : TypeKey) : Nameless (decorateType id key) :=
  (nameless_adorns id).decorateType fun _ _ _ _ => nameless_decorateBlock _ _

/-- What declares a type is open-ended or short. -/
def Declarator.Regular (d : Declarator) :
    Prop := ∀ id : Id, Instruction.Regular ⟨d.opcode, .id id :: d.operands⟩

lemma nameless_internType (key : TypeKey) (hd : Nameless declarator)
    (hregular : ∀ m, (declarator m).1.Regular) : Nameless (internType key declarator) := by
  refine .read (fun _ _ => rfl) fun m => ?_
  cases m.types.lookup key with
  | some id => exact .pure id
  | none =>
    exact .bind hd fun m => .bind nameless_freshId fun _ =>
      .bind (nameless_pushTo (by decide) (hregular m _)) fun _ =>
        .bind (nameless_decorateType _ _) fun _ => .bind (.modify (fun _ _ => rfl) (fun _ => rfl)
          (fun _ => rfl) (fun _ => rfl) fun _ => rfl)
        fun _ => .pure _

lemma nameless_scalarType (scalar : Scalar) : Nameless (scalarType scalar) := by
  refine nameless_internType _ ?_ fun m id => ?_
  · cases widthCapability? scalar with
    | none => exact .pure _
    | some c => exact .bind (nameless_requireCapability c) fun _ => .pure _
  · have hscalar : (scalarDeclarator scalar).Regular := by
      intro id
      unfold scalarDeclarator
      split <;> exact .short rfl
    cases hc : widthCapability? scalar with
    | none => exact hscalar id
    | some c => exact hscalar id

lemma nameless_vectorType (scalar : Scalar) (size : UInt32) : Nameless (vectorType scalar size) :=
  nameless_internType _ (.bind (nameless_scalarType scalar) fun _ => .pure _) fun _ _ => .short rfl

lemma nameless_matrixType (columns rows : UInt32) (scalar : Scalar) :
    Nameless (matrixType columns rows scalar) :=
  nameless_internType _ (.bind (nameless_vectorType scalar rows) fun _ => .pure _)
    fun _ _ => .short rfl

lemma nameless_voidType : Nameless voidType := nameless_internType _ (.pure _) fun _ _ => .short rfl

lemma nameless_pointerType (storage : StorageClass) (pointee : Id) :
    Nameless (pointerType storage pointee) :=
  nameless_internType _ (.pure _) fun _ _ => .short rfl

/-! ### Constants -/

lemma regular_constantInstruction (type id : Id) (value : ConstantValue) :
    (constantInstruction type id value).Regular := by
  cases value with
  | composite parts => exact .inl rfl
  | bool value => cases value <;> exact .short rfl
  | _ => exact .short rfl

lemma nameless_constant (type : Id) (value : ConstantValue) : Nameless (constant type value) := by
  refine .read (fun _ _ => rfl) fun m => .read (fun _ _ => rfl) fun m' => ?_
  cases m'.constants.lookup ⟨type, m.normalize value⟩ with
  | some id => exact .pure id
  | none =>
    exact .bind nameless_freshId fun _ =>
      .bind (nameless_pushTo (by decide) (regular_constantInstruction _ _ _)) fun _ =>
        .bind (.modify (fun _ _ => rfl) (fun _ => rfl) (fun _ => rfl) (fun _ => rfl) fun _ => rfl)
        fun _ => .pure _

lemma nameless_nullConstant (type : Id) : Nameless (nullConstant type) := nameless_constant _ _

lemma nameless_indexConstant (value : UInt32) : Nameless (indexConstant value) :=
  .bind (nameless_scalarType _) fun _ => nameless_constant _ _

lemma regular_specializationInstruction (type id : Id) (value : ConstantValue) :
    (specializationInstruction type id value).Regular := by
  cases value with
  | bool value => cases value <;> exact .short rfl
  | _ => exact .short rfl

lemma nameless_specialization (literal : Literal) : Nameless (specialization literal) :=
  .bind (nameless_scalarType _) fun _ => .bind nameless_freshId fun _ =>
    .bind (nameless_pushTo (by decide) (regular_specializationInstruction _ _ _)) fun _ =>
      .bind (.modify (fun _ _ => rfl) (fun _ => rfl) (fun _ => rfl) (fun _ => rfl) fun _ => rfl)
        fun _ => .pure _

/-! ### Types by their keys -/

lemma nameless_arrayType (element : Id) (length stride : UInt32) :
    Nameless (arrayType element length stride) :=
  nameless_internType _ (.bind (nameless_indexConstant length) fun _ => .pure _)
    fun _ _ => .short rfl

lemma nameless_typeId (key : TypeKey) : Nameless (typeId key) := by
  cases key with
  | void => exact nameless_voidType
  | scalar scalar => exact nameless_scalarType scalar
  | vector scalar size => exact nameless_vectorType scalar size
  | matrix columns rows scalar => exact nameless_matrixType columns rows scalar
  | array element length stride => exact nameless_arrayType element length stride
  | runtimeArray element stride => exact nameless_internType _ (.pure _) fun _ _ => .short rfl
  | struct layout => exact nameless_internType _ (.pure _) fun _ _ => .inl rfl
  | pointer storage pointee => exact nameless_pointerType storage pointee
  | function result parameters => exact nameless_internType _ (.pure _) fun _ _ => .inl rfl

/-! ### Steps of construction -/

/-- What is left of a step of construction without names. -/
def eraseNames {α : Type} (silent : Bool) :
    EStateM.Result Fault Module α → EStateM.Result Fault Module α
  | .ok value m => .ok value (m.nameless silent)
  | .error fault m => .error fault (m.nameless silent)

/-- The module that a step of construction leads to. -/
def reached {α : Type} : EStateM.Result Fault Module α → Module
  | .ok _ m => m
  | .error _ m => m

/-- A step of construction that does not depend on names and entry points. -/
structure NamelessStep {α : Type} (act : BuildM α) : Prop where
  erase : ∀ silent m, act (m.nameless silent) = eraseNames silent (act m)
  neat : ∀ m, m.Neat → (reached (act m)).Neat
  kept : ∀ m, (reached (act m)).debugNames = m.debugNames ∧
    (reached (act m)).sections.entryPoints = m.sections.entryPoints

lemma Nameless.step {act : DeclareM α} (h : Nameless act) :
    NamelessStep (liftM act : BuildM α) where
  erase silent m := by
    show EStateM.Result.ok (act (m.nameless silent)).1 (act (m.nameless silent)).2 =
      .ok (act m).1 ((act m).2.nameless silent)
    rw [h.erase]
  neat := h.neat
  kept := h.kept

lemma Module.Neat.withDraft (hm : m.Neat) {draft : Option Draft} (h : ∀ d ∈ draft, d.Neat) :
    Module.Neat { m with draft } :=
  ⟨hm.sections, hm.functions, h, hm.names, hm.silent⟩

lemma namelessStep_openFunction {head : FunctionHead} (hlocals : head.locals = #[]) :
    NamelessStep (openFunction head) where
  erase silent m := by
    have hdraft : (m.nameless silent).draft = m.draft := rfl
    unfold openFunction
    rw [hdraft]
    cases m.draft <;> rfl
  neat m hm := by
    unfold openFunction
    cases m.draft with
    | some _ => exact hm
    | none =>
      refine hm.withDraft fun d hd => ?_
      cases hd
      exact ⟨by simp [hlocals], by simp, by simp, by simp⟩
  kept m := by
    unfold openFunction
    cases m.draft <;> exact ⟨rfl, rfl⟩

lemma namelessStep_onDraft {change : Draft → Except Inconsistency Draft}
    (h : ∀ d d', change d = .ok d' → d.Neat → d'.Neat) : NamelessStep (onDraft change) where
  erase silent m := by
    have hdraft : (m.nameless silent).draft = m.draft := rfl
    unfold onDraft
    rw [hdraft]
    cases m.draft with
    | none => rfl
    | some d =>
      dsimp only
      cases change d <;> rfl
  neat m hm := by
    unfold onDraft
    cases hd : m.draft with
    | none => exact hm
    | some d =>
      dsimp only
      cases hchange : change d with
      | error => exact hm
      | ok d' =>
        refine hm.withDraft fun e he => ?_
        cases he
        exact h d d' hchange (hm.draft d hd)
  kept m := by
    unfold onDraft
    cases m.draft with
    | none => exact ⟨rfl, rfl⟩
    | some d =>
      dsimp only
      cases change d <;> exact ⟨rfl, rfl⟩

lemma namelessStep_beginBlock (label : Id) : NamelessStep (beginBlock label) := by
  refine namelessStep_onDraft fun d d' h hd => ?_
  unfold Draft.beginBlock at h
  split at h
  · cases h
  · cases h
    exact ⟨hd.locals, hd.bodies, hd.terminators, by simp⟩

lemma Draft.Neat.terminate {d d' : Draft} (h : d.terminate i = .ok d') (hd : d.Neat)
    (hi : i.Regular) :
    d'.Neat := by
  unfold Draft.terminate at h
  split at h
  · rename_i block hblock
    cases h
    refine ⟨hd.locals, fun b hb => ?_, fun b hb => ?_, nofun⟩
    · obtain hb | rfl := Array.mem_push.1 hb
      · exact hd.bodies b hb
      · exact hd.current block hblock
    · obtain hb | rfl := Array.mem_push.1 hb
      · exact hd.terminators b hb
      · exact hi
  · cases h

lemma namelessStep_terminate (hi : i.Regular) : NamelessStep (Assembly.terminate i) :=
  namelessStep_onDraft fun _ _ h hd => hd.terminate h hi

lemma namelessStep_pushInstruction (hi : i.Regular) : NamelessStep (pushInstruction i) := by
  refine namelessStep_onDraft fun d d' h hd => ?_
  unfold Draft.push at h
  split at h
  · exact hd.terminate h hi
  · split at h
    · rename_i block
      cases h
      refine ⟨hd.locals, hd.bodies, hd.terminators, fun b hb j hj => ?_⟩
      cases hb
      obtain hj | rfl := Array.mem_push.1 hj
      · exact hd.current block rfl j hj
      · exact hi
    · cases h

lemma namelessStep_addVariable (hi : i.Regular) : NamelessStep (addVariable i) := by
  refine namelessStep_onDraft fun d d' h hd => ?_
  cases h
  refine ⟨fun j hj => ?_, hd.bodies, hd.terminators, hd.current⟩
  obtain hj | rfl := Array.mem_push.1 hj
  · exact hd.locals j hj
  · exact hi

lemma namelessStep_currentDraft : NamelessStep currentDraft where
  erase silent m := by
    have hdraft : (m.nameless silent).draft = m.draft := rfl
    unfold currentDraft
    rw [hdraft]
    cases m.draft <;> rfl
  neat m hm := by
    unfold currentDraft
    cases m.draft <;> exact hm
  kept m := by
    unfold currentDraft
    cases m.draft <;> exact ⟨rfl, rfl⟩

lemma FunctionHead.regular_instructions {head : FunctionHead}
    (hlocals : ∀ i ∈ head.locals, i.Regular)
    (hblocks : ∀ b ∈ blocks, ∀ i ∈ b, i.Regular) : ∀ i ∈ head.instructions blocks, i.Regular := by
  intro i hi
  obtain rfl | hi := mem_cons.1 hi
  · exact .short rfl
  · obtain hi | hi := mem_append.1 hi
    · obtain ⟨parameter, -, rfl⟩ := mem_map.1 hi
      exact .short rfl
    · have hflat : ∀ bs : List (List Instruction), (∀ b ∈ bs, b ∈ blocks) → i ∈ bs.flatten →
        i.Regular := by
        intro bs hbs hi
        obtain ⟨b, hb, hi⟩ := mem_flatten.1 hi
        exact hblocks b (hbs b hb) i hi
      split at hi
      · rename_i label code rest _ _
        obtain hi | hi := mem_append.1 hi
        · obtain hi | hi := mem_append.1 hi
          · obtain rfl | hi := mem_cons.1 hi
            · exact hblocks (i :: code) mem_cons_self i mem_cons_self
            · exact hlocals i (Array.mem_toList_iff.1 hi)
          · exact hblocks (label :: code) mem_cons_self i (mem_cons_of_mem _ hi)
        · exact hflat rest (fun b hb => mem_cons_of_mem _ hb) hi
      · exact hflat blocks (fun _ hb => hb) hi

lemma Draft.Neat.finish {d : Draft} {f : Function} (h : d.finish = .ok f) (hd : d.Neat) :
    ∀ i ∈ f.instructions, i.Regular := by
  unfold Draft.finish at h
  split at h
  · cases h
  · split at h
    · cases h
    · cases h
      refine FunctionHead.regular_instructions hd.locals fun b hb i hi => ?_
      obtain ⟨block, hblock, rfl⟩ := mem_map.1 hb
      have hblock : block ∈ d.closed := Array.mem_toList_iff.1 hblock
      obtain rfl | hi := mem_cons.1 hi
      · exact .short rfl
      · obtain hi | hi := mem_append.1 hi
        · exact hd.bodies block hblock i (Array.mem_toList_iff.1 hi)
        · obtain rfl := mem_singleton.1 hi
          exact hd.terminators block hblock

lemma namelessStep_closeFunction : NamelessStep closeFunction where
  erase silent m := by
    have hdraft : (m.nameless silent).draft = m.draft := rfl
    unfold closeFunction
    rw [hdraft]
    cases m.draft with
    | none => rfl
    | some d =>
      dsimp only
      cases d.finish <;> rfl
  neat m hm := by
    unfold closeFunction
    cases hd : m.draft with
    | none => exact hm
    | some d =>
      dsimp only
      cases hfinish : d.finish with
      | error => exact hm.withDraft nofun
      | ok f =>
        refine ⟨hm.sections, fun e he => ?_, nofun, hm.names, hm.silent⟩
        obtain he | rfl := Array.mem_push.1 he
        · exact hm.functions e he
        · exact (hm.draft d hd).finish hfinish
  kept m := by
    unfold closeFunction
    cases m.draft with
    | none => exact ⟨rfl, rfl⟩
    | some d =>
      dsimp only
      cases d.finish <;> exact ⟨rfl, rfl⟩

/-! ### Finished modules -/

lemma Module.Neat.instructions (hm : m.Neat) : ∀ i ∈ m.instructions, i.Regular := by
  intro i hi
  obtain hi | hi := mem_append.1 hi
  · obtain ⟨s, -, hi⟩ := mem_flatMap.1 hi
    exact hm.sections s i (Array.mem_toList_iff.1 hi)
  · obtain ⟨f, hf, hi⟩ := mem_flatMap.1 hi
    obtain hi | hi := mem_append.1 hi
    · exact hm.functions f (Array.mem_toList_iff.1 hf) i hi
    · obtain rfl := mem_singleton.1 hi
      exact .short rfl

end Shader.Assembly
