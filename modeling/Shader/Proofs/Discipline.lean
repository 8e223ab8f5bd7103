import Mathlib.Algebra.Group.Nat.Defs
import Shader.Proofs.Adherence
import Shader.Proofs.Module

/-!
# The ids of a module, and the faults of its emission

Every function that is emitted defines all ids that were issued for it.  So a module that is emitted
owes nothing in the end: the results of its instructions are all ids below its bound, each once, and
every id that an instruction mentions is one of them.

No step of emission is taken where the construction of the module does not allow it.  So the faults
for which a module is refused are never structural, whatever the program is.
-/

namespace Shader.Emit

open List Assembly
open Regime (plain)

/-! ### Modules -/

lemma ends_declareModule (env : Env) : Ends (declareModule env) (.initial env)
      (fun _ p => ∃ ids : Array Id, ids.size = env.module.functions.toList.length ∧
        p.Trying ids ids.toList)
      fun fault _ => fault.isStructural = false := by
  have hprogram : (plain env.module env.options True True).FitsProgram :=
    Regime.fitsProgram_plain trivial
  exact (Regime.ends_declareModule hprogram trivial env.depth).mono
    (fun _ _ => And.right) fun _ _ => id

lemma trying_attemptFunctions {env : Env} (hrun : declareModule env (.initial env) = .ok () p) :
    ∃ ids, (attemptFunctions env p).Trying ids [] := by
  have hprogram : (plain env.module env.options True True).FitsProgram :=
    Regime.fitsProgram_plain trivial
  obtain ⟨ids, hsize, hstart⟩ := Regime.attained_of_declareModule hprogram trivial trivial hrun
  exact ⟨ids, (Regime.attained_attemptFunctions hprogram _ hsize hstart).toTrying⟩

/-- While functions are tried, all that is declared was issued. -/
lemma Progress.Trying.bounded {p : Progress} {ids : Array Id} {left : List Id}
    (hp : p.Trying ids left) : p.Bounded := by
  obtain ⟨extra, hsound, -⟩ := hp.sound
  have hglobal : ∀ u, p.assembly.Global u → u.number < p.assembly.bound :=
    fun u hu => (hsound.assembly.issued_of_global hu).2
  rintro u ((hu | hu | hu | hu) | ⟨h, hu⟩ | ⟨h, hu⟩ | hu | ⟨place, hplace, hu⟩ | hu)
  · exact hglobal u (hsound.assembly.recorded u (.inl hu))
  · exact hglobal u (hsound.assembly.recorded u (.inr (.inl hu)))
  · exact hglobal u (hsound.assembly.recorded u (.inr (.inr hu)))
  · exact (hsound.assembly.imported u hu).2
  · exact hglobal u (hsound.types h u hu)
  · exact hglobal u (hsound.constants h u hu)
  · exact hglobal u (hsound.overrides u hu)
  · obtain ⟨hid, hcontents⟩ := hsound.globals place hplace
    rcases hu with rfl | hu
    · exact hglobal _ hid
    · exact hglobal u (hcontents u hu)
  · exact (hsound.functions u hu).2

/-- Whenever emission gets to a function, all that is declared was issued, even if functions before
it failed. -/
lemma bounded_attempts {env : Env} {p : Progress}
    (hrun : declareModule env (.initial env) = .ok () p) :
    (∀ n, ((env.module.functions.entries.take n).foldl (attemptHelper env) p).Bounded) ∧
    ∀ n, ((env.module.entryPoints.take n).foldl (attemptEntryPoint env)
      (env.module.functions.entries.foldl (attemptHelper env) p)).Bounded := by
  have hprogram : (plain env.module env.options True True).FitsProgram :=
    Regime.fitsProgram_plain trivial
  obtain ⟨ids, hsize, hstart⟩ := Regime.attained_of_declareModule hprogram trivial trivial hrun
  obtain ⟨hhelpers, hentries⟩ := Regime.attained_attempts hprogram env.depth hsize hstart
  refine ⟨fun n => ?_, fun n => (hentries n).toTrying.bounded⟩
  obtain ⟨left, hattained⟩ := hhelpers n
  exact hattained.toTrying.bounded

/-! ### Faults -/

/-- The faults that a failure consists of. -/
def Failure.faults : Failure → List Fault
  | declaration fault => [fault]
  | functions faults => faults.map FunctionFault.fault

/-- Whatever a program is like, the faults for which it has no code are never structural: no
instruction is emitted outside a block, no block is begun inside another, no function is finished
inside a block or without one, every construct that is left was entered, short circuits find their
blocks, scalars are spread over vectors only, and every input of a struct knows its member. -/
theorem faults_not_structural {m : IR.Module} {options : Options} {failure : Failure}
    (hrun : words m options = .error failure) :
    ∀ fault ∈ failure.faults, fault.isStructural = false := by
  have hassemble : assemble m options = .error failure := by
    unfold words at hrun
    cases hassembly : assemble m options with
    | error other =>
      rw [hassembly] at hrun
      cases hrun
      rfl
    | ok assembly =>
      rw [hassembly] at hrun
      cases hrun
  unfold assemble assembleIn at hassemble
  split at hassemble
  case h_1 fault p hdeclare =>
    obtain rfl := Except.error.inj hassemble
    have hends := ends_declareModule (.of m options)
    unfold Ends at hends
    rw [hdeclare] at hends
    exact List.forall_mem_singleton.2 hends
  case h_2 p hdeclare =>
    obtain ⟨ids, htrying⟩ := trying_attemptFunctions hdeclare
    dsimp only at hassemble
    split at hassemble
    · cases hassemble
    · obtain rfl := Except.error.inj hassemble
      intro fault hfault
      obtain ⟨f, hf, rfl⟩ := List.mem_map.1 hfault
      exact htrying.faults f (Array.mem_toList_iff.1 hf)

/-- A function that breaks out of nothing, and one that continues a loop that has ended. -/
def strayBreak : IR.Module where
  functions := ⟨#[{ name := some "stray", body := [.break] },
    { name := some "looping",
      body := [.loop [.break, .kill] [.continue] none, .return none, .continue] }]⟩

theorem faults_not_structural_strayBreak :
    words strayBreak {} = .error (.functions [⟨"stray", .construction .noTarget⟩,
      ⟨"looping", .construction .noTarget⟩]) ∧
    (Fault.construction .noTarget).isStructural = false := by
  have hrun : words strayBreak {} = .error (.functions [⟨"stray", .construction .noTarget⟩,
      ⟨"looping", .construction .noTarget⟩]) := by decide +kernel
  exact ⟨hrun, faults_not_structural hrun _ List.mem_cons_self⟩

/-! ### Ids -/

end Shader.Emit

namespace Shader.Assembly

open List

variable {m : Module} {i j : Instruction} {u : Id} {code : List Instruction}

/-- Every id is defined once and within bounds, declarations come after what they are made of, and
whatever an instruction mentions is defined by some instruction. -/
structure Module.Disciplined (m : Module) : Prop where
  once : (definitions m.instructions).Nodup
  bounded : ∀ u ∈ definitions m.instructions, 1 ≤ u.number ∧ u.number < m.bound
  increasing : (definitions m.sections.globals.toList).Pairwise (·.number < ·.number)
  declared : ∀ before i after, m.sections.globals.toList = before ++ i :: after →
    ∀ u, .id u ∈ i.operands → i.result? = some u ∨ u ∈ definitions before
  defined : ∀ i ∈ m.instructions, ∀ u, .id u ∈ i.operands → u ∈ definitions m.instructions

lemma Module.Disciplined.declaration_unique (h : m.Disciplined) (hi : i ∈ m.declarations)
    (hj : j ∈ m.declarations) (hiu : i.result? = some u) (hju : j.result? = some u) : i = j := by
  have hless := pairwise_iff_getElem.1 (pairwise_filterMap.1 h.increasing)
  obtain ⟨k, hk, rfl⟩ := getElem_of_mem hi
  obtain ⟨n, hn, rfl⟩ := getElem_of_mem hj
  rcases Nat.lt_trichotomy k n with hlt | rfl | hlt
  · exact absurd (hless k n hk hn hlt u hiu u hju) (Nat.lt_irrefl _)
  · rfl
  · exact absurd (hless n k hn hk hlt u hju u hiu) (Nat.lt_irrefl _)

lemma Instruction.mem_uses_of_mem_operands (h : .id u ∈ i.operands) :
    i.result? = some u ∨ u ∈ i.uses := by
  unfold result? uses
  split
  · exact .inr (mem_filterMap.2 ⟨_, h, rfl⟩)
  case h_2 position hposition =>
    obtain ⟨n, hn⟩ := mem_iff_getElem?.1 h
    by_cases heq : n = position
    · rw [← heq, hn]
      exact .inl rfl
    · exact .inr (mem_filterMap.2 ⟨_, mem_eraseIdx_iff_getElem?.2 ⟨n, heq, hn⟩, rfl⟩)

lemma InOrder.increasing (h : InOrder code) :
    (definitions code).Pairwise (·.number < ·.number) := by
  induction h with
  | nil => exact .nil
  | snoc _ hresult hgreater _ ih =>
    rw [definitions_append, definitions_cons, hresult]
    refine pairwise_append.2 ⟨ih, pairwise_singleton _ _, fun v hv w hw => ?_⟩
    obtain rfl := mem_singleton.1 hw
    exact hgreater v hv

lemma InOrder.declared (h : InOrder code) :
    ∀ before i after, code = before ++ i :: after → ∀ u ∈ i.uses, u ∈ definitions before := by
  induction h with
  | nil =>
    intro before i after hcode
    exact absurd hcode.symm (by simp)
  | snoc _ hresult _ huses ih =>
    intro before i after hcode u hu
    rcases eq_nil_or_concat after with rfl | ⟨rest, last, rfl⟩
    · obtain ⟨rfl, hlast⟩ := append_inj' hcode rfl
      obtain rfl := (cons.inj hlast).1
      exact huses u hu
    · rw [concat_eq_append, ← cons_append, ← append_assoc] at hcode
      obtain ⟨hrest, -⟩ := append_inj' hcode rfl
      exact ih before i rest hrest u hu

lemma Module.definitions_instructions (hdraft : m.draft = none) :
    definitions m.instructions = definitions m.all := by
  rw [Module.all_of_no_draft hdraft]
  simp only [Module.instructions, Module.settled, definitions_append]
  refine congrArg _ ?_
  induction m.functions.toList with
  | nil => rfl
  | cons f fs ih =>
    simp only [flatMap_cons, definitions_append, ih]
    rw [definitions_of_resultless rfl, append_nil]

lemma Module.mem_all_of_mem_instructions (hdraft : m.draft = none) (hi : i ∈ m.instructions) :
    i ∈ m.all ∨ i = ⟨.functionEnd, []⟩ := by
  rw [Module.all_of_no_draft hdraft]
  rcases mem_append.1 hi with hi | hi
  · exact .inl (mem_append_left _ hi)
  · obtain ⟨f, hf, hi⟩ := mem_flatMap.1 hi
    rcases mem_append.1 hi with hi | hi
    · exact .inl (mem_append_right _ (mem_flatMap.2 ⟨f, hf, hi⟩))
    · exact .inr (mem_singleton.1 hi)

lemma Module.Sound.disciplined (h : m.Sound []) (hdraft : m.draft = none) : m.Disciplined := by
  have hperm : (definitions m.instructions).Perm (idsBelow m.bound) := by
    rw [Module.definitions_instructions hdraft]
    simpa using h.numbered
  refine ⟨hperm.nodup_iff.2 (nodup_idsBelow _), fun u hu => mem_idsBelow.1 (hperm.mem_iff.1 hu),
    h.inOrder.increasing, fun before i after hglobals u hu => ?_, fun i hi u hu => ?_⟩
  · exact (Instruction.mem_uses_of_mem_operands hu).imp id (h.inOrder.declared before i
      after hglobals u)
  · rcases Instruction.mem_uses_of_mem_operands hu with hresult | huse
    · exact mem_filterMap.2 ⟨i, hi, hresult⟩
    · rcases Module.mem_all_of_mem_instructions hdraft hi with hall | rfl
      · exact hperm.mem_iff.2 (mem_idsBelow.2 (h.issued i hall u huse))
      · cases hu

end Shader.Assembly

namespace Shader.Emit

open List
open Assembly (definitions)

lemma disciplined_of_assemble (hrun : assemble m options = .ok assembly) :
    assembly.Disciplined := by
  unfold assemble assembleIn at hrun
  split at hrun
  case h_1 => cases hrun
  case h_2 p hdeclare =>
    obtain ⟨ids, htrying⟩ := trying_attemptFunctions hdeclare
    dsimp only at hrun
    split at hrun
    case isTrue hempty =>
      cases hrun
      obtain ⟨extra, hsound, hextra⟩ := htrying.sound
      rw [hextra (Array.isEmpty_iff.1 hempty)] at hsound
      exact hsound.assembly.disciplined htrying.draft
    case isFalse => cases hrun

/-- In every module that is emitted, each id is defined exactly once, from one up to below the bound
that stands in the header; the declarations are in increasing order and use earlier ones only; and
every id that any instruction mentions is the result of an instruction. -/
theorem ids_disciplined {m : IR.Module} {options : Options} {ws : List UInt32}
    (hrun : words m options = .ok ws) :
    ∃ assembly, assemble m options = .ok assembly ∧
      ws = assembly.encode options.version options.generator ∧ assembly.Disciplined ∧
      ws[3]? = some (UInt32.ofNat assembly.bound) ∧
      (assembly.bound < 2 ^ 32 → ∀ u ∈ definitions assembly.instructions,
        1 ≤ UInt32.ofNat u.number ∧ UInt32.ofNat u.number < UInt32.ofNat assembly.bound) := by
  obtain ⟨assembly, hassembly, rfl⟩ := words_eq_ok.1 hrun
  have hdisciplined := disciplined_of_assemble hassembly
  refine ⟨assembly, hassembly, rfl, hdisciplined, rfl, fun hbound u hu => ?_⟩
  obtain ⟨hpositive, hlt⟩ := hdisciplined.bounded u hu
  have hu32 : u.number < 2 ^ 32 := Nat.lt_trans hlt hbound
  rw [UInt32.le_iff_toNat_le, UInt32.lt_iff_toNat_lt, UInt32.toNat_ofNat_of_lt' hu32,
    UInt32.toNat_ofNat_of_lt' hbound]
  exact ⟨hpositive, hlt⟩

/-- An entry point that calls a helper function, which clamps a value and stores it in a buffer. -/
def clampToBuffer : IR.Module where
  types := .ofList [⟨none, .scalar ⟨.float, 4⟩⟩, ⟨none, .pointer ⟨0⟩ (.storage ⟨true, true⟩)⟩]
  globals := ⟨#[⟨some "buffer", .storage ⟨true, true⟩, some ⟨0, 0⟩, ⟨0⟩, none⟩]⟩
  functions := ⟨#[{
    name := some "clamp"
    arguments := [⟨some "value", ⟨0⟩, none⟩]
    expressions := ⟨⟨#[.argument 0, .math .saturate ⟨0⟩ none none, .globalVariable ⟨0⟩]⟩,
    #[⟨0⟩, ⟨0⟩, ⟨1⟩]⟩
    body := [.emit ⟨0, 3⟩, .store ⟨2⟩ ⟨1⟩] }]⟩
  entryPoints := [{
    name := "main", stage := .compute, workgroupSize := (1, 1, 1)
    function := {
      expressions := ⟨⟨#[.literal (.f32 0x3f000000)]⟩, #[⟨0⟩]⟩
      body := [.call ⟨0⟩ [⟨0⟩] none] } }]

theorem ids_disciplined_clampToBuffer : ∃ ws, words clampToBuffer {} = .ok ws ∧
    ∃ assembly, assemble clampToBuffer {} = .ok assembly ∧ ws = assembly.encode ⟨1, 3⟩ 0 ∧
      assembly.Disciplined ∧ ws[3]? = some (UInt32.ofNat assembly.bound) ∧
      (assembly.bound < 2 ^ 32 → ∀ u ∈ definitions assembly.instructions,
        1 ≤ UInt32.ofNat u.number ∧ UInt32.ofNat u.number < UInt32.ofNat assembly.bound) := by
  have hsome : (words clampToBuffer {}).toOption.isSome = true := by decide +kernel
  cases hrun : words clampToBuffer {} with
  | error failure =>
    rw [hrun] at hsome
    cases hsome
  | ok ws => exact ⟨ws, rfl, ids_disciplined hrun⟩

end Shader.Emit
