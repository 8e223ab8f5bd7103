import Mathlib.Tactic.Lemma
import Shader.Assembly.Function

/-!
# What instructions define and use

An instruction lists its operands in encoding order.  Some of its ids are not operands in the
usual sense: one is the result that the instruction defines, the others are uses.  Besides the
ids, the kind of an instruction matters: the *effects* change memory or synchronise, the *reads*
look at it, the rest of the instructions with a result are *plain*.

The code of a function under construction is the list of all instructions of its blocks, with
labels and terminators, in the order they were emitted.
-/

namespace Shader.Assembly

open List

variable {op : Opcode} {i : Instruction}

/-! ### Kinds of opcodes -/

namespace Opcode

/-- The opcodes of instructions without a result. -/
def resultless : List Opcode :=
  terminators ++ [name, memberName, memoryModel, entryPoint, executionMode, capability,
      functionEnd, store, decorate, memberDecorate, controlBarrier, atomicStore, loopMerge,
      selectionMerge]

/-- The opcodes of instructions whose result has no type and comes first. -/
def untyped : List Opcode :=
  [label, extInstImport, typeVoid, typeBool, typeInt, typeFloat, typeVector, typeMatrix, typeArray,
    typeRuntimeArray, typeStruct, typePointer, typeFunction]

/-- The opcodes with side effects. -/
def effects : List Opcode :=
  [store, atomicStore, functionCall, controlBarrier, atomicExchange, atomicCompareExchange,
    atomicIAdd, atomicISub, atomicSMin, atomicUMin, atomicSMax, atomicUMax, atomicAnd, atomicOr,
    atomicXor]

/-- The opcodes that look at memory and leave it as it is. -/
def reads : List Opcode := [load, atomicLoad]

def isEffect (op : Opcode) : Bool := effects.contains op

def isRead (op : Opcode) : Bool := reads.contains op

/-- The result of the instruction has a type, which comes before it. -/
def isTyped (op : Opcode) : Bool := !resultless.contains op && !untyped.contains op

/-- The instruction computes a value from its operands and nothing else. -/
def isPlain (op : Opcode) : Bool := op.isTyped && !op.isEffect && !op.isRead && op != phi

/-- The instruction computes a value from its operands and from memory. -/
def isValue (op : Opcode) : Bool := op.isPlain || op.isRead

/-- Where the result id stands among the operands. -/
def resultPosition? (op : Opcode) : Option Nat :=
  if resultless.contains op then none else if untyped.contains op then some 0 else some 1

lemma isTyped_of_isPlain (h : op.isPlain) : op.isTyped := by
  simp only [isPlain, Bool.and_eq_true] at h
  exact h.1.1.1

lemma resultPosition?_of_isTyped (h : op.isTyped) : op.resultPosition? = some 1 := by
  simp only [isTyped, Bool.and_eq_true, Bool.not_eq_true'] at h
  obtain ⟨h₁, h₂⟩ := h
  simp only [resultPosition?, h₁, h₂]
  rfl

lemma not_isTerminator_of_isTyped (h : op.isTyped) : op.isTerminator = false := by
  simp only [isTyped, resultless, Bool.and_eq_true, Bool.not_eq_true', contains_eq_mem,
    mem_append, decide_eq_false_iff_not, not_or] at h
  simp only [isTerminator, contains_eq_mem, decide_eq_false_iff_not]
  exact h.1.1

end Opcode

/-! ### Definitions and uses -/

/-- The id that an operand is. -/
def Operand.id? : Operand → Option Id
  | .id target => some target
  | .word _ | .text _ => none

namespace Instruction

def isEffect (i : Instruction) : Bool := i.opcode.isEffect

def isRead (i : Instruction) : Bool := i.opcode.isRead

/-- The id that an instruction defines; a label defines itself. -/
def result? (i : Instruction) : Option Id :=
  match i.opcode.resultPosition? with
  | none => none
  | some position => i.operands[position]?.bind Operand.id?

/-- The ids among the operands of an instruction, without its result. -/
def uses (i : Instruction) : List Id :=
  match i.opcode.resultPosition? with
  | none => i.operands.filterMap Operand.id?
  | some position => (i.operands.eraseIdx position).filterMap Operand.id?

lemma result?_result (h : op.isTyped) (type id : Id) (operands : List Operand) :
    (result op type id operands).result? = some id := by
  simp only [result?, result, Opcode.resultPosition?_of_isTyped h]
  rfl

lemma uses_result (h : op.isTyped) (type id : Id) (operands : List Operand) :
    (result op type id operands).uses = type :: operands.filterMap Operand.id? := by
  simp only [uses, result, Opcode.resultPosition?_of_isTyped h]
  rfl

lemma result?_eq_none (h : Opcode.resultless.contains i.opcode) : i.result? = none := by
  simp only [result?, Opcode.resultPosition?, h]
  rfl

lemma uses_of_resultless (h : Opcode.resultless.contains i.opcode) :
    i.uses = i.operands.filterMap Operand.id? := by
  simp only [uses, Opcode.resultPosition?, h]
  rfl

section

variable (h : Opcode.untyped.contains op)
include h

lemma resultPosition?_of_untyped : op.resultPosition? = some 0 := by
  have hall : ∀ op ∈ Opcode.untyped, Opcode.resultless.contains op = false := by decide
  have hresult := hall op (contains_iff_mem.1 h)
  simp only [Opcode.resultPosition?, hresult, h]
  rfl

lemma result?_untyped (id : Id) (operands : List Operand) :
    (Instruction.mk op (.id id :: operands)).result? = some id := by
  simp only [result?, resultPosition?_of_untyped h]
  rfl

lemma uses_untyped (id : Id) (operands : List Operand) :
    (Instruction.mk op (.id id :: operands)).uses = operands.filterMap Operand.id? := by
  simp only [uses, resultPosition?_of_untyped h]
  rfl

end

end Instruction

lemma Operand.filterMap_id?_ids (ids : List Id) : (Operand.ids ids).filterMap id? = ids := by
  induction ids with
  | nil => rfl
  | cons id ids ih => exact congrArg (id :: ·) ih

lemma Operand.filterMap_id?_words (words : List UInt32) :
    (Operand.words words).filterMap id? = [] := by
  induction words with
  | nil => rfl
  | cons word words ih => exact ih

/-! ### The ids of control flow -/

section

variable (c l l' : Id)

@[simp] lemma Instruction.ids_branch : (branch l).operands.filterMap Operand.id? = [l] := rfl

@[simp] lemma Instruction.ids_branchConditional :
    (branchConditional c l l').operands.filterMap Operand.id? = [c, l, l'] := rfl

@[simp] lemma Instruction.ids_selectionMerge :
    (selectionMerge l).operands.filterMap Operand.id? = [l] := rfl

@[simp] lemma Instruction.ids_loopMerge :
    (loopMerge l l').operands.filterMap Operand.id? = [l, l'] := rfl

@[simp] lemma Instruction.ids_ret : ret.operands.filterMap Operand.id? = [] := rfl

@[simp] lemma Instruction.ids_returnValue :
    (returnValue c).operands.filterMap Operand.id? = [c] := rfl

@[simp] lemma Instruction.ids_kill : kill.operands.filterMap Operand.id? = [] := rfl

end

/-- The ids that a list of instructions defines, in order. -/
def definitions (code : List Instruction) : List Id := code.filterMap Instruction.result?

@[simp] lemma definitions_nil : definitions [] = [] := rfl

@[simp] lemma definitions_append (a b : List Instruction) :
    definitions (a ++ b) = definitions a ++ definitions b := filterMap_append

lemma definitions_cons (i : Instruction) (code : List Instruction) :
    definitions (i :: code) = i.result?.toList ++ definitions code := by
  simp only [definitions, filterMap_cons]
  cases i.result? <;> rfl

lemma definitions_result (h : op.isTyped) (type id : Id) (operands : List Operand) :
    definitions [.result op type id operands] = [id] := by
  rw [definitions_cons, Instruction.result?_result h]
  rfl

lemma definitions_of_resultless (h : Opcode.resultless.contains i.opcode) :
    definitions [i] = [] := by
  rw [definitions_cons, Instruction.result?_eq_none h]
  rfl

@[simp] lemma definitions_label (label : Id) : definitions [.label label] = [label] := rfl

/-- The results of the instructions of a list that are not labels, in order. -/
def results (code : List Instruction) :
    List Id := definitions (code.filter fun i => i.opcode != .label)

@[simp] lemma results_nil : results [] = [] := rfl

@[simp] lemma results_append (a b : List Instruction) :
    results (a ++ b) = results a ++ results b := by
  simp only [results, filter_append, definitions_append]

lemma results_result (h : op.isTyped) (type id : Id) (operands : List Operand) :
    results [.result op type id operands] = [id] := by
  have hlabel : (op != .label) = true := by
    rw [bne_iff_ne]
    rintro rfl
    cases h
  simp only [results, filter_cons, Instruction.result, hlabel, if_true, filter_nil]
  exact definitions_result h type id operands

lemma results_of_resultless (h : Opcode.resultless.contains i.opcode) : results [i] = [] := by
  unfold results
  rw [filter_cons]
  split
  · exact definitions_of_resultless h
  · rfl

lemma mem_definitions_of_mem_results (h : u ∈ results code) : u ∈ definitions code :=
  (filter_sublist.filterMap _).subset h

/-- How many effects a list of instructions has. -/
def effectCount (code : List Instruction) : Nat := code.countP Instruction.isEffect

@[simp] lemma effectCount_append (a b : List Instruction) :
    effectCount (a ++ b) = effectCount a + effectCount b := countP_append

/-! ### The code of a function -/

/-- The instructions of the blocks of a draft, in order. -/
def Draft.code (d : Draft) : List Instruction :=
  d.closed.toList.flatMap Block.instructions ++ d.current.toList.flatMap OpenBlock.instructions

/-- The instructions of the blocks of a function, in order. -/
def Function.code (f : Function) : List Instruction := f.blocks.toList.flatMap Block.instructions

end Shader.Assembly
