import Shader.Assembly.Enumerant
import Shader.Assembly.Opcode

/-!
# Ids, operands and instructions

An instruction is an opcode with its operands in encoding order, result type and result id
included.
-/

namespace Shader.Assembly

/-- A result id. -/
structure Id where
  number : Nat
deriving DecidableEq, Repr

def Id.text (id : Id) : String := s!"%{id.number}"

inductive Operand where
  /-- A type, value, label or function. -/
  | id (id : Id)
  /-- An integer, enumerant, mask or the bits of a float. -/
  | word (value : UInt32)
  | text (value : String)
deriving DecidableEq, Repr

namespace Operand

/-- Operands that are all ids. -/
def ids (ids : List Id) : List Operand := ids.map .id

/-- Operands that are all words. -/
def words (words : List UInt32) : List Operand := words.map .word

end Operand

structure Instruction where
  opcode : Opcode
  operands : List Operand := []
deriving DecidableEq, Repr

namespace Instruction

open Operand

def isTerminator (i : Instruction) : Bool := i.opcode.isTerminator

/-- An instruction with a result type and a result id in front of its operands. -/
def result (op : Opcode) (type id : Id) (operands : List Operand) : Instruction :=
  ⟨op, .id type :: .id id :: operands⟩

/-! ### Control flow -/

def label (id : Id) : Instruction := ⟨.label, [.id id]⟩

def branch (target : Id) : Instruction := ⟨.branch, [.id target]⟩

def branchConditional (condition accept reject : Id) : Instruction :=
  ⟨.branchConditional, ids [condition, accept, reject]⟩

def selectionMerge (merge : Id) : Instruction := ⟨.selectionMerge, [.id merge, .word noControl]⟩

def loopMerge (merge continuing : Id) : Instruction :=
  ⟨.loopMerge, [.id merge, .id continuing, .word noControl]⟩

def ret : Instruction := ⟨.return, []⟩

def returnValue (value : Id) : Instruction := ⟨.returnValue, [.id value]⟩

def kill : Instruction := ⟨.kill, []⟩

/-! ### Memory and composites -/

def load (type id pointer : Id) : Instruction := result .load type id [.id pointer]

def store (pointer value : Id) : Instruction := ⟨.store, ids [pointer, value]⟩

def «variable» (pointerType id : Id) (storage : StorageClass) (init : Option Id) : Instruction :=
  result .variable pointerType id (.word storage.word :: ids init.toList)

def accessChain (type id base : Id) (indices : List Id) : Instruction :=
  result .accessChain type id (.id base :: ids indices)

def compositeConstruct (type id : Id) (parts : List Id) : Instruction :=
  result .compositeConstruct type id (ids parts)

def compositeExtract (type id composite : Id) (indices : List UInt32) : Instruction :=
  result .compositeExtract type id (.id composite :: words indices)

/-! ### Annotations and names -/

def decorate (target : Id) (decoration : Decoration) (operands : List UInt32) : Instruction :=
  ⟨.decorate, .id target :: .word decoration.word :: words operands⟩

def memberDecorate (target : Id) (member : UInt32) (decoration : Decoration)
    (operands : List UInt32) : Instruction :=
  ⟨.memberDecorate, .id target :: .word member :: .word decoration.word :: words operands⟩

def name (target : Id) (name : String) : Instruction := ⟨.name, [.id target, .text name]⟩

def memberName (target : Id) (member : UInt32) (name : String) : Instruction :=
  ⟨.memberName, [.id target, .word member, .text name]⟩

end Instruction

end Shader.Assembly

namespace Shader

-- without this, `Id` outside of `Assembly` may be the identity monad as well
export Assembly (Id)

end Shader
