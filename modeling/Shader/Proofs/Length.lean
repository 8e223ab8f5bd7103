import Shader.Proofs.Decoding

/-!
# Lengths of instructions

The first word of an instruction has sixteen bits for its length.  Most instructions are short,
whatever the program is like.  Those with a text, or with as many operands as the program has items,
are open-ended.
-/

namespace Shader.Assembly

namespace Opcode

/-- The opcodes of instructions whose length the program decides. -/
def openEnded : List Opcode :=
  [name, memberName, entryPoint, typeStruct, typeFunction, constantComposite, compositeConstruct,
    functionCall, switch]

def isOpenEnded (op : Opcode) : Bool := openEnded.contains op

end Opcode

namespace Operand

lemma wordCount_ids (ids : List Id) : ((Operand.ids ids).map wordCount).sum = ids.length := by
  induction ids with
  | nil => rfl
  | cons id ids ih =>
    show 1 + ((Operand.ids ids).map wordCount).sum = _
    rw [ih, List.length_cons, Nat.add_comm]

lemma wordCount_words (words : List UInt32) :
    ((Operand.words words).map wordCount).sum = words.length := by
  induction words with
  | nil => rfl
  | cons word words ih =>
    show 1 + ((Operand.words words).map wordCount).sum = _
    rw [ih, List.length_cons, Nat.add_comm]

end Operand

namespace Instruction

/-- The instruction is short, unless it is open-ended. -/
def Regular (i : Instruction) : Prop := i.opcode.isOpenEnded = true ∨ i.wordCount ≤ 12

instance (i : Instruction) : Decidable i.Regular :=
  inferInstanceAs (Decidable (i.opcode.isOpenEnded = true ∨ i.wordCount ≤ 12))

lemma Regular.short {i : Instruction} (h : Nat.ble i.wordCount 12 = true) : i.Regular :=
  .inr (Nat.le_of_ble_eq_true h)

lemma lengthOf_firstWord_eq_mod (i : Instruction) : lengthOf i.firstWord = i.wordCount % 65536 := by
  have hcode := i.opcode.code.toNat_lt
  have hmod : UInt32.ofNat i.wordCount <<< 16 = UInt32.ofNat (i.wordCount % 65536) <<< 16 := by
    rw [← UInt32.toNat_inj, UInt32.toNat_shiftLeft, UInt32.toNat_shiftLeft, UInt32.toNat_ofNat',
      UInt32.toNat_ofNat']
    show (i.wordCount % 2 ^ 32) <<< 16 % 2 ^ 32 = (i.wordCount % 65536 % 2 ^ 32) <<< 16 % 2 ^ 32
    rw [Nat.shiftLeft_eq, Nat.shiftLeft_eq]
    omega
  have hsmall : i.wordCount % 65536 ≤ 65535 := by omega
  rw [lengthOf_eq, firstWord, hmod, toNat_first hsmall]
  omega

lemma lengthOf_firstWord_eq_iff (i : Instruction) :
    lengthOf i.firstWord = i.wordCount ↔ i.wordCount ≤ 65535 := by
  rw [lengthOf_firstWord_eq_mod]
  omega

end Instruction

end Shader.Assembly
