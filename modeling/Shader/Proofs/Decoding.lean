import Mathlib.Data.List.TakeWhile
import Mathlib.Data.Nat.Bitwise
import Shader.Assembly.Module

/-!
# Decoding

The words of a module can be read back.  The high half of the first word of an instruction is its
length, so the words behind the header fall apart into instructions (`cut?`).  If it is known which
operands of an instruction are ids, words and texts, its words tell what they are
(`Instruction.decode?`): a text goes up to the first zero byte, and the bytes behind that one are
zero up to the end of the word.

An instruction can be read back when its length fits in half a word, its ids fit in a word, and its
texts have no zero character (`Instruction.Encodable`).  Then its encoding is the only list of words
that is read as the instruction.
-/

namespace Shader.Assembly

open List

variable {i : Instruction} {ws rest : List UInt32} {k x n : Nat} {bytes : List UInt8}
    {text : String}

/-! ### Words -/

lemma or_shiftLeft (h : x < 2 ^ k) (y : Nat) : x ||| y <<< k = x + 2 ^ k * y := by
  rw [Nat.lor_comm, ← Nat.shiftLeft_add_eq_or_of_lt h, Nat.shiftLeft_eq, Nat.mul_comm, Nat.add_comm]

lemma toNat_shiftLeft_byte (x : UInt8) (hk : k ≤ 24) : x.toNat <<< k % 2 ^ 32 = x.toNat <<< k := by
  refine Nat.mod_eq_of_lt ?_
  rw [Nat.shiftLeft_eq]
  calc x.toNat * 2 ^ k < 2 ^ 8 * 2 ^ k := Nat.mul_lt_mul_of_pos_right x.toNat_lt (Nat.two_pow_pos k)
    _ ≤ 2 ^ 8 * 2 ^ 24 := Nat.mul_le_mul_left _ (Nat.pow_le_pow_right (by decide) hk)
    _ = 2 ^ 32 := by decide

lemma toNat_wordOfBytes (a b c d : UInt8) : (wordOfBytes a b c d).toNat =
    a.toNat + 2 ^ 8 * b.toNat + 2 ^ 16 * c.toNat + 2 ^ 24 * d.toNat := by
  have ha := a.toNat_lt
  have hb := b.toNat_lt
  have hc := c.toNat_lt
  show a.toNat ||| b.toNat <<< 8 % 2 ^ 32 ||| c.toNat <<< 16 % 2 ^ 32 ||| d.toNat <<<
    24 % 2 ^ 32 = _
  -- from the lowest byte on, each byte is put above the bytes so far
  rw [toNat_shiftLeft_byte b (by decide), toNat_shiftLeft_byte c (by decide),
    toNat_shiftLeft_byte d (by decide), or_shiftLeft ha,
    or_shiftLeft (by omega : a.toNat + 2 ^ 8 * b.toNat < 2 ^ 16), or_shiftLeft (by omega)]

lemma toNat_bytes (w : UInt32) : w.toUInt8.toNat = w.toNat % 2 ^ 8 ∧
    (w >>> 8).toUInt8.toNat = w.toNat / 2 ^ 8 % 2 ^ 8 ∧
    (w >>> 16).toUInt8.toNat = w.toNat / 2 ^ 16 % 2 ^ 8 ∧
    (w >>> 24).toUInt8.toNat = w.toNat / 2 ^ 24 % 2 ^ 8 := by
  simp only [UInt32.toNat_toUInt8, UInt32.toNat_shiftRight, Nat.shiftRight_eq_div_pow]
  exact ⟨trivial, rfl, rfl, rfl⟩

lemma bytesOfWord_wordOfBytes (a b c d : UInt8) :
    bytesOfWord (wordOfBytes a b c d) = [a, b, c, d] := by
  have ha := a.toNat_lt
  have hb := b.toNat_lt
  have hc := c.toNat_lt
  have hd := d.toNat_lt
  obtain ⟨h0, h8, h16, h24⟩ := toNat_bytes (wordOfBytes a b c d)
  rw [toNat_wordOfBytes] at h0 h8 h16 h24
  simp only [bytesOfWord, cons.injEq, ← UInt8.toNat_inj, and_true]
  omega

lemma wordOfBytes_bytes (w : UInt32) :
    wordOfBytes w.toUInt8 (w >>> 8).toUInt8 (w >>> 16).toUInt8 (w >>> 24).toUInt8 = w := by
  have hlt := w.toNat_lt
  obtain ⟨h0, h8, h16, h24⟩ := toNat_bytes w
  rw [← UInt32.toNat_inj, toNat_wordOfBytes, h0, h8, h16, h24]
  omega

/-- The length of an instruction, by its first word. -/
def lengthOf (first : UInt32) : Nat := (first >>> 16).toNat

/-- The opcode of an instruction, by its first word. -/
def opcodeOf (first : UInt32) : Opcode := ⟨first.toUInt16⟩

lemma toNat_first {length : Nat} (h : length ≤ 65535) (code : UInt16) :
    (UInt32.ofNat length <<< 16 ||| code.toUInt32).toNat = 2 ^ 16 * length + code.toNat := by
  have hcode := code.toNat_lt
  have hlength : (UInt32.ofNat length).toNat = length :=
    UInt32.toNat_ofNat_of_lt' (Nat.lt_of_le_of_lt h (by decide))
  rw [UInt32.toNat_or, UInt32.toNat_shiftLeft, hlength, UInt16.toNat_toUInt32]
  show length <<< 16 % 2 ^ 32 ||| code.toNat = _
  have hshift : length <<< 16 % 2 ^ 32 = length <<< 16 := by
    rw [Nat.shiftLeft_eq]
    omega
  rw [hshift, Nat.lor_comm, or_shiftLeft hcode, Nat.add_comm]

lemma lengthOf_eq (w : UInt32) : lengthOf w = w.toNat / 2 ^ 16 := by
  rw [lengthOf, UInt32.toNat_shiftRight, Nat.shiftRight_eq_div_pow]
  rfl

namespace Instruction

lemma lengthOf_firstWord (h : i.wordCount ≤ 65535) : lengthOf i.firstWord = i.wordCount := by
  have hcode := i.opcode.code.toNat_lt
  rw [lengthOf_eq, firstWord, toNat_first h]
  omega

lemma opcodeOf_firstWord (h : i.wordCount ≤ 65535) : opcodeOf i.firstWord = i.opcode := by
  have hcode := i.opcode.code.toNat_lt
  refine congrArg Opcode.mk (UInt16.toNat_inj.1 ?_)
  rw [UInt32.toNat_toUInt16, firstWord, toNat_first h, Nat.mul_add_mod, Nat.mod_eq_of_lt hcode]

lemma eq_firstWord (h : i.wordCount ≤ 65535) (hlength : lengthOf w = i.wordCount)
    (hopcode : opcodeOf w = i.opcode) : w = i.firstWord := by
  have hcode : w.toNat % 2 ^ 16 = i.opcode.code.toNat := by
    rw [← hopcode]
    exact (UInt32.toNat_toUInt16 w).symm
  rw [lengthOf_eq] at hlength
  rw [← UInt32.toNat_inj, firstWord, toNat_first h]
  omega

end Instruction

/-! ### Texts -/

/-- Reads bytes up to the first zero byte.  The bytes behind it in its word have to be zero.
Answers also with the words behind that one. -/
def readBytes? : List UInt32 → Option (List UInt8 × List UInt32)
  | [] => none
  | w :: rest =>
    let bytes := (bytesOfWord w).takeWhile (· ≠ 0)
    let padding := (bytesOfWord w).dropWhile (· ≠ 0)
    if padding.isEmpty then (readBytes? rest).map fun (more, rest) => (bytes ++ more, rest)
    else if padding.all (· = 0) then some (bytes, rest)
    else none

lemma readBytes?_packBytes (bytes : List UInt8) (h : 0 ∉ bytes) (rest : List UInt32) :
    readBytes? (packBytes bytes ++ rest) = some (bytes, rest) := by
  fun_induction packBytes bytes with
  | case1 a b c d bytes ih =>
    simp only [mem_cons, not_or] at h
    obtain ⟨ha, hb, hc, hd, hbytes⟩ := h
    simp [readBytes?, bytesOfWord_wordOfBytes, Ne.symm ha, Ne.symm hb, Ne.symm hc,
      Ne.symm hd, ih hbytes]
  | case2 a b c =>
    simp only [mem_cons, not_mem_nil, not_or] at h
    obtain ⟨ha, hb, hc, -⟩ := h
    simp [readBytes?, bytesOfWord_wordOfBytes, Ne.symm ha, Ne.symm hb, Ne.symm hc]
  | case3 a b =>
    simp only [mem_cons, not_mem_nil, not_or] at h
    obtain ⟨ha, hb, -⟩ := h
    simp [readBytes?, bytesOfWord_wordOfBytes, Ne.symm ha, Ne.symm hb]
  | case4 a =>
    simp only [mem_cons, not_mem_nil, not_or] at h
    simp [readBytes?, bytesOfWord_wordOfBytes, Ne.symm h.1]
  | case5 => rfl

lemma eq_packBytes_of_readBytes? (h : readBytes? ws = some (bytes, rest)) :
    ws = packBytes bytes ++ rest := by
  induction ws generalizing bytes with
  | nil => cases h
  | cons w ws ih =>
    obtain ⟨a, b, c, d, hbytes, rfl⟩ : ∃ a b c d, bytesOfWord w = [a, b, c, d] ∧
        wordOfBytes a b c d = w := ⟨_, _, _, _, rfl, wordOfBytes_bytes w⟩
    simp only [readBytes?, hbytes] at h
    -- by where the first zero byte of the word is
    by_cases ha : a = 0
    · simp [ha] at h
      obtain ⟨⟨hb, hc, hd⟩, rfl, rfl⟩ := h
      rw [ha, hb, hc, hd]
      rfl
    by_cases hb : b = 0
    · simp [ha, hb] at h
      obtain ⟨⟨hc, hd⟩, rfl, rfl⟩ := h
      rw [hb, hc, hd]
      rfl
    by_cases hc : c = 0
    · simp [ha, hb, hc] at h
      obtain ⟨hd, rfl, rfl⟩ := h
      rw [hc, hd]
      rfl
    by_cases hd : d = 0
    · simp [ha, hb, hc, hd] at h
      obtain ⟨rfl, rfl⟩ := h
      rw [hd]
      rfl
    · simp [ha, hb, hc, hd] at h
      obtain ⟨more, hmore, rfl⟩ := h
      rw [ih hmore]
      rfl

lemma zero_ne_ofNat (hpos : 0 < n) (hlt : n < 256) : (0 : UInt8) ≠ UInt8.ofNat n := by
  intro h
  have hn : n = 0 := by rw [← UInt8.toNat_ofNat_of_lt' hlt, ← h]; rfl
  omega

lemma zero_notMem_bytesOfText (h : Char.ofNat 0 ∉ text.toList) : 0 ∉ bytesOfText text := by
  have hbytes : bytesOfText text = text.toList.flatMap String.utf8EncodeChar := by
    rw [bytesOfText, ← String.utf8Encode_toList, utf8Encode, toList_data_toByteArray]
  rw [hbytes, mem_flatMap]
  rintro ⟨c, hc, hzero⟩
  refine h ?_
  suffices hchar : c = Char.ofNat 0 by rwa [← hchar]
  -- only the encoding in one byte can have a byte that is zero
  have hval : c.val.toNat = 0 := by
    simp only [String.utf8EncodeChar] at hzero
    split at hzero
    · rename_i hsmall
      have hzero := congrArg UInt8.toNat (mem_singleton.1 hzero)
      rw [UInt8.toNat_ofNat_of_lt' (Nat.lt_of_le_of_lt hsmall (by decide))] at hzero
      exact hzero.symm
    · exfalso
      split at hzero
      · simp only [mem_cons, not_mem_nil, or_false] at hzero
        rcases hzero with h | h <;> exact zero_ne_ofNat (by omega) (by omega) h
      split at hzero
      · simp only [mem_cons, not_mem_nil, or_false] at hzero
        rcases hzero with h | h | h <;> exact zero_ne_ofNat (by omega) (by omega) h
      · simp only [mem_cons, not_mem_nil, or_false] at hzero
        rcases hzero with h | h | h | h <;> exact zero_ne_ofNat (by omega) (by omega) h
  exact Char.ext (UInt32.toNat_inj.1 hval)

lemma fromUTF8?_bytesOfText (text : String) :
    String.fromUTF8? ⟨(bytesOfText text).toArray⟩ = some text := by
  have hbytes : (⟨(bytesOfText text).toArray⟩ : ByteArray) = text.toByteArray := rfl
  rw [hbytes, String.fromUTF8?, dif_pos]
  rfl

lemma bytesOfText_of_fromUTF8? (h : String.fromUTF8? ⟨bytes.toArray⟩ = some text) :
    bytesOfText text = bytes := by
  unfold String.fromUTF8? at h
  split at h
  · cases h
    rfl
  · cases h

/-! ### Operands -/

inductive OperandKind where
  | id
  | word
  | text
deriving DecidableEq, Repr

def Operand.kind : Operand → OperandKind
  | .id _ => .id
  | .word _ => .word
  | .text _ => .text

/-- Reads an operand.  Answers also with the words behind it. -/
def OperandKind.read? : OperandKind → List UInt32 → Option (Operand × List UInt32)
  | .id, w :: rest => some (.id ⟨w.toNat⟩, rest)
  | .word, w :: rest => some (.word w, rest)
  | .text, ws => do
    let (bytes, rest) ← readBytes? ws
    let text ← String.fromUTF8? ⟨bytes.toArray⟩
    return (.text text, rest)
  | _, [] => none

/-- Reads operands, which have to take up all the words. -/
def readOperands? : List OperandKind → List UInt32 → Option (List Operand)
  | [], ws => if ws.isEmpty then some [] else none
  | kind :: kinds, ws => do
    let (operand, rest) ← kind.read? ws
    let operands ← readOperands? kinds rest
    return operand :: operands

/-- The operand can be told by its words. -/
def Operand.Encodable : Operand → Prop
  | .id target => target.number < 2 ^ 32
  | .word _ => True
  | .text value => Char.ofNat 0 ∉ value.toList

instance : DecidablePred Operand.Encodable
  | .id target => inferInstanceAs (Decidable (target.number < 2 ^ 32))
  | .word _ => inferInstanceAs (Decidable True)
  | .text value => inferInstanceAs (Decidable (Char.ofNat 0 ∉ value.toList))

lemma read?_encode {o : Operand} (h : o.Encodable) (rest : List UInt32) :
    o.kind.read? (o.encode ++ rest) = some (o, rest) := by
  cases o with
  | id id =>
    have hid : (UInt32.ofNat id.number).toNat = id.number := UInt32.toNat_ofNat_of_lt' h
    show some (Operand.id ⟨(UInt32.ofNat id.number).toNat⟩, rest) = _
    rw [hid]
  | word _ => rfl
  | text text =>
    simp only [Operand.kind, OperandKind.read?, Operand.encode]
    rw [readBytes?_packBytes _ (zero_notMem_bytesOfText h)]
    simp [fromUTF8?_bytesOfText]

lemma eq_encode_of_read? {kind : OperandKind} {o : Operand} (h : kind.read? ws = some (o, rest)) :
    ws = o.encode ++ rest := by
  cases kind with
  | id | word =>
    cases ws with
    | nil => cases h
    | cons w ws =>
      obtain ⟨rfl, rfl⟩ := Prod.ext_iff.1 (Option.some.inj h)
      simp [Operand.encode]
  | text =>
    simp only [OperandKind.read?, bind, Option.bind_eq_some_iff] at h
    obtain ⟨⟨bytes, rest'⟩, hbytes, text, htext, heq⟩ := h
    obtain ⟨rfl, rfl⟩ := Prod.ext_iff.1 (Option.some.inj heq)
    rw [eq_packBytes_of_readBytes? hbytes, Operand.encode, bytesOfText_of_fromUTF8? htext]

variable {os : List Operand}

lemma readOperands?_encode (h : ∀ o ∈ os, o.Encodable) :
    readOperands? (os.map Operand.kind) (os.flatMap Operand.encode) = some os := by
  induction os with
  | nil => rfl
  | cons o os ih =>
    obtain ⟨ho, hos⟩ := forall_mem_cons.1 h
    rw [map_cons, flatMap_cons, readOperands?, read?_encode ho]
    simp [ih hos]

lemma eq_encode_of_readOperands? (h : readOperands? kinds ws = some os) :
    ws = os.flatMap Operand.encode := by
  induction kinds generalizing ws os with
  | nil =>
    unfold readOperands? at h
    split at h
    · cases h
      exact isEmpty_iff.1 ‹_›
    · cases h
  | cons kind kinds ih =>
    simp only [readOperands?, bind, Option.bind_eq_some_iff] at h
    obtain ⟨⟨o, rest⟩, ho, os', hos', heq⟩ := h
    cases heq
    dsimp only at hos' ⊢
    rw [eq_encode_of_read? ho, ih hos', flatMap_cons]

/-! ### Instructions -/

namespace Instruction

/-- The instruction that words stand for, given the kinds of its operands. -/
def decode? (kinds : List OperandKind) : List UInt32 → Option Instruction
  | [] => none
  | first :: ws =>
    if lengthOf first = ws.length + 1 then
      (readOperands? kinds ws).map fun operands => ⟨opcodeOf first, operands⟩
    else none

/-- The instruction can be told by its words. -/
def Encodable (i : Instruction) : Prop := i.wordCount ≤ 65535 ∧ ∀ o ∈ i.operands, o.Encodable

instance : DecidablePred Encodable := fun i =>
  inferInstanceAs (Decidable (i.wordCount ≤ 65535 ∧ ∀ o ∈ i.operands, o.Encodable))

/-- The kinds of the operands of an instruction. -/
def kinds (i : Instruction) : List OperandKind := i.operands.map Operand.kind

lemma decode?_encode (h : i.Encodable) : decode? i.kinds i.encode = some i := by
  obtain ⟨hshort, hoperands⟩ := h
  have hlength : lengthOf i.firstWord = (i.operands.flatMap Operand.encode).length + 1 := by
    rw [lengthOf_firstWord hshort, ← i.length_encode]
    rfl
  rw [encode, decode?, if_pos hlength, kinds, readOperands?_encode hoperands,
    opcodeOf_firstWord hshort]
  rfl

lemma eq_encode_of_decode? {kinds : List OperandKind} (hshort : i.wordCount ≤ 65535)
    (h : decode? kinds ws = some i) : ws = i.encode := by
  cases ws with
  | nil => cases h
  | cons first ws =>
    rw [decode?] at h
    split at h
    · rename_i hlength
      obtain ⟨operands, hoperands, rfl⟩ := Option.map_eq_some_iff.1 h
      obtain rfl := eq_encode_of_readOperands? hoperands
      have hcount : lengthOf first = wordCount ⟨opcodeOf first, operands⟩ := by
        rw [hlength, ← length_encode]
        rfl
      rw [encode, ← eq_firstWord hshort hcount rfl]
    · cases h

lemma decode?_eq_some_iff (h : i.Encodable) (ws : List UInt32) :
    decode? i.kinds ws = some i ↔ ws = i.encode :=
  ⟨eq_encode_of_decode? h.1, fun heq => heq ▸ decode?_encode h⟩

end Instruction

/-! ### Modules -/

/-- Cuts words into instructions, each as long as its first word tells.  Nothing may be left
over. -/
def cut? : List UInt32 → Option (List (List UInt32))
  | [] => some []
  | first :: rest =>
    if 0 < lengthOf first ∧ lengthOf first ≤ rest.length + 1 then
      (cut? (rest.drop (lengthOf first - 1))).map ((first :: rest.take (lengthOf first - 1)) :: ·)
    else none
termination_by ws => ws.length
decreasing_by
  simp only [length_drop, length_cons]
  omega

lemma cut?_encode_append (h : i.wordCount ≤ 65535) (rest : List UInt32) :
    cut? (i.encode ++ rest) = (cut? rest).map (i.encode :: ·) := by
  have hlength : lengthOf i.firstWord = (i.operands.flatMap Operand.encode).length + 1 := by
    rw [Instruction.lengthOf_firstWord h, ← i.length_encode]
    rfl
  rw [Instruction.encode, cons_append, cut?, hlength, if_pos (by simp)]
  simp

lemma cut?_flatMap_encode {is : List Instruction} (h : ∀ i ∈ is, i.wordCount ≤ 65535) :
    cut? (is.flatMap Instruction.encode) = some (is.map Instruction.encode) := by
  induction is with
  | nil => simp [cut?]
  | cons i is ih =>
    obtain ⟨hi, his⟩ := forall_mem_cons.1 h
    rw [flatMap_cons, cut?_encode_append hi, ih his]
    rfl

/-- A module can be read back from its words: those behind the header fall apart into the encodings
of its instructions, section after section and function after function, each function closed by an
instruction of its own.  The first word of an instruction tells its length and its opcode, and its
words are read as the instruction, and are the only ones that are. -/
theorem module_read_back {m : Module} (h : ∀ i ∈ m.instructions, i.Encodable) (version : Version)
    (generator : UInt32) :
    cut? ((m.encode version generator).drop 5) = some (m.instructions.map Instruction.encode) ∧
    m.instructions = (Section.all.flatMap fun s => (m.sections.get s).toList) ++
      m.functions.toList.flatMap (fun f => f.instructions ++ [⟨.functionEnd, []⟩]) ∧
    ∀ i ∈ m.instructions, (∃ first rest, i.encode = first :: rest ∧
        lengthOf first = i.encode.length ∧ opcodeOf first = i.opcode) ∧
      ∀ ws, Instruction.decode? i.kinds ws = some i ↔ ws = i.encode := by
  have hbody : (m.encode version generator).drop 5 = m.instructions.flatMap Instruction.encode :=
    rfl
  refine ⟨?_, rfl, fun i hi => ⟨⟨i.firstWord, _, rfl, ?_, ?_⟩, ?_⟩⟩
  · rw [hbody]
    exact cut?_flatMap_encode fun i hi => (h i hi).1
  · rw [Instruction.lengthOf_firstWord (h i hi).1, i.length_encode]
  · exact Instruction.opcodeOf_firstWord (h i hi).1
  · exact Instruction.decode?_eq_some_iff (h i hi)

/-- A module with a function that returns, and names of different lengths. -/
def named : Module where
  bound := 6
  sections := {
    imports := #[⟨.extInstImport, [.id ⟨1⟩, .text "GLSL.std.450"]⟩]
    debug := #[.name ⟨4⟩ "main", .name ⟨3⟩ "fn", .memberName ⟨2⟩ 7 ""]
    globals := #[⟨.typeVoid, [.id ⟨2⟩]⟩, ⟨.typeFunction, [.id ⟨3⟩, .id ⟨2⟩]⟩] }
  functions := #[{
    id := ⟨4⟩
    typeId := ⟨3⟩
    returnType := ⟨2⟩
    blocks := #[⟨⟨5⟩, #[], .ret⟩]
    nonempty := by decide }]

theorem module_read_back_named : (∀ i ∈ named.instructions, i.Encodable) ∧
    named.encode ⟨1, 3⟩ 0 = [0x07230203, 0x00010300, 0, 6, 0, 0x0006000b, 1, 0x4c534c47, 0x6474732e,
      0x3035342e, 0, 0x00040005, 4, 0x6e69616d, 0, 0x00030005, 3, 0x00006e66, 0x00040006, 2, 7, 0,
      0x00020013, 2, 0x00030021, 3, 2, 0x00050036, 2, 4, 0, 3, 0x000200f8, 5, 0x000100fd,
      0x00010038] ∧
    cut? ((named.encode ⟨1, 3⟩ 0).drop 5) = some (named.instructions.map Instruction.encode) ∧
    ∀ i ∈ named.instructions, ∀ ws, Instruction.decode? i.kinds ws = some i ↔ ws = i.encode := by
  have hnamed : ∀ i ∈ named.instructions, i.Encodable := by decide +kernel
  obtain ⟨hcut, -, hread⟩ := module_read_back hnamed ⟨1, 3⟩ 0
  exact ⟨hnamed, by decide +kernel, hcut, fun i hi => (hread i hi).2⟩

end Shader.Assembly
