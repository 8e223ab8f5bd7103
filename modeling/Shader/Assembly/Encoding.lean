import Shader.Assembly.Instruction

/-!
# Encoding

An instruction is encoded as words: the first holds its length in words above its opcode, the
others its operands.  A text is encoded as its bytes and a closing zero byte, four bytes to a
word with the first byte lowest, the last word filled up with zeros.
-/

namespace Shader.Assembly

/-- The version of the target format. -/
structure Version where
  major : UInt8
  minor : UInt8
deriving DecidableEq, Repr

namespace Version

/-- The version as it stands in the header. -/
def word (v : Version) : UInt32 := v.major.toUInt32 <<< 16 ||| v.minor.toUInt32 <<< 8

/-- The version a header word stands for. -/
def ofWord (w : UInt32) : Version := ⟨(w >>> 16).toUInt8, (w >>> 8).toUInt8⟩

/-- Versions are ordered by their major number, then by their minor one. -/
def before (v w : Version) : Bool :=
  v.major < w.major || v.major == w.major && v.minor < w.minor

def text (v : Version) : String := s!"{v.major.toNat}.{v.minor.toNat}"

end Version

/-- Four bytes as a word, the first one lowest. -/
def wordOfBytes (a b c d : UInt8) : UInt32 :=
  a.toUInt32 ||| b.toUInt32 <<< 8 ||| c.toUInt32 <<< 16 ||| d.toUInt32 <<< 24

/-- The four bytes of a word, the lowest one first. -/
def bytesOfWord (w : UInt32) : List UInt8 :=
  [w.toUInt8, (w >>> 8).toUInt8, (w >>> 16).toUInt8, (w >>> 24).toUInt8]

/-- Bytes closed by a zero byte and packed four to a word. -/
def packBytes : List UInt8 → List UInt32
  | a :: b :: c :: d :: rest => wordOfBytes a b c d :: packBytes rest
  | [a, b, c]                => [wordOfBytes a b c 0]
  | [a, b]                   => [wordOfBytes a b 0 0]
  | [a]                      => [wordOfBytes a 0 0 0]
  | []                       => [0]

theorem length_packBytes (bytes : List UInt8) :
    (packBytes bytes).length = bytes.length / 4 + 1 := by
  fun_induction packBytes bytes with
  | case1 _ _ _ _ _ ih => simp only [List.length_cons, ih]; omega
  | case2 | case3 | case4 | case5 => simp

/-- The bytes of a text. -/
def bytesOfText (text : String) : List UInt8 := text.toByteArray.data.toList

namespace Operand

/-- The number of words an operand takes. -/
def wordCount : Operand → Nat
  | .id _ | .word _ => 1
  | .text value     => value.utf8ByteSize / 4 + 1

def encode : Operand → List UInt32
  | .id target  => [UInt32.ofNat target.number]
  | .word value => [value]
  | .text value => packBytes (bytesOfText value)

theorem length_encode (o : Operand) : o.encode.length = o.wordCount := by
  cases o with
  | id | word => rfl
  | text value => simp [encode, wordCount, length_packBytes, bytesOfText]

end Operand

namespace Instruction

/-- The number of words an instruction takes, its first word included. -/
def wordCount (i : Instruction) : Nat := 1 + (i.operands.map Operand.wordCount).foldr (· + ·) 0

/-- The first word of an instruction: its length above its opcode. -/
def firstWord (i : Instruction) : UInt32 :=
  UInt32.ofNat i.wordCount <<< 16 ||| i.opcode.code.toUInt32

def encode (i : Instruction) : List UInt32 := i.firstWord :: i.operands.flatMap Operand.encode

theorem length_encode (i : Instruction) : i.encode.length = i.wordCount := by
  simp [encode, wordCount, List.length_flatMap, Operand.length_encode, Nat.add_comm,
    List.sum_eq_foldr]

end Instruction

/-! ### Headers -/

/-- The word every encoded module starts with. -/
def magic : UInt32 := 0x07230203

/-- What the header of an encoded module says. -/
structure Header where
  version : Version
  generator : UInt32
  bound : UInt32
deriving DecidableEq, Repr

namespace Header

def encode (h : Header) : List UInt32 := [magic, h.version.word, h.generator, h.bound, 0]

/-- The header in front of an encoded module, if there is one. -/
def decode? : List UInt32 → Option Header
  | m :: version :: generator :: bound :: 0 :: _ =>
    if m = magic then some ⟨.ofWord version, generator, bound⟩ else none
  | _ => none

end Header

end Shader.Assembly
