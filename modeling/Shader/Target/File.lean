import Shader.Assembly.Encoding

/-!
# Output files
-/

namespace Shader.Target

open Assembly (Header)

/-- A file with an encoded module. -/
structure OutputFile where
  name : String
  words : List UInt32
deriving DecidableEq, Repr

namespace OutputFile

/-- The contents of the file: the bytes of each word, the lowest first. -/
def bytes (f : OutputFile) : List UInt8 := f.words.flatMap Assembly.bytesOfWord

/-- The header of the module, if the words start with one. -/
def header? (f : OutputFile) : Option Header := Header.decode? f.words

end OutputFile

end Shader.Target
