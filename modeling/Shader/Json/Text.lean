import Shader.Json.Value

/-!
# The text of a JSON value

Reading is by recursive descent.  Each step of it that goes on to another one uses up a character
or is followed by one that does, so that twice the length of the text bounds the descent.
-/

namespace Shader.Json

/-- What may stand between the parts of a value. -/
def isBlank (c : Char) : Bool := c == ' ' || c == '\t' || c == '\n' || c == '\r'

def skipBlanks (cs : List Char) : List Char := cs.dropWhile isBlank

/-! ### Numbers -/

/-- The number that decimal digits stand for; a zero is not followed by another digit. -/
def natOfDigits? (digits : List Char) : Option Nat :=
  match digits with
  | [] => none
  | '0' :: _ :: _ => none
  | _ => some (digits.foldl (fun n c => 10 * n + (c.toNat - '0'.toNat)) 0)

/-- Reads an integer. -/
def readInt? (cs : List Char) : Option (Int × List Char) :=
  match cs with
  | '-' :: cs => do
    let n ← natOfDigits? (cs.takeWhile Char.isDigit)
    return (-(n : Int), cs.dropWhile Char.isDigit)
  | cs => do
    let n ← natOfDigits? (cs.takeWhile Char.isDigit)
    return ((n : Int), cs.dropWhile Char.isDigit)

/-! ### Texts -/

def hexDigit? (c : Char) : Option Nat :=
  if c.isDigit then some (c.toNat - '0'.toNat)
  else if 'a' ≤ c ∧ c ≤ 'f' then some (c.toNat - 'a'.toNat + 10)
  else if 'A' ≤ c ∧ c ≤ 'F' then some (c.toNat - 'A'.toNat + 10)
  else none

/-- The number of four hexadecimal digits. -/
def unit? (a b c d : Char) : Option Nat := do
  return ((← hexDigit? a) * 16 + (← hexDigit? b)) * 256 + (← hexDigit? c) * 16 + (← hexDigit? d)

/-- The character of a code point. -/
def char? (n : Nat) : Option Char :=
  if n.isValidChar then some (Char.ofNat n) else none

/-- The character of a high and a low surrogate. -/
def pair? (high low : Nat) : Option Char :=
  if 0xD800 ≤ high ∧ high < 0xDC00 ∧ 0xDC00 ≤ low ∧ low < 0xE000 then
    char? (0x10000 + (high - 0xD800) * 0x400 + (low - 0xDC00))
  else none

/-- The character that a letter stands for behind a backslash. -/
def escape? : Char → Option Char
  | '"' => some '"'
  | '\\' => some '\\'
  | '/' => some '/'
  | 'b' => some '\x08'
  | 'f' => some '\x0c'
  | 'n' => some '\n'
  | 'r' => some '\r'
  | 't' => some '\t'
  | _ => none

/-- Puts a character in front of a text that has been read. -/
def consChar (c : Char) (read : List Char × List Char) : List Char × List Char :=
  (c :: read.1, read.2)

/-- Reads a text up to its closing quote. -/
def readText? : List Char → Option (List Char × List Char)
  | '"' :: rest => some ([], rest)
  | '\\' :: 'u' :: a :: b :: c :: d :: '\\' :: 'u' :: e :: f :: g :: h :: rest => do
    let first ← unit? a b c d
    let second ← unit? e f g h
    match pair? first second with
    | some char => return consChar char (← readText? rest)
    | none =>
      return consChar (← char? first) (← readText? ('\\' :: 'u' :: e :: f :: g :: h :: rest))
  | '\\' :: 'u' :: a :: b :: c :: d :: rest => do
    return consChar (← char? (← unit? a b c d)) (← readText? rest)
  | '\\' :: c :: rest => do
    return consChar (← escape? c) (← readText? rest)
  | c :: rest => if c.toNat < 0x20 then none else consChar c <$> readText? rest
  | [] => none

/-! ### Values -/

mutual

/-- Reads a value, with a bound on the descent. -/
def readValue? : Nat → List Char → Option (Value × List Char)
  | 0, _ => none
  | bound + 1, cs =>
    match skipBlanks cs with
    | 'n' :: 'u' :: 'l' :: 'l' :: rest => some (.null, rest)
    | 't' :: 'r' :: 'u' :: 'e' :: rest => some (.bool true, rest)
    | 'f' :: 'a' :: 'l' :: 's' :: 'e' :: rest => some (.bool false, rest)
    | '"' :: rest => do
      let (text, rest) ← readText? rest
      return (.text (String.ofList text), rest)
    | '[' :: rest =>
      match skipBlanks rest with
      | ']' :: rest => some (.list [], rest)
      | rest => do
        let (items, rest) ← readItems? bound rest
        return (.list items, rest)
    | '\x7b' :: rest =>
      match skipBlanks rest with
      | '\x7d' :: rest => some (.object [], rest)
      | rest => do
        let (fields, rest) ← readFields? bound rest
        return (.object fields, rest)
    | cs => do
      let (value, rest) ← readInt? cs
      return (.number value, rest)

/-- Reads the items of a list and its closing bracket. -/
def readItems? : Nat → List Char → Option (List Value × List Char)
  | 0, _ => none
  | bound + 1, cs => do
    let (value, rest) ← readValue? bound cs
    match skipBlanks rest with
    | ',' :: rest =>
      let (items, rest) ← readItems? bound rest
      return (value :: items, rest)
    | ']' :: rest => return ([value], rest)
    | _ => none

/-- Reads the fields of an object and its closing brace. -/
def readFields? : Nat → List Char → Option (List (String × Value) × List Char)
  | 0, _ => none
  | bound + 1, cs =>
    match skipBlanks cs with
    | '"' :: rest => do
      let (key, rest) ← readText? rest
      match skipBlanks rest with
      | ':' :: rest =>
        let (value, rest) ← readValue? bound rest
        match skipBlanks rest with
        | ',' :: rest =>
          let (fields, rest) ← readFields? bound rest
          return ((String.ofList key, value) :: fields, rest)
        | '\x7d' :: rest => return ([(String.ofList key, value)], rest)
        | _ => none
      | _ => none
    | _ => none

end

/-- Reads a text that is the text of a value, apart from blanks. -/
def Value.ofText? (text : String) : Option Value := do
  let (value, rest) ← readValue? (2 * text.length + 1) text.toList
  if (skipBlanks rest).isEmpty then some value else none

end Shader.Json
