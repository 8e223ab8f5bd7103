import Shader.Assembly.Encoding

/-!
# Versions and paths

The version that an argument of the command line asks for, and the path that a file is written
to.
-/

namespace Shader.CommandLine

open Assembly (Version)

/-! ### Versions -/

/-- A number in decimal digits, which a plus sign may precede. -/
def number? (text : List Char) : Option Nat :=
  let digits := if text.head? = some '+' then text.drop 1 else text
  if digits.isEmpty || !digits.all Char.isDigit then none
  else some (digits.foldl (fun n c => 10 * n + (c.toNat - '0'.toNat)) 0)

/-- Reads a version from 1.0 to 1.6. -/
def version? (text : String) : Option Version :=
  let major := text.toList.takeWhile (· ≠ '.')
  match text.toList.dropWhile (· ≠ '.') with
  | '.' :: minor =>
    match number? major, number? minor with
    | some 1, some minor => if minor ≤ 6 then some ⟨1, UInt8.ofNat minor⟩ else none
    | _, _ => none
  | _ => none

/-- What is said about an argument that is no version. -/
def invalidVersion (text : String) : String :=
  s!"invalid SPIR-V version '{text}', expected 1.0 through 1.6"

/-! ### Paths -/

/-- The segments of a path. -/
def segments (path : String) : List String := path.splitOn "/"

/-- A path without what follows its last name, split into the segments before and that name.
Empty segments and single points at the end of a path are not names; a path may also end in a
double point, or have no name at all. -/
def lastName? (path : String) : Option (List String × String) :=
  match (segments path).reverse.dropWhile (fun s => s == "" || s == ".") with
  | [] => none
  | name :: before => if name = ".." then none else some (before.reverse, name)

/-- A name without its extension, and the extension: what follows its last point, if something
precedes it. -/
def splitExtension (name : String) : String × Option String :=
  let ending := (name.toList.reverse.takeWhile (· ≠ '.')).reverse
  match name.toList.take (name.length - ending.length - 1) with
  | [] => (name, none)
  | stem => (String.ofList stem, some (String.ofList ending))

def extension? (path : String) : Option String := do
  let (_, name) ← lastName? path
  (splitExtension name).2

/-- Cuts a path right after the stem of its last name and adds an extension. -/
def addExtension (path extension : String) : String :=
  match lastName? path with
  | none => path
  | some (before, name) =>
    let cut := "/".intercalate (before ++ [(splitExtension name).1])
    if extension.isEmpty then cut else cut ++ "." ++ extension

/-- The path without its extension, up to and including the point before it. -/
def dropExtension (path : String) : String :=
  match extension? path with
  | some extension =>
    if path.endsWith extension then (path.dropEnd extension.length).copy else path
  | none => path

/-- A path with another extension. -/
def withExtension (path extension : String) : String := addExtension (dropExtension path) extension

/-- The path that a file goes to: the one asked for, or that of the input with the extension of
the file. -/
def outputPath (input : String) (output : Option String) (file : String) : String :=
  match output with
  | some path => path
  | none => withExtension input ((extension? file).getD "")

end Shader.CommandLine
