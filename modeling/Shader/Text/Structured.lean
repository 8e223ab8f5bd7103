/-!
# The text of structured values

Values that appear in messages are spelled by their constructor: `Negate`, `Some([4])`,
`Binary` with its fields between braces, lists between brackets.
-/

namespace Shader.Text

/-- The items between brackets, `[X, Y]`. -/
def list (items : List String) : String := "[" ++ ", ".intercalate items ++ "]"

/-- A constructor with positional arguments, `Literal(F32(1.0))`. -/
def applied (name : String) (arguments : List String) : String :=
  name ++ "(" ++ ", ".intercalate arguments ++ ")"

/-- A constructor with named fields. -/
def record (name : String) (fields : List (String × String)) : String :=
  let written := fields.map fun (field, value) => field ++ ": " ++ value
  name ++ " \x7b " ++ ", ".intercalate written ++ " \x7d"

/-- `Some(x)` or `None`. -/
def option : Option String → String
  | some value => applied "Some" [value]
  | none => "None"

def bool (b : Bool) : String := if b then "true" else "false"

end Shader.Text
