/-!
# JSON values

A value is read into another type field by field.  A field that is missing reads as null, which
is the form of nothing and of the empty list.  All numbers are integers: a float is given by its
bits, and an integer of 64 bits as a text of its digits.
-/

namespace Shader.Json

inductive Value where
  | null
  | bool (value : Bool)
  | number (value : Int)
  | text (value : String)
  | list (items : List Value)
  | object (fields : List (String × Value))

instance : Inhabited Value := ⟨.null⟩

/-- Why a value is not the form of something. -/
inductive FormError where
  | expected (what : String)
  | unknown (name : String)
deriving DecidableEq, Repr

def FormError.message : FormError → String
  | expected what => s!"expected {what}"
  | unknown name => s!"unknown name {name}"

/-- Types that have a form. -/
class Form (α : Type) where
  read : Value → Except FormError α

export Form (read)

namespace Value

mutual

/-- How far values nest. -/
def depth : Value → Nat
  | list items => depthOfList items + 1
  | object fields => depthOfFields fields + 1
  | _ => 1

def depthOfList : List Value → Nat
  | [] => 0
  | v :: rest => max v.depth (depthOfList rest)

def depthOfFields : List (String × Value) → Nat
  | [] => 0
  | (_, v) :: rest => max v.depth (depthOfFields rest)

end

/-! ### Parts -/

def isNull : Value → Bool
  | null => true
  | _ => false

/-- The items of a list; other values have none. -/
def items : Value → List Value
  | list items => items
  | _ => []

/-- The fields of an object; other values have none. -/
def fields : Value → List (String × Value)
  | object fields => fields
  | _ => []

/-- The value of a field, or null. -/
def get (v : Value) (key : String) : Value := (v.fields.lookup key).getD null

/-- The value of an item, or null. -/
def item (v : Value) (index : Nat) : Value := v.items.getD index null

/-- Reads a field. -/
def field {α : Type} [Form α] (v : Value) (key : String) : Except FormError α := read (v.get key)

/-- Reads a field that may be missing. -/
def fieldD {α : Type} [Form α] (v : Value) (key : String) (default : α) : Except FormError α :=
  if (v.get key).isNull then .ok default else v.field key

/-- The name of a variant and its contents: a text is a name without contents, an object with a
single field has its key for a name. -/
def variant : Value → Except FormError (String × Value)
  | text name => .ok (name, null)
  | object [(name, contents)] => .ok (name, contents)
  | _ => .error (.expected "a variant")

end Value

/-! ### Forms -/

open Value

/-- Reads a text that is one of some names. -/
def readName {α : Type} (name : α → String) (all : List α) (text : String) : Except FormError α :=
  match all.find? fun a => name a == text with
  | some a => .ok a
  | none => .error (.unknown text)

/-- What a variant is by its name and its contents. -/
abbrev Form.ofVariant {α : Type} (arm : String → Value → Except FormError α) : Form α where
  read v := do
    let (name, contents) ← v.variant
    arm name contents

instance : Form String where
  read
    | .text value => .ok value
    | _ => .error (.expected "a text")

instance : Form Bool where
  read
    | .bool value => .ok value
    | _ => .error (.expected "a truth value")

instance : Form Int where
  read
    | .number value => .ok value
    | _ => .error (.expected "a number")

instance : Form Nat where
  read
    | .number (.ofNat value) => .ok value
    | _ => .error (.expected "a natural number")

/-- Names, as texts. -/
abbrev Form.ofName {α : Type} (name : α → String) (all : List α) : Form α where
  read v := do readName name all (← read v)

/-- Reads a number that is given as a text. -/
def readDigits (v : Value) : Except FormError Int := do
  match (← read v : String).toInt? with
  | some value => return value
  | none => throw (.expected "the digits of a number")

instance : Form UInt8 := ⟨fun v => UInt8.ofNat <$> read v⟩

instance : Form UInt16 := ⟨fun v => UInt16.ofNat <$> read v⟩

instance : Form UInt32 := ⟨fun v => UInt32.ofNat <$> read v⟩

instance : Form Int32 := ⟨fun v => Int32.ofInt <$> read v⟩

instance : Form UInt64 := ⟨fun v => (fun n => UInt64.ofNat n.toNat) <$> readDigits v⟩

instance : Form Int64 := ⟨fun v => Int64.ofInt <$> readDigits v⟩

instance {α : Type} [Form α] : Form (Option α) where
  read v := if v.isNull then .ok none else some <$> read v

instance {α : Type} [Form α] : Form (List α) where
  read v := v.items.mapM read

end Shader.Json
