import Shader.Number.Shortest

/-!
# The text of floating-point values

Two layouts of the same shortest digits.  In a listing a number is always written out in full.
Inside a structured value it keeps at least one decimal, and very large and very small numbers
take an exponent.
-/

namespace Shader.Number

/-- The decisions of a number layout. -/
structure Layout where
  /-- Whether a number whose first digit stands for `10 ^ lead` is written without exponent. -/
  positional : (lead : Int) → Bool
  /-- A whole number ends in `.0`. -/
  wholeTail : String

/-- Numbers in a listing. -/
def Layout.listing : Layout := ⟨fun _ => true, ""⟩

/-- Numbers inside structured values: positional from `0.0001` up to below `10 ^ 16`. -/
def Layout.value : Layout := ⟨fun lead => -4 ≤ lead && lead < 16, ".0"⟩

namespace Decimal

def digitText (d : Decimal) : List Char := Nat.toDigits 10 d.digits

/-- The power of ten the first digit stands for. -/
def lead (d : Decimal) : Int := d.digitText.length + d.exponent - 1

def positionalText (d : Decimal) (wholeTail : String) : String :=
  let digits := d.digitText
  let point := digits.length + d.exponent
  if 0 ≤ d.exponent then
    String.ofList (digits ++ List.replicate d.exponent.toNat '0') ++ wholeTail
  else if 0 < point then
    String.ofList (digits.take point.toNat ++ '.' :: digits.drop point.toNat)
  else
    String.ofList ('0' :: '.' :: List.replicate (-point).toNat '0' ++ digits)

def scientificText (d : Decimal) : String :=
  let mantissa := match d.digitText with
    | first :: second :: rest => first :: '.' :: second :: rest
    | digits => digits
  String.ofList mantissa ++ s!"e{d.lead}"

def text (layout : Layout) (d : Decimal) : String :=
  if layout.positional d.lead then d.positionalText layout.wholeTail else d.scientificText

end Decimal

/-- The text of the value behind a bit pattern. -/
def Format.text (f : Format) (layout : Layout) (bits : Nat) : String :=
  match f.decode bits with
  | .nan => "NaN"
  | .infinite negative => sign negative ++ "inf"
  | .finite negative mantissa exponent =>
    sign negative ++
      if mantissa == 0 then "0" ++ layout.wholeTail
      else (shortest f mantissa exponent).text layout
where
  sign (negative : Bool) : String := if negative then "-" else ""

end Shader.Number
