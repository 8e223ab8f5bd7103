/-!
# Binary floating-point formats

A literal carries the bit pattern of its value.  `Format.decode` reads a pattern as an exact
number `± mantissa · 2 ^ exponent`; `Format.encode` rounds such a number into a format, to the
nearest representable value and to the even one when two are equally near.
-/

namespace Shader.Number

/-- The field widths of a binary interchange format. -/
structure Format where
  exponentBits : Nat
  fractionBits : Nat
deriving DecidableEq, Repr

/-- What a bit pattern stands for. -/
inductive Datum where
  | nan
  | infinite (negative : Bool)
  | finite (negative : Bool) (mantissa : Nat) (exponent : Int)
deriving DecidableEq, Repr

namespace Format

def half : Format := ⟨5, 10⟩
def single : Format := ⟨8, 23⟩
def double : Format := ⟨11, 52⟩

/-- The exponent field of infinities and NaNs. -/
def topField (f : Format) : Nat := 1 <<< f.exponentBits - 1

/-- The exponent of the smallest positive value, which is that power of two. -/
def minExponent (f : Format) : Int :=
  2 - (1 <<< (f.exponentBits - 1) : Nat) - f.fractionBits

def decode (f : Format) (bits : Nat) : Datum :=
  let negative := bits >>> (f.exponentBits + f.fractionBits) % 2 == 1
  let field := bits >>> f.fractionBits % 1 <<< f.exponentBits
  let fraction := bits % 1 <<< f.fractionBits
  if field == f.topField then
    if fraction == 0 then .infinite negative else .nan
  else if field == 0 then
    .finite negative fraction f.minExponent
  else
    .finite negative (1 <<< f.fractionBits + fraction) (f.minExponent + (field - 1 : Nat))

/-- `n / 2 ^ k` to the nearest integer, a half to the even neighbour. -/
def roundShift (n k : Nat) : Nat :=
  let quotient := n >>> k
  let twice := 2 * (n % 1 <<< k)
  if twice < 1 <<< k then quotient
  else if twice > 1 <<< k then quotient + 1
  else quotient + quotient % 2

/-- The magnitude field of `mantissa · 2 ^ exponent`: exponent and fraction in one number, so
that a mantissa rounded up to the next power of two carries into the exponent. -/
def magnitude (f : Format) (mantissa : Nat) (exponent : Int) : Nat :=
  let surplus : Int := (mantissa.log2 : Int) - f.fractionBits
  let drop := max surplus (f.minExponent - exponent)
  let rounded := if drop ≤ 0 then mantissa <<< (-drop).toNat else roundShift mantissa drop.toNat
  (exponent + drop - f.minExponent).toNat <<< f.fractionBits + rounded

def encode (f : Format) : Datum → Nat
  | .nan => f.topField <<< f.fractionBits + 1 <<< (f.fractionBits - 1)
  | .infinite negative => sign negative + f.topField <<< f.fractionBits
  | .finite negative mantissa exponent =>
    if mantissa == 0 then sign negative
    else sign negative + min (f.magnitude mantissa exponent) (f.topField <<< f.fractionBits)
where
  sign (negative : Bool) : Nat := if negative then 1 <<< (f.exponentBits + f.fractionBits) else 0

/-- The pattern in format `g` of the value nearest to a pattern of format `f`. -/
def convert (f g : Format) (bits : Nat) : Nat := g.encode (f.decode bits)

end Format

end Shader.Number
