/-
What the bits of a `Float` say: a datum is not a number, an infinity, or
a sign with a significand scaled by a power of two. Finite data whose
significand fits are written back exactly, which is all that rounding to
an integer and taking a remainder need.
-/

namespace RelAlgebra.Binary64

/-- The content of a double-precision number. A finite one has the value
`±significand · 2 ^ exponent`. -/
inductive Datum where
  | nan
  | infinity (negative : Bool)
  | finite (negative : Bool) (significand : Nat) (exponent : Int)
  deriving DecidableEq, Repr

/-- The exponent of the smallest positive numbers. -/
def minExponent : Int := -1074

/-- Width of the stored fraction; significands have one bit more. -/
def fractionBits : Nat := 52

/-- Reads sign, exponent field and fraction. -/
def decode (x : Float) : Datum :=
  let bits := x.toBits.toNat
  let negative : Bool := bits / Nat.pow 2 63 % 2 = 1
  let field : Nat := bits / Nat.pow 2 fractionBits % Nat.pow 2 11
  let fraction : Nat := bits % Nat.pow 2 fractionBits
  if field = 2047 then
    if fraction = 0 then .infinity negative else .nan
  else if field = 0 then
    .finite negative fraction minExponent
  else
    .finite negative (Nat.pow 2 fractionBits + fraction)
      (minExponent + field - 1)

/-- The number with the given fields. -/
def pack (negative : Bool) (field fraction : Nat) : Float :=
  let sign := if negative then Nat.pow 2 63 else 0
  Float.ofBits
    (UInt64.ofNat (sign + field * Nat.pow 2 fractionBits + fraction))

/-- The number `±significand · 2 ^ exponent`, for a significand of at most
53 bits and an exponent no smaller than `minExponent`. The significand is
first moved up as far as its width and the exponent allow. -/
def encode (negative : Bool) (significand : Nat) (exponent : Int) : Float :=
  let room := fractionBits - significand.log2
  let shift := min room (exponent - minExponent).toNat
  let scaled := significand * Nat.pow 2 shift
  if scaled < Nat.pow 2 fractionBits then
    pack negative 0 scaled
  else
    pack negative (exponent - shift - minExponent).toNat.succ
      (scaled - Nat.pow 2 fractionBits)

/-- The quiet not-a-number. -/
def nan : Float := pack false 2047 (Nat.pow 2 51)

end RelAlgebra.Binary64
