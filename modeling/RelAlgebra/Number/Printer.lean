/-
How numbers are written: positionally where that is short, with an
exponent elsewhere, and always so that an integral number can be told
from an integer.
-/
import RelAlgebra.Number.Shortest

namespace RelAlgebra

/-- The decisions of a number format. -/
structure NumberFormat where
  /-- Decimal exponents from here on are positional … -/
  positionalFrom : Int
  /-- … as long as they stay below this one. -/
  positionalBelow : Int
  /-- Stands between the digits and the exponent. -/
  exponentMark : String
  /-- Follows the digits of an integral number written positionally. -/
  integralMark : String
  nan : String
  infinity : String

/-- Numbers from 0.0001 up to, not including, 10^16 are positional. -/
def NumberFormat.standard : NumberFormat where
  positionalFrom := -4
  positionalBelow := 16
  exponentMark := "e"
  integralMark := ".0"
  nan := "NaN"
  infinity := "inf"

namespace NumberFormat

/-- The digits with a point after the first `before` of them. `before`
may be negative or exceed the number of digits; zeros fill up. -/
def positional (format : NumberFormat) (digits : List Char) (before : Int) :
    String :=
  if before ≤ 0 then
    String.ofList
      (['0', '.'] ++ List.replicate before.natAbs '0' ++ digits)
  else
    let n := before.toNat
    let whole := digits.take n ++ List.replicate (n - digits.length) '0'
    match digits.drop n with
    | [] => String.ofList whole ++ format.integralMark
    | part => String.ofList (whole ++ '.' :: part)

/-- One digit, the others after a point, and the exponent. -/
def scientific (format : NumberFormat) (digits : List Char) (exponent : Int) :
    String :=
  let mantissa :=
    match digits with
    | d :: e :: rest => d :: '.' :: e :: rest
    | ds => ds
  String.ofList mantissa ++ format.exponentMark ++ toString exponent

/-- A positive decimal. -/
def decimal (format : NumberFormat) (d : Binary64.Decimal) : String :=
  let digits := Nat.toDigits 10 d.digits
  let exponent := d.exponent + digits.length - 1
  if format.positionalFrom ≤ exponent ∧ exponent < format.positionalBelow then
    format.positional digits (exponent + 1)
  else
    format.scientific digits exponent

/-- Any number: its shortest decimal, with a sign even on zero. -/
def render (format : NumberFormat) (x : Float) : String :=
  let signed (negative : Bool) (s : String) :=
    if negative then "-" ++ s else s
  match Binary64.decode x with
  | .nan => format.nan
  | .infinity negative => signed negative format.infinity
  | .finite negative 0 _ => signed negative ("0" ++ format.integralMark)
  | .finite negative significand exponent =>
    signed negative (format.decimal (Binary64.shortest significand exponent))

end NumberFormat

end RelAlgebra
