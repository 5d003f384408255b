/-
The remainder of a truncated division of two numbers. Both magnitudes are
brought to the smaller of the two exponents, where the remainder is one of
natural numbers; it has the sign of the dividend and is always exact.
-/
import RelAlgebra.Number.Binary64

namespace RelAlgebra.Binary64

/-- `x - y · trunc (x / y)`, computed without rounding. There is no
remainder of an infinity, nor by zero. -/
def remainder (x y : Float) : Float :=
  match decode x, decode y with
  | .nan, _ => nan
  | _, .nan => nan
  | .infinity _, _ => nan
  | .finite .., .infinity _ => x
  | .finite negative m e, .finite _ n f =>
    if n = 0 then
      nan
    else
      let common := min e f
      let dividend := m * Nat.pow 2 (e - common).toNat
      let divisor := n * Nat.pow 2 (f - common).toNat
      encode negative (dividend % divisor) common

end RelAlgebra.Binary64
