/-
The order of values. The absent value comes first; present values are
ordered within one type, strings by code point and floats as numbers.
Values of different types have no order, and not-a-number has none with
any float.
-/
import RelAlgebra.Value.Basic

namespace RelAlgebra

/-- The order of two numbers, if they have one. -/
def Binary64.compare? (x y : Float) : Option Ordering :=
  if x < y then
    some .lt
  else if x == y then
    some .eq
  else if y < x then
    some .gt
  else
    none

namespace Value

/-- The order of two values, if they have one. -/
def compare? : Value → Value → Option Ordering
  | .null, .null => some .eq
  | .null, _ => some .lt
  | _, .null => some .gt
  | .boolean a, .boolean b => some (Ord.compare a b)
  | .integer a, .integer b => some (Ord.compare a b)
  | .float x, .float y => Binary64.compare? x y
  | .string a, .string b => some (Ord.compare a b)
  | _, _ => none

/-- The order of two values; it is an error if they have none. -/
def compare (a b : Value) : Except ValueError Ordering :=
  match compare? a b with
  | some o => .ok o
  | none => .error (.incompatible a b)

end Value

end RelAlgebra
