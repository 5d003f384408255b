/-
Rounding a number to an integral one by six rules. The integral part and
the discarded fraction are compared exactly, so no rule rounds twice; the
sign is kept, so a small negative number rounds to negative zero.
-/
import RelAlgebra.Number.Binary64

namespace RelAlgebra

/-- How a number between two integers is rounded. -/
inductive RoundingRule where
  /-- To the nearest integer, a half away from zero. -/
  | toNearestOrAwayFromZero
  /-- To the nearest integer, a half to the even one. -/
  | toNearestOrEven
  | up
  | down
  | towardZero
  | awayFromZero
  deriving DecidableEq, Repr

namespace RoundingRule

/-- The name under which expressions print the rule. -/
def name : RoundingRule → String
  | .toNearestOrAwayFromZero => "ToNearestOrAwayFromZero"
  | .toNearestOrEven => "ToNearestOrEven"
  | .up => "Up"
  | .down => "Down"
  | .towardZero => "TowardZero"
  | .awayFromZero => "AwayFromZero"

/-- Whether the magnitude `whole + part / unit`, with `0 < part < unit`,
goes up to `whole + 1`. -/
def growsMagnitude (rule : RoundingRule) (negative : Bool)
    (whole part unit : Nat) : Bool :=
  match rule with
  | .toNearestOrAwayFromZero => unit ≤ 2 * part
  | .toNearestOrEven =>
    unit < 2 * part || (unit = 2 * part && whole % 2 = 1)
  | .up => !negative
  | .down => negative
  | .towardZero => false
  | .awayFromZero => true

/-- The number rounded by the rule. Integral numbers, infinities and
not-a-number stay as they are. -/
def apply (rule : RoundingRule) (x : Float) : Float :=
  match Binary64.decode x with
  | .finite negative significand exponent =>
    if 0 ≤ exponent then
      x
    else
      let unit := Nat.pow 2 exponent.natAbs
      let whole := significand / unit
      let part := significand % unit
      let rounded :=
        if part ≠ 0 && rule.growsMagnitude negative whole part unit then
          whole + 1
        else
          whole
      Binary64.encode negative rounded 0
  | .infinity _ => x
  | .nan => Binary64.nan

end RoundingRule

end RelAlgebra
