/-
Structural equality of values, under which rows are deduplicated and
joined. It is equality of representations except on floats, where the two
zeros are one value and not-a-number equals itself. The hash data of a
value is chosen to agree with it.

The key of a float has a case for not-a-number, which in the format has many
bit patterns. Floats as they are here have only one, which is its own key, so
that case changes nothing; the order by bit patterns, in the theory of values,
has them all.
-/
import RelAlgebra.Digest
import RelAlgebra.Number.Binary64
import RelAlgebra.Value.Basic

namespace RelAlgebra

/-- The bits that identify a number: one pattern for both zeros, one for
every not-a-number, its own bits otherwise. -/
def Binary64.key (x : Float) : UInt64 :=
  if x == 0.0 then
    0
  else if x.isNaN then
    Binary64.nan.toBits
  else
    x.toBits

namespace Value

/-- Structural equality. -/
protected def beq : Value → Value → Bool
  | .null, .null => true
  | .boolean a, .boolean b => a == b
  | .string a, .string b => a == b
  | .integer a, .integer b => a == b
  | .float a, .float b => Binary64.key a == Binary64.key b
  | _, _ => false

instance : BEq Value := ⟨Value.beq⟩

/-- The hash data of a value. -/
def digest : Value → Digest
  | .null => [.variant 0]
  | .boolean b => [.variant 1, .flag b]
  | .string s => [.variant 2, .text s]
  | .integer i => [.variant 3, .word i.toUInt64]
  | .float x => [.variant 4, .word (Binary64.key x)]

end Value

namespace ValueError

/-- Equality of errors, their values compared structurally. -/
protected def beq : ValueError → ValueError → Bool
  | .mismatch vs ts, .mismatch ws us => vs == ws && ts == us
  | .incompatible a b, .incompatible c d => a == c && b == d
  | .divisionByZero, .divisionByZero => true
  | _, _ => false

instance : BEq ValueError := ⟨ValueError.beq⟩

end ValueError

end RelAlgebra
