/-
The shortest decimal that reads back. A finite positive double stands for
all reals that round to it, an interval that includes its ends when the
significand is even. Of the decimals in that interval those with the
fewest digits are taken, and of these the one nearest to the number; a
tie goes up.

Everything is compared exactly: the number and the ends of its interval
are naturals over one power of two, and a decimal grid is a power of ten.
-/
import RelAlgebra.Number.Binary64

namespace RelAlgebra.Binary64

/-- The decimal `digits · 10 ^ exponent`. -/
structure Decimal where
  digits : Nat
  exponent : Int
  deriving DecidableEq, Repr

/-- A positive number with the reals that round to it, all in units of
`2 ^ exponent`. -/
structure Interval where
  low : Nat
  value : Nat
  high : Nat
  closed : Bool
  exponent : Int

/-- The interval of `significand · 2 ^ exponent`. Below a power of two the
neighbour is only half as far away, unless the exponent cannot get
smaller. -/
def Interval.of (significand : Nat) (exponent : Int) : Interval :=
  let narrow : Bool :=
    significand = Nat.pow 2 fractionBits ∧ minExponent < exponent
  { low := 4 * significand - if narrow then 1 else 2
    value := 4 * significand
    high := 4 * significand + 2
    closed := significand % 2 = 0
    exponent := exponent - 2 }

/-- Numerator and denominator of `m · 2 ^ exponent / 10 ^ tens`. -/
def scaled (m : Nat) (exponent tens : Int) : Nat × Nat :=
  (m * Nat.pow 2 exponent.toNat * Nat.pow 10 (-tens).toNat,
    Nat.pow 2 (-exponent).toNat * Nat.pow 10 tens.toNat)

/-- The number of decimal digits of `n`. -/
def decimalWidth (n : Nat) : Nat := (Nat.toDigits 10 n).length

/-- The `k` with `10 ^ (k - 1) ≤ value < 10 ^ k`. -/
def Interval.magnitude (i : Interval) : Int :=
  let (num, den) := scaled i.value i.exponent 0
  if den ≤ num then
    decimalWidth (num / den)
  else
    1 - (decimalWidth ((den - 1) / num) : Int)

/-- Whether `d · 10 ^ tens` rounds to the number. -/
def Interval.covers (i : Interval) (d : Nat) (tens : Int) : Bool :=
  let (low, den) := scaled i.low i.exponent tens
  let (high, _) := scaled i.high i.exponent tens
  if i.closed then
    low ≤ d * den && d * den ≤ high
  else
    low < d * den && d * den < high

/-- The nearest covered multiple of `10 ^ tens`: of the two neighbours of
the number on that grid, the ones that read back, and of these the
nearer. -/
def Interval.onGrid? (i : Interval) (tens : Int) : Option Decimal :=
  let (num, den) := scaled i.value i.exponent tens
  let below := num / den
  let upNearer : Bool := den ≤ 2 * (num % den)
  match i.covers below tens, i.covers (below + 1) tens with
  | true, true => some ⟨if upNearer then below + 1 else below, tens⟩
  | true, false => some ⟨below, tens⟩
  | false, true => some ⟨below + 1, tens⟩
  | false, false => none

/-- Drops trailing zeros, at most `fuel` of them. -/
def Decimal.trim : Nat → Decimal → Decimal
  | 0, d => d
  | fuel + 1, d =>
    if d.digits ≠ 0 ∧ d.digits % 10 = 0 then
      Decimal.trim fuel ⟨d.digits / 10, d.exponent + 1⟩
    else
      d

/-- The shortest decimal that reads back as `significand · 2 ^ exponent`,
a positive number. Seventeen digits always suffice. -/
def shortest (significand : Nat) (exponent : Int) : Decimal :=
  let i := Interval.of significand exponent
  let k := i.magnitude
  let grids := (List.range 17).map fun n => k - (n + 1 : Nat)
  match grids.findSome? i.onGrid? with
  | some d => d.trim 17
  | none => ⟨significand * Nat.pow 2 exponent.toNat, 0⟩

end RelAlgebra.Binary64
