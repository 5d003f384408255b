/-
Division of integers. Quotients are truncated toward zero, and the remainder is
what they leave: over the unbounded integers that is the division law, and
since wrapping around commutes with sums and products, the law holds among
64-bit integers too, for the one quotient that overflows as well. Remainders
never overflow.
-/
import RelAlgebra.Value.Arithmetic

namespace RelAlgebra

-- ======================================================= 64-bit integers

/-- Whether an integer is in the range of 64-bit integers. -/
def FitsInt64 (z : Int) : Prop :=
  Int64.minValue.toInt ≤ z ∧ z ≤ Int64.maxValue.toInt

instance (z : Int) : Decidable (FitsInt64 z) :=
  inferInstanceAs (Decidable (_ ∧ _))

theorem fitsInt64_toInt (i : Int64) : FitsInt64 i.toInt := by
  have hlower := i.le_toInt
  have hupper := i.toInt_lt
  have hmin : Int64.minValue.toInt = -2 ^ 63 := rfl
  have hmax : Int64.maxValue.toInt = 2 ^ 63 - 1 := rfl
  unfold FitsInt64
  omega

variable {a b : Int64}

/-- Apart from one, quotients are exact but for the truncation. -/
theorem toInt_quotient (h : ¬(a = Int64.minValue ∧ b = -1)) :
    (a / b).toInt = a.toInt.tdiv b.toInt := by
  by_cases ha : a = Int64.minValue
  · exact Int64.toInt_div_of_ne_right a b fun hb => h ⟨ha, hb⟩
  · exact Int64.toInt_div_of_ne_left a b ha

/-- The least integer divided by minus one is the one quotient that
overflows. -/
theorem fitsInt64_tdiv_iff :
    FitsInt64 (a.toInt.tdiv b.toInt) ↔ ¬(a = Int64.minValue ∧ b = -1) := by
  constructor
  · rintro hfits ⟨rfl, rfl⟩
    exact absurd hfits (by decide)
  · intro h
    rw [← toInt_quotient h]
    exact fitsInt64_toInt (a / b)

/-- The quotient and the remainder are those of the unbounded integers, wrapped
around, so they obey the same law. -/
theorem quotient_mul_add_remainder (a b : Int64) : a / b * b + a % b = a := by
  have hquotient : a / b = .ofInt (a.toInt.tdiv b.toInt) := by
    rw [← Int64.toInt_inj, Int64.toInt_div, Int64.toInt_ofInt]
  have hremainder : a % b = .ofInt (a.toInt.tmod b.toInt) := by
    rw [← Int64.toInt_mod, Int64.ofInt_toInt]
  calc a / b * b + a % b
      = .ofInt (a.toInt.tdiv b.toInt) * .ofInt b.toInt
          + .ofInt (a.toInt.tmod b.toInt) := by
        rw [hquotient, hremainder, Int64.ofInt_toInt]
    _ = .ofInt (a.toInt.tdiv b.toInt * b.toInt + a.toInt.tmod b.toInt) := by
        rw [Int64.ofInt_add, Int64.ofInt_mul]
    _ = a := by rw [Int.tdiv_mul_add_tmod, Int64.ofInt_toInt]

/-- The remainder is smaller than the divisor, in size. -/
theorem natAbs_remainder_lt (hb : b ≠ 0) :
    (a % b).toInt.natAbs < b.toInt.natAbs := by
  have hdivisor : b.toInt.natAbs ≠ 0 := by
    rw [Int.natAbs_ne_zero]
    exact fun hzero => hb (Int64.toInt_inj.1 hzero)
  rw [Int64.toInt_mod, Int.natAbs_tmod]
  exact Nat.mod_lt _ (Nat.pos_of_ne_zero hdivisor)

/-- It is zero or has the sign of the dividend. -/
theorem remainder_eq_zero_or_sign_eq (a b : Int64) :
    a % b = 0 ∨ (a % b).toInt.sign = a.toInt.sign := by
  rw [← Int64.toInt_inj, Int64.toInt_mod, Int.sign_tmod]
  by_cases hdvd : b.toInt ∣ a.toInt
  · exact .inl (Int.tmod_eq_zero_of_dvd hdvd)
  · exact .inr (if_neg hdvd)

-- ================================================================ values

namespace Value

/-- An operation that is guarded against zero divisors fails for no other
reason. -/
theorem arithmetic_guardZero_eq_error_iff {op : Int64 → Int64 → Int64}
    {floats : Float → Float → Float} {e : ValueError} :
    arithmetic (guardZero op) floats (.integer a) (.integer b) = .error e
      ↔ b = 0 ∧ e = .divisionByZero := by
  by_cases hb : b = 0
  · simp [arithmetic, guardZero, hb, Except.map, eq_comm]
  · simp [arithmetic, guardZero, hb, Except.map]

/-- The guard lets every divisor but zero pass. -/
theorem arithmetic_guardZero {op : Int64 → Int64 → Int64}
    {floats : Float → Float → Float} (hb : b ≠ 0) :
    arithmetic (guardZero op) floats (.integer a) (.integer b)
      = .ok (.integer (op a b)) := by
  simp [arithmetic, guardZero, hb, Except.map]

/-- Division of integers and its remainder fail exactly for the divisor zero.
Otherwise the quotient times the divisor, plus the remainder, is the dividend;
the remainder is smaller than the divisor and has the sign of the dividend,
unless it is zero; and the quotient is the exact one, truncated toward zero, if
that is in range. It always is, except for the least integer divided by minus
one. -/
theorem integerDivision_laws (a b : Int64) :
    (∀ e, divide (.integer a) (.integer b) = .error e
        ↔ b = 0 ∧ e = .divisionByZero)
      ∧ (∀ e, remainder (.integer a) (.integer b) = .error e
        ↔ b = 0 ∧ e = .divisionByZero)
      ∧ (b ≠ 0 → ∃ q r : Int64,
          divide (.integer a) (.integer b) = .ok (.integer q)
            ∧ remainder (.integer a) (.integer b) = .ok (.integer r)
            ∧ (multiply (.integer q) (.integer b) >>= (add · (.integer r)))
              = .ok (.integer a)
            ∧ r.toInt.natAbs < b.toInt.natAbs
            ∧ (r = 0 ∨ r.toInt.sign = a.toInt.sign)
            ∧ (FitsInt64 (a.toInt.tdiv b.toInt) →
              q.toInt = a.toInt.tdiv b.toInt))
      ∧ (FitsInt64 (a.toInt.tdiv b.toInt)
        ↔ ¬(a = Int64.minValue ∧ b = -1)) := by
  refine ⟨fun e => arithmetic_guardZero_eq_error_iff,
    fun e => arithmetic_guardZero_eq_error_iff, fun hb => ?_, fitsInt64_tdiv_iff⟩
  have hlaw : (multiply (.integer (a / b)) (.integer b)
      >>= (add · (.integer (a % b)))) = .ok (.integer a) := by
    show Except.ok (integer (a / b * b + a % b)) = _
    rw [quotient_mul_add_remainder]
  exact ⟨a / b, a % b, arithmetic_guardZero hb, arithmetic_guardZero hb, hlaw,
    natAbs_remainder_lt hb, remainder_eq_zero_or_sign_eq a b,
    fun hfits => toInt_quotient (fitsInt64_tdiv_iff.1 hfits)⟩

/-- The quotient that overflows wraps around to the dividend, and leaves no
remainder. A negative dividend has a quotient nearer to zero, and a negative
remainder. -/
theorem integerDivision_laws_negative :
    (-1 : Int64) ≠ 0
      ∧ divide (.integer Int64.minValue) (.integer (-1))
        = .ok (.integer Int64.minValue)
      ∧ remainder (.integer Int64.minValue) (.integer (-1)) = .ok (.integer 0)
      ∧ (multiply (.integer Int64.minValue) (.integer (-1))
          >>= (add · (.integer 0))) = .ok (.integer Int64.minValue)
      ∧ ¬FitsInt64 (Int64.minValue.toInt.tdiv (-1))
      ∧ (2 : Int64) ≠ 0
      ∧ divide (.integer (-7)) (.integer 2) = .ok (.integer (-3))
      ∧ remainder (.integer (-7)) (.integer 2) = .ok (.integer (-1))
      ∧ FitsInt64 (Int.tdiv (-7) 2) := by
  obtain ⟨-, -, hleast, hrange⟩ := integerDivision_laws Int64.minValue (-1)
  obtain ⟨-, -, hseven, -⟩ := integerDivision_laws (-7) 2
  obtain ⟨q, r, hq, hr, hlaw, -⟩ := hleast (by decide)
  obtain ⟨q', r', hq', hr', -, -, -, hexact⟩ := hseven (by decide)
  cases hq
  cases hr
  cases hr'
  have hthree : q' = -3 := Int64.toInt_inj.1 (hexact (by decide))
  exact ⟨by decide, rfl, rfl, hlaw, fun hfits => hrange.1 hfits ⟨rfl, rfl⟩,
    by decide, hthree ▸ hq', rfl, by decide⟩

end Value

end RelAlgebra
