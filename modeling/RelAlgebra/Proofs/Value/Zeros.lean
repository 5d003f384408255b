/-
What arithmetic makes of the two zeros. Structural equality takes them for
one number and tells all other numbers apart, so an operation respects it as
soon as it has equal results at both zeros in each of its operands. Sums,
differences, products, remainders and roundings have: with a zero operand
their result is another zero, or does not depend on the sign. A quotient does
so in its dividend, but not in its divisor: dividing by the two zeros gives
the two infinities, unless the dividend is itself a zero or not-a-number.
-/
import RelAlgebra.Number.Remainder
import RelAlgebra.Number.Rounding
import RelAlgebra.Proofs.Value.Comparison

namespace RelAlgebra.Binary64

open Float.Model

variable {x x' y y' : Float} {β : Type}

-- =========================================================== two zeros

/-- There are two zeros. -/
theorem eq_or_eq_neg_of_eq_zero (h : (x == 0.0) = true) :
    x = 0.0 ∨ x = -0.0 := by
  rcases toBits_of_eq_zero h with h | h
  · exact .inl (eq_of_toBits_eq (by rw [h]; decide))
  · exact .inr (eq_of_toBits_eq (by rw [h]; decide))

/-- Numbers of one key are the same, or the two zeros. -/
theorem eq_or_zeros_of_key_eq (h : key x = key x') :
    x = x' ∨ x = 0.0 ∧ x' = -0.0 ∨ x = -0.0 ∧ x' = 0.0 := by
  rcases key_eq_key_iff.1 h with rfl | ⟨hx, hx'⟩
  · exact .inl rfl
  · rcases eq_or_eq_neg_of_eq_zero hx with rfl | rfl
    · rcases eq_or_eq_neg_of_eq_zero hx' with rfl | rfl
      · exact .inl rfl
      · exact .inr (.inl ⟨rfl, rfl⟩)
    · rcases eq_or_eq_neg_of_eq_zero hx' with rfl | rfl
      · exact .inr (.inr ⟨rfl, rfl⟩)
      · exact .inl rfl

/-- A function that does not tell the zeros apart respects equality. -/
theorem congr_of_zeros {f : Float → β} (hzeros : f 0.0 = f (-0.0))
    (h : key x = key x') : f x = f x' := by
  rcases eq_or_zeros_of_key_eq h with rfl | ⟨rfl, rfl⟩ | ⟨rfl, rfl⟩
  · rfl
  · exact hzeros
  · exact hzeros.symm

/-- And so does an operation that does not in either operand. -/
theorem congr₂_of_zeros {f : Float → Float → β}
    (hleft : ∀ y, f 0.0 y = f (-0.0) y) (hright : ∀ x, f x 0.0 = f x (-0.0))
    (hx : key x = key x') (hy : key y = key y') : f x y = f x' y' :=
  (congr_of_zeros (f := (f · y)) (hleft y) hx).trans
    (congr_of_zeros (f := f x') (hright x') hy)

-- ======================================================== sums, products

theorem unpack_neg_zero :
    (-0.0 : Float).toModel.unpack = .zero .negative := by
  have hbits : (-0.0 : Float).toModel.toBits = signBit := by decide
  rw [Float.Model.unpack, hbits]
  rfl

/-- A number is zero if it unpacks as one, of either sign. -/
theorem eq_zero_iff_unpack :
    (x == 0.0) = true ↔ ∃ s, x.toModel.unpack = .zero s := by
  constructor
  · intro h
    rcases eq_or_eq_neg_of_eq_zero h with rfl | rfl
    · exact ⟨_, unpack_zero⟩
    · exact ⟨_, unpack_neg_zero⟩
  · rintro ⟨s, h⟩
    exact eq_zero_of_toBits (toBits_of_unpack_zero h)

/-- The key of a result in its unpacked form. -/
def packedKey (u : UnpackedFloat) : UInt64 :=
  key (.ofModel (Float.Model.pack u))

theorem packedKey_zero (s : UnpackedFloat.Sign) : packedKey (.zero s) = 0 := by
  cases s <;> decide

/-- The sign of a zero does not show in the key. -/
theorem packedKey_zeros (s s' : UnpackedFloat.Sign) :
    packedKey (.zero s) = packedKey (.zero s') := by
  rw [packedKey_zero, packedKey_zero]

/-- An operation on unpacked numbers respects equality if zeros of either
sign, in either operand, give it equal results. -/
theorem packedKey_congr (op : UnpackedFloat → UnpackedFloat → UnpackedFloat)
    (hop : ∀ u,
      packedKey (op (.zero .positive) u) = packedKey (op (.zero .negative) u)
      ∧ packedKey (op u (.zero .positive))
        = packedKey (op u (.zero .negative)))
    (hx : key x = key x') (hy : key y = key y') :
    packedKey (op x.toModel.unpack y.toModel.unpack)
      = packedKey (op x'.toModel.unpack y'.toModel.unpack) := by
  refine congr₂_of_zeros
    (f := fun x y => packedKey (op x.toModel.unpack y.toModel.unpack))
    (fun y => ?_) (fun x => ?_) hx hy
  · rw [unpack_zero, unpack_neg_zero]
    exact (hop _).1
  · rw [unpack_zero, unpack_neg_zero]
    exact (hop _).2

/-- Sums of zeros are zeros, and another number is not changed by a zero. -/
theorem packedKey_add_zeros (u : UnpackedFloat) :
    packedKey (.add .binary64 (.zero .positive) u)
        = packedKey (.add .binary64 (.zero .negative) u)
      ∧ packedKey (.add .binary64 u (.zero .positive))
        = packedKey (.add .binary64 u (.zero .negative)) := by
  cases u with
  | zero t => cases t <;> exact ⟨packedKey_zeros _ _, packedKey_zeros _ _⟩
  | _ => exact ⟨rfl, rfl⟩

/-- Sums of equal numbers are equal. -/
theorem key_add (hx : key x = key x') (hy : key y = key y') :
    key (x + y) = key (x' + y') :=
  packedKey_congr (.add .binary64) packedKey_add_zeros hx hy

/-- A difference is the sum with the other sign. -/
theorem unpacked_sub_eq_add_neg (u v : UnpackedFloat) :
    UnpackedFloat.sub .binary64 u v = .add .binary64 u v.neg := by
  cases u with
  | finite s m e hm =>
      cases v with
      | finite s' m' e' hm' =>
          have hneg : ∀ k : Nat,
              (-s').apply (k : Int) = -s'.apply (k : Int) := by
            intro k
            cases s' with
            | positive => rfl
            | negative => exact (Int.neg_neg _).symm
          simp only [UnpackedFloat.sub, UnpackedFloat.add, UnpackedFloat.neg,
            hneg, Int.sub_eq_add_neg]
      | _ => rfl
  | _ => cases v <;> rfl

/-- Differences of equal numbers are equal. -/
theorem key_sub (hx : key x = key x') (hy : key y = key y') :
    key (x - y) = key (x' - y') := by
  refine packedKey_congr (UnpackedFloat.sub .binary64) (fun u => ?_) hx hy
  simp only [unpacked_sub_eq_add_neg]
  exact ⟨(packedKey_add_zeros u.neg).1, (packedKey_add_zeros u).2.symm⟩

/-- Products of equal numbers are equal: a zero operand makes the product a
zero, or not-a-number. -/
theorem key_mul (hx : key x = key x') (hy : key y = key y') :
    key (x * y) = key (x' * y') := by
  refine packedKey_congr (UnpackedFloat.mul .binary64) (fun u => ?_) hx hy
  cases u with
  | zero t => exact ⟨packedKey_zeros _ _, packedKey_zeros _ _⟩
  | finite => exact ⟨packedKey_zeros _ _, packedKey_zeros _ _⟩
  | _ => exact ⟨rfl, rfl⟩

-- =========================================================== quotients

/-- The two zeros as dividend are divided alike. -/
theorem key_div_left (hx : key x = key x') (y : Float) :
    key (x / y) = key (x' / y) := by
  refine congr_of_zeros (f := fun x => key (x / y)) ?_ hx
  show packedKey (.div .binary64 _ _) = packedKey (.div .binary64 _ _)
  rw [unpack_zero, unpack_neg_zero]
  cases y.toModel.unpack with
  | finite => exact packedKey_zeros _ _
  | infinity => exact packedKey_zeros _ _
  | _ => rfl

/-- As divisors they are told apart by all numbers other than zeros. -/
theorem key_div_zeros_iff :
    key (x / 0.0) = key (x / -0.0) ↔ (x == 0.0) = true ∨ x.isNaN = true := by
  rw [eq_zero_iff_unpack]
  show packedKey (.div .binary64 _ _) = packedKey (.div .binary64 _ _)
    ↔ _ ∨ x.toModel.unpack.isNaN = true
  rw [unpack_zero, unpack_neg_zero]
  have hinfinities : packedKey (.infinity .positive)
      ≠ packedKey (.infinity .negative) := by decide
  cases x.toModel.unpack with
  | notANumber => exact iff_of_true rfl (.inr rfl)
  | zero s => exact iff_of_true rfl (.inl ⟨s, rfl⟩)
  | infinity s =>
      refine iff_of_false ?_ nofun
      cases s
      · exact hinfinities.symm
      · exact hinfinities
  | finite s m e hm =>
      refine iff_of_false ?_ nofun
      cases s
      · exact hinfinities.symm
      · exact hinfinities

/-- Quotients of equal numbers are equal, unless the divisors are the two
zeros and the dividend is a number other than zero. -/
theorem key_div_iff (hx : key x = key x') (hy : key y = key y') :
    key (x / y) = key (x' / y')
      ↔ y = y' ∨ (x == 0.0) = true ∨ x.isNaN = true := by
  rw [← key_div_left hx y', ← key_div_zeros_iff]
  have hne : (0.0 : Float) ≠ -0.0 := fun h =>
    absurd (congrArg Float.toBits h) (by decide)
  rcases eq_or_zeros_of_key_eq hy with rfl | ⟨rfl, rfl⟩ | ⟨rfl, rfl⟩
  · exact iff_of_true rfl (.inl rfl)
  · exact ⟨.inr, fun h => h.resolve_left hne⟩
  · rw [eq_comm]
    exact ⟨.inr, fun h => h.resolve_left hne.symm⟩

-- ============================================== remainders, roundings

theorem decode_zero : decode 0.0 = .finite false 0 minExponent := by decide

theorem decode_neg_zero : decode (-0.0) = .finite true 0 minExponent := by
  decide

theorem encode_zero (negative : Bool) (exponent : Int) :
    encode negative 0 exponent = pack negative 0 0 := by
  simp only [encode, Nat.zero_mul]
  rfl

/-- Whatever its sign and exponent, a significand of zero encodes a zero. -/
theorem key_encode_zero (negative : Bool) (exponent : Int) :
    key (encode negative 0 exponent) = 0 := by
  rw [encode_zero]
  cases negative <;> decide

/-- Remainders of equal numbers are equal: that of a zero is a zero, and
dividing by a zero leaves not-a-number. -/
theorem key_remainder (hx : key x = key x') (hy : key y = key y') :
    key (remainder x y) = key (remainder x' y') := by
  refine congr₂_of_zeros (f := fun x y => key (remainder x y)) (fun y => ?_)
    (fun x => ?_) hx hy
  · unfold remainder
    rw [decode_zero, decode_neg_zero]
    cases decode y with
    | nan => rfl
    | infinity negative =>
        show key 0.0 = key (-0.0)
        decide
    | finite negative n f =>
        by_cases hn : n = 0
        · simp only [hn, if_true]
        · simp only [hn, if_false, Nat.zero_mul, Nat.zero_mod, key_encode_zero]
  · unfold remainder
    rw [decode_zero, decode_neg_zero]
    cases decode x <;> rfl

/-- Both zeros are rounded to zeros. -/
theorem key_rounded (rule : RoundingRule) (h : key x = key x') :
    key (rule.apply x) = key (rule.apply x') := by
  refine congr_of_zeros (f := fun x => key (rule.apply x)) ?_ h
  cases rule <;> decide +kernel

-- ========================================================= comparisons

/-- The zeros have one place in the order. -/
theorem compare?_congr (hx : key x = key x') (hy : key y = key y') :
    compare? x y = compare? x' y' := by
  have hplace : place? (0.0 : Float).toModel.unpack
      = place? (-0.0 : Float).toModel.unpack := by
    rw [unpack_zero, unpack_neg_zero]
    rfl
  refine congr₂_of_zeros (fun y => ?_) (fun x => ?_) hx hy
  · simp only [compare?_eq_compare, unpacked_compare_eq, hplace]
  · simp only [compare?_eq_compare, unpacked_compare_eq, hplace]

end RelAlgebra.Binary64
