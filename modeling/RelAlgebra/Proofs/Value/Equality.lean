/-
Structural equality of values. Two floats have one key exactly when they
are the same or both zeros, so the only values that are equal without
being the same are the two zeros. Equality of values says the same as
equality of their hash data, hence it is an equivalence.
-/
import RelAlgebra.Value.Equality

namespace RelAlgebra

-- ============================================================== floats

namespace Binary64

open Float.Model

/-- The bits of negative zero: the sign alone. -/
def signBit : UInt64 := 0x8000000000000000

/-- A number is its bits. -/
theorem eq_of_toBits_eq {x y : Float} (h : x.toBits = y.toBits) : x = y := by
  obtain ⟨⟨bits, _⟩⟩ := x
  obtain ⟨⟨bits', _⟩⟩ := y
  have h : bits = bits' := h
  subst h
  rfl

/-- Bits as the word of the format. -/
abbrev word (bits : UInt64) : BitVec Format.binary64.numBits :=
  bits.toBitVec

/-- There is one not-a-number. -/
theorem eq_nan_of_isNaN {x : Float} (h : x.isNaN = true) : x = nan := by
  obtain ⟨⟨bits, valid⟩⟩ := x
  apply eq_of_toBits_eq
  have h : (UnpackedFloat.unpack .binary64 (word bits)).isNaN = true := h
  unfold UnpackedFloat.unpack at h
  dsimp only at h
  by_cases hexponent : UnpackedFloat.unpackExponent (word bits) = -1#_
  · rw [if_pos hexponent] at h
    by_cases hmantissa : UnpackedFloat.unpackMantissa (word bits) = 0#_
    · rw [if_pos hmantissa] at h
      cases h
    · apply UInt64.toBitVec_inj.1
      show bits.toBitVec = nan.toBits.toBitVec
      rw [valid.eq_packedNaN hexponent hmantissa]
      decide
  · rw [if_neg hexponent] at h
    by_cases hzero : UnpackedFloat.unpackExponent (word bits) = 0#_
    · rw [if_pos hzero] at h
      by_cases hmantissa : UnpackedFloat.unpackMantissa (word bits) = 0#_
      · rw [dif_pos hmantissa] at h
        cases h
      · rw [dif_neg hmantissa] at h
        cases h
    · rw [if_neg hzero] at h
      cases h

theorem unpack_zero :
    (0.0 : Float).toModel.unpack = .zero .positive := by
  have hbits : (0.0 : Float).toModel.toBits = 0 := by decide
  rw [Float.Model.unpack, hbits]
  rfl

/-- A zero has no bit set but possibly its sign. -/
theorem toBits_of_unpack_zero {x : Float} {s : UnpackedFloat.Sign}
    (h : x.toModel.unpack = .zero s) : x.toBits = 0 ∨ x.toBits = signBit := by
  obtain ⟨⟨bits, _⟩⟩ := x
  have h : UnpackedFloat.unpack .binary64 (word bits) = .zero s := h
  unfold UnpackedFloat.unpack at h
  dsimp only at h
  by_cases hspecial : UnpackedFloat.unpackExponent (word bits) = -1#_
  · rw [if_pos hspecial] at h
    by_cases hmantissa : UnpackedFloat.unpackMantissa (word bits) = 0#_
    · rw [if_pos hmantissa] at h
      cases h
    · rw [if_neg hmantissa] at h
      cases h
  · rw [if_neg hspecial] at h
    by_cases hexponent : UnpackedFloat.unpackExponent (word bits) = 0#_
    · rw [if_pos hexponent] at h
      by_cases hmantissa : UnpackedFloat.unpackMantissa (word bits) = 0#_
      · have hfield : bits.toNat / 2 ^ 52 % 2 ^ 11 = 0 := by
          have := congrArg BitVec.toNat hexponent
          simpa [UnpackedFloat.unpackExponent, Nat.shiftRight_eq_div_pow]
            using this
        have hfraction : bits.toNat % 2 ^ 52 = 0 := by
          have := congrArg BitVec.toNat hmantissa
          simpa [UnpackedFloat.unpackMantissa] using this
        have hlt : bits.toNat < 2 ^ 64 := bits.toNat_lt
        have hbits : bits.toNat = 0 ∨ bits.toNat = 2 ^ 63 := by omega
        rcases hbits with hbits | hbits
        · exact Or.inl (UInt64.toNat_inj.1 hbits)
        · exact Or.inr (UInt64.toNat_inj.1 hbits)
      · rw [dif_neg hmantissa] at h
        cases h
    · rw [if_neg hexponent] at h
      cases h

/-- The zeros are the patterns without a bit but the sign. -/
theorem toBits_of_eq_zero {x : Float} (h : (x == 0.0) = true) :
    x.toBits = 0 ∨ x.toBits = signBit := by
  have hcompare :
      x.toModel.unpack.compare (.zero .positive) = some .eq := by
    rw [← unpack_zero]
    exact eq_of_beq h
  cases hx : x.toModel.unpack with
  | zero s => exact toBits_of_unpack_zero hx
  | notANumber => rw [hx] at hcompare; cases hcompare
  | infinity s => rw [hx] at hcompare; cases s <;> cases hcompare
  | finite s m e hm => rw [hx] at hcompare; cases s <;> cases hcompare

/-- Both of these patterns are zeros. -/
theorem eq_zero_of_toBits {x : Float}
    (h : x.toBits = 0 ∨ x.toBits = signBit) : (x == 0.0) = true := by
  rcases h with h | h
  · have hx : x = 0.0 := eq_of_toBits_eq (by rw [h]; decide)
    rw [hx]
    decide
  · have hx : x = -0.0 := eq_of_toBits_eq (by rw [h]; decide)
    rw [hx]
    decide

/-- A number that is no zero is its own key; this includes the one
not-a-number. -/
theorem key_of_ne_zero {x : Float} (h : (x == 0.0) = false) :
    key x = x.toBits := by
  unfold key
  rw [if_neg (by rw [h]; decide)]
  split
  · rename_i hnan
    rw [eq_nan_of_isNaN hnan]
  · rfl

theorem key_of_eq_zero {x : Float} (h : (x == 0.0) = true) : key x = 0 := by
  unfold key
  rw [if_pos h]

/-- Two numbers have one key exactly if they are the same or both
zeros. -/
theorem key_eq_key_iff {x y : Float} :
    key x = key y ↔ x = y ∨ (x == 0.0) = true ∧ (y == 0.0) = true := by
  cases hx : x == 0.0 <;> cases hy : y == 0.0
  · rw [key_of_ne_zero hx, key_of_ne_zero hy]
    simpa using ⟨eq_of_toBits_eq, fun h => by rw [h]⟩
  · rw [key_of_ne_zero hx, key_of_eq_zero hy]
    have hne : x.toBits ≠ 0 := fun h => by
      rw [eq_zero_of_toBits (Or.inl h)] at hx
      cases hx
    have hxy : x ≠ y := fun h => by rw [h, hy] at hx; cases hx
    simp [hne, hxy]
  · rw [key_of_eq_zero hx, key_of_ne_zero hy]
    have hne : 0 ≠ y.toBits := fun h => by
      rw [eq_zero_of_toBits (Or.inl h.symm)] at hy
      cases hy
    have hxy : x ≠ y := fun h => by rw [h, hy] at hx; cases hx
    simp [hne, hxy]
  · simp [key_of_eq_zero hx, key_of_eq_zero hy]

end Binary64

-- ============================================================== values

namespace Value

/-- Values are equal exactly if their hash data are the same. -/
theorem beq_iff_digest (v w : Value) :
    (v == w) = true ↔ v.digest = w.digest := by
  cases v <;> cases w <;> try simp [BEq.beq, Value.beq, digest]
  case integer.integer i j =>
    refine ⟨fun h => by rw [h], fun h => ?_⟩
    rw [← Int64.toInt64_toUInt64 i, h, Int64.toInt64_toUInt64]

instance : EquivBEq Value := equivBEq_of_iff_apply_eq digest beq_iff_digest

/-- Whether the value is negative zero. -/
def isNegativeZero : Value → Bool
  | .float x => x.toBits == Binary64.signBit
  | _ => false

/-- Equal values differ at most in the sign of a zero. -/
theorem eq_of_beq {v w : Value} (h : (v == w) = true)
    (hsign : v.isNegativeZero = w.isNegativeZero) : v = w := by
  cases v <;> cases w <;> try simp [BEq.beq, Value.beq] at h
  case null.null => rfl
  case boolean.boolean => rw [h]
  case string.string => rw [h]
  case integer.integer => rw [h]
  case float.float x y =>
    rcases Binary64.key_eq_key_iff.1 h with h | ⟨hx, hy⟩
    · rw [h]
    · simp only [isNegativeZero] at hsign
      congr 1
      apply Binary64.eq_of_toBits_eq
      rcases Binary64.toBits_of_eq_zero hx with hx | hx <;>
        rcases Binary64.toBits_of_eq_zero hy with hy | hy <;>
        simp_all [Binary64.signBit]

end Value

-- =============================================================== lists

/-- If equality of elements is sameness of an image, then so is equality
of lists. -/
theorem list_beq_iff_map_eq {α β : Type} [BEq α] {f : α → β}
    (hf : ∀ a b, (a == b) = true ↔ f a = f b) (l m : List α) :
    (l == m) = true ↔ l.map f = m.map f := by
  induction l generalizing m with
  | nil => cases m <;> simp
  | cons a l ih =>
      cases m with
      | nil => simp
      | cons b m => simp [hf, ih]

instance : EquivBEq (List Value) :=
  equivBEq_of_iff_apply_eq (List.map Value.digest)
    (list_beq_iff_map_eq Value.beq_iff_digest)

end RelAlgebra
