/-
The order of values, floats read off their bits. A pattern of bits is a sign
with a magnitude: the exponent, and below it the fraction. Numbers compare as
these signed magnitudes do, and the patterns above the infinities are the ones
of not-a-number, which compare with none. The way goes over the places of
numbers: sign, exponent and mantissa, one after the other, weigh as much as the
signed magnitude.

So the order of values is a total preorder wherever it is there: two values
compare both ways or not at all, what lies between values makes them compare,
and they compare as equal exactly if they are structurally equal, but for
not-a-number, which is equal to itself and does not compare.
-/
import RelAlgebra.Proofs.Value.Comparison
import RelAlgebra.Proofs.Value.Congruence

namespace RelAlgebra

namespace Binary64

open Float.Model
open scoped Std

attribute [local instance] lexOrd

-- ============================================================ patterns

/-- The exponent as it is written in the bits. -/
def exponentField (bits : UInt64) : Nat := bits.toNat / 2 ^ 52 % 2 ^ 11

/-- The fraction as it is written in the bits. -/
def fractionField (bits : UInt64) : Nat := bits.toNat % 2 ^ 52

/-- Whether the bits are those of a not-a-number, of either sign and with any
fraction. -/
def IsNaNPattern (bits : UInt64) : Prop :=
  exponentField bits = 2047 ∧ fractionField bits ≠ 0

instance : DecidablePred IsNaNPattern :=
  fun _ => inferInstanceAs (Decidable (_ ∧ _))

/-- The bits as a number: the magnitude below the sign bit, negative if that
is set. -/
def signedMagnitude (bits : UInt64) : Int :=
  if bits.toNat < 2 ^ 63 then bits.toNat else 2 ^ 63 - bits.toNat

/-- The sign that the bits have. -/
def signOf (bits : UInt64) : UnpackedFloat.Sign :=
  if bits.toNat < 2 ^ 63 then .positive else .negative

variable {bits : UInt64}

/-- The exponent that is unpacked is the exponent field. -/
theorem toNat_unpackExponent :
    (UnpackedFloat.unpackExponent (word bits)).toNat = exponentField bits := by
  simp [UnpackedFloat.unpackExponent, Nat.shiftRight_eq_div_pow,
    exponentField]

theorem toNat_unpackMantissa :
    (UnpackedFloat.unpackMantissa (word bits)).toNat = fractionField bits := by
  simp [UnpackedFloat.unpackMantissa, fractionField]

theorem ofBitVec_unpackSign :
    UnpackedFloat.Sign.ofBitVec (UnpackedFloat.unpackSign (word bits))
      = signOf bits := by
  have hlt : bits.toNat < 2 ^ 64 := bits.toNat_lt
  have hsign : (UnpackedFloat.unpackSign (word bits)).toNat
      = bits.toNat / 2 ^ 63 % 2 := by
    simp [UnpackedFloat.unpackSign, Nat.shiftRight_eq_div_pow]
  have hpositive : UnpackedFloat.unpackSign (word bits) = 0#1
      ↔ bits.toNat < 2 ^ 63 := by
    rw [← BitVec.toNat_inj, hsign]
    show bits.toNat / 2 ^ 63 % 2 = 0 ↔ _
    omega
  simp only [UnpackedFloat.Sign.ofBitVec, signOf, hpositive]

/-- What bits are unpacked to. -/
inductive Unpacks (bits : UInt64) : UnpackedFloat → Prop
  | notANumber (h : IsNaNPattern bits) : Unpacks bits .notANumber
  | infinity (he : exponentField bits = 2047) (hm : fractionField bits = 0) :
    Unpacks bits (.infinity (signOf bits))
  | zero (he : exponentField bits = 0) (hm : fractionField bits = 0) :
    Unpacks bits (.zero (signOf bits))
  | subnormal {m : Nat} {e : Int} (hpos : 0 < m)
    (hexponent : exponentField bits = 0) (hm : m = fractionField bits)
    (he : e = -1074) :
    Unpacks bits (.finite (signOf bits) m e hpos)
  | normal {m : Nat} {e : Int} (hpos : 0 < m)
    (hexponent : exponentField bits ≠ 0 ∧ exponentField bits < 2047)
    (hm : m = 2 ^ 52 + fractionField bits)
    (he : e = exponentField bits - 1075) :
    Unpacks bits (.finite (signOf bits) m e hpos)

/-- Every bit pattern unpacks as its fields say. -/
theorem unpacks (bits : UInt64) :
    Unpacks bits (UnpackedFloat.unpack .binary64 (word bits)) := by
  have hspecial : UnpackedFloat.unpackExponent (word bits) = -1#_
      ↔ exponentField bits = 2047 := by
    rw [← BitVec.toNat_inj, toNat_unpackExponent]
    rfl
  have hleast : UnpackedFloat.unpackExponent (word bits) = 0#_
      ↔ exponentField bits = 0 := by
    rw [← BitVec.toNat_inj, toNat_unpackExponent]
    rfl
  have hmantissa : UnpackedFloat.unpackMantissa (word bits) = 0#_
      ↔ fractionField bits = 0 := by
    rw [← BitVec.toNat_inj, toNat_unpackMantissa]
    rfl
  unfold UnpackedFloat.unpack
  dsimp only
  rw [ofBitVec_unpackSign]
  by_cases he : exponentField bits = 2047
  · rw [if_pos (hspecial.2 he)]
    by_cases hm : fractionField bits = 0
    · rw [if_pos (hmantissa.2 hm)]
      exact .infinity he hm
    · rw [if_neg (mt hmantissa.1 hm)]
      exact .notANumber ⟨he, hm⟩
  · rw [if_neg (mt hspecial.1 he)]
    by_cases he' : exponentField bits = 0
    · rw [if_pos (hleast.2 he')]
      by_cases hm : fractionField bits = 0
      · rw [dif_pos (hmantissa.2 hm)]
        exact .zero he' hm
      · rw [dif_neg (mt hmantissa.1 hm)]
        refine .subnormal _ he' toNat_unpackMantissa ?_
        rw [toNat_unpackExponent, he']
        rfl
    · rw [if_neg (mt hleast.1 he')]
      refine .normal _ ⟨he', ?_⟩ ?_ ?_
      · have hlt : exponentField bits < 2 ^ 11 := Nat.mod_lt _ (by decide)
        omega
      · have hlt : fractionField bits < 2 ^ 52 := Nat.mod_lt _ (by decide)
        rw [BitVec.toNat_append, toNat_unpackMantissa]
        exact (Nat.two_pow_add_eq_or_of_lt hlt 1).symm
      · rw [toNat_unpackExponent]
        rfl

-- ============================================================= weights

/-- Triples are compared by the first place where they differ. -/
theorem compare_triple_eq_lt_iff {i i' j j' k k' : Int} :
    Ord.compare (i, j, k) (i', j', k') = .lt
      ↔ i < i' ∨ i = i' ∧ (j < j' ∨ j = j' ∧ k < k') := by
  rw [compare_triple]
  simp only [Ordering.then_eq_lt, Int.compare_eq_lt, Int.compare_eq_eq]

theorem compare_triple_eq_eq_iff {i i' j j' k k' : Int} :
    Ord.compare (i, j, k) (i', j', k') = .eq ↔ i = i' ∧ j = j' ∧ k = k' := by
  rw [compare_triple]
  simp only [Ordering.then_eq_eq, Int.compare_eq_eq]

/-- What the places of numbers weigh. Mantissas are full but at the least
exponent, so a greater exponent always weighs more. -/
inductive Weighs : Int × Int × Int → Int → Prop
  | zero : Weighs (0, 0, 0) 0
  | positive {e : Int} {m : Nat} (hpos : 0 < m) (hlt : m < 2 ^ 53)
    (he : -1074 ≤ e ∧ e ≤ 971) (hfull : e = -1074 ∨ 2 ^ 52 ≤ m) :
    Weighs (1, e, m) ((e + 1074) * 2 ^ 52 + m)
  | negative {e : Int} {m : Nat} (hpos : 0 < m) (hlt : m < 2 ^ 53)
    (he : -1074 ≤ e ∧ e ≤ 971) (hfull : e = -1074 ∨ 2 ^ 52 ≤ m) :
    Weighs (-1, -e, -m) (-((e + 1074) * 2 ^ 52 + m))
  | infinity : Weighs (2, 0, 0) (2047 * 2 ^ 52)
  | negativeInfinity : Weighs (-2, 0, 0) (-(2047 * 2 ^ 52))

namespace Weighs

variable {p q : Int × Int × Int} {n n' : Int}

/-- What weighs less is less. -/
theorem compare_eq_lt (hp : Weighs p n) (hq : Weighs q n') (h : n < n') :
    Ord.compare p q = .lt := by
  cases hp <;> cases hq <;> exact compare_triple_eq_lt_iff.2 (by omega)

theorem compare_eq_eq (hp : Weighs p n) (hq : Weighs q n') (h : n = n') :
    Ord.compare p q = .eq := by
  cases hp <;> cases hq <;> exact compare_triple_eq_eq_iff.2 (by omega)

/-- Places are in the order of their weights. -/
theorem compare_eq (hp : Weighs p n) (hq : Weighs q n') :
    Ord.compare p q = Ord.compare n n' := by
  rcases Int.lt_trichotomy n n' with h | h | h
  · rw [hp.compare_eq_lt hq h, Int.compare_eq_lt.2 h]
  · rw [hp.compare_eq_eq hq h, Int.compare_eq_eq.2 h]
  · rw [Std.OrientedOrd.eq_swap, hq.compare_eq_lt hp h, Int.compare_eq_gt.2 h]
    rfl

end Weighs

/-- The sign is the top bit, and exponent and fraction are the others. -/
theorem signed_cases (bits : UInt64) :
    signOf bits = .positive ∧ signedMagnitude bits
        = exponentField bits * 2 ^ 52 + fractionField bits
      ∨ signOf bits = .negative ∧ signedMagnitude bits
        = -(exponentField bits * 2 ^ 52 + fractionField bits) := by
  have hlt : bits.toNat < 2 ^ 64 := bits.toNat_lt
  unfold signOf signedMagnitude exponentField fractionField
  by_cases hsign : bits.toNat < 2 ^ 63
  · rw [if_pos hsign, if_pos hsign]
    exact .inl ⟨rfl, by omega⟩
  · rw [if_neg hsign, if_neg hsign]
    exact .inr ⟨rfl, by omega⟩

/-- A finite number has a place, which weighs what its exponent and mantissa
do. -/
theorem exists_weighs_finite {m : Nat} {e : Int} (hpos : 0 < m)
    (hlt : m < 2 ^ 53) (he : -1074 ≤ e ∧ e ≤ 971)
    (hfull : e = -1074 ∨ 2 ^ 52 ≤ m)
    (hweight : (exponentField bits * 2 ^ 52 + fractionField bits : Int)
      = (e + 1074) * 2 ^ 52 + m) :
    ∃ p, place? (.finite (signOf bits) m e hpos) = some p
      ∧ Weighs p (signedMagnitude bits) := by
  rcases signed_cases bits with ⟨hsign, hn⟩ | ⟨hsign, hn⟩
  · rw [hsign, hn, hweight]
    exact ⟨_, rfl, .positive hpos hlt he hfull⟩
  · rw [hsign, hn, hweight]
    exact ⟨_, rfl, .negative hpos hlt he hfull⟩

/-- All patterns but those of not-a-number have a place, which weighs what the
bits say. -/
theorem exists_weighs (h : ¬IsNaNPattern bits) :
    ∃ p, place? (UnpackedFloat.unpack .binary64 (word bits)) = some p
      ∧ Weighs p (signedMagnitude bits) := by
  have hlt : fractionField bits < 2 ^ 52 := Nat.mod_lt _ (by decide)
  have hunpacks := unpacks bits
  generalize UnpackedFloat.unpack .binary64 (word bits) = x at hunpacks
  cases hunpacks with
  | notANumber hnan => exact absurd hnan h
  | infinity hexponent hm =>
      rcases signed_cases bits with ⟨hsign, hn⟩ | ⟨hsign, hn⟩
      · rw [hsign, hn, hexponent, hm]
        exact ⟨_, rfl, .infinity⟩
      · rw [hsign, hn, hexponent, hm]
        exact ⟨_, rfl, .negativeInfinity⟩
  | zero hexponent hm =>
      rcases signed_cases bits with ⟨hsign, hn⟩ | ⟨hsign, hn⟩
      · rw [hsign, hn, hexponent, hm]
        exact ⟨_, rfl, .zero⟩
      · rw [hsign, hn, hexponent, hm]
        exact ⟨_, rfl, .zero⟩
  | @subnormal m e hpos hexponent hm he =>
      exact exists_weighs_finite hpos (by omega) (by omega) (by omega)
        (by omega)
  | @normal m e hpos hexponent hm he =>
      exact exists_weighs_finite hpos (by omega) (by omega) (by omega)
        (by omega)

-- ====================================================== read off bits

/-- Bits are unpacked as they are; only those of not-a-number are replaced. -/
theorem unpack_ofBits (bits : UInt64) :
    (Float.ofBits bits).toModel.unpack
      = UnpackedFloat.unpack .binary64 (word bits) := by
  show UnpackedFloat.unpack .binary64 (UnpackedFloat.pack .binary64
      (UnpackedFloat.unpack .binary64 (word bits))) = _
  rw [UnpackedFloat.pack_unpack]
  split
  · rename_i hnan
    rw [UnpackedFloat.unpack_packedNaN]
    simp only [UnpackedFloat.isNaNBits, decide_eq_true_eq] at hnan
    simp [UnpackedFloat.unpack, hnan]
  · rfl

/-- Every number is what is read off its bits. -/
theorem ofBits_toBits (x : Float) : Float.ofBits x.toBits = x := by
  obtain ⟨⟨bits, valid⟩⟩ := x
  apply eq_of_toBits_eq
  apply UInt64.toBitVec_inj.1
  show UnpackedFloat.pack .binary64
    (UnpackedFloat.unpack .binary64 (word bits)) = bits.toBitVec
  rw [UnpackedFloat.pack_unpack]
  split
  · rename_i hnan
    simp only [UnpackedFloat.isNaNBits, decide_eq_true_eq] at hnan
    exact (valid.eq_packedNaN hnan.1 hnan.2).symm
  · rfl

/-- Not-a-number has no place in the order. -/
theorem isNaN_iff_place? {x : UnpackedFloat} :
    x.isNaN = true ↔ place? x = none := by
  cases x with
  | infinity s => cases s <;> exact ⟨nofun, nofun⟩
  | zero s => exact ⟨nofun, nofun⟩
  | finite s m e hm => cases s <;> exact ⟨nofun, nofun⟩
  | notANumber => exact ⟨fun _ => rfl, fun _ => rfl⟩

/-- So a bit pattern has none if it is one of the many of not-a-number. -/
theorem place?_ofBits_eq_none_iff :
    place? (Float.ofBits bits).toModel.unpack = none
      ↔ IsNaNPattern bits := by
  rw [unpack_ofBits]
  constructor
  · intro hplace
    by_contra hnumber
    obtain ⟨p, hp, -⟩ := exists_weighs hnumber
    cases hplace.symm.trans hp
  · intro hnan
    have hunpacks := unpacks bits
    generalize UnpackedFloat.unpack .binary64 (word bits) = x at hunpacks
    cases hunpacks with
    | notANumber => rfl
    | infinity _ hm => exact absurd hm hnan.2
    | zero he _ => exact absurd (he.symm.trans hnan.1) (by decide)
    | subnormal _ he => exact absurd (he.symm.trans hnan.1) (by decide)
    | normal _ he => exact absurd hnan.1 he.2.ne

/-- All the patterns of not-a-number make not-a-number, and no others do. -/
theorem isNaN_ofBits :
    (Float.ofBits bits).isNaN = true ↔ IsNaNPattern bits :=
  isNaN_iff_place?.trans place?_ofBits_eq_none_iff

/-- Numbers compare as the signed magnitudes of their bits. -/
theorem compare?_ofBits (bits bits' : UInt64) :
    compare? (Float.ofBits bits) (Float.ofBits bits')
      = if IsNaNPattern bits ∨ IsNaNPattern bits' then none
        else some
          (Ord.compare (signedMagnitude bits) (signedMagnitude bits')) := by
  rw [compare?_eq_compare, unpacked_compare_eq]
  by_cases hnan : IsNaNPattern bits
  · rw [if_pos (.inl hnan), place?_ofBits_eq_none_iff.2 hnan]
    rfl
  by_cases hnan' : IsNaNPattern bits'
  · rw [if_pos (.inr hnan'), place?_ofBits_eq_none_iff.2 hnan']
    exact Option.bind_fun_none _
  obtain ⟨p, hp, hweight⟩ := exists_weighs hnan
  obtain ⟨q, hq, hweight'⟩ := exists_weighs hnan'
  rw [if_neg (not_or.2 ⟨hnan, hnan'⟩), unpack_ofBits, unpack_ofBits, hp, hq,
    ← hweight.compare_eq hweight']
  rfl

end Binary64

namespace Value

open Binary64

variable {a b : Value} {o : Ordering}

-- ======================================================= total preorder

/-- Values that compare as equal are equal, and none of them
is not-a-number. -/
theorem compare_eq_ok_eq_iff :
    a.compare b = .ok .eq ↔ (a == b) = true ∧ a.isNaN = false :=
  compare_eq_ok_iff.trans compares_eq_iff

/-- The comparison from either side: both fail, or one is the other's
reverse. -/
theorem compare_eq_ok_swap_iff :
    a.compare b = .ok o ↔ b.compare a = .ok o.swap := by
  constructor
  · exact coherent_compare.swap
  · intro h
    rw [← Ordering.swap_swap (o := o)]
    exact coherent_compare.swap h

/-- Equal values are both numbers or both not-a-number. -/
theorem isNaN_congr (h : (a == b) = true) : a.isNaN = b.isNaN := by
  have hnumber : ∀ {a b : Value}, (a == b) = true → a.isNaN = false →
      b.isNaN = false := fun h ha =>
    (compare_eq_ok_eq_iff.1
      (coherent_compare.swap (compare_eq_ok_eq_iff.2 ⟨h, ha⟩))).2
  cases ha : a.isNaN with
  | false => exact (hnumber h ha).symm
  | true =>
      cases hb : b.isNaN with
      | true => rfl
      | false => exact ha.symm.trans (hnumber (BEq.symm h) hb)

/-- Equal values that compare do so as equal, as each does with itself. -/
theorem eq_of_beq_of_compare (hbeq : (a == b) = true)
    (h : a.compare b = .ok o) : o = .eq := by
  have hself : a.compare a = .ok o := by
    rw [compare_eq_ok_iff, ← compare?_eq_some_iff] at h ⊢
    rw [compare?_congr BEq.rfl hbeq, h]
  have hswap := coherent_compare.swap hself
  rw [hself] at hswap
  cases o with
  | eq => rfl
  | lt => cases hswap
  | gt => cases hswap

-- ====================================================== read off bits

/-- The float of these bits. -/
def ofBits (bits : UInt64) : Value := .float (Float.ofBits bits)

theorem isNaN_ofBits {bits : UInt64} :
    (ofBits bits).isNaN = true ↔ IsNaNPattern bits :=
  Binary64.isNaN_ofBits

/-- They all make the same value, as payloads are lost. -/
theorem ofBits_eq_nan {bits : UInt64} (h : IsNaNPattern bits) :
    ofBits bits = .float nan :=
  congrArg Value.float (eq_nan_of_isNaN (Binary64.isNaN_ofBits.2 h))

/-- Floats are compared by sign and magnitude of their bits, unless one of the
patterns is not-a-number; then they have no order. -/
theorem compare_ofBits (bits bits' : UInt64) :
    (ofBits bits).compare (ofBits bits')
      = if IsNaNPattern bits ∨ IsNaNPattern bits' then
          .error (.incompatible (ofBits bits) (ofBits bits'))
        else
          .ok (Ord.compare (signedMagnitude bits)
            (signedMagnitude bits')) := by
  have hcompare : compare? (ofBits bits) (ofBits bits')
      = if IsNaNPattern bits ∨ IsNaNPattern bits' then none
        else some
          (Ord.compare (signedMagnitude bits) (signedMagnitude bits')) :=
    compare?_ofBits bits bits'
  unfold compare
  rw [hcompare]
  split_ifs <;> rfl

/-- Floats are equal if they are the same number, or both no number. -/
theorem beq_ofBits (bits bits' : UInt64) :
    (ofBits bits == ofBits bits') = true
      ↔ IsNaNPattern bits ∧ IsNaNPattern bits'
        ∨ ¬IsNaNPattern bits ∧ ¬IsNaNPattern bits'
          ∧ signedMagnitude bits = signedMagnitude bits' := by
  have hnumber : (ofBits bits == ofBits bits') = true
        ∧ (ofBits bits).isNaN = false
      ↔ ¬(IsNaNPattern bits ∨ IsNaNPattern bits')
        ∧ signedMagnitude bits = signedMagnitude bits' := by
    rw [← compare_eq_ok_eq_iff, compare_ofBits]
    split_ifs with hnan
    · exact ⟨nofun, fun h => absurd hnan h.1⟩
    · rw [Except.ok.injEq, Int.compare_eq_eq]
      exact ⟨fun h => ⟨hnan, h⟩, And.right⟩
  by_cases hnan : IsNaNPattern bits
  · constructor
    · intro h
      have hnan' := (isNaN_congr h).symm.trans (isNaN_ofBits.2 hnan)
      exact .inl ⟨hnan, isNaN_ofBits.1 hnan'⟩
    · rintro (⟨-, hnan'⟩ | ⟨hnumber, -⟩)
      · rw [ofBits_eq_nan hnan, ofBits_eq_nan hnan']
        exact BEq.rfl
      · exact absurd hnan hnumber
  · have hbits : (ofBits bits).isNaN = false :=
      Bool.not_eq_true _ ▸ mt isNaN_ofBits.1 hnan
    rw [hbits] at hnumber
    simpa [hnan] using hnumber

/-- The comparison of values is a total preorder on those that compare, and
fits together with equality; floats compare as the numbers that their bits
are. -/
theorem compare_totalPreorder :
    (∀ a b o, Value.compare a b = .ok o ↔ b.compare a = .ok o.swap)
      ∧ (∀ a b c o o', Value.compare a b = .ok o → b.compare c = .ok o' →
          o ≠ .gt → o' ≠ .gt →
          ∃ o'', a.compare c = .ok o'' ∧ o'' ≠ .gt
            ∧ (o = .lt ∨ o' = .lt → o'' = .lt))
      ∧ (∀ a b o, Value.compare a b = .ok o →
          (o = .eq ↔ (a == b) = true))
      ∧ (∀ a b : Value, (a == b) = true →
          (a.compare b ≠ .ok .eq ↔ a.isNaN = true ∧ b.isNaN = true))
      ∧ (∀ x : Float, Value.float x = ofBits x.toBits)
      ∧ (∀ bits, (ofBits bits).isNaN = true ↔ IsNaNPattern bits)
      ∧ (∀ bits bits', (ofBits bits).compare (ofBits bits')
          = if IsNaNPattern bits ∨ IsNaNPattern bits' then
              .error (.incompatible (ofBits bits) (ofBits bits'))
            else
              .ok (Ord.compare (signedMagnitude bits)
                (signedMagnitude bits')))
      ∧ ∀ bits bits', (ofBits bits == ofBits bits') = true
          ↔ IsNaNPattern bits ∧ IsNaNPattern bits'
            ∨ ¬IsNaNPattern bits ∧ ¬IsNaNPattern bits'
              ∧ signedMagnitude bits = signedMagnitude bits' := by
  refine ⟨fun a b o => compare_eq_ok_swap_iff, ?_, ?_, ?_,
    fun x => congrArg Value.float (ofBits_toBits x).symm,
    fun bits => isNaN_ofBits, compare_ofBits, beq_ofBits⟩
  · intro a b c o o' hab hbc ho ho'
    refine ⟨o.then o', coherent_compare.trans hab hbc ho ho', ?_, ?_⟩
    · cases o with
      | lt => exact nofun
      | eq => exact ho'
      | gt => contradiction
    · rintro (rfl | rfl)
      · rfl
      · cases o with
        | gt => contradiction
        | _ => rfl
  · intro a b o hab
    refine ⟨?_, fun hbeq => eq_of_beq_of_compare hbeq hab⟩
    rintro rfl
    exact (compare_eq_ok_eq_iff.1 hab).1
  · intro a b hbeq
    rw [Ne, compare_eq_ok_eq_iff, ← isNaN_congr hbeq]
    simp [hbeq]

/-- Zeros are equal and below one, whatever their sign; bits of no number are
equal and do not compare. -/
theorem compare_totalPreorder_zeros :
    compare (.float (-0.0)) (.float 0.0) = .ok .eq
      ∧ compare (.float 0.0) (.float 1.0) = .ok .lt
      ∧ compare (.float (-0.0)) (.float 1.0) = .ok .lt
      ∧ (Value.float (-0.0) == .float 0.0) = true
      ∧ (ofBits 0x7ff0000000000001 == ofBits 0xfff8000000000000) = true
      ∧ compare (ofBits 0x7ff0000000000001) (ofBits 0xfff8000000000000)
        ≠ .ok .eq := by
  obtain ⟨-, htrans, heq, hne, -, hnan, -, hbeq⟩ := compare_totalPreorder
  have hzeros : compare (.float (-0.0)) (.float 0.0) = .ok .eq := rfl
  have hone : compare (.float 0.0) (.float 1.0) = .ok .lt := rfl
  obtain ⟨o, ho, -, hlt⟩ := htrans _ _ _ _ _ hzeros hone nofun nofun
  have hsame := (hbeq 0x7ff0000000000001 0xfff8000000000000).2
    (.inl ⟨by decide, by decide⟩)
  exact ⟨hzeros, hone, hlt (.inr rfl) ▸ ho, (heq _ _ _ hzeros).1 rfl, hsame,
    (hne _ _ hsame).2 ⟨(hnan _).2 (by decide), (hnan _).2 (by decide)⟩⟩

end Value

end RelAlgebra
