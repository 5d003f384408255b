/-
When values compare, and when they compare as equal. Two numbers compare as
equal if they are the same or both zeros, unless one is not-a-number; that is
how structural equality identifies them, which also identifies not-a-number
with itself. So comparing as equal is structural equality without
not-a-number. Values of one declared type fail to compare only where one of
them is not-a-number.
-/
import Mathlib
import RelAlgebra.Expression.Operator
import RelAlgebra.Proofs.Value.Equality
import RelAlgebra.Proofs.Value.Order

namespace RelAlgebra

-- ============================================================== floats

namespace Binary64

open Float.Model

variable {x y : Float}

theorem compare?_eq_compare (x y : Float) :
    compare? x y = x.toModel.unpack.compare y.toModel.unpack := by
  refine Option.ext fun o => ?_
  rw [compare?_eq_some_iff, unpacked_compare_eq]
  cases place? x.toModel.unpack with
  | none => simp
  | some p => cases place? y.toModel.unpack <;> simp

/-- All numbers but not-a-number have a place, and hence compare. -/
theorem exists_compare? (hx : x.isNaN = false) (hy : y.isNaN = false) :
    ∃ o, compare? x y = some o := by
  have hplace : ∀ {x : Float}, x.isNaN = false →
      ∃ p, place? x.toModel.unpack = some p := by
    intro x hx
    have hx : x.toModel.unpack.isNaN = false := hx
    cases hunpack : x.toModel.unpack with
    | notANumber =>
        rw [hunpack] at hx
        cases hx
    | infinity s => cases s <;> exact ⟨_, rfl⟩
    | zero s => exact ⟨_, rfl⟩
    | finite s m e hm => cases s <;> exact ⟨_, rfl⟩
  obtain ⟨p, hp⟩ := hplace hx
  obtain ⟨q, hq⟩ := hplace hy
  exact ⟨_, compare?_eq_some_iff.2 ⟨p, q, hp, hq, rfl⟩⟩

/-- They compare as equal exactly if they are equal as numbers. -/
theorem compare?_eq_some_eq_iff :
    compare? x y = some .eq ↔ (x == y) = true := by
  rw [compare?_eq_compare]
  exact (beq_iff_eq (a := x.toModel.unpack.compare y.toModel.unpack)).symm

/-- Numbers compare as equal if they have one key, but for not-a-number. -/
theorem compare?_eq_some_eq_iff_key :
    compare? x y = some .eq ↔ key x = key y ∧ x.isNaN = false := by
  rw [compare?_eq_some_eq_iff, key_eq_key_iff, Float.isNaN_eq_decide_eq_nan,
    decide_eq_false_iff_not]
  constructor
  · intro h
    obtain ⟨hx, -, rfl | ⟨rfl, rfl⟩ | ⟨rfl, rfl⟩⟩ :=
      Float.beq_iff_ne_nan_and_eq.1 h
    · exact ⟨.inl rfl, hx⟩
    · exact ⟨.inr (by decide), hx⟩
    · exact ⟨.inr (by decide), hx⟩
  · intro h
    obtain ⟨rfl | ⟨hx, hy⟩, hnan⟩ := h
    · exact Float.beq_self_iff.2 hnan
    · have hx := compare?_eq_some_eq_iff.2 hx
      have hy := coherent_compare?.swap (compare?_eq_some_eq_iff.2 hy)
      exact compare?_eq_some_eq_iff.1
        (coherent_compare?.trans hx hy nofun nofun)

end Binary64

-- ============================================================== values

namespace Value

variable {v w : Value}

/-- Whether the value is not-a-number. -/
def isNaN : Value → Bool
  | .float x => x.isNaN
  | _ => false

/-- Whether the value is a zero of either sign. -/
def isZero : Value → Bool
  | .float x => x == 0.0
  | _ => false

/-- Values are equal if they are the same or both zeros. -/
theorem beq_iff_eq_or_zeros :
    (v == w) = true ↔ v = w ∨ v.isZero = true ∧ w.isZero = true := by
  cases v with
  | float x =>
      cases w with
      | float y =>
          show (Binary64.key x == Binary64.key y) = true ↔ _
          rw [beq_iff_eq, Binary64.key_eq_key_iff, Value.float.injEq]
          rfl
      | _ => simp [BEq.beq, Value.beq, isZero]
  | _ => cases w <;> simp [BEq.beq, Value.beq, isZero]

/-- Comparing comes to the order that there is. -/
theorem compare_eq_ok_iff {o : Ordering} :
    v.compare w = .ok o ↔ Compares v w o := by
  rw [← compare?_eq_some_iff]
  unfold compare
  cases compare? v w <;> simp

/-- Comparing as equal is being equal, but for not-a-number, which is equal
to itself and does not compare. -/
theorem compares_eq_iff :
    Compares v w .eq ↔ (v == w) = true ∧ v.isNaN = false := by
  rw [← compare?_eq_some_iff]
  cases v with
  | float x =>
      cases w with
      | float y =>
          show _ ↔ (Binary64.key x == Binary64.key y) = true ∧ _
          rw [beq_iff_eq]
          exact Binary64.compare?_eq_some_eq_iff_key
      | _ => simp [compare?, BEq.beq, Value.beq]
  | _ => cases w <;> simp [compare?, BEq.beq, Value.beq, isNaN]

/-- A value that conforms is absent, or of the declared type. -/
theorem eq_null_or_type?_of_conforms {type : AttributeType}
    (hv : v.conforms type = true) :
    v = .null ∨ v.type? = some type.valueType := by
  unfold conforms at hv
  cases htype : v.type? with
  | none => cases v <;> first | exact .inl rfl | cases htype
  | some t =>
      rw [htype] at hv
      exact .inr (congrArg some (of_decide_eq_true hv))

/-- Values of one declared type compare, unless one is not-a-number. -/
theorem exists_compares {type : AttributeType} (hv : v.conforms type = true)
    (hw : w.conforms type = true) (hvnan : v.isNaN = false)
    (hwnan : w.isNaN = false) : ∃ o, Compares v w o := by
  by_cases hvnull : v = .null
  · by_cases hwnull : w = .null
    · exact ⟨.eq, hvnull ▸ hwnull ▸ .null⟩
    · exact ⟨.lt, hvnull ▸ .below hwnull⟩
  by_cases hwnull : w = .null
  · exact ⟨.gt, hwnull ▸ .above hvnull⟩
  have hvtype := (eq_null_or_type?_of_conforms hv).resolve_left hvnull
  have hwtype := (eq_null_or_type?_of_conforms hw).resolve_left hwnull
  have hsame : v.type? = w.type? := hvtype.trans hwtype.symm
  cases v with
  | null => cases hvtype
  | boolean a =>
      cases w with
      | boolean b => exact ⟨_, .boolean a b⟩
      | _ => cases hsame
  | string a =>
      cases w with
      | string b => exact ⟨_, .string a b⟩
      | _ => cases hsame
  | integer a =>
      cases w with
      | integer b => exact ⟨_, .integer a b⟩
      | _ => cases hsame
  | float x =>
      cases w with
      | float y =>
          obtain ⟨o, ho⟩ := Binary64.exists_compare? hvnan hwnan
          exact ⟨o, .float ho⟩
      | _ => cases hsame

/-- Where values of one declared type are compared for equality, the
comparison says whether they are equal. -/
theorem apply_eq_of_conforms {type : AttributeType}
    (hv : v.conforms type = true) (hw : w.conforms type = true)
    (hvnan : v.isNaN = false) (hwnan : w.isNaN = false) :
    ComparisonOperator.eq.apply v w = .ok (v == w) := by
  obtain ⟨o, ho⟩ := exists_compares hv hw hvnan hwnan
  have heq : decide (o = .eq) = (v == w) := by
    rw [Bool.eq_iff_iff, decide_eq_true_iff]
    constructor
    · intro heq
      rw [heq] at ho
      exact (compares_eq_iff.1 ho).1
    · intro hbeq
      have hcompare := compare_eq_ok_iff.2 (compares_eq_iff.2 ⟨hbeq, hvnan⟩)
      rw [compare_eq_ok_iff.2 ho] at hcompare
      exact Except.ok.inj hcompare
  unfold ComparisonOperator.apply
  rw [compare_eq_ok_iff.2 ho]
  exact congrArg Except.ok heq

end Value

end RelAlgebra
