/-
Operations on equal values. Equal values are the same, or floats of one key;
so an operation that answers the same to the same operands has to be looked
at on floats only. There it comes to equal results, to one result, or to a
mismatch, which shows its operands. The one exception is division, by zeros
of opposite sign.
-/
import RelAlgebra.Expression.Evaluation
import RelAlgebra.Expression.Equality
import RelAlgebra.Proofs.Error.Equality
import RelAlgebra.Proofs.Query.Tolerance
import RelAlgebra.Proofs.Value.Zeros
import RelAlgebra.Value.Text

namespace RelAlgebra

-- ====================================================== alike results

/-- Failing both, with equal errors. -/
def Tolerance.equalErrors {ε : Type} [BEq ε] : Tolerance ε ε :=
  ⟨fun _ => False, fun _ => False, fun e e' => (e == e') = true⟩

/-- Both evaluations come to equal results, or both fail with equal
errors. -/
abbrev Alike {ε α : Type} [BEq ε] [BEq α] : Except ε α → Except ε α → Prop :=
  Tolerance.equalErrors.Relates fun a b => (a == b) = true

namespace Alike

variable {ε α : Type} [BEq ε] [BEq α]

theorem ok {a b : α} (h : (a == b) = true) :
    Alike (.ok a : Except ε α) (.ok b) :=
  Tolerance.Relates.ok h

theorem error {e e' : ε} (h : (e == e') = true) :
    Alike (.error e : Except ε α) (.error e') :=
  Tolerance.Relates.both h

theorem refl [ReflBEq ε] [ReflBEq α] (x : Except ε α) : Alike x x := by
  cases x with
  | ok a => exact ok BEq.rfl
  | error e => exact error BEq.rfl

theorem ok_iff {a b : α} :
    Alike (.ok a : Except ε α) (.ok b) ↔ (a == b) = true := by
  refine ⟨fun h => ?_, ok⟩
  cases h with
  | ok h => exact h

/-- A step of an evaluation is alike if the operation on values is. -/
theorem lift {x x' : Except ValueError α} (h : Alike x x') :
    Alike (EvalError.lift x) (EvalError.lift x') :=
  Tolerance.Relates.mapError h

end Alike

namespace Value

variable {a a' b b' : Value}

/-- Mismatches of equal values are equal. -/
theorem alike_mismatch {α : Type} [BEq α] {vs ws : List Value}
    (h : (vs == ws) = true) (ts : List ValueType) :
    Alike (.error (.mismatch vs ts) : Except ValueError α)
      (.error (.mismatch ws ts)) := by
  refine Alike.error ?_
  show (vs == ws && ts == ts) = true
  rw [h, BEq.rfl, Bool.and_self]

theorem singleton_beq (ha : (a == a') = true) : ([a] == [a']) = true := by
  simp [ha]

theorem pair_beq (ha : (a == a') = true) (hb : (b == b') = true) :
    ([a, b] == [a', b']) = true := by
  simp [ha, hb]

/-- Floats are equal if they have one key. -/
theorem float_beq {x y : Float} :
    (Value.float x == .float y) = true ↔ Binary64.key x = Binary64.key y :=
  beq_iff_eq (a := Binary64.key x)

/-- Equal values are the same, or floats of one key. -/
theorem eq_or_floats_of_beq (h : (a == b) = true) :
    a = b ∨ ∃ x y, a = .float x ∧ b = .float y
      ∧ Binary64.key x = Binary64.key y := by
  rcases beq_iff_eq_or_zeros.1 h with rfl | ⟨ha, hb⟩
  · exact .inl rfl
  · cases a with
    | float x =>
        cases b with
        | float y => exact .inr ⟨x, y, rfl, rfl, float_beq.1 h⟩
        | _ => cases hb
    | _ => cases ha

-- ========================================================= one operand

/-- An operation of one operand respects equality if it does on floats. -/
theorem alike_of_floats {ε α : Type} [BEq ε] [ReflBEq ε] [BEq α] [ReflBEq α]
    (op : Value → Except ε α)
    (hfloats : ∀ x y, Binary64.key x = Binary64.key y →
      Alike (op (.float x)) (op (.float y)))
    (ha : (a == a') = true) : Alike (op a) (op a') := by
  rcases eq_or_floats_of_beq ha with rfl | ⟨x, y, rfl, rfl, hkey⟩
  · exact Alike.refl _
  · exact hfloats x y hkey

/-- An operation on strings does not see floats. -/
theorem alike_onString (f : String → Value) (ha : (a == a') = true) :
    Alike (onString f a) (onString f a') :=
  alike_of_floats (onString f)
    (fun _ _ hkey => alike_mismatch (singleton_beq (float_beq.2 hkey)) _) ha

theorem alike_rounded (rule : RoundingRule) (ha : (a == a') = true) :
    Alike (a.rounded rule) (a'.rounded rule) :=
  alike_of_floats (rounded rule)
    (fun _ _ hkey => .ok (float_beq.2 (Binary64.key_rounded rule hkey))) ha

/-- Equal values have the same truth, or none. -/
theorem alike_truth (ha : (a == a') = true) : Alike a.truth a'.truth := by
  refine alike_of_floats truth (fun x y hkey => ?_) ha
  exact (alike_mismatch (singleton_beq (float_beq.2 hkey)) [.boolean]).lift

-- ======================================================== two operands

/-- Arithmetic respects equality if its operation on floats does for the
floats at hand. -/
theorem alike_arithmetic {integers : Int64 → Int64 → Except ValueError Int64}
    {floats : Float → Float → Float} (ha : (a == a') = true)
    (hb : (b == b') = true)
    (hfloats : ∀ x x' y y', a = .float x → a' = .float x' → b = .float y →
      b' = .float y' →
      Binary64.key (floats x y) = Binary64.key (floats x' y')) :
    Alike (arithmetic integers floats a b)
      (arithmetic integers floats a' b') := by
  rcases eq_or_floats_of_beq ha with rfl | ⟨x, x', rfl, rfl, -⟩
  · rcases eq_or_floats_of_beq hb with rfl | ⟨y, y', rfl, rfl, -⟩
    · exact Alike.refl _
    · cases a with
      | float x => exact .ok (float_beq.2 (hfloats x x y y' rfl rfl rfl rfl))
      | null => exact .ok BEq.rfl
      | _ => exact alike_mismatch (pair_beq ha hb) _
  · rcases eq_or_floats_of_beq hb with rfl | ⟨y, y', rfl, rfl, -⟩
    · cases b with
      | float y => exact .ok (float_beq.2 (hfloats x x' y y rfl rfl rfl rfl))
      | null => exact .ok BEq.rfl
      | _ => exact alike_mismatch (pair_beq ha hb) _
    · exact .ok (float_beq.2 (hfloats x x' y y' rfl rfl rfl rfl))

theorem alike_concat (ha : (a == a') = true) (hb : (b == b') = true) :
    Alike (a.concat b) (a'.concat b') := by
  rcases eq_or_floats_of_beq ha with rfl | ⟨x, x', rfl, rfl, -⟩
  · rcases eq_or_floats_of_beq hb with rfl | ⟨y, y', rfl, rfl, -⟩
    · exact Alike.refl _
    · cases a <;> exact alike_mismatch (pair_beq ha hb) _
  · exact alike_mismatch (pair_beq ha hb) _

/-- Equal values have the same order with others. -/
theorem compare?_congr (ha : (a == a') = true) (hb : (b == b') = true) :
    compare? a b = compare? a' b' := by
  rcases eq_or_floats_of_beq ha with rfl | ⟨x, x', rfl, rfl, hx⟩
  · rcases eq_or_floats_of_beq hb with rfl | ⟨y, y', rfl, rfl, hy⟩
    · rfl
    · cases a with
      | float x => exact Binary64.compare?_congr rfl hy
      | _ => rfl
  · rcases eq_or_floats_of_beq hb with rfl | ⟨y, y', rfl, rfl, hy⟩
    · cases b with
      | float y => exact Binary64.compare?_congr hx rfl
      | _ => rfl
    · exact Binary64.compare?_congr hx hy

-- ============================================================ division

/-- Whether a number is divided apart by two divisors: it is neither zero
nor not-a-number, and they are zeros of opposite sign. -/
def quotientsPart (a b b' : Value) : Bool :=
  match a, b, b' with
  | .float x, .float y, .float y' =>
    !(x == 0.0) && !x.isNaN && y == 0.0 && y' == 0.0 && y.toBits != y'.toBits
  | _, _, _ => false

/-- Quotients of floats part only at two zeros, and not for a dividend that is
zero or not-a-number. -/
theorem quotientsPart_floats {x y y' : Float}
    (hy : Binary64.key y = Binary64.key y') :
    quotientsPart (.float x) (.float y) (.float y') = false
      ↔ y = y' ∨ (x == 0.0) = true ∨ x.isNaN = true := by
  have hsame : y = y' ↔ y.toBits = y'.toBits :=
    ⟨congrArg Float.toBits, Binary64.eq_of_toBits_eq⟩
  rw [hsame]
  rcases Binary64.key_eq_key_iff.1 hy with rfl | ⟨hzero, hzero'⟩
  · simp [quotientsPart]
  · simp only [quotientsPart, hzero, hzero']
    cases x == 0.0 <;> cases x.isNaN <;> simp

/-- Quotients of equal values are equal unless they are divided apart. -/
theorem alike_divide_iff (ha : (a == a') = true) (hb : (b == b') = true) :
    Alike (a.divide b) (a'.divide b') ↔ quotientsPart a b b' = false := by
  constructor
  · intro h
    unfold quotientsPart
    split
    · rename_i x y y'
      cases a' with
      | float x' =>
          have hkey : Binary64.key (x / y) = Binary64.key (x' / y') :=
            float_beq.1 (Alike.ok_iff.1 h)
          exact (quotientsPart_floats (float_beq.1 hb)).2
            ((Binary64.key_div_iff (float_beq.1 ha) (float_beq.1 hb)).1 hkey)
      | _ => cases ha
    · rfl
  · intro hpart
    refine alike_arithmetic ha hb fun x x' y y' hx hx' hy hy' => ?_
    subst hx hx' hy hy'
    exact (Binary64.key_div_iff (float_beq.1 ha) (float_beq.1 hb)).2
      ((quotientsPart_floats (float_beq.1 hb)).1 hpart)

end Value

-- =========================================================== operators

section Operators

variable {a a' b b' : Value}

/-- Arithmetic respects equality, if it does not divide apart. -/
theorem ArithmeticOperator.alike_apply (op : ArithmeticOperator)
    (ha : (a == a') = true) (hb : (b == b') = true)
    (hpart : op = .div → a.quotientsPart b b' = false) :
    Alike (op.apply a b) (op.apply a' b') := by
  have hkeys : ∀ {floats : Float → Float → Float}
      {integers : Int64 → Int64 → Except ValueError Int64},
      (∀ x x' y y', Binary64.key x = Binary64.key x' →
        Binary64.key y = Binary64.key y' →
        Binary64.key (floats x y) = Binary64.key (floats x' y')) →
      Alike (Value.arithmetic integers floats a b)
        (Value.arithmetic integers floats a' b') := by
    intro floats integers hfloats
    refine Value.alike_arithmetic ha hb fun x x' y y' hx hx' hy hy' => ?_
    subst hx hx' hy hy'
    exact hfloats x x' y y' (Value.float_beq.1 ha) (Value.float_beq.1 hb)
  cases op with
  | add => exact hkeys fun _ _ _ _ => Binary64.key_add
  | sub => exact hkeys fun _ _ _ _ => Binary64.key_sub
  | mul => exact hkeys fun _ _ _ _ => Binary64.key_mul
  | div => exact (Value.alike_divide_iff ha hb).2 (hpart rfl)
  | rem => exact hkeys fun _ _ _ _ => Binary64.key_remainder

/-- Comparisons of equal values have the same answer. -/
theorem ComparisonOperator.alike_apply (op : ComparisonOperator)
    (ha : (a == a') = true) (hb : (b == b') = true) :
    Alike (op.apply a b) (op.apply a' b') := by
  unfold apply Value.compare
  rw [Value.compare?_congr ha hb]
  cases Value.compare? a' b' with
  | some o => exact .ok BEq.rfl
  | none =>
      refine Alike.error ?_
      show (a == a' && b == b') = true
      rw [ha, hb, Bool.and_self]

end Operators

end RelAlgebra
