/-
What the leaves of an expression decide about its value. An operation on
numbers or on strings is absent exactly if one of its operands is, so a
whole expression is absent exactly if one of its leaves is. Sums, differences
and products of integers wrap around at 64 bits; wrapping around commutes with
each of them, so it makes no difference whether it happens at every operator or
once, to the exact value. Both follow by induction on the expression, from what
holds of one operation.
-/
import Mathlib.Data.Int.ModEq
import RelAlgebra.Proofs.Query.Endings

namespace RelAlgebra

/-- The leaves of a text expression, from left to right. -/
def TextExpression.leaves : TextExpression → List Member
  | .member m => [m]
  | .lowercased e => e.leaves
  | .uppercased e => e.leaves
  | .concat l r => l.leaves ++ r.leaves

/-- The leaves of a numeric expression, from left to right. -/
def NumericExpression.leaves : NumericExpression → List Member
  | .member m => [m]
  | .arithmetic _ l r => l.leaves ++ r.leaves
  | .rounded _ e => e.leaves
  | .length e => e.leaves

-- ======================================================= absent operands

/-- Whatever the evaluation comes to is absent exactly if `P` holds. -/
abbrev AbsentIff {ε : Type} (P : Prop) : Except ε Value → Prop :=
  Yields fun v => v = .null ↔ P

namespace Value

/-- An operation on a string is absent where the string is. -/
theorem absentIff_onString {f : String → Value} (hf : ∀ s, f s ≠ .null)
    (a : Value) : AbsentIff (a = .null) (onString f a) := by
  intro v h
  cases a with
  | null => cases h; simp
  | string s => cases h; simp [hf s]
  | _ => cases h

theorem absentIff_rounded (rule : RoundingRule) (a : Value) :
    AbsentIff (a = .null) (a.rounded rule) := by
  intro v h
  cases a with
  | null => cases h; simp
  | float x => cases h; simp
  | _ => cases h

theorem absentIff_concat (a b : Value) :
    AbsentIff (a = .null ∨ b = .null) (a.concat b) := by
  intro v h
  cases a <;> cases b <;> cases h <;> simp

/-- Of the operands that an operation on numbers accepts, only absent ones
have an absent result. -/
theorem absentIff_arithmetic
    (integers : Int64 → Int64 → Except ValueError Int64)
    (floats : Float → Float → Float) (a b : Value) :
    AbsentIff (a = .null ∨ b = .null) (arithmetic integers floats a b) := by
  intro v h
  cases a with
  | null => cases b <;> cases h <;> simp
  | integer i =>
      cases b with
      | integer j =>
          simp only [arithmetic] at h
          cases hk : integers i j with
          | ok k => rw [hk] at h; cases h; simp
          | error e => rw [hk] at h; cases h
      | null => cases h; simp
      | _ => cases h
  | float x => cases b <;> cases h <;> simp
  | _ => cases b <;> cases h

end Value

/-- The result of an operation is absent where an operand is. -/
theorem ArithmeticOperator.absentIff_apply (op : ArithmeticOperator)
    (a b : Value) : AbsentIff (a = .null ∨ b = .null) (op.apply a b) := by
  cases op <;> exact Value.absentIff_arithmetic _ _ a b

namespace AbsentIff

variable {P Q : Prop} {x y : Except EvalError Value}

/-- An operation on what one evaluation comes to. -/
theorem operation {op : Value → Except ValueError Value} (hx : AbsentIff P x)
    (hop : ∀ a, AbsentIff (a = .null) (op a)) :
    AbsentIff P (x >>= fun a => EvalError.lift (op a)) := by
  refine Yields.bind hx fun a ha => ?_
  rw [← ha]
  exact (hop a).mapError

/-- An operation on what two evaluations come to. -/
theorem operation₂ {op : Value → Value → Except ValueError Value}
    (hx : AbsentIff P x) (hy : AbsentIff Q y)
    (hop : ∀ a b, AbsentIff (a = .null ∨ b = .null) (op a b)) :
    AbsentIff (P ∨ Q)
      (x >>= fun a => y >>= fun b => EvalError.lift (op a b)) := by
  refine Yields.bind hx fun a ha => Yields.bind hy fun b hb => ?_
  rw [← ha, ← hb]
  exact (hop a b).mapError

end AbsentIff

/-- Whether some of the leaves are absent. -/
def SomeAbsent (ctx : Context) (leaves : List Member) : Prop :=
  ∃ m ∈ leaves, m.eval ctx = .ok .null

/-- One of two lists has an absent leaf, or the other. -/
theorem someAbsent_append {ctx : Context} {ms ns : List Member} :
    SomeAbsent ctx (ms ++ ns) ↔ SomeAbsent ctx ms ∨ SomeAbsent ctx ns := by
  simp only [SomeAbsent, List.mem_append, or_and_right, exists_or]

theorem Member.absentIff_eval (ctx : Context) (m : Member) :
    AbsentIff (SomeAbsent ctx [m]) (m.eval ctx) := by
  intro v h
  simp [SomeAbsent, h]

/-- A text that evaluates is absent exactly if a leaf is. -/
theorem TextExpression.absentIff_eval (ctx : Context) (e : TextExpression) :
    AbsentIff (SomeAbsent ctx e.leaves) (e.eval ctx) := by
  induction e with
  | member m => exact m.absentIff_eval ctx
  | lowercased e ih =>
      exact ih.operation (Value.absentIff_onString fun _ => nofun)
  | uppercased e ih =>
      exact ih.operation (Value.absentIff_onString fun _ => nofun)
  | concat l r ihl ihr =>
      rw [leaves, someAbsent_append]
      exact ihl.operation₂ ihr Value.absentIff_concat

theorem NumericExpression.absentIff_eval (ctx : Context)
    (e : NumericExpression) :
    AbsentIff (SomeAbsent ctx e.leaves) (e.eval ctx) := by
  induction e with
  | member m => exact m.absentIff_eval ctx
  | arithmetic op l r ihl ihr =>
      rw [leaves, someAbsent_append]
      exact ihl.operation₂ ihr op.absentIff_apply
  | rounded rule e ih => exact ih.operation (Value.absentIff_rounded rule)
  | length e =>
      exact (e.absentIff_eval ctx).operation
        (Value.absentIff_onString fun _ => nofun)

/-- A number or a string that an expression comes to is absent exactly if one
of the leaves, an attribute or a literal, is absent. -/
theorem eval_eq_null_iff (ctx : Context) (v : Value) :
    (∀ e : NumericExpression, e.eval ctx = .ok v →
        (v = .null ↔ ∃ m ∈ e.leaves, m.eval ctx = .ok .null))
      ∧ ∀ e : TextExpression, e.eval ctx = .ok v →
        (v = .null ↔ ∃ m ∈ e.leaves, m.eval ctx = .ok .null) :=
  ⟨fun e => e.absentIff_eval ctx v, fun e => e.absentIff_eval ctx v⟩

/-- The length of an attribute and an exclamation mark, and one. -/
def exclaimedLength (name : String) : NumericExpression :=
  .arithmetic .add
    (.length (.concat (.member (.attribute name))
      (.member (.literal (.string "!")))))
    (.member (.literal (.integer 1)))

/-- A text that is absent makes its length absent, and the sum with it. -/
theorem eval_eq_null_iff_exclaimed :
    let ctx : Context := fun name =>
      if name = "name" then some (.string "Ada")
      else if name = "hobby" then some .null
      else none
    (exclaimedLength "hobby").eval ctx = .ok .null
      ∧ (∃ m ∈ (exclaimedLength "hobby").leaves, m.eval ctx = .ok .null)
      ∧ (exclaimedLength "name").eval ctx = .ok (.integer 5)
      ∧ ¬∃ m ∈ (exclaimedLength "name").leaves, m.eval ctx = .ok .null := by
  intro ctx
  have hhobby : (exclaimedLength "hobby").eval ctx = .ok .null := rfl
  have hname : (exclaimedLength "name").eval ctx = .ok (.integer 5) := rfl
  exact ⟨hhobby, ((eval_eq_null_iff ctx _).1 _ hhobby).1 rfl, hname,
    fun hsome => nomatch ((eval_eq_null_iff ctx _).1 _ hname).2 hsome⟩

-- ============================================================ integers

/-- The operation on unbounded integers that an operator stands for. Division
and its remainder have none, as they fail for some operands. -/
def ArithmeticOperator.exact? : ArithmeticOperator → Option (Int → Int → Int)
  | .add => some (· + ·)
  | .sub => some (· - ·)
  | .mul => some (· * ·)
  | .div => none
  | .rem => none

namespace NumericExpression

/-- Whether the expression is built from sums, differences and products. -/
def isPolynomial : NumericExpression → Bool
  | .member _ => true
  | .arithmetic op l r =>
    op.exact?.isSome && l.isPolynomial && r.isPolynomial
  | .rounded .. => false
  | .length _ => false

/-- The value of such an expression over the unbounded integers, if its leaves
are integers; what is not counts as zero. -/
def exactValue (ctx : Context) : NumericExpression → Int
  | .member m =>
    match m.eval ctx with
    | .ok (.integer i) => i.toInt
    | _ => 0
  | .arithmetic op l r =>
    match op.exact? with
    | some f => f (l.exactValue ctx) (r.exactValue ctx)
    | none => 0
  | .rounded .. => 0
  | .length _ => 0

end NumericExpression

/-- Wrapping around commutes with sums, differences and products. -/
theorem ArithmeticOperator.apply_ofInt {op : ArithmeticOperator}
    {f : Int → Int → Int} (hop : op.exact? = some f) (a b : Int) :
    op.apply (.integer (.ofInt a)) (.integer (.ofInt b))
      = .ok (.integer (.ofInt (f a b))) := by
  cases op with
  | add => cases hop; rw [Int64.ofInt_add]; rfl
  | sub => cases hop; rw [Int64.ofInt_sub]; rfl
  | mul => cases hop; rw [Int64.ofInt_mul]; rfl
  | div => cases hop
  | rem => cases hop

/-- So it makes no difference to wrap around only once, in the end. -/
theorem NumericExpression.eval_eq_ofInt {ctx : Context} {e : NumericExpression}
    (hpolynomial : e.isPolynomial = true)
    (hleaves : ∀ m ∈ e.leaves, ∃ i, m.eval ctx = .ok (.integer i)) :
    e.eval ctx = .ok (.integer (.ofInt (e.exactValue ctx))) := by
  induction e with
  | member m =>
      obtain ⟨i, hi⟩ := hleaves m (List.mem_singleton_self m)
      simp only [eval, exactValue, hi, Int64.ofInt_toInt]
  | arithmetic op l r ihl ihr =>
      simp only [isPolynomial, Bool.and_eq_true] at hpolynomial
      obtain ⟨⟨hop, hl⟩, hr⟩ := hpolynomial
      obtain ⟨f, hf⟩ := Option.isSome_iff_exists.1 hop
      have hleft := ihl hl fun m hm => hleaves m (List.mem_append_left _ hm)
      have hright := ihr hr fun m hm => hleaves m (List.mem_append_right _ hm)
      rw [eval, hleft, hright]
      show EvalError.lift (op.apply _ _) = _
      rw [op.apply_ofInt hf, exactValue, hf]
      rfl
  | rounded rule e => cases hpolynomial
  | length e => cases hpolynomial

/-- Each class of integers modulo `2 ^ 64` has one 64-bit integer. -/
theorem int64_modEq_iff (z : Int) (j : Int64) :
    j.toInt ≡ z [ZMOD 2 ^ 64] ↔ j = .ofInt z := by
  constructor
  · intro h
    have hsame : z.bmod (2 ^ 64) = j.toInt := by
      calc z.bmod (2 ^ 64)
          = (z % (2 ^ 64 : Nat)).bmod (2 ^ 64) := (Int.emod_bmod ..).symm
        _ = (j.toInt % (2 ^ 64 : Nat)).bmod (2 ^ 64) :=
          congrArg (Int.bmod · (2 ^ 64)) h.symm
        _ = j.toInt.bmod (2 ^ 64) := Int.emod_bmod ..
        _ = j.toInt := Int64.toInt_bmod_size j
    exact ((Int64.ofInt_eq_iff_bmod_eq_toInt z j).2 hsame).symm
  · rintro rfl
    rw [Int64.toInt_ofInt]
    exact Int.bmod_emod

/-- Sums, differences and products of integers are computed exactly modulo
`2 ^ 64`: the evaluation succeeds, with the one 64-bit integer that is
congruent to the value over the unbounded integers. -/
theorem eval_polynomial (ctx : Context) (e : NumericExpression)
    (hpolynomial : e.isPolynomial = true)
    (hleaves : ∀ m ∈ e.leaves, ∃ i, m.eval ctx = .ok (.integer i)) :
    ∃ i, e.eval ctx = .ok (.integer i)
      ∧ ∀ j : Int64, j.toInt ≡ e.exactValue ctx [ZMOD 2 ^ 64] ↔ j = i :=
  ⟨_, e.eval_eq_ofInt hpolynomial hleaves, int64_modEq_iff _⟩

/-- At the greatest integer, one more wraps around and one less comes back; the
square, `2 ^ 126 - 2 ^ 64 + 1`, wraps around to one. -/
theorem eval_polynomial_maxValue :
    let ctx : Context := fun _ => some (.integer Int64.maxValue)
    let x := NumericExpression.member (.attribute "x")
    let one := NumericExpression.member (.literal (.integer 1))
    let thereAndBack :=
      NumericExpression.arithmetic .sub (.arithmetic .add x one) one
    let square := NumericExpression.arithmetic .mul x x
    thereAndBack.isPolynomial = true
      ∧ (∀ m ∈ thereAndBack.leaves, ∃ i, m.eval ctx = .ok (.integer i))
      ∧ thereAndBack.eval ctx = .ok (.integer Int64.maxValue)
      ∧ square.exactValue ctx = 2 ^ 126 - 2 ^ 64 + 1
      ∧ square.eval ctx = .ok (.integer 1) := by
  intro ctx x one thereAndBack square
  have hx : ∃ i, Member.eval ctx (.attribute "x") = .ok (.integer i) := ⟨_, rfl⟩
  have hone : ∃ i, Member.eval ctx (.literal (.integer 1)) = .ok (.integer i) :=
    ⟨_, rfl⟩
  have hback : ∀ m ∈ thereAndBack.leaves, ∃ i, m.eval ctx = .ok (.integer i) :=
    List.forall_mem_cons.2 ⟨hx, List.forall_mem_cons.2 ⟨hone,
      List.forall_mem_cons.2 ⟨hone, List.forall_mem_nil _⟩⟩⟩
  have hsquare : ∀ m ∈ square.leaves, ∃ i, m.eval ctx = .ok (.integer i) :=
    List.forall_mem_cons.2 ⟨hx, List.forall_mem_cons.2 ⟨hx,
      List.forall_mem_nil _⟩⟩
  obtain ⟨i, hi, hiff⟩ := eval_polynomial ctx thereAndBack rfl hback
  obtain ⟨k, hk, hkiff⟩ := eval_polynomial ctx square rfl hsquare
  have himax : Int64.maxValue = i := (hiff _).1 (by decide)
  have hkone : 1 = k := (hkiff _).1 (by decide)
  exact ⟨rfl, hback, himax ▸ hi, by decide, hkone ▸ hk⟩

end RelAlgebra
