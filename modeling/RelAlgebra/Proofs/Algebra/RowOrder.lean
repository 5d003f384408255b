/-
Results do not depend on the order of rows. Two relations have the same
rows if each is within the other. So where equal values are the same value,
positive operators keep this, and fail on both or on neither, as they are
monotone both ways; and so do those that are made with subtraction, as it
only asks which rows are there. The rest is induction on the query.
-/
import RelAlgebra.Proofs.Algebra.Monotone
import RelAlgebra.Proofs.Query.Endings

namespace RelAlgebra

/-- What neither of two evaluations fails alone at, both come to, or both
fail. -/
theorem EndsAlike.of_downward {ε α : Type} {R R' S : α → α → Prop}
    {x y : Except ε α} (h : Tolerance.downward.Relates R x y)
    (h' : Tolerance.downward.Relates R' y x)
    (hS : ∀ a b, R a b → R' b a → S a b) : EndsAlike S x y := by
  cases h with
  | @ok a b h =>
      obtain ⟨b', hb, hba⟩ := Tolerance.exists_ok_of_downward h' rfl
      cases hb
      exact .ok (hS a b h hba)
  | left h => exact h.elim
  | @right x e h =>
      cases x with
      | error e' => exact .error
      | ok a =>
          obtain ⟨b, hb, -⟩ := Tolerance.exists_ok_of_downward h' rfl
          cases hb
  | both h => exact h.elim

/-- The relations have one header and the same rows, all of them of such
values. -/
structure Resolved.SameRows (V : Value → Prop) (a b : Resolved) : Prop where
  header : a.header = b.header
  rows : ∀ t, t ∈ a.tuples.rows ↔ t ∈ b.tuples.rows
  values : ∀ t ∈ a.tuples.rows, t.Over V

namespace Resolved.SameRows

variable {V : Value → Prop} {a a' b b' : Resolved}

theorem within (h : SameRows V a b) : Within V a b where
  header := h.header
  rows t := (h.rows t).1
  values t ht := h.values t ((h.rows t).2 ht)

theorem within_symm (h : SameRows V a b) : Within V b a where
  header := h.header.symm
  rows t := (h.rows t).2
  values := h.values

theorem of_within (h : Within V a b) (h' : Within V b a) : SameRows V a b where
  header := h.header
  rows t := ⟨h.rows t, h'.rows t⟩
  values := h'.values

/-- Rows of a collection are different, so the same rows are the same up
to order. -/
theorem perm (h : SameRows V a b) : a.tuples.rows.Perm b.tuples.rows := by
  rw [List.perm_ext_iff_of_nodup a.tuples.nodup_rows b.tuples.nodup_rows]
  exact h.rows

/-- An operator on one relation does not see the order of its rows, except in
the order of its own. -/
theorem unary (hV : Discerning V) (op : UnaryOperator) (h : SameRows V a b) :
    EndsAlike (SameRows V) (op.apply a) (op.apply b) :=
  .of_downward (h.within.unary hV op) (h.within_symm.unary hV op)
    fun _ _ => of_within

/-- Whether a collection has a row equal to a given one does not depend on
the order of its rows. -/
theorem contains_eq (h : SameRows V a b) (t : Tuple) :
    a.tuples.contains t = b.tuples.contains t := by
  rw [Bool.eq_iff_iff, Tuples.contains_iff, Tuples.contains_iff]
  simp only [h.rows]

theorem difference (ha : SameRows V a a') (hb : SameRows V b b') :
    EndsAlike (SameRows V) (Resolved.setOperation Tuples.difference a b)
      (Resolved.setOperation Tuples.difference a' b') := by
  unfold Resolved.setOperation
  rw [ha.header, hb.header]
  refine (EndsAlike.same _).bind fun _ _ _ => .ok ⟨rfl, fun t => ?_, ?_⟩
  · show t ∈ a.tuples.rows.filter _ ↔ t ∈ a'.tuples.rows.filter _
    rw [List.mem_filter, List.mem_filter, ha.rows, hb.contains_eq]
  · exact fun t ht => ha.values t (Tuples.mem_of_mem_filter ht)

/-- Nor does an operator on two relations. -/
theorem basic (hV : Discerning V) (op : BasicOperator)
    (ha : SameRows V a a') (hb : SameRows V b b') :
    EndsAlike (SameRows V) (op.apply a b) (op.apply a' b') := by
  by_cases hop : op = .subtract
  · subst hop
    exact ha.difference hb
  · exact .of_downward (Within.basic hV hop ha.within hb.within)
      (Within.basic hV hop ha.within_symm hb.within_symm) fun _ _ => of_within

end Resolved.SameRows

-- ============================================================= queries

/-- Evaluating a query over relations with the same rows gives relations
with the same rows, or fails on both sides. -/
theorem Query.endsAlike_sameRows {ρ : Type} {V : Value → Prop}
    (hV : Discerning V) {outcome outcome' : ρ → Except RelationError Resolved}
    {q : Query ρ}
    (houtcome : ∀ i ∈ q.leaves,
      EndsAlike (Resolved.SameRows V) (outcome i) (outcome' i)) :
    EndsAlike (Resolved.SameRows V) (q.eval outcome) (q.eval outcome') :=
  Query.endsAlike_eval (fun _ _ h => h.header)
    (fun op _ _ => Resolved.SameRows.unary hV op)
    (fun op _ _ _ _ => Resolved.SameRows.basic hV op) houtcome

end RelAlgebra
