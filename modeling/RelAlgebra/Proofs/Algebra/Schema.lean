/-
Schemas do not depend on data. An operator computes the header of its
result, and every error about headers, from the headers of its operands;
rows can only make it fail with an error about values. So over two
relations with the same header an operator ends with one header, or with
one error about headers, unless it fails on the values of one of them; and
so does a query, by induction on the query.
-/
import RelAlgebra.Proofs.Query.Failures
import RelAlgebra.Proofs.Query.Tolerance

namespace RelAlgebra

-- ============================================================== errors

/-- Both fail with one error, or one of them fails on values. -/
def Tolerance.schema : Tolerance QueryError QueryError :=
  ⟨fun e => e.isData = true, fun e => e.isData = true, fun e e' => e = e'⟩

namespace Tolerance

theorem schema_same {α : Type} (x : Except QueryError α) :
    schema.Relates (fun a b => a = b) x x :=
  Relates.same (fun _ => .inr rfl) x

/-- The tolerance has no sides. -/
theorem schema_swap {α β : Type} {R : α → β → Prop}
    {x : Except QueryError α} {y : Except QueryError β}
    (h : schema.Relates R x y) : schema.Relates (fun b a => R a b) y x := by
  cases h with
  | ok h => exact .ok h
  | left h => exact .right h
  | right h => exact .left h
  | both h => exact .both h.symm

/-- An error about headers on the left is met by the same one on the right,
or by one about values. -/
theorem schema_error {α β : Type} {R : α → β → Prop}
    {x : Except QueryError α} {y : Except QueryError β}
    (h : schema.Relates R x y) {e : QueryError} (he : x = .error e)
    (hschema : e.isSchema = true) :
    ∃ e', y = .error e' ∧ (e' = e ∨ e'.isData = true) := by
  cases h with
  | ok h => cases he
  | left hdata =>
      cases he
      cases e <;> cases hschema <;> cases hdata
  | right hdata => exact ⟨_, rfl, .inr hdata⟩
  | both hsame =>
      cases he
      exact ⟨e, congrArg Except.error hsame.symm, .inl rfl⟩

/-- Two loops over rows have nothing in common but that they can only fail
on values. -/
theorem schema_data {ε α : Type} {g : ε → QueryError}
    (hg : ∀ e, (g e).isData = true) (x y : Except ε α) :
    schema.Relates (fun _ _ => True) (x.mapError g) (y.mapError g) := by
  cases x with
  | error e => exact .left (hg e)
  | ok a =>
      cases y with
      | error e => exact .right (hg e)
      | ok b => exact .ok trivial

end Tolerance

-- =========================================================== operators

namespace Resolved

open Tolerance (schema schema_same schema_data)

/-- The relations have one header, whatever their rows. -/
def SameHeader (a b : Resolved) : Prop := a.header = b.header

namespace SameHeader

variable {a a' b b' : Resolved}

theorem eq (h : SameHeader a b) : a.header = b.header := h

/-- A projection computes its header from the names alone. -/
theorem project (h : SameHeader a b) (names : List String) :
    schema.Relates SameHeader (a.project names) (b.project names) := by
  unfold Resolved.project
  rw [h.eq]
  refine (schema_same _).bind fun _ _ _ => ?_
  exact (schema_same _).bind fun header header' hheader => .ok hheader

/-- A selection keeps the header, whatever it makes of the rows. -/
theorem select (h : SameHeader a b) (p : Predicate) :
    schema.Relates SameHeader (a.select p) (b.select p) := by
  unfold Resolved.select
  rw [h.eq]
  refine (schema_same _).bind fun _ _ _ => ?_
  exact (schema_data (fun _ => rfl) _ _).bind fun _ _ _ => .ok rfl

theorem rename (h : SameHeader a b) (new old : String) :
    schema.Relates SameHeader (a.rename new old) (b.rename new old) := by
  unfold Resolved.rename
  rw [h.eq]
  refine (schema_same _).bind fun _ _ _ => ?_
  by_cases hname : new = old
  · rw [if_pos hname, if_pos hname]
    exact .ok h
  · rw [if_neg hname, if_neg hname]
    exact (schema_same _).bind fun header header' hheader => .ok hheader

/-- Ordering keeps the header, and fails on rows only for their values. -/
theorem orderBy (h : SameHeader a b) (keys : List SortKey) :
    schema.Relates SameHeader (a.orderBy keys) (b.orderBy keys) := by
  unfold Resolved.orderBy
  rw [h.eq]
  refine (schema_same _).bind fun _ _ _ => ?_
  exact (schema_data (fun _ => rfl) _ _).bind fun _ _ _ => .ok rfl

/-- The operators on one relation compute headers from headers. -/
theorem unary (op : UnaryOperator) (h : SameHeader a b) :
    schema.Relates SameHeader (op.apply a) (op.apply b) := by
  cases op with
  | project names => exact h.project names
  | select p => exact h.select p
  | rename new old => exact h.rename new old
  | orderBy keys => exact h.orderBy keys

/-- Whether headers are the same is decided before rows are read. -/
theorem setOperation (ha : SameHeader a a') (hb : SameHeader b b')
    (op : Tuples → Tuples → Tuples) :
    schema.Relates SameHeader (Resolved.setOperation op a b)
      (Resolved.setOperation op a' b') := by
  unfold Resolved.setOperation
  rw [ha.eq, hb.eq]
  exact (schema_same _).bind fun _ _ _ => .ok rfl

theorem product (ha : SameHeader a a') (hb : SameHeader b b') :
    schema.Relates SameHeader (a.product b) (a'.product b') := by
  unfold Resolved.product
  rw [ha.eq, hb.eq]
  exact (schema_same _).bind fun header header' hheader => .ok hheader

theorem naturalJoin (ha : SameHeader a a') (hb : SameHeader b b') :
    schema.Relates SameHeader (a.naturalJoin b) (a'.naturalJoin b') := by
  unfold Resolved.naturalJoin
  rw [ha.eq, hb.eq]
  exact (schema_same _).bind fun header header' hheader => .ok hheader

/-- The names in the predicate are looked up in the joined header; after that
only values can fail. -/
theorem thetaJoin (ha : SameHeader a a') (hb : SameHeader b b')
    (p : Predicate) :
    schema.Relates SameHeader (a.thetaJoin p b) (a'.thetaJoin p b') := by
  unfold Resolved.thetaJoin
  rw [ha.eq, hb.eq]
  refine (schema_same _).bind fun header header' hheader => ?_
  subst hheader
  refine (schema_same _).bind fun _ _ _ => ?_
  exact (schema_data (fun _ => rfl) _ _).bind fun _ _ _ => .ok rfl

/-- The basic operators compute headers from headers. -/
theorem basic (op : BasicOperator) (ha : SameHeader a a')
    (hb : SameHeader b b') :
    schema.Relates SameHeader (op.apply a b) (op.apply a' b') := by
  cases op with
  | intersect => exact ha.setOperation hb _
  | union => exact ha.setOperation hb _
  | subtract => exact ha.setOperation hb _
  | product => exact ha.product hb
  | naturalJoin => exact ha.naturalJoin hb
  | thetaJoin p => exact ha.thetaJoin hb p

/-- Every operator, applied to relations with the same headers. -/
theorem keptBy : schema.KeptBy SameHeader (fun op op' => op = op')
    (fun op op' => op = op') :=
  .of_header (fun _ => .inr rfl) (fun _ _ h => h) (fun _ _ h => h)
    (fun op _ _ h => unary op h) fun op _ _ _ _ _ hl hr => basic op hl hr

end SameHeader

end Resolved

-- ============================================================= queries

/-- Evaluating a query over relations with the same headers gives one
header or one error about headers, unless it fails on values. -/
theorem Query.relates_schema {ρ : Type}
    {outcome outcome' : ρ → Except RelationError Resolved} {q : Query ρ}
    (houtcome : ∀ i ∈ q.leaves, ∃ a b, outcome i = .ok a
      ∧ outcome' i = .ok b ∧ a.header = b.header) :
    Tolerance.schema.Relates Resolved.SameHeader (q.eval outcome)
      (q.eval outcome') := by
  refine Resolved.SameHeader.keptBy.query ?_
  refine QueryTree.Corresponds.refl (fun _ => rfl)
    BinaryOperator.Corresponds.refl fun i hi => ?_
  obtain ⟨a, b, ha, hb, hheader⟩ := houtcome i hi
  rw [ha, hb]
  exact .ok hheader

end RelAlgebra
