/-
Equality of errors is an equivalence at every level. It is reflexive, so a
relation that failed is equal to itself also where its failure is compared in
full. For the rest it is enough that errors equal to one error are equal to
each other: this says at once that equality is symmetric and that it is
transitive, and it goes by one induction, since all three errors have the
constructor of the first.
-/
import RelAlgebra.Error
import RelAlgebra.Proofs.Value.Equality

namespace RelAlgebra

-- ================================================= euclidean equality

/-- In an equivalence, things equal to one thing are equal to each other. -/
theorem euclidean {α : Type} [BEq α] [PartialEquivBEq α] {a b c : α}
    (hb : (a == b) = true) (hc : (a == c) = true) : (b == c) = true :=
  BEq.trans (BEq.symm hb) hc

/-- What is told by two equalities is euclidean if both of them are. -/
theorem euclidean_and {α β : Type} [BEq α] [PartialEquivBEq α] [BEq β]
    [PartialEquivBEq β] {a b c : α} {a' b' c' : β}
    (hb : (a == b && a' == b') = true) (hc : (a == c && a' == c') = true) :
    (b == c && b' == c') = true := by
  rw [Bool.and_eq_true] at hb hc ⊢
  exact ⟨euclidean hb.1 hc.1, euclidean hb.2 hc.2⟩

/-- A reflexive equality is an equivalence if things equal to one thing are
equal to each other. -/
theorem equivBEq_of_euclidean {α : Type} [BEq α] [ReflBEq α]
    (h : ∀ {a b c : α}, (a == b) = true → (a == c) = true →
      (b == c) = true) : EquivBEq α where
  symm hab := h hab BEq.rfl
  trans hab hbc := h (h hab BEq.rfl) hbc

-- ====================================================== reflexivity

instance : ReflBEq ValueError where
  rfl {e} := by
    show e.beq e = true
    cases e <;> simp [ValueError.beq]

instance : ReflBEq EvalError where
  rfl {e} := by
    show e.beq e = true
    cases e <;> simp [EvalError.beq]

mutual

/-- An error is equal to itself, its values being so. -/
theorem QueryError.beq_self : ∀ e : QueryError, e.beq e = true
  | .unknownAttributes _ => by simp [QueryError.beq]
  | .incompatibleAttributes _ => by simp [QueryError.beq]
  | .notUnionCompatible _ _ => by simp [QueryError.beq]
  | .notDisjoint _ _ => by simp [QueryError.beq]
  | .notSuperset _ _ => by simp [QueryError.beq]
  | .predicate _ => by simp [QueryError.beq]
  | .header _ => by simp [QueryError.beq]
  | .value _ => by simp [QueryError.beq]
  | .relation e => by simpa [QueryError.beq] using RelationError.beq_self e

theorem RelationError.beq_self : ∀ e : RelationError, e.beq e = true
  | .header _ => by simp [RelationError.beq]
  | .value _ => by simp [RelationError.beq]
  | .query e => by simpa [RelationError.beq] using QueryError.beq_self e

end

instance : ReflBEq QueryError := ⟨QueryError.beq_self _⟩

instance : ReflBEq RelationError := ⟨RelationError.beq_self _⟩

-- ====================================================== equivalence

/-- Two errors about values that are equal to a third are equal, as their
values are. -/
theorem ValueError.euclidean {e f g : ValueError} (hf : e.beq f = true)
    (hg : e.beq g = true) : f.beq g = true := by
  cases e <;> cases f <;> try cases hf
  all_goals cases g <;> try cases hg
  case mismatch.mismatch.mismatch => exact euclidean_and hf hg
  case incompatible.incompatible.incompatible => exact euclidean_and hf hg
  rfl

instance : EquivBEq ValueError := equivBEq_of_euclidean ValueError.euclidean

theorem EvalError.euclidean {e f g : EvalError} (hf : e.beq f = true)
    (hg : e.beq g = true) : f.beq g = true := by
  cases e <;> cases f <;> try cases hf
  all_goals cases g <;> try cases hg
  all_goals exact RelAlgebra.euclidean hf hg

instance : EquivBEq EvalError := equivBEq_of_euclidean EvalError.euclidean

mutual

/-- And so are two errors of a query: both have the constructor of the third.
The recursion goes down with the relations that failed below. -/
theorem QueryError.euclidean : ∀ {e f g : QueryError},
    e.beq f = true → e.beq g = true → f.beq g = true := by
  intro e f g hf hg
  cases e <;> cases f <;> try cases hf
  all_goals cases g <;> try cases hg
  case relation.relation.relation => exact RelationError.euclidean hf hg
  all_goals first
    | exact RelAlgebra.euclidean hf hg
    | exact euclidean_and hf hg

theorem RelationError.euclidean : ∀ {e f g : RelationError},
    e.beq f = true → e.beq g = true → f.beq g = true := by
  intro e f g hf hg
  cases e <;> cases f <;> try cases hf
  all_goals cases g <;> try cases hg
  case query.query.query => exact QueryError.euclidean hf hg
  all_goals exact RelAlgebra.euclidean hf hg

end

instance : EquivBEq QueryError := equivBEq_of_euclidean QueryError.euclidean

instance : EquivBEq RelationError :=
  equivBEq_of_euclidean RelationError.euclidean

end RelAlgebra
