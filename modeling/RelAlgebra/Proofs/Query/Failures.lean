/-
How evaluations fail. `Raises` is about the errors of an evaluation:
whatever it fails with has a property. It is kept by sequencing, so it
holds of queries as soon as it holds of leaves and operators. Operators
fail with errors of their own, never with that of a relation; so a query
that fails with the error of a relation has it from one of its leaves.
-/
import RelAlgebra.Proofs.Query.Conclusions

namespace RelAlgebra

-- ============================================================== errors

section Results

variable {ε ε' α β : Type}

/-- Whatever the evaluation fails with has the property. -/
def Raises (E : ε → Prop) (x : Except ε α) : Prop := ∀ e, x = .error e → E e

namespace Raises

variable {E : ε → Prop} {E' : ε' → Prop}

theorem ok {a : α} : Raises E (.ok a) := by
  intro e he
  cases he

theorem error {e : ε} (h : E e) : Raises E (.error e : Except ε α) := by
  intro e' he'
  cases he'
  exact h

/-- Two steps raise what each of them does. -/
theorem bind {x : Except ε α} {f : α → Except ε β} (hx : Raises E x)
    (hf : ∀ a, x = .ok a → Raises E (f a)) : Raises E (x >>= f) := by
  cases x with
  | ok a => exact hf a rfl
  | error e => exact error (hx e rfl)

theorem mapError {x : Except ε α} {g : ε → ε'}
    (hx : Raises (fun e => E' (g e)) x) : Raises E' (x.mapError g) := by
  cases x with
  | ok a => exact ok
  | error e => exact error (hx e rfl)

theorem mono {E' : ε → Prop} {x : Except ε α} (hx : Raises E x)
    (hE : ∀ e, E e → E' e) : Raises E' x :=
  fun e he => hE e (hx e he)

theorem iff_concludes {x : Except ε α} :
    Raises E x ↔ Concludes (fun _ => True) E x :=
  ⟨fun hx => Concludes.iff.2 ⟨fun _ _ => trivial, hx⟩,
    fun hx => (Concludes.iff.1 hx).2⟩

end Raises

end Results

-- ============================================================= queries

/-- A query fails as its leaves do, or as the basic operators do, or a
division on a divisor with other attributes. -/
theorem Query.raises_eval {ρ : Type} {E : QueryError → Prop}
    (hunary : ∀ op a, Raises E (UnaryOperator.apply op a))
    (hbasic : ∀ op a b, Raises E (BasicOperator.apply op a b))
    (hsuperset : ∀ h k : Header, Raises E (h.requireSuperset k))
    {outcome : ρ → Except RelationError Resolved} {q : Query ρ}
    (hleaf : ∀ i ∈ q.leaves, Raises (fun e => E (.relation e)) (outcome i)) :
    Raises E (q.eval outcome) :=
  Raises.iff_concludes.2 (Query.concludes_eval
    (fun op a _ => Raises.iff_concludes.1 (hunary op a))
    (fun op a b _ _ => Raises.iff_concludes.1 (hbasic op a b))
    hsuperset
    fun i hi => Raises.iff_concludes.1 (hleaf i hi))

-- =========================================================== operators

/-- Whether the error is about headers. -/
def QueryError.isSchema : QueryError → Bool
  | .unknownAttributes _ | .incompatibleAttributes _ | .notUnionCompatible _ _
  | .notDisjoint _ _ | .notSuperset _ _ | .header _ => true
  | .predicate _ | .value _ | .relation _ => false

/-- Whether the error is about the values of rows. -/
def QueryError.isData : QueryError → Bool
  | .predicate _ | .value _ => true
  | _ => false

namespace Header

variable {h k : Header}

/-- Missing names are an error about headers. -/
theorem raises_require (requested : List String) :
    Raises (fun e => e.isSchema = true) (h.require requested) := by
  unfold require
  split
  · exact Raises.ok
  · exact Raises.error rfl

/-- So are names that repeat in a header to be built. -/
theorem raises_derive (attributes : List Attribute) :
    Raises (fun e => e.isSchema = true) (derive attributes) :=
  Raises.mapError fun _ _ => rfl

theorem raises_product :
    Raises (fun e => e.isSchema = true) (h.product k) := by
  unfold product
  split
  · exact raises_derive _
  · exact Raises.error rfl

theorem raises_join : Raises (fun e => e.isSchema = true) (h.join k) := by
  unfold join
  split
  · exact raises_derive _
  · exact Raises.error rfl

theorem raises_requireSame :
    Raises (fun e => e.isSchema = true) (h.requireSame k) := by
  unfold requireSame
  split
  · exact Raises.ok
  · exact Raises.error rfl

theorem raises_requireSuperset (h k : Header) :
    Raises (fun e => e.isSchema = true) (h.requireSuperset k) := by
  unfold requireSuperset
  split
  · exact Raises.ok
  · exact Raises.error rfl

end Header

section Operators

variable {E : QueryError → Prop} (hschema : ∀ e, e.isSchema = true → E e)

include hschema

/-- An operator on one relation fails on headers, on the values that it
sorts by, or with its predicate on a row; the header has then passed for
the names in the predicate. -/
theorem UnaryOperator.raises_apply (hvalue : ∀ e, E (.value e))
    (op : UnaryOperator) (r : Resolved)
    (hpredicate : ∀ p, op = .select p →
      r.header.require p.attributes.toList = .ok () →
      Raises (fun e => E (.predicate e))
        (r.tuples.filterM fun t => p.eval t.get?)) :
    Raises E (op.apply r) := by
  cases op with
  | project names =>
      refine ((Header.raises_require _).mono hschema).bind fun _ _ => ?_
      exact ((Header.raises_derive _).mono hschema).bind fun _ _ => Raises.ok
  | select p =>
      refine ((Header.raises_require _).mono hschema).bind
        fun _ hrequire => ?_
      exact (Raises.mapError (hpredicate p rfl hrequire)).bind
        fun _ _ => Raises.ok
  | rename new old =>
      refine ((Header.raises_require _).mono hschema).bind fun _ _ => ?_
      split
      · exact Raises.ok
      · exact ((Header.raises_derive _).mono hschema).bind
          fun _ _ => Raises.ok
  | orderBy keys =>
      refine ((Header.raises_require _).mono hschema).bind fun _ _ => ?_
      exact (Raises.mapError fun e _ => hvalue e).bind fun _ _ => Raises.ok

/-- A basic operator fails on headers, or with its predicate on a joined
row; the joined header has then passed for the names in the predicate. -/
theorem BasicOperator.raises_apply (op : BasicOperator) (l r : Resolved)
    (hpredicate : ∀ p header, op = .thetaJoin p →
      l.header.join r.header = .ok header →
      header.require p.attributes.toList = .ok () →
      Raises (fun e => E (.predicate e))
        (Tuples.ofListWhereM (fun t => p.eval t.get?) (l.joinedRows r))) :
    Raises E (op.apply l r) := by
  have hset : ∀ f, Raises E (Resolved.setOperation f l r) := fun _ =>
    (Header.raises_requireSame.mono hschema).bind fun _ _ => Raises.ok
  cases op with
  | intersect => exact hset _
  | union => exact hset _
  | subtract => exact hset _
  | product =>
      exact (Header.raises_product.mono hschema).bind fun _ _ => Raises.ok
  | naturalJoin =>
      exact (Header.raises_join.mono hschema).bind fun _ _ => Raises.ok
  | thetaJoin p =>
      refine (Header.raises_join.mono hschema).bind fun header hheader => ?_
      refine ((Header.raises_require _).mono hschema).bind
        fun _ hrequire => ?_
      exact (Raises.mapError (hpredicate p header rfl hheader hrequire)).bind
        fun _ _ => Raises.ok

end Operators

-- ========================================================== own errors

/-- Whether the error is not that of a relation. -/
def QueryError.IsOwn (e : QueryError) : Prop := ∀ e', e ≠ .relation e'

/-- An error about headers is the own error of a query. -/
theorem QueryError.isOwn_of_isSchema {e : QueryError}
    (h : e.isSchema = true) : e.IsOwn := by
  rintro e' rfl
  cases h

/-- A query that fails with the error of a relation reads a relation that
has failed with it. -/
theorem Query.exists_leaf_of_eval_eq_relation {ρ : Type}
    {outcome : ρ → Except RelationError Resolved} {q : Query ρ}
    {e : RelationError} (h : q.eval outcome = .error (.relation e)) :
    ∃ i ∈ q.leaves, outcome i = .error e := by
  let E : QueryError → Prop := fun error =>
    ∀ e, error = .relation e → ∃ i ∈ q.leaves, outcome i = .error e
  have hown : ∀ error, QueryError.IsOwn error → E error :=
    fun _ hown e he => absurd he (hown e)
  have hschema : ∀ error, error.isSchema = true → E error :=
    fun _ h => hown _ (QueryError.isOwn_of_isSchema h)
  have hraises : Raises E (q.eval outcome) := by
    refine Query.raises_eval (fun op a => ?_) (fun op a b => ?_)
      (fun h k => ?_) fun i hi e he e' he' => ?_
    · exact op.raises_apply hschema (fun _ => hown _ nofun) a
        fun _ _ _ _ _ => hown _ nofun
    · exact op.raises_apply hschema a b fun _ _ _ _ _ _ _ => hown _ nofun
    · exact (Header.raises_requireSuperset h k).mono hschema
    · cases he'
      exact ⟨i, hi, he⟩
  exact hraises _ h e rfl

end RelAlgebra
