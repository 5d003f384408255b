/-
Queries run with a sort that may give up, beside the same queries run with
one that does not. The two come to the same, unless a sort fails: then the
one may fail for other values than the other, or give up. That is what
`Attempt.Follows` says. Sequencing keeps it, since nothing is done after a
failure; so it holds of queries if it holds of the operators that sort, and
of all relations of a store, by induction on the store: a cell reads only
those before it.
-/
import RelAlgebra.Proofs.Algebra.Arrangement
import RelAlgebra.Proofs.Store.RowOrder

namespace RelAlgebra

-- =========================================================== following

/-- The attempt comes to what the evaluation comes to. Only where that is an
error of a certain kind may the attempt come to another error of that kind,
or be given up. -/
inductive Attempt.Follows {ε α : Type} (E : ε → Prop) :
    Attempt ε α → Except ε α → Prop
  | same (x : Except ε α) : Follows E (.ofExcept x) x
  | error {e e' : ε} (h : E e) (h' : E e') : Follows E (.error e) (.error e')
  | gaveUp {e : ε} (h : E e) : Follows E .gaveUp (.error e)

namespace Attempt.Follows

variable {ε ε' α β : Type} {E : ε → Prop} {x : Attempt ε α} {y : Except ε α}
  {e : ε}

/-- Once the evaluation has failed, what would come next is not done. -/
theorem bind {f : α → Attempt ε β} {g : α → Except ε β} (h : x.Follows E y)
    (hfg : ∀ a, (f a).Follows E (g a)) :
    (x >>= f).Follows E (y >>= g) := by
  cases h with
  | same y =>
      cases y with
      | ok a => exact hfg a
      | error e => exact same (.error e)
  | error h h' => exact error h h'
  | gaveUp h => exact gaveUp h

theorem mapError {E' : ε' → Prop} {f : ε → ε'} (h : x.Follows E y)
    (hf : ∀ e, E e → E' (f e)) :
    (x.mapError f).Follows E' (y.mapError f) := by
  cases h with
  | same y =>
      cases y with
      | ok a => exact same (.ok a)
      | error e => exact same (.error (f e))
  | error h h' => exact error (hf _ h) (hf _ h')
  | gaveUp h => exact gaveUp (hf _ h)

/-- They come to the same values. -/
theorem eq_ok_iff (h : x.Follows E y) {a : α} : x = .ok a ↔ y = .ok a := by
  cases h with
  | same y => exact ofExcept_eq_ok_iff
  | error h h' => exact iff_of_false nofun nofun
  | gaveUp h => exact iff_of_false nofun nofun

/-- An error of another kind is that of the evaluation. -/
theorem eq_error (h : x.Follows E y) (hx : x = .error e) (he : ¬E e) :
    y = .error e := by
  subst hx
  generalize hattempt : Attempt.error e = x at h
  cases h with
  | same y =>
      cases y with
      | ok a => cases hattempt
      | error e' =>
          cases hattempt
          rfl
  | error h h' =>
      cases hattempt
      exact absurd h he
  | gaveUp h => cases hattempt

/-- An evaluation that fails is met by a failure, or is given up. -/
theorem of_error (h : x.Follows E y) (hy : y = .error e) :
    (∃ e', x = .error e' ∧ (e' = e ∨ E e')) ∨ x = .gaveUp := by
  cases h with
  | same y =>
      subst hy
      exact .inl ⟨e, rfl, .inl rfl⟩
  | error h h' => exact .inl ⟨_, rfl, .inr h⟩
  | gaveUp h => exact .inr rfl

/-- It is given up only where the evaluation fails. -/
theorem of_gaveUp (h : x.Follows E y) (hx : x = .gaveUp) :
    ∃ e, y = .error e ∧ E e := by
  cases h with
  | same y => cases y <;> cases hx
  | error h h' => cases hx
  | gaveUp h => exact ⟨_, rfl, h⟩

/-- Where there is no such kind, they do not differ. -/
theorem eq_ofExcept (h : x.Follows (fun _ => False) y) : x = .ofExcept y := by
  cases h with
  | same y => rfl
  | error h h' => exact h.elim
  | gaveUp h => exact h.elim

end Attempt.Follows

-- ============================================================= queries

section Running

variable {E : QueryError → Prop} {sort : Sorter}
  (hunary : ∀ op r, (UnaryOperator.attempt sort op r).Follows E (op.apply r))

include hunary

/-- What holds of the operators on one relation holds of queries over
relations of which it holds. The other operators do not sort. -/
theorem Query.follows_attempt {ρ : Type}
    {below : ρ → Attempt RelationError Resolved}
    {outcome : ρ → Except RelationError Resolved} {q : Query ρ}
    (hbelow : ∀ i ∈ q.leaves, (below i).Follows (E ∘ .relation) (outcome i)) :
    (Query.attempt sort below q).Follows E (q.eval outcome) := by
  induction q with
  | relation i =>
      exact (hbelow i (List.mem_singleton.2 rfl)).mapError fun _ h => h
  | unary op q ih => exact (ih hbelow).bind fun r => hunary op r
  | binary op p q ihp ihq =>
      have hp := ihp fun i hi => hbelow i (List.mem_append_left _ hi)
      have hq := ihq fun i hi => hbelow i (List.mem_append_right _ hi)
      exact hp.bind fun a => hq.bind fun b => .same (op.apply a b)

/-- It holds of all relations of a store, if the kind of error is kept when
a relation hands it on. -/
theorem Store.follows_attempt {n : Nat} (s : Store n)
    (hrelation : ∀ e, E e → E (.relation (.ofQuery e))) (i : Fin n) :
    (s.attempt sort i).Follows (E ∘ .relation) (s.outcome i) := by
  induction s with
  | empty => exact i.elim0
  | @push n earlier cell ih =>
      simp only [attempt, outcome]
      by_cases h : i.val < n
      · rw [dif_pos h, dif_pos h]
        exact ih ⟨i, h⟩
      · rw [dif_neg h, dif_neg h]
        cases cell with
        | pending q =>
            exact (Query.follows_attempt hunary fun j _ => ih j).mapError
              hrelation
        | resolved r => exact .same (.ok r)
        | failed e => exact .same (.error e)

end Running

-- =============================================================== sorts

/-- Whichever the sort, it comes to the same rows in the same order. Where
there is no order on them, it fails or gives up. -/
theorem Tuples.follows_sortedWith (sort : StableSort) (ts : Tuples)
    (keys : List SortKey) :
    (ts.sortedWith sort keys).Follows (fun _ => True) (ts.sortedBy keys) := by
  have hagree : ∀ us, ts.sortedBy keys = .ok us
      ↔ ts.sortedWith sort keys = .ok us := by
    intro us
    rw [← Attempt.ofExcept_eq_ok_iff, ← sortedWith_insertion,
      sortedWith_eq_ok_iff sort]
    exact sortedWith_eq_ok_iff .insertion
  cases hsorted : ts.sortedBy keys with
  | ok us =>
      rw [(hagree us).1 hsorted]
      exact .same (.ok us)
  | error e =>
      cases hsort : ts.sortedWith sort keys with
      | ok us => cases hsorted.symm.trans ((hagree us).2 hsort)
      | error e' => exact .error trivial trivial
      | gaveUp => exact .gaveUp trivial

/-- Sorts differ only where ordering fails for values. -/
theorem UnaryOperator.follows_attempt {E : QueryError → Prop}
    (hvalue : ∀ v, E (.value v)) (sort : StableSort) (op : UnaryOperator)
    (r : Resolved) : (op.attempt sort r).Follows E (op.apply r) := by
  cases op with
  | orderBy keys =>
      have htuples :
          ((r.tuples.sortedWith sort keys).mapError QueryError.value).Follows E
            ((r.tuples.sortedBy keys).mapError .value) :=
        (Tuples.follows_sortedWith sort r.tuples keys).mapError
          fun v _ => hvalue v
      refine Attempt.Follows.bind (.same (r.header.require _)) fun _ => ?_
      exact htuples.bind fun ts => .same (.ok (Resolved.mk r.header ts))
  | project names => exact .same _
  | select p => exact .same _
  | rename new old => exact .same _

/-- Insertion is how the operators sort. -/
theorem UnaryOperator.attempt_insertion (op : UnaryOperator) (r : Resolved) :
    op.attempt .insertion r = .ofExcept (op.apply r) := by
  cases op with
  | orderBy keys => exact Resolved.orderWith_insertion
  | project names => rfl
  | select p => rfl
  | rename new old => rfl

/-- The error is one about values, be it that of a relation. -/
def QueryError.IsValue (e : QueryError) : Prop :=
  ∃ v, e = .value v ∨ e = .relation (.value v)

/-- It stays one when a relation hands it on. -/
theorem QueryError.IsValue.ofQuery {e : QueryError} (h : e.IsValue) :
    (relation (.ofQuery e)).IsValue := by
  obtain ⟨v, rfl | rfl⟩ := h
  · exact ⟨v, .inr rfl⟩
  · exact ⟨v, .inr rfl⟩

namespace Store

variable {n : Nat} (s : Store n) (q : Query (Fin n))

/-- A query is run by sorting with insertion. -/
theorem executeWith_insertion :
    s.executeWith .insertion q = .ofExcept (execute q s).value := by
  have hunary : ∀ op r, (UnaryOperator.attempt .insertion op r).Follows
      (fun _ => False) (op.apply r) := fun op r =>
    op.attempt_insertion r ▸ .same _
  rw [value_execute]
  refine Attempt.Follows.eq_ofExcept (Query.follows_attempt hunary ?_)
  exact fun i _ => s.follows_attempt hunary (fun _ h => h) i

/-- With another sort a relation comes to the same, unless a sort fails on
the way. -/
theorem follows_outcome (sort : StableSort) (i : Fin n) :
    (s.attempt sort i).Follows (QueryError.IsValue ∘ .relation)
      (s.outcome i) :=
  s.follows_attempt
    (UnaryOperator.follows_attempt (E := QueryError.IsValue)
      (fun v => ⟨v, .inl rfl⟩) sort)
    (fun _ => QueryError.IsValue.ofQuery) i

/-- And so does a query. -/
theorem follows_executeWith (sort : StableSort) :
    (s.executeWith sort q).Follows QueryError.IsValue (execute q s).value := by
  rw [value_execute]
  exact Query.follows_attempt
    (UnaryOperator.follows_attempt (fun v => ⟨v, .inl rfl⟩) sort)
    fun i _ => s.follows_outcome sort i

/-- Over relations that have their rows, the failure is that of a sort of
the query. -/
theorem follows_executeWith_of_resolved (sort : StableSort)
    {a : Fin n → Resolved} (ha : ∀ i ∈ q.leaves, s.get i = .resolved (a i)) :
    (s.executeWith sort q).Follows (fun e => ∃ v, e = .value v)
      (execute q s).value := by
  rw [value_execute]
  refine Query.follows_attempt
    (UnaryOperator.follows_attempt (fun v => ⟨v, rfl⟩) sort) fun i hi => ?_
  have houtcome : s.outcome i = .ok (a i) := outcome_of_get (ha i hi)
  rw [(s.follows_outcome sort i).eq_ok_iff.2 houtcome, houtcome]
  exact .same (.ok (a i))

end Store

end RelAlgebra
