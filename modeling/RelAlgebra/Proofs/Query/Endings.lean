/-
How evaluations end. `Yields` is about one evaluation: whatever it comes
to has a property. `EndsAlike` is about two: either both come to values
that are related, or both fail. Each is kept by sequencing, so each holds
of whole queries as soon as it holds of leaves and is kept by the basic
operators; the operators that are defined by plans follow.
-/
import RelAlgebra.Proofs.Query.Conclusions
import RelAlgebra.Proofs.Query.Tolerance

namespace RelAlgebra

section Results

variable {ε ε' α β : Type}

-- ====================================================== one evaluation

/-- Whatever the evaluation comes to has the property. -/
def Yields (P : α → Prop) (x : Except ε α) : Prop := ∀ a, x = .ok a → P a

namespace Yields

variable {P : α → Prop} {Q : β → Prop}

theorem ok {a : α} (h : P a) : Yields P (.ok a : Except ε α) := by
  intro b hb
  cases hb
  exact h

theorem error {e : ε} : Yields P (.error e : Except ε α) := by
  intro a ha
  cases ha

/-- Two steps yield what the second does, from what the first yields. -/
theorem bind {x : Except ε α} {f : α → Except ε β} (hx : Yields P x)
    (hf : ∀ a, P a → Yields Q (f a)) : Yields Q (x >>= f) := by
  cases x with
  | ok a => exact hf a (hx a rfl)
  | error e => exact error

theorem mapError {x : Except ε α} {g : ε → ε'} (hx : Yields P x) :
    Yields P (x.mapError g) := by
  cases x with
  | ok a => exact ok (hx a rfl)
  | error e => exact error

/-- It is a conclusion that allows every error. -/
theorem iff_concludes {x : Except ε α} :
    Yields P x ↔ Concludes P (fun _ => True) x :=
  ⟨fun hx => Concludes.iff.2 ⟨hx, fun _ _ => trivial⟩,
    fun hx => (Concludes.iff.1 hx).1⟩

end Yields

-- ===================================================== two evaluations

/-- Both fail, with whatever errors. -/
def Tolerance.failing : Tolerance ε ε :=
  ⟨fun _ => False, fun _ => False, fun _ _ => True⟩

/-- Both evaluations come to values, which are related, or both fail. -/
inductive EndsAlike (R : α → α → Prop) : Except ε α → Except ε α → Prop
  | ok {a b : α} (h : R a b) : EndsAlike R (.ok a) (.ok b)
  | error {e e' : ε} : EndsAlike R (.error e) (.error e')

namespace EndsAlike

variable {R : α → α → Prop} {S : β → β → Prop}

/-- It is a tolerance that allows any two errors. -/
theorem iff_relates {x y : Except ε α} :
    EndsAlike R x y ↔ Tolerance.failing.Relates R x y := by
  constructor
  · intro h
    cases h with
    | ok h => exact .ok h
    | error => exact .both trivial
  · intro h
    cases h with
    | ok h => exact ok h
    | left h => exact h.elim
    | right h => exact h.elim
    | both h => exact error

theorem bind {x y : Except ε α} {f g : α → Except ε β} (h : EndsAlike R x y)
    (hfg : ∀ a b, R a b → EndsAlike S (f a) (g b)) :
    EndsAlike S (x >>= f) (y >>= g) :=
  iff_relates.2 ((iff_relates.1 h).bind fun a b hab =>
    iff_relates.1 (hfg a b hab))

/-- An evaluation that both have in common. -/
theorem same (x : Except ε α) : EndsAlike (fun a b => a = b) x x :=
  iff_relates.2 (.same (fun _ => .inr trivial) x)

end EndsAlike

end Results

-- ============================================================= queries

/-- A property that the basic operators keep is kept by queries. -/
theorem Query.yields_eval {P : Resolved → Prop} {ρ : Type}
    (hunary : ∀ op a, P a → Yields P (UnaryOperator.apply op a))
    (hbasic : ∀ op a b, P a → P b → Yields P (BasicOperator.apply op a b))
    {outcome : ρ → Except RelationError Resolved}
    (houtcome : ∀ i, Yields P (outcome i)) (q : Query ρ) :
    Yields P (q.eval outcome) :=
  Yields.iff_concludes.2 (Query.concludes_eval
    (fun op a ha => Yields.iff_concludes.1 (hunary op a ha))
    (fun op a b ha hb => Yields.iff_concludes.1 (hbasic op a b ha hb))
    (fun _ _ _ _ => trivial)
    fun i _ => Yields.iff_concludes.1 (houtcome i))

/-- A relation that the basic operators keep, between relations with the
same headers, is kept by queries. -/
theorem Query.endsAlike_eval {R : Resolved → Resolved → Prop} {ρ : Type}
    (hheader : ∀ a b, R a b → a.header = b.header)
    (hunary : ∀ op a b, R a b →
      EndsAlike R (UnaryOperator.apply op a) (UnaryOperator.apply op b))
    (hbasic : ∀ op a a' b b', R a a' → R b b' →
      EndsAlike R (BasicOperator.apply op a b) (BasicOperator.apply op a' b'))
    {outcome outcome' : ρ → Except RelationError Resolved} {q : Query ρ}
    (houtcome : ∀ i ∈ q.leaves, EndsAlike R (outcome i) (outcome' i)) :
    EndsAlike R (q.eval outcome) (q.eval outcome') := by
  have hkept : Tolerance.failing.KeptBy R (fun op op' => op = op')
      (fun op op' => op = op') :=
    .of_header (fun _ => .inr trivial) hheader (fun _ _ h => h)
      (fun op a b h => EndsAlike.iff_relates.1 (hunary op a b h))
      fun op a a' b b' _ ha hb =>
        EndsAlike.iff_relates.1 (hbasic op a a' b b' ha hb)
  refine EndsAlike.iff_relates.2 (hkept.query ?_)
  exact QueryTree.Corresponds.refl (fun _ => rfl)
    BinaryOperator.Corresponds.refl
    fun i hi => EndsAlike.iff_relates.1 (houtcome i hi)

end RelAlgebra
