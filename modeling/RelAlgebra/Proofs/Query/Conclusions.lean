/-
What an evaluation can come to: a value with one property, or an error with
another. This is kept by sequencing, so it holds of a query as soon as it
holds of its leaves, and of every operator on operands that have the
property; the operators that are defined by plans follow from the basic
ones.
-/
import RelAlgebra.Query.Plan

namespace RelAlgebra

section Results

variable {ε ε' α β : Type}

/-- Errors are replaced in every step of an evaluation. -/
theorem mapError_bind (x : Except ε α) (f : α → Except ε β) (g : ε → ε') :
    (x >>= f).mapError g = x.mapError g >>= fun a => (f a).mapError g := by
  cases x <;> rfl

/-- Whatever the evaluation comes to is a `P`, and whatever it fails with
is an `E`. -/
inductive Concludes (P : α → Prop) (E : ε → Prop) : Except ε α → Prop
  | ok {a : α} (h : P a) : Concludes P E (.ok a)
  | error {e : ε} (h : E e) : Concludes P E (.error e)

namespace Concludes

variable {P : α → Prop} {Q : β → Prop} {E : ε → Prop} {E' : ε' → Prop}

theorem iff {x : Except ε α} :
    Concludes P E x ↔ (∀ a, x = .ok a → P a) ∧ ∀ e, x = .error e → E e := by
  constructor
  · intro h
    cases h with
    | ok h => exact ⟨fun a ha => Except.ok.inj ha ▸ h, nofun⟩
    | error h => exact ⟨nofun, fun e he => Except.error.inj he ▸ h⟩
  · intro h
    cases x with
    | ok a => exact ok (h.1 a rfl)
    | error e => exact error (h.2 e rfl)

/-- Two steps conclude if the first does, and the second from any value that
the first may give. -/
theorem bind {x : Except ε α} {f : α → Except ε β} (hx : Concludes P E x)
    (hf : ∀ a, P a → Concludes Q E (f a)) : Concludes Q E (x >>= f) := by
  cases hx with
  | ok h => exact hf _ h
  | error h => exact error h

theorem mapError {x : Except ε α} {g : ε → ε'}
    (hx : Concludes P (fun e => E' (g e)) x) :
    Concludes P E' (x.mapError g) := by
  cases hx with
  | ok h => exact ok h
  | error h => exact error h

end Concludes

end Results

-- ============================================================= queries

section Kept

variable {P : Resolved → Prop} {E : QueryError → Prop}

/-- A tree concludes if its operators and its leaves do, by induction on the
tree. -/
theorem QueryTree.concludes_evalWith {β ρ : Type}
    {apply : β → Resolved → Resolved → Except QueryError Resolved}
    {leaf : ρ → Except QueryError Resolved}
    (hunary : ∀ op a, P a → Concludes P E (UnaryOperator.apply op a))
    (hbinary : ∀ op a b, P a → P b → Concludes P E (apply op a b))
    {q : QueryTree β ρ} (hleaf : ∀ i ∈ q.leaves, Concludes P E (leaf i)) :
    Concludes P E (q.evalWith apply leaf) := by
  induction q with
  | relation i => exact hleaf i (List.mem_singleton.2 rfl)
  | unary op q ih => exact (ih hleaf).bind fun a ha => hunary op a ha
  | binary op l r ihl ihr =>
      refine (ihl fun i hi => hleaf i ?_).bind fun a ha =>
        (ihr fun i hi => hleaf i ?_).bind fun b hb => hbinary op a b ha hb
      · exact List.mem_append_left _ hi
      · exact List.mem_append_right _ hi

variable (hunary : ∀ op a, P a → Concludes P E (UnaryOperator.apply op a))
  (hbasic : ∀ op a b, P a → P b →
    Concludes P E (BasicOperator.apply op a b))

include hunary hbasic

/-- So a plan does, whose leaves are results. -/
theorem Plan.concludes_eval {plan : Plan} (h : ∀ a ∈ plan.leaves, P a) :
    Concludes P E plan.eval :=
  QueryTree.concludes_evalWith hunary hbasic fun a ha => Concludes.ok (h a ha)

/-- What the basic operators come to, all of them do; and division fails
on a divisor with other attributes. -/
theorem BinaryOperator.concludes_apply
    (hsuperset : ∀ h k : Header, ∀ e, h.requireSuperset k = .error e → E e)
    (op : BinaryOperator) {l r : Resolved} (hl : P l) (hr : P r) :
    Concludes P E (op.apply l r) := by
  cases op with
  | basic op => exact hbasic op l r hl hr
  | divide =>
      have hheaders : Concludes (fun _ => True) E
          (l.header.requireSuperset r.header) :=
        Concludes.iff.2 ⟨fun _ _ => trivial, hsuperset _ _⟩
      refine hheaders.bind fun _ _ => ?_
      refine (Plan.concludes_eval hunary hbasic ?_).bind fun c hc =>
        Plan.concludes_eval hunary hbasic ?_
      · simpa [Plan.candidates, Plan.project, QueryTree.leaves] using hl
      · simp [Plan.quotient, Plan.project, Plan.subtract, QueryTree.leaves,
          hl, hr, hc]
  | semiJoin kind =>
      refine Plan.concludes_eval hunary hbasic ?_
      cases kind <;>
        simp [SemiJoinKind.plan, Plan.partnered, Plan.project, Plan.subtract,
          QueryTree.leaves, hl, hr]

theorem Query.concludes_eval {ρ : Type}
    (hsuperset : ∀ h k : Header, ∀ e, h.requireSuperset k = .error e → E e)
    {outcome : ρ → Except RelationError Resolved} {q : Query ρ}
    (hleaf : ∀ i ∈ q.leaves,
      Concludes P (fun e => E (.relation e)) (outcome i)) :
    Concludes P E (q.eval outcome) :=
  QueryTree.concludes_evalWith hunary
    (fun op _ _ =>
      BinaryOperator.concludes_apply hunary hbasic hsuperset op)
    fun i hi => (hleaf i hi).mapError

end Kept

end RelAlgebra
