/-
What runs answer. A run that leads from every state with a property to a
state with that property, and answers the same from each of them, is as
good as its answer: sequencing such runs answers as sequencing their
answers does. With that, running a query gives what evaluating it gives,
for any way of reading relations that answers with their outcomes.
-/
import RelAlgebra.Execution

namespace RelAlgebra

-- ================================================================ runs

/-- From every state with the property `I`, the run answers `a` and ends
in a state with the property again. -/
def Run.Answers {σ α : Type} (I : σ → Prop) (m : Run σ α) (a : α) : Prop :=
  ∀ s, I s → (m s).value = a ∧ I (m s).state

namespace Run.Answers

variable {σ α β : Type} {I : σ → Prop}

theorem pure (a : α) : Run.Answers I (Pure.pure a : Run σ α) a :=
  fun _ hs => ⟨rfl, hs⟩

theorem report (e : Event) : Run.Answers I (Run.report e : Run σ Unit) () :=
  fun _ hs => ⟨rfl, hs⟩

/-- The second run starts where the first one ends, so the property is
carried from one to the other. -/
theorem bind {m : Run σ α} {f : α → Run σ β} {a : α} {b : β}
    (hm : Run.Answers I m a) (hf : Run.Answers I (f a) b) :
    Run.Answers I (m >>= f) b := by
  intro s hs
  obtain ⟨hvalue, hstate⟩ := hm s hs
  obtain ⟨hvalue', hstate'⟩ := hf _ hstate
  subst hvalue
  exact ⟨hvalue', hstate'⟩

end Run.Answers

-- ========================================================== executions

namespace Execution

variable {σ α β : Type} {I : σ → Prop}

/-- An execution that answers a result, as a run does. -/
def Answers (I : σ → Prop) (x : Execution σ α) (result : Except QueryError α) :
    Prop :=
  Run.Answers I x.run result

/-- What has no effects answers what it comes to. -/
theorem answers_attempt (result : Except QueryError α) :
    Answers I (attempt result : Execution σ α) result :=
  Run.Answers.pure _

theorem answers_cached (r : Resolved) :
    Answers I (cached r : Execution σ Resolved) (.ok r) :=
  (Run.Answers.report _).bind (Run.Answers.pure _)

/-- A failure ends the execution, as it ends the evaluation. -/
theorem answers_bind {x : Execution σ α} {f : α → Execution σ β}
    {result : Except QueryError α} {g : α → Except QueryError β}
    (hx : Answers I x result) (hf : ∀ a, Answers I (f a) (g a)) :
    Answers I (x >>= f) (result >>= g) := by
  refine Run.Answers.bind hx ?_
  cases result with
  | ok a => exact hf a
  | error e => exact Run.Answers.pure _

/-- Reporting how an operator ended does not change how it ended. -/
theorem answers_node (operator : String) {body : Execution σ Resolved}
    {result : Except QueryError Resolved} (hbody : Answers I body result) :
    Answers I (node operator body) result :=
  Run.Answers.bind hbody
    ((Run.Answers.report _).bind (Run.Answers.pure _))

end Execution

open Execution

-- ============================================================= queries

section Trees

variable {β ρ σ : Type} {I : σ → Prop} {name : β → String}
  {run : β → Resolved → Resolved → Execution σ Resolved}
  {apply : β → Resolved → Resolved → Except QueryError Resolved}
  {read : ρ → Execution σ Resolved} {leaf : ρ → Except QueryError Resolved}

/-- A tree answers its evaluation if its leaves and operators do. -/
theorem QueryTree.answers_runWith
    (hop : ∀ op l r, Answers I (run op l r) (apply op l r))
    (hleaf : ∀ r, Answers I (read r) (leaf r)) (q : QueryTree β ρ) :
    Answers I (q.runWith name run read) (q.evalWith apply leaf) := by
  induction q with
  | relation r => exact answers_node _ (hleaf r)
  | unary op q ih =>
      exact answers_node _ (answers_bind ih fun _ => answers_attempt _)
  | binary op l r ihl ihr =>
      exact answers_node _ (answers_bind ihl fun a =>
        answers_bind ihr fun b => hop op a b)

end Trees

variable {ρ σ : Type} {I : σ → Prop}

/-- A plan answers what it evaluates to. -/
theorem Plan.answers_run (plan : Plan) :
    Answers I (plan.run : Execution σ Resolved) plan.eval :=
  QueryTree.answers_runWith (fun _ _ _ => answers_attempt _)
    answers_cached plan

/-- An operator answers what it comes to, whether it runs a plan or not. -/
theorem BinaryOperator.answers_run (op : BinaryOperator) (l r : Resolved) :
    Answers I (op.run l r : Execution σ Resolved) (op.apply l r) := by
  cases op with
  | basic op => exact answers_attempt _
  | divide =>
      exact answers_bind (answers_attempt _) fun _ =>
        answers_bind (Plan.answers_run _) fun _ => Plan.answers_run _
  | semiJoin kind => exact Plan.answers_run _

/-- Running a query gives what evaluating it gives, if reading a relation
gives its outcome. -/
theorem Query.answers_run
    {read : ρ → Run σ (Except RelationError Resolved)}
    {outcome : ρ → Except RelationError Resolved}
    (hread : ∀ r, Run.Answers I (read r) (outcome r)) (q : Query ρ) :
    Answers I (Query.run read q) (Query.eval outcome q) :=
  QueryTree.answers_runWith BinaryOperator.answers_run
    (fun r => Run.Answers.bind (hread r) (Run.Answers.pure _)) q

end RelAlgebra
