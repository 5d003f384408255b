/-
Running queries. A run may change a state, which is what the leaves of a
query are read from, and reports events in order; every operator reports
how it ended. The operators that are defined by plans run their plans, so
these report their own operators too.
-/
import RelAlgebra.Event
import RelAlgebra.Query.Plan

namespace RelAlgebra

/-- How a run ends. -/
structure Ended (σ α : Type) where
  value : α
  state : σ
  events : List Event

/-- A step that reads and changes a state and reports events. -/
def Run (σ α : Type) := σ → Ended σ α

namespace Run

variable {σ α β : Type}

instance : Monad (Run σ) where
  pure a := fun s => ⟨a, s, []⟩
  bind m f := fun s =>
    let a := m s
    let b := f a.value a.state
    ⟨b.value, b.state, a.events ++ b.events⟩

/-- Reports one event. -/
def report (e : Event) : Run σ Unit := fun s => ⟨(), s, [e]⟩

end Run

/-- A run that may fail as a query does. -/
abbrev Execution (σ α : Type) := ExceptT QueryError (Run σ) α

namespace Execution

variable {σ : Type}

/-- A step without effects. -/
def attempt {α : Type} (result : Except QueryError α) : Execution σ α :=
  ExceptT.mk (pure result)

/-- The report of an operator that ended so. -/
def ending (operator : String) : Except QueryError Resolved → Event
  | .ok r => .produced operator r.tuples.size r.header
  | .error e => .failed operator e

/-- Runs an operator and reports how it ended. -/
def node (operator : String) (body : Execution σ Resolved) :
    Execution σ Resolved :=
  ExceptT.mk do
    let result ← body.run
    Run.report (ending operator result)
    return result

/-- Reads a relation that was evaluated before. -/
def cached (r : Resolved) : Execution σ Resolved :=
  ExceptT.mk do
    Run.report .cacheHit
    return .ok r

end Execution

open Execution

/-- Runs a query, given how to run its leaves and its binary operators. -/
def QueryTree.runWith {β ρ σ : Type} (name : β → String)
    (apply : β → Resolved → Resolved → Execution σ Resolved)
    (leaf : ρ → Execution σ Resolved) :
    QueryTree β ρ → Execution σ Resolved
  | .relation r => node "relation" (leaf r)
  | .unary op q =>
    node op.name do attempt (op.apply (← q.runWith name apply leaf))
  | .binary op l r =>
    node (name op) do
      let a ← l.runWith name apply leaf
      let b ← r.runWith name apply leaf
      apply op a b

/-- Runs a plan. -/
def Plan.run {σ : Type} (plan : Plan) : Execution σ Resolved :=
  QueryTree.runWith BasicOperator.name
    (fun op l r => attempt (op.apply l r)) cached plan

/-- Runs a binary operator on two results. -/
def BinaryOperator.run {σ : Type} (op : BinaryOperator) (l r : Resolved) :
    Execution σ Resolved :=
  match op with
  | .basic op => attempt (op.apply l r)
  | .divide => do
    attempt (l.header.requireSuperset r.header)
    let candidates ← (Plan.candidates l r).run
    (Plan.quotient candidates l r).run
  | .semiJoin kind => (kind.plan l r).run

/-- Runs a query, given how to read the relations it names. -/
def Query.run {ρ σ : Type}
    (read : ρ → Run σ (Except RelationError Resolved)) (q : Query ρ) :
    Execution σ Resolved :=
  QueryTree.runWith BinaryOperator.name BinaryOperator.run
    (fun r => ExceptT.mk do return (← read r).mapError .relation) q

end RelAlgebra
