/-
Running queries with a sort that may give up. Then the step that needs the
sort has no answer at all, neither a result nor an error. Everything but
ordering is done as ever; the operators that are defined by plans do not
order rows, so nothing can give up in them.

What a relation comes to is told from its cell and those below it, as the
store has them when it is read.
-/
import RelAlgebra.Store.Program
import RelAlgebra.Tuples.Sorter

namespace RelAlgebra

-- ============================================================= queries

/-- Orders the rows by the keys, by any sort. -/
def Resolved.orderWith (sort : Sorter) (keys : List SortKey) (r : Resolved) :
    Attempt QueryError Resolved := do
  .ofExcept (r.header.require (keys.map SortKey.name))
  let tuples ← (r.tuples.sortedWith sort keys).mapError .value
  return ⟨r.header, tuples⟩

/-- Applies an operator, ordering by the sort. -/
def UnaryOperator.attempt (sort : Sorter) :
    UnaryOperator → Resolved → Attempt QueryError Resolved
  | .orderBy keys, r => r.orderWith sort keys
  | op, r => .ofExcept (op.apply r)

/-- The result of a query that orders by the sort, given what each relation
it reads comes to. -/
def Query.attempt {ρ : Type} (sort : Sorter)
    (below : ρ → Attempt RelationError Resolved) :
    Query ρ → Attempt QueryError Resolved
  | .relation r => (below r).mapError .relation
  | .unary op q => do op.attempt sort (← Query.attempt sort below q)
  | .binary op l r => do
    let a ← Query.attempt sort below l
    let b ← Query.attempt sort below r
    .ofExcept (op.apply a b)

-- ============================================================== stores

/-- What a cell comes to, given what the relations below it come to. -/
def Cell.attempt {ρ : Type} (sort : Sorter)
    (below : ρ → Attempt RelationError Resolved) :
    Cell ρ → Attempt RelationError Resolved
  | .pending q => (Query.attempt sort below q).mapError .ofQuery
  | .resolved r => .ok r
  | .failed e => .error e

namespace Store

/-- What reading a relation comes to. -/
def attempt (sort : Sorter) :
    {n : Nat} → Store n → Fin n → Attempt RelationError Resolved
  | n + 1, .push earlier cell, i =>
    if h : i.val < n then
      earlier.attempt sort ⟨i, h⟩
    else
      cell.attempt sort (earlier.attempt sort)

/-- What running a query over the relations of the store comes to. -/
def executeWith {n : Nat} (sort : Sorter) (q : Query (Fin n)) (s : Store n) :
    Attempt QueryError Resolved :=
  Query.attempt sort (s.attempt sort) q

end Store

-- =============================================================== steps

/-- Whether a read comes to a sort that gives up. -/
def Read.givesUp {n : Nat} (sort : Sorter) (s : Store n) :
    Read (Fin n) → Bool
  | .resolve i | .header i | .tuples i | .digest i =>
    (s.attempt sort i).isGaveUp
  | .equal i j =>
    i ≠ j ∧ ((s.attempt sort i).isGaveUp ∨ (s.attempt sort j).isGaveUp)
  | .execute q => (s.executeWith sort q).isGaveUp

/-- Whether a step comes to a sort that gives up; the program ends there,
and the step has no answer. -/
def Session.givesUp (sort : Sorter) (s : Session) : Step → Bool
  | .read r =>
    match r.mapRelations? s.find? with
    | some r => r.givesUp sort s.store
    | none => false
  | _ => false

end RelAlgebra
