/-
The operators on one relation: projection, selection, renaming and
ordering. Each checks the names it uses against the header before it
looks at a row.
-/
import RelAlgebra.Expression.Evaluation
import RelAlgebra.Resolved
import RelAlgebra.Tuples.Sort
import RelAlgebra.Tuples.Transform

namespace RelAlgebra

namespace Resolved

/-- Keeps the named attributes, in the order they are named. Rows that
become equal collapse into one. -/
def project (names : List String) (r : Resolved) :
    Except QueryError Resolved := do
  r.header.require names
  let header ← Header.derive (names.filterMap r.header.attribute?)
  return ⟨header, .ofList (r.tuples.rows.map (·.project names))⟩

/-- Keeps the rows for which the predicate holds. -/
def select (p : Predicate) (r : Resolved) : Except QueryError Resolved := do
  r.header.require p.attributes.toList
  let tuples ← (r.tuples.filterM fun t => p.eval t.get?).mapError .predicate
  return ⟨r.header, tuples⟩

/-- Gives the attribute `old` the name `new`, at its place. A name that is
taken already shows as a repeated name. -/
def rename (new old : String) (r : Resolved) : Except QueryError Resolved := do
  r.header.require [old]
  if new = old then
    return r
  let header ← Header.derive (r.header.attributes.map fun a =>
    if a.name = old then { a with name := new } else a)
  return ⟨header, .ofList (r.tuples.rows.map (·.renamed old new))⟩

/-- Orders the rows by the keys. -/
def orderBy (keys : List SortKey) (r : Resolved) :
    Except QueryError Resolved := do
  r.header.require (keys.map SortKey.name)
  let tuples ← (r.tuples.sortedBy keys).mapError .value
  return ⟨r.header, tuples⟩

end Resolved

/-- The operators on one relation. -/
inductive UnaryOperator where
  | project (names : List String)
  | select (p : Predicate)
  | rename (new old : String)
  | orderBy (keys : List SortKey)

namespace UnaryOperator

/-- The name that the log uses. -/
def name : UnaryOperator → String
  | .project _ => "projection"
  | .select _ => "selection"
  | .rename _ _ => "rename"
  | .orderBy _ => "order by"

def apply : UnaryOperator → Resolved → Except QueryError Resolved
  | .project names => Resolved.project names
  | .select p => Resolved.select p
  | .rename new old => Resolved.rename new old
  | .orderBy keys => Resolved.orderBy keys

end UnaryOperator

end RelAlgebra
