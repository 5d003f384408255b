/-
Transformations of collections by an effectful function. The function is
called on the rows in order; the first failure ends the transformation,
and no row after it is looked at. The results are collected in order.
-/
import RelAlgebra.Tuples.Basic

namespace RelAlgebra.Tuples

variable {m : Type → Type} [Monad m]

/-- The image of every row. -/
def mapM (f : Tuple → m Tuple) (ts : Tuples) : m Tuples := do
  return ofList (← ts.rows.mapM f)

/-- Collects the rows of a list for which `f` holds. -/
def ofListWhereM (f : Tuple → m Bool) (rows : List Tuple) : m Tuples :=
  rows.foldlM
    (fun acc t => do
      if ← f t then
        return acc.insert t
      else
        return acc)
    empty

/-- The rows for which `f` holds. -/
def filterM (f : Tuple → m Bool) (ts : Tuples) : m Tuples :=
  ofListWhereM f ts.rows

/-- All the rows that each row is turned into. -/
def flatMapM (f : Tuple → m (List Tuple)) (ts : Tuples) : m Tuples :=
  ts.rows.foldlM (fun acc t => do return acc.insertAll (← f t)) empty

/-- The image of every row that has one. -/
def compactMapM (f : Tuple → m (Option Tuple)) (ts : Tuples) : m Tuples :=
  ts.rows.foldlM
    (fun acc t => do
      match ← f t with
      | some u => return acc.insert u
      | none => return acc)
    empty

end RelAlgebra.Tuples
