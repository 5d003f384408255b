/-
Stable sorting of rows by a comparison that may fail. The rows are taken
one by one; each moves back past the rows that it is less than, starting
at the greatest, so rows that compare equal keep their order. The first
comparison that fails ends the sort.

This is the sort that always comes to an order or to the failure. A sort out
of a library need not: it may give up, with neither, on a comparison that
contradicts itself, and one that calls everything equal once it has failed
does. Such sorts are the subject of `Tuples/Comparing`; they differ from this
one only on rows that have no order.

Rows are compared by a list of keys: the first key on which two rows
differ decides, a missing name reading as the absent value.
-/
import RelAlgebra.Tuples.Basic
import RelAlgebra.Value.Order

namespace RelAlgebra

section Insertion

variable {α ε : Type}

/-- Puts `x` into a list whose greatest element comes first, behind the
elements that it is less than. -/
def insertDescending (compare : α → α → Except ε Ordering) (x : α) :
    List α → Except ε (List α)
  | [] => .ok [x]
  | y :: ys => do
    match ← compare x y with
    | .lt => return y :: (← insertDescending compare x ys)
    | _ => return x :: y :: ys

/-- The list in descending order, equal elements in their old order. -/
def sortDescending (compare : α → α → Except ε Ordering) :
    List α → Except ε (List α)
  | [] => .ok []
  | x :: earlier => do insertDescending compare x (← sortDescending compare earlier)

/-- The list in ascending order, equal elements in their old order. It is
taken from the front, so it is handed over backwards. -/
def stableSort (compare : α → α → Except ε Ordering) (xs : List α) :
    Except ε (List α) :=
  (sortDescending compare xs.reverse).map List.reverse

end Insertion

/-- The direction in which a key orders rows. -/
inductive Direction where
  | ascending
  | descending
  deriving DecidableEq, Repr

/-- The order as seen in that direction. -/
def Direction.apply : Direction → Ordering → Ordering
  | .ascending, o => o
  | .descending, o => o.swap

/-- An attribute to order by. -/
structure SortKey where
  name : String
  direction : Direction
  deriving DecidableEq, Repr

/-- Compares two rows key by key. -/
def Tuple.compareBy (t u : Tuple) : List SortKey → Except ValueError Ordering
  | [] => .ok .eq
  | key :: keys => do
    match key.direction.apply (← (t.getD key.name).compare (u.getD key.name))
    with
    | .eq => t.compareBy u keys
    | o => return o

/-- The rows in the order of the keys. -/
def Tuples.sortedBy (ts : Tuples) (keys : List SortKey) :
    Except ValueError Tuples := do
  return ofList (← stableSort (fun t u => t.compareBy u keys) ts.rows)

end RelAlgebra
