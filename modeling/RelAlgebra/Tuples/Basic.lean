/-
Collections of rows. A collection is a set that remembers the order of
insertion: inserting a row equal to one already present changes nothing,
and the earlier row keeps its place and its representation.
-/
import RelAlgebra.Tuple

namespace RelAlgebra

/-- Rows in order of insertion, no two of them equal. -/
structure Tuples where
  rows : List Tuple
  distinct : rows.Pairwise fun t u => (t == u) = false

namespace Tuples

/-- The collection without rows. -/
def empty : Tuples := ⟨[], .nil⟩

/-- Whether a row equal to `t` is present. -/
def contains (ts : Tuples) (t : Tuple) : Bool := ts.rows.any (· == t)

theorem distinct_append {ts : Tuples} {t : Tuple}
    (h : ts.contains t = false) :
    (ts.rows ++ [t]).Pairwise fun t u => (t == u) = false := by
  rw [List.pairwise_append]
  refine ⟨ts.distinct, List.pairwise_singleton _ _, fun u hu v hv => ?_⟩
  rw [List.mem_singleton.1 hv]
  simpa using List.any_eq_false.1 h u hu

/-- Inserts a row; also says whether it is new. -/
def add (ts : Tuples) (t : Tuple) : Bool × Tuples :=
  if h : ts.contains t = false then
    (true, ⟨ts.rows ++ [t], distinct_append h⟩)
  else
    (false, ts)

/-- The collection with one more row. -/
def insert (ts : Tuples) (t : Tuple) : Tuples := (ts.add t).2

/-- The collection with more rows, inserted in order. -/
def insertAll (ts : Tuples) (rows : List Tuple) : Tuples :=
  rows.foldl insert ts

/-- The rows of a list, each at its first occurrence. -/
def ofList (rows : List Tuple) : Tuples := empty.insertAll rows

/-- The number of rows. -/
def size (ts : Tuples) : Nat := ts.rows.length

def isEmpty (ts : Tuples) : Bool := ts.rows.isEmpty

/-- The rows that satisfy a test. -/
def filter (ts : Tuples) (p : Tuple → Bool) : Tuples :=
  ⟨ts.rows.filter p, ts.distinct.filter p⟩

/-- The rows of `ts`, then those of `us` that are not among them. -/
def union (ts us : Tuples) : Tuples := ts.insertAll us.rows

/-- The rows of `ts` that are also in `us`. -/
def intersection (ts us : Tuples) : Tuples := ts.filter us.contains

/-- The rows of `ts` that are not in `us`. -/
def difference (ts us : Tuples) : Tuples := ts.filter (!us.contains ·)

/-- Equality as sets: the order of the rows does not count. -/
instance : BEq Tuples :=
  ⟨fun ts us => ts.size == us.size && ts.rows.all us.contains⟩

/-- The hash data of a collection: its size, and the sum of the words its
rows are condensed to. -/
def digest (finish : Digest.Finish) (ts : Tuples) : Digest :=
  [.count ts.size,
    .word (ts.rows.foldl (fun sum t => sum + finish t.digest) 0)]

end Tuples

end RelAlgebra
