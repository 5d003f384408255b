/-
Set algebra of collections, with the order of their rows. A union lists the
rows of the left side and then those that only the right side has; the other
two operations keep rows of the left side, in their order and with their
representations. Rows are looked up by equality, which is coarser than being
the same row, so everything is told by what collections contain; the counts and
the laws of sets follow from filters of one list.
-/
import RelAlgebra.Proofs.Tuples.Repetition

namespace RelAlgebra.Tuples

variable {ts : Tuples} {t : Tuple} {rows : List Tuple}

-- =========================================================== insertion

/-- Adding tells whether the row was new. -/
theorem fst_add (ts : Tuples) (t : Tuple) :
    (ts.add t).1 = !ts.contains t := by
  by_cases h : ts.contains t = false
  · simp [add, h]
  · rw [Bool.not_eq_false] at h
    simp [add, h]

/-- An insertion has no effect exactly if an equal row is present. -/
theorem add_eq_false_iff :
    ts.add t = (false, ts) ↔ ∃ u ∈ ts.rows, (u == t) = true := by
  rw [← contains_iff]
  constructor
  · intro h
    simpa [h] using fst_add ts t
  · intro h
    simp [add, h]

/-- Otherwise the row is appended. -/
theorem add_appends_iff :
    (ts.add t).1 = true ∧ (ts.add t).2.rows = ts.rows ++ [t]
      ↔ ¬∃ u ∈ ts.rows, (u == t) = true := by
  have hrows : (ts.add t).2.rows
      = if ts.contains t = true then ts.rows else ts.rows ++ [t] :=
    rows_insert
  rw [← contains_iff, fst_add, hrows]
  cases ts.contains t <;> simp

/-- After insertions those are contained that were, and those equal to a new
one. -/
theorem contains_insertAll (ts : Tuples) (rows : List Tuple) (t : Tuple) :
    (ts.insertAll rows).contains t
      = (ts.contains t || rows.any (· == t)) := by
  induction rows generalizing ts with
  | nil => simp [insertAll]
  | cons u rest ih =>
      show ((ts.insert u).insertAll rest).contains t = _
      rw [ih, contains_insert, List.any_cons, Bool.or_assoc]

-- ====================================================== set operations

theorem eraseDups_of_distinct
    (h : rows.Pairwise fun t u => (t == u) = false) :
    rows.eraseDups = rows := by
  rw [← rows_ofList, rows_ofList_of_distinct h]

/-- A union contains what either side does. -/
theorem contains_union (us vs : Tuples) (t : Tuple) :
    (us.union vs).contains t = (us.contains t || vs.contains t) :=
  contains_insertAll us vs.rows t

/-- It lists the left rows and then the right ones that are new. -/
theorem rows_union (ts us : Tuples) :
    (ts.union us).rows = ts.rows ++ us.rows.filter (!ts.contains ·) := by
  unfold union
  rw [rows_insertAll, eraseDups_of_distinct (us.distinct.filter _)]

/-- Difference and intersection share out the left rows. -/
theorem size_difference_add_size_intersection (ts us : Tuples) :
    ts.size = (ts.difference us).size + (ts.intersection us).size := by
  have hcount := List.length_eq_length_filter_add (l := ts.rows) us.contains
  simp only [size, difference, intersection, filter]
  omega

/-- A union has the left rows, and the right ones that are new. -/
theorem size_union (ts us : Tuples) :
    (ts.union us).size = ts.size + (us.difference ts).size := by
  simp only [size, rows_union, List.length_append, difference, filter]

/-- An intersection is what is left after taking away the difference. -/
theorem intersection_eq_difference (ts us : Tuples) :
    ts.intersection us = ts.difference (ts.difference us) := by
  show _ = ts.difference (ts.filter (!us.contains ·))
  rw [difference_filter]
  exact filter_congr fun t _ => (Bool.not_not _).symm

/-- Taking away a union is taking away one side and then the other. -/
theorem difference_union (ts us vs : Tuples) :
    ts.difference (us.union vs) = (ts.difference us).difference vs := by
  refine ext_rows ?_
  show ts.rows.filter _ = (ts.rows.filter _).filter _
  rw [List.filter_filter]
  refine List.filter_congr fun t _ => ?_
  rw [contains_union, Bool.not_or, Bool.and_comm]

end RelAlgebra.Tuples
