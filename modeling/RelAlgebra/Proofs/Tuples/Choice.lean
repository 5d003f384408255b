/-
Rows of one collection, chosen by tests. No two rows of a collection are
equal, so a row is found among the chosen ones exactly if it was chosen
itself. Hence set operations on chosen rows come to connectives of the
tests: intersection and difference keep the order of the rows, and a union
has the rows for which either test holds, in another order.
-/
import RelAlgebra.Proofs.Tuples.Membership

namespace RelAlgebra.Tuples

variable {ts us : Tuples} {t u : Tuple} {rows : List Tuple}
  {p q : Tuple → Bool}

theorem ext_rows (h : ts.rows = us.rows) : ts = us := by
  cases ts
  cases us
  cases h
  rfl

-- ====================================================== different rows

/-- No row is listed twice. -/
theorem nodup_rows (ts : Tuples) : ts.rows.Nodup :=
  ts.nodup_fingerprints.of_map

/-- Equal rows of one collection are the same row. -/
theorem eq_of_beq (ht : t ∈ ts.rows) (hu : u ∈ ts.rows)
    (h : (t == u) = true) : t = u :=
  List.inj_on_of_nodup_map ts.nodup_fingerprints ht hu
    ((Tuple.beq_iff_fingerprint t u).1 h)

/-- Rows of which no two are equal are all inserted, if none of them is
there already. -/
theorem rows_insertAll_of_distinct
    (hrows : rows.Pairwise fun t u => (t == u) = false)
    (hnew : ∀ t ∈ rows, ts.contains t = false) :
    (ts.insertAll rows).rows = ts.rows ++ rows := by
  induction rows generalizing ts with
  | nil => simp [insertAll]
  | cons t rest ih =>
      obtain ⟨hfirst, hrest⟩ := List.pairwise_cons.1 hrows
      have ht : (ts.insert t).rows = ts.rows ++ [t] := by
        rw [rows_insert, if_neg (by simp [hnew t (List.mem_cons_self ..)])]
      have hnew' : ∀ u ∈ rest, (ts.insert t).contains u = false := by
        intro u hu
        have hts := hnew u (List.mem_cons_of_mem _ hu)
        unfold contains at hts ⊢
        rw [ht, List.any_append, hts]
        simpa using hfirst u hu
      show ((ts.insert t).insertAll rest).rows = _
      rw [ih hrest hnew', ht, List.append_assoc, List.singleton_append]

/-- Collecting rows of which no two are equal changes nothing. -/
theorem rows_ofList_of_distinct
    (h : rows.Pairwise fun t u => (t == u) = false) :
    (ofList rows).rows = rows :=
  rows_insertAll_of_distinct h fun _ _ => rfl

/-- Chosen rows are still different, so collecting them loses none. -/
theorem ofList_filter (ts : Tuples) (p : Tuple → Bool) :
    ofList (ts.rows.filter p) = ts.filter p :=
  ext_rows (rows_ofList_of_distinct (ts.distinct.filter p))

-- ========================================================= chosen rows

/-- A row is found among the chosen ones if the test holds of it. -/
theorem contains_filter (ht : t ∈ ts.rows) :
    (ts.filter p).contains t = p t := by
  rw [Bool.eq_iff_iff, contains_iff]
  constructor
  · rintro ⟨u, hu, hut⟩
    obtain ⟨hu, hp⟩ := List.mem_filter.1 hu
    rwa [← eq_of_beq hu ht hut]
  · intro hp
    exact ⟨t, List.mem_filter.2 ⟨ht, hp⟩, BEq.rfl⟩

theorem filter_congr (h : ∀ t ∈ ts.rows, p t = q t) :
    ts.filter p = ts.filter q :=
  ext_rows (List.filter_congr h)

/-- Rows chosen twice are those chosen by both predicates. -/
theorem intersection_filter (ts : Tuples) (p q : Tuple → Bool) :
    (ts.filter p).intersection (ts.filter q)
      = ts.filter fun t => p t && q t := by
  refine ext_rows ?_
  show (ts.rows.filter p).filter _ = ts.rows.filter _
  rw [List.filter_filter]
  refine List.filter_congr fun t ht => ?_
  rw [contains_filter ht, Bool.and_comm]

/-- What is left of a choice are the rows that were not chosen. -/
theorem difference_filter (ts : Tuples) (p : Tuple → Bool) :
    ts.difference (ts.filter p) = ts.filter fun t => !p t :=
  filter_congr fun t ht => by rw [contains_filter ht]

/-- A union lists the rows that only the second test chooses last. -/
theorem perm_union_filter (ts : Tuples) (p q : Tuple → Bool) :
    ((ts.filter p).union (ts.filter q)).rows.Perm
      (ts.filter fun t => p t || q t).rows := by
  have hsame : ∀ t u, t ∈ (ts.filter p).rows ∨ t ∈ (ts.filter q).rows →
      u ∈ (ts.filter p).rows ∨ u ∈ (ts.filter q).rows →
      (t == u) = true → t = u := by
    intro t u ht hu
    exact eq_of_beq (ht.elim mem_of_mem_filter mem_of_mem_filter)
      (hu.elim mem_of_mem_filter mem_of_mem_filter)
  rw [List.perm_ext_iff_of_nodup (nodup_rows _) (nodup_rows _)]
  intro t
  unfold union
  rw [mem_insertAll_iff hsame]
  show t ∈ ts.rows.filter p ∨ t ∈ ts.rows.filter q ↔ t ∈ ts.rows.filter _
  simp only [List.mem_filter, Bool.or_eq_true]
  exact and_or_left.symm

end RelAlgebra.Tuples
