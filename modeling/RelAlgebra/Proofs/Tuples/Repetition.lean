/-
Collecting lists with repetitions. A collection holds the rows of a list at
their first occurrences, and finds a row exactly if the list has an equal
one; in between nothing counts but equality of rows, so a chain of
operators can be followed by what its results contain. Collections are
equal exactly if they contain the same rows, and for that it is enough that
each contains the rows of the other.
-/
import RelAlgebra.Proofs.Tuples.Choice

namespace RelAlgebra.Tuples

variable {ts us : Tuples} {t u : Tuple} {rows : List Tuple}

-- ======================================================== containment

/-- Equal rows are contained in the same collections. -/
theorem contains_congr (ts : Tuples) (h : (t == u) = true) :
    ts.contains t = ts.contains u := by
  rw [Bool.eq_iff_iff, contains_iff, contains_iff]
  exact ⟨fun ⟨v, hv, hvt⟩ => ⟨v, hv, BEq.trans hvt h⟩,
    fun ⟨v, hv, hvu⟩ => ⟨v, hv, BEq.trans hvu (BEq.symm h)⟩⟩

theorem contains_of_mem (h : t ∈ ts.rows) : ts.contains t = true :=
  contains_iff.2 ⟨t, h, BEq.rfl⟩

theorem insert_of_contains (h : ts.contains t = true) : ts.insert t = ts := by
  simp [insert, add, h]

/-- After an insertion those are contained that were, and those equal to the
new one. -/
theorem contains_insert :
    (ts.insert t).contains u = (ts.contains u || t == u) := by
  by_cases ht : ts.contains t = true
  · rw [insert_of_contains ht]
    by_cases htu : (t == u) = true
    · rw [← contains_congr ts htu, ht, Bool.true_or]
    · rw [Bool.not_eq_true] at htu
      rw [htu, Bool.or_false]
  · unfold contains at ht ⊢
    rw [rows_insert, contains, if_neg ht, List.any_append]
    simp

/-- The rows of a difference are rows of the one that are not in the
other. -/
theorem contains_difference (ht : ts.contains t = true)
    (hu : us.contains t = false) : (ts.difference us).contains t = true := by
  obtain ⟨v, hv, hvt⟩ := contains_iff.1 ht
  rw [← contains_congr us hvt] at hu
  exact contains_iff.2 ⟨v, List.mem_filter.2 ⟨hv, by rw [hu]; rfl⟩, hvt⟩

/-- A list is searched like the collection of its rows. -/
theorem contains_ofList_iff :
    (ofList rows).contains t = true ↔ ∃ u ∈ rows, (u == t) = true := by
  rw [contains_iff]
  constructor
  · rintro ⟨u, hu, hut⟩
    exact ⟨u, mem_of_mem_ofList hu, hut⟩
  · rintro ⟨u, hu, hut⟩
    obtain ⟨v, hv, hvu⟩ := exists_mem_insertAll empty hu
    exact ⟨v, hv, BEq.trans hvu hut⟩

/-- Collections are equal exactly if they contain the same rows. -/
theorem beq_iff_contains :
    (ts == us) = true ↔ ∀ t, ts.contains t = us.contains t := by
  have hprints : ∀ (ts : Tuples) (t : Tuple), ts.contains t = true
      ↔ t.fingerprint ∈ ts.rows.map Tuple.fingerprint := by
    intro ts t
    rw [contains_iff, List.mem_map]
    simp only [Tuple.beq_iff_fingerprint]
  rw [beq_iff_perm, List.perm_ext_iff_of_nodup ts.nodup_fingerprints
    us.nodup_fingerprints]
  constructor
  · intro h t
    rw [Bool.eq_iff_iff, hprints, hprints, h]
  · intro h print
    constructor
    · intro hprint
      obtain ⟨t, ht, rfl⟩ := List.mem_map.1 hprint
      exact (hprints us t).1 (h t ▸ contains_of_mem ht)
    · intro hprint
      obtain ⟨t, ht, rfl⟩ := List.mem_map.1 hprint
      exact (hprints ts t).1 (h t ▸ contains_of_mem ht)

/-- What a collection contains is in every collection that contains its
rows. -/
theorem contains_of_rows (h : ∀ u ∈ ts.rows, us.contains u = true)
    (ht : ts.contains t = true) : us.contains t = true := by
  obtain ⟨u, hu, hut⟩ := contains_iff.1 ht
  rw [← contains_congr us hut]
  exact h u hu

/-- Collections are equal exactly if each contains the rows of the other. -/
theorem beq_iff_contains_rows :
    (ts == us) = true
      ↔ (∀ t ∈ ts.rows, us.contains t = true)
        ∧ ∀ u ∈ us.rows, ts.contains u = true := by
  rw [beq_iff_contains]
  constructor
  · intro h
    exact ⟨fun t ht => h t ▸ contains_of_mem ht,
      fun u hu => (h u).symm ▸ contains_of_mem hu⟩
  · rintro ⟨hts, hus⟩ t
    rw [Bool.eq_iff_iff]
    exact ⟨contains_of_rows hts, contains_of_rows hus⟩

-- ================================================== first occurrences

/-- Rows that are inserted follow the ones there, without those that are
there already and without repetitions. -/
theorem rows_insertAll (ts : Tuples) (rows : List Tuple) :
    (ts.insertAll rows).rows
      = ts.rows ++ (rows.filter (!ts.contains ·)).eraseDups := by
  induction rows generalizing ts with
  | nil => simp [insertAll]
  | cons t rest ih =>
      show ((ts.insert t).insertAll rest).rows = _
      rw [ih, List.filter_cons]
      by_cases ht : ts.contains t = true
      · rw [insert_of_contains ht]
        simp [ht]
      · have hrest : rest.filter (!(ts.insert t).contains ·)
            = (rest.filter (!ts.contains ·)).filter fun u => !u == t := by
          rw [List.filter_filter]
          refine List.filter_congr fun u _ => ?_
          rw [contains_insert, Bool.not_or, Bool.and_comm, BEq.comm (a := t)]
        rw [rows_insert, hrest]
        rw [Bool.not_eq_true] at ht
        simp [ht, List.eraseDups_cons]

/-- A collection lists the first of equal rows. -/
theorem rows_ofList (rows : List Tuple) :
    (ofList rows).rows = rows.eraseDups := by
  have hall : rows.filter (!empty.contains ·) = rows :=
    List.filter_eq_self.2 fun _ _ => rfl
  unfold ofList
  rw [rows_insertAll, hall]
  rfl

-- ================================================== repeated insertion

theorem insertAll_append (ts : Tuples) (rows rows' : List Tuple) :
    ts.insertAll (rows ++ rows') = (ts.insertAll rows).insertAll rows' :=
  List.foldl_append

/-- Inserting one row again and again inserts it once. -/
theorem insertAll_map_const {α : Type} (ts : Tuples) (t : Tuple)
    (xs : List α) :
    ts.insertAll (xs.map fun _ => t)
      = if xs.isEmpty then ts else ts.insert t := by
  induction xs generalizing ts with
  | nil => rfl
  | cons x rest ih =>
      have hagain : (ts.insert t).insert t = ts.insert t :=
        insert_of_contains (by rw [contains_insert, BEq.rfl, Bool.or_true])
      show (ts.insert t).insertAll (rest.map fun _ => t) = ts.insert t
      rw [ih, hagain, ite_self]

/-- Rows that are each repeated as often as `g` has elements come to the
rows for which it has some. -/
theorem insertAll_flatMap_const {α : Type} (ts : Tuples)
    (rows : List Tuple) (g : Tuple → List α) :
    ts.insertAll (rows.flatMap fun t => (g t).map fun _ => t)
      = ts.insertAll (rows.filter fun t => !(g t).isEmpty) := by
  induction rows generalizing ts with
  | nil => rfl
  | cons t rest ih =>
      rw [List.flatMap_cons, insertAll_append, insertAll_map_const, ih,
        List.filter_cons]
      cases (g t).isEmpty with
      | true => rfl
      | false => rfl

-- ======================================================= changed rows

section Change

variable {g : Tuple → Tuple}
  (hg : ∀ {t u : Tuple}, (t == u) = true → (g t == g u) = true)

include hg

/-- A row that is dropped for an equal one is dropped for it still when both
are changed in one way. -/
theorem ofList_map_insert (ts : Tuples) (t : Tuple) :
    ofList ((ts.insert t).rows.map g) = (ofList (ts.rows.map g)).insert (g t) := by
  by_cases ht : ts.contains t = true
  · obtain ⟨u, hu, hut⟩ := contains_iff.1 ht
    have hchanged : (ofList (ts.rows.map g)).contains (g t) = true :=
      contains_ofList_iff.2 ⟨g u, List.mem_map_of_mem hu, hg hut⟩
    rw [insert_of_contains ht, insert_of_contains hchanged]
  · rw [rows_insert, if_neg ht, List.map_append]
    exact insertAll_append empty _ _

/-- Collecting images of collected rows is collecting the images, as equal
rows have equal images. -/
theorem ofList_map_insertAll (ts : Tuples) (rows : List Tuple) :
    ofList ((ts.insertAll rows).rows.map g)
      = (ofList (ts.rows.map g)).insertAll (rows.map g) := by
  induction rows generalizing ts with
  | nil => rfl
  | cons t rest ih =>
      show ofList (((ts.insert t).insertAll rest).rows.map g) = _
      rw [ih, ofList_map_insert hg]
      rfl

/-- So of each class of equal rows the same one is kept, in the same place,
if rows are collected before they are changed as well. -/
theorem ofList_map_ofList (rows : List Tuple) :
    ofList ((ofList rows).rows.map g) = ofList (rows.map g) :=
  ofList_map_insertAll hg empty rows

end Change

end RelAlgebra.Tuples
