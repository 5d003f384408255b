/-
Names replaced by others, one to one, in rows and in collections. Rows are
listed by name, so replacing names may list a row in another order; but what
it stores under each name stays, and so do equality of rows, their joining
and projection, and the order that sort keys give them. A collection keeps
its rows in their order.
-/
import Mathlib.Logic.Embedding.Basic
import RelAlgebra.Proofs.Tuples.Choice
import RelAlgebra.Tuples.Sort

namespace RelAlgebra

variable {f : String ↪ String}

/-- In a list of pairs with replaced names, a name finds what it found. -/
theorem lookup_map_injective {β : Type} (pairs : List (String × β))
    (name : String) :
    (pairs.map fun p => (f p.1, p.2)).lookup (f name) = pairs.lookup name := by
  induction pairs with
  | nil => rfl
  | cons p rest ih =>
      rw [List.map_cons, lookup_cons_eq, lookup_cons_eq, ih]
      simp only [f.injective.eq_iff]

-- ================================================================ rows

namespace Tuple

/-- The row with replaced names. -/
def relabel (f : String ↪ String) (t : Tuple) : Tuple :=
  ofPairs (t.pairs.map fun p => (f p.1, p.2))

variable {t u : Tuple} {name : String}

theorem get?_relabel_eq_lookup :
    (t.relabel f).get? name
      = (t.pairs.map fun p => (f p.1, p.2)).lookup name := by
  refine get?_ofPairs ?_
  rw [List.map_map, show (Prod.fst ∘ fun p : String × Value => (f p.1, p.2))
    = f ∘ Prod.fst from rfl, ← List.map_map]
  exact t.nodup_names.map f.injective

/-- A value is found under the new name. -/
@[simp]
theorem get?_relabel (t : Tuple) (name : String) :
    (t.relabel f).get? (f name) = t.get? name := by
  rw [get?_relabel_eq_lookup, lookup_map_injective]
  rfl

/-- A row with replaced names has no other ones. -/
theorem get?_relabel_of_free (hname : ∀ m, f m ≠ name) :
    (t.relabel f).get? name = none := by
  rw [get?_relabel_eq_lookup]
  induction t.pairs with
  | nil => rfl
  | cons p rest ih =>
      rw [List.map_cons, lookup_cons_eq, if_neg (hname p.1).symm, ih]

/-- What is shown of a row with replaced names: what it stores under these,
and that it has no other ones. -/
theorem eq_relabel_of_get? (h : ∀ name, u.get? (f name) = t.get? name)
    (hfree : ∀ name, (∀ m, f m ≠ name) → u.get? name = none) :
    u = t.relabel f := by
  refine ext_get? fun name => ?_
  by_cases hname : ∃ m, f m = name
  · obtain ⟨m, rfl⟩ := hname
    rw [h, get?_relabel]
  · have hnone : ∀ m, f m ≠ name := fun m hm => hname ⟨m, hm⟩
    rw [hfree name hnone, get?_relabel_of_free hnone]

@[simp]
theorem getD_relabel (t : Tuple) (name : String) :
    (t.relabel f).getD (f name) = t.getD name := by
  unfold getD
  rw [get?_relabel]

theorem mem_names_relabel : f name ∈ (t.relabel f).names ↔ name ∈ t.names := by
  rw [mem_names_iff, mem_names_iff, get?_relabel]

/-- A row with replaced names has the images of its names. -/
theorem exists_of_mem_names_relabel (h : name ∈ (t.relabel f).names) :
    ∃ m ∈ t.names, f m = name := by
  by_cases hname : ∃ m, f m = name
  · obtain ⟨m, rfl⟩ := hname
    exact ⟨m, mem_names_relabel.1 h, rfl⟩
  · have hnone : ∀ m, f m ≠ name := fun m hm => hname ⟨m, hm⟩
    exact absurd h (get?_eq_none_iff.1 (get?_relabel_of_free hnone))

/-- Rows are equal as they were. -/
@[simp]
theorem relabel_beq (t u : Tuple) :
    (t.relabel f == u.relabel f) = (t == u) := by
  rw [Bool.eq_iff_iff, beq_iff_get?, beq_iff_get?]
  refine ⟨fun h name => by simpa using h (f name), fun h name => ?_⟩
  by_cases hname : ∃ m, f m = name
  · obtain ⟨m, rfl⟩ := hname
    simpa using h m
  · have hnone : ∀ m, f m ≠ name := fun m hm => hname ⟨m, hm⟩
    rw [get?_relabel_of_free hnone, get?_relabel_of_free hnone]
    rfl

/-- Merged rows have the images of the merged names. -/
theorem merge_relabel (t u : Tuple) :
    (t.relabel f).merge (u.relabel f) = (t.merge u).relabel f := by
  refine eq_relabel_of_get? (fun name => ?_) fun name hname => ?_
  · simp
  · rw [get?_merge, get?_relabel_of_free hname, get?_relabel_of_free hname]
    rfl

/-- Projecting on images is taking the image of the projection. -/
theorem project_relabel (t : Tuple) (names : List String) :
    (t.relabel f).project (names.map f) = (t.project names).relabel f := by
  refine eq_relabel_of_get? (fun name => ?_) fun name hname => ?_
  · simp [f.injective.eq_iff]
  · have hmem : name ∉ names.map f := by
      intro hmem
      obtain ⟨m, -, hm⟩ := List.mem_map.1 hmem
      exact hname m hm
    rw [get?_project, if_neg hmem]

/-- Renaming a name is renaming its image. -/
theorem renamed_relabel (t : Tuple) (old new : String) :
    (t.relabel f).renamed (f old) (f new) = (t.renamed old new).relabel f := by
  refine eq_relabel_of_get? (fun name => ?_) fun name hname => ?_
  · simp only [get?_renamed, mem_names_relabel, f.injective.eq_iff,
      get?_relabel]
  · rw [get?_renamed, if_neg (hname new).symm, if_neg (hname old).symm,
      get?_relabel_of_free hname]
    simp

end Tuple

/-- The sort key with a replaced name. -/
def SortKey.relabel (f : String ↪ String) (key : SortKey) : SortKey :=
  { key with name := f key.name }

/-- Relabelled keys compare relabelled rows as before. -/
theorem Tuple.compareBy_relabel (t u : Tuple) (keys : List SortKey) :
    (t.relabel f).compareBy (u.relabel f) (keys.map (SortKey.relabel f))
      = t.compareBy u keys := by
  induction keys with
  | nil => rfl
  | cons key keys ih =>
      simp only [List.map_cons, compareBy, SortKey.relabel, getD_relabel, ih]

-- ============================================================= sorting

section Sorting

variable {α β ε : Type} {compare : α → α → Except ε Ordering}
  {compare' : β → β → Except ε Ordering} {g : α → β}
  (h : ∀ x y, compare' (g x) (g y) = compare x y)

include h

/-- An insertion makes the comparisons of the images. -/
theorem insertDescending_map (x : α) (ys : List α) :
    insertDescending compare' (g x) (ys.map g)
      = (insertDescending compare x ys).map (List.map g) := by
  induction ys with
  | nil => rfl
  | cons y ys ih =>
      simp only [List.map_cons, insertDescending, h]
      cases compare x y with
      | error e => rfl
      | ok o =>
          cases o with
          | lt =>
              rw [ih]
              cases insertDescending compare x ys <;> rfl
          | eq => rfl
          | gt => rfl

/-- And so does the whole sort. -/
theorem sortDescending_map (xs : List α) :
    sortDescending compare' (xs.map g)
      = (sortDescending compare xs).map (List.map g) := by
  induction xs with
  | nil => rfl
  | cons x xs ih =>
      simp only [List.map_cons, sortDescending, ih]
      cases sortDescending compare xs with
      | error e => rfl
      | ok ys => exact insertDescending_map h x ys

/-- Sorting images by an order that agrees gives the images in the order of
the originals. -/
theorem stableSort_map (xs : List α) :
    stableSort compare' (xs.map g)
      = (stableSort compare xs).map (List.map g) := by
  unfold stableSort
  rw [← List.map_reverse, sortDescending_map h]
  cases sortDescending compare xs.reverse with
  | error e => rfl
  | ok ys => exact congrArg Except.ok List.map_reverse.symm

end Sorting

-- ========================================================= collections

namespace Tuples

/-- The collection with the names replaced in every row. -/
def relabel (f : String ↪ String) (ts : Tuples) : Tuples :=
  ⟨ts.rows.map (Tuple.relabel f),
    List.pairwise_map.2 (ts.distinct.imp fun h => by rwa [Tuple.relabel_beq])⟩

variable {ts us : Tuples}

/-- Different rows have different images. -/
theorem contains_relabel (ts : Tuples) (t : Tuple) :
    (ts.relabel f).contains (t.relabel f) = ts.contains t := by
  unfold contains relabel
  rw [List.any_map]
  simp only [Function.comp_def, Tuple.relabel_beq]

theorem insert_relabel (ts : Tuples) (t : Tuple) :
    (ts.relabel f).insert (t.relabel f) = (ts.insert t).relabel f := by
  refine ext_rows ?_
  show ((ts.relabel f).insert (t.relabel f)).rows
    = (ts.insert t).rows.map (Tuple.relabel f)
  rw [rows_insert, rows_insert, contains_relabel]
  split
  · rfl
  · rw [List.map_append]
    rfl

theorem insertAll_relabel (ts : Tuples) (rows : List Tuple) :
    (ts.relabel f).insertAll (rows.map (Tuple.relabel f))
      = (ts.insertAll rows).relabel f := by
  induction rows generalizing ts with
  | nil => rfl
  | cons t rest ih =>
      show ((ts.relabel f).insert (t.relabel f)).insertAll _ = _
      rw [insert_relabel, ih]
      rfl

theorem ofList_relabel (rows : List Tuple) :
    ofList (rows.map (Tuple.relabel f)) = (ofList rows).relabel f :=
  insertAll_relabel empty rows

/-- Changing every row in one way, which does not mind the names. -/
theorem map_relabel {g g' : Tuple → Tuple}
    (hg : ∀ t, g' (t.relabel f) = (g t).relabel f) (ts : Tuples) :
    ofList ((ts.relabel f).rows.map g')
      = (ofList (ts.rows.map g)).relabel f := by
  rw [← ofList_relabel, List.map_map]
  show ofList ((ts.rows.map (Tuple.relabel f)).map g') = _
  rw [List.map_map]
  exact congrArg ofList (List.map_congr_left fun t _ => hg t)

theorem filter_relabel {p p' : Tuple → Bool}
    (h : ∀ t, p' (t.relabel f) = p t) (ts : Tuples) :
    (ts.relabel f).filter p' = (ts.filter p).relabel f := by
  refine ext_rows ?_
  show (ts.rows.map (Tuple.relabel f)).filter p'
    = (ts.rows.filter p).map (Tuple.relabel f)
  rw [List.filter_map]
  exact congrArg _ (List.filter_congr fun t _ => h t)

theorem union_relabel (ts us : Tuples) :
    (ts.relabel f).union (us.relabel f) = (ts.union us).relabel f :=
  insertAll_relabel ts us.rows

theorem intersection_relabel (ts us : Tuples) :
    (ts.relabel f).intersection (us.relabel f)
      = (ts.intersection us).relabel f :=
  filter_relabel (contains_relabel us) ts

theorem difference_relabel (ts us : Tuples) :
    (ts.relabel f).difference (us.relabel f) = (ts.difference us).relabel f :=
  filter_relabel (fun t => congrArg (!·) (contains_relabel us t)) ts

/-- Sorted images are images of the sorted rows, or the same failure. -/
theorem sortedBy_relabel (ts : Tuples) (keys : List SortKey) :
    (ts.relabel f).sortedBy (keys.map (SortKey.relabel f))
      = (ts.sortedBy keys).map (relabel f) := by
  have hsort : stableSort
        (fun t u => t.compareBy u (keys.map (SortKey.relabel f)))
        (ts.rows.map (Tuple.relabel f))
      = (stableSort (fun t u => t.compareBy u keys) ts.rows).map
          (List.map (Tuple.relabel f)) :=
    stableSort_map (fun t u => t.compareBy_relabel u keys) ts.rows
  show (stableSort _ (ts.rows.map (Tuple.relabel f)) >>= _) = _
  rw [hsort]
  unfold sortedBy
  cases stableSort (fun t u => t.compareBy u keys) ts.rows with
  | error e => rfl
  | ok rows => exact congrArg Except.ok (ofList_relabel rows)

end Tuples

end RelAlgebra
