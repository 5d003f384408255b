/-
Rows as functions from names to values. A row is determined by what is
stored under each name, and each operation on rows is told by what it
stores under each name; nothing later depends on how pairs are listed.
-/
import Mathlib.Data.List.Nodup
import RelAlgebra.Tuple

namespace RelAlgebra

/-- The first pair counts, if it has the name. -/
theorem lookup_cons_eq {β : Type} {p : String × β}
    {rest : List (String × β)} {name : String} :
    (p :: rest).lookup name
      = if name = p.1 then some p.2 else rest.lookup name := by
  rw [List.lookup_cons]
  by_cases h : name = p.1
  · simp [h]
  · simp [h, beq_eq_false_iff_ne.2 h]

/-- In a list that names each thing once, a name finds what is listed with
it. -/
theorem lookup_eq_some_iff_mem {β : Type} {pairs : List (String × β)}
    (h : (pairs.map Prod.fst).Nodup) {name : String} {b : β} :
    pairs.lookup name = some b ↔ (name, b) ∈ pairs := by
  induction pairs with
  | nil => simp
  | cons p rest ih =>
      obtain ⟨m, c⟩ := p
      rw [List.map_cons, List.nodup_cons] at h
      rw [lookup_cons_eq, List.mem_cons, Prod.mk.injEq]
      by_cases hm : name = m
      · subst hm
        have hrest : (name, b) ∉ rest :=
          fun hmem => h.1 (List.mem_map.2 ⟨(name, b), hmem, rfl⟩)
        simp [hrest, eq_comm]
      · rw [if_neg hm, ih h.2]
        simp [hm]

theorem lookup_map_self {β : Type} {f : String → β} {names : List String}
    {name : String} :
    (names.map fun n => (n, f n)).lookup name
      = if name ∈ names then some (f name) else none := by
  induction names with
  | nil => simp
  | cons n rest ih =>
      rw [List.map_cons, lookup_cons_eq, ih]
      by_cases h : name = n <;> simp [h]

/-- A list of pairs in ascending order names each thing once. -/
theorem nodup_of_ascending {β : Type} {pairs : List (String × β)}
    (h : pairs.Pairwise fun p q => p.1 < q.1) :
    (pairs.map Prod.fst).Nodup := by
  rw [List.nodup_iff_pairwise_ne, List.pairwise_map]
  refine h.imp fun {p q} hlt heq => ?_
  rw [heq] at hlt
  exact String.lt_irrefl _ hlt

/-- Lists of pairs in ascending order are the same as soon as they list the
same thing with each name. -/
theorem eq_of_lookup_eq {β : Type} {pairs pairs' : List (String × β)}
    (h : pairs.Pairwise fun p q => p.1 < q.1)
    (h' : pairs'.Pairwise fun p q => p.1 < q.1)
    (hlookup : ∀ name, pairs.lookup name = pairs'.lookup name) :
    pairs = pairs' := by
  have hnodup := nodup_of_ascending h
  have hnodup' := nodup_of_ascending h'
  have hperm : pairs.Perm pairs' := by
    rw [List.perm_ext_iff_of_nodup hnodup.of_map hnodup'.of_map]
    rintro ⟨name, b⟩
    rw [← lookup_eq_some_iff_mem hnodup, ← lookup_eq_some_iff_mem hnodup',
      hlookup]
  refine hperm.eq_of_pairwise (fun p q _ _ hpq hqp => ?_) h h'
  exact absurd (String.lt_trans hpq hqp) (String.lt_irrefl _)

namespace Tuple

variable {t u : Tuple} {name m : String} {value : Value}

-- ============================================================== lookup

/-- A row lists each name once. -/
theorem nodup_names (t : Tuple) : (t.pairs.map Prod.fst).Nodup :=
  nodup_of_ascending t.ascending

/-- A row has a value under a name if it lists the two as a pair. -/
theorem get?_eq_some_iff :
    t.get? name = some value ↔ (name, value) ∈ t.pairs :=
  lookup_eq_some_iff_mem t.nodup_names

/-- The names of a row are those with a value. -/
theorem mem_names_iff : name ∈ t.names ↔ (t.get? name).isSome = true := by
  rw [Option.isSome_iff_exists]
  simp [get?_eq_some_iff, names]

theorem get?_eq_none_iff : t.get? name = none ↔ name ∉ t.names := by
  rw [mem_names_iff, Bool.not_eq_true, Option.isSome_eq_false_iff,
    Option.isNone_iff_eq_none]

theorem getD_of_get? (h : t.get? name = some value) : t.getD name = value := by
  simp [getD, h]

/-- A row is determined by what is stored under each name. -/
theorem ext_get? (h : ∀ name, t.get? name = u.get? name) : t = u := by
  have hpairs : t.pairs = u.pairs :=
    eq_of_lookup_eq t.ascending u.ascending h
  cases t
  cases u
  simpa using hpairs

-- ========================================================== operations

/-- Putting a pair in its place changes the value of its name, and of no
other. -/
theorem lookup_place {pairs : List (String × Value)} :
    (place name value pairs).lookup m
      = if m = name then some value else pairs.lookup m := by
  induction pairs with
  | nil => rw [place, lookup_cons_eq]
  | cons p rest ih =>
      unfold place
      split
      · rw [lookup_cons_eq]
      · rename_i hlt
        split
        · rename_i hgt
          have hne : p.1 ≠ name := fun heq =>
            String.lt_irrefl _ (heq ▸ hgt)
          rw [lookup_cons_eq, lookup_cons_eq, ih]
          by_cases hp : m = p.1 <;> simp [hp, hne]
        · rename_i hgt
          have hname : name = p.1 :=
            String.le_antisymm (String.not_lt.1 hgt) (String.not_lt.1 hlt)
          rw [lookup_cons_eq, lookup_cons_eq, hname]
          by_cases hp : m = p.1 <;> simp [hp]

@[simp]
theorem get?_empty : empty.get? m = none := rfl

/-- An inserted value is found under its name. -/
@[simp]
theorem get?_insert :
    (t.insert name value).get? m = if m = name then some value else t.get? m :=
  lookup_place

@[simp]
theorem get?_erase :
    (t.erase name).get? m = if m = name then none else t.get? m := by
  ext value
  rw [get?_eq_some_iff]
  by_cases h : m = name
  · simp [erase, h]
  · simp [erase, h, get?_eq_some_iff]

/-- Of pairs that are inserted one after the other, the last one of a name
counts. -/
theorem get?_foldl_insert (pairs : List (String × Value)) (t : Tuple) :
    (pairs.foldl (fun t p => t.insert p.1 p.2) t).get? m
      = (pairs.reverse.lookup m).or (t.get? m) := by
  induction pairs generalizing t with
  | nil => simp
  | cons p rest ih =>
      rw [List.foldl_cons, ih, get?_insert, List.reverse_cons,
        List.lookup_append, Option.or_assoc, lookup_cons_eq]
      by_cases h : m = p.1 <;> simp [h]

/-- A list that names each value once makes the row that it shows. -/
theorem get?_ofPairs {pairs : List (String × Value)}
    (h : (pairs.map Prod.fst).Nodup) :
    (ofPairs pairs).get? m = pairs.lookup m := by
  have hreverse : (pairs.reverse.map Prod.fst).Nodup := by
    rw [List.map_reverse]
    exact List.nodup_reverse.2 h
  unfold ofPairs
  rw [get?_foldl_insert, get?_empty, Option.or_none]
  ext value
  rw [lookup_eq_some_iff_mem hreverse, lookup_eq_some_iff_mem h,
    List.mem_reverse]

/-- The left row wins where both have the name. -/
@[simp]
theorem get?_merge :
    (t.merge u).get? m = (t.get? m).or (u.get? m) := by
  have hreverse : (t.pairs.reverse.map Prod.fst).Nodup := by
    rw [List.map_reverse]
    exact List.nodup_reverse.2 t.nodup_names
  have hlookup : t.pairs.reverse.lookup m = t.get? m := by
    ext value
    rw [lookup_eq_some_iff_mem hreverse, get?_eq_some_iff, List.mem_reverse]
  rw [merge, get?_foldl_insert, hlookup]

/-- A projected row has the names it was projected on; those it lacked are
absent values. -/
@[simp]
theorem get?_project {names : List String} :
    (t.project names).get? m
      = if m ∈ names then some (t.getD m) else none := by
  unfold project ofPairs
  rw [get?_foldl_insert, get?_empty, Option.or_none, ← List.map_reverse,
    lookup_map_self]
  simp

/-- A renamed row has its value under the new name, whatever was there. -/
theorem get?_renamed {old new : String} :
    (t.renamed old new).get? m
      = if old ∈ t.names then
          if m = new then t.get? old
          else if m = old then none
          else t.get? m
        else t.get? m := by
  unfold renamed
  cases h : t.get? old with
  | none =>
      rw [if_neg (get?_eq_none_iff.1 h)]
  | some value =>
      rw [if_pos (mem_names_iff.2 (by simp [h]))]
      simp

end Tuple

end RelAlgebra
