/-
When ordering fails. Rows are incomparable if a key leads to values without
an order where all earlier keys find the rows equal. Whichever way rows are
sorted, ordering succeeds exactly if no two of them are incomparable: it does
not come to an end without an order on all of them, whether the sort compares
just these two or not. If there are two, it fails for their values, or the
sort gives up; one that never gives up leaves only the failure.
-/
import RelAlgebra.Proofs.Header
import RelAlgebra.Proofs.Tuples.InsertionSort
import RelAlgebra.Store.Attempt

namespace RelAlgebra

variable {keys : List SortKey}

-- ================================================================ rows

namespace Tuple

variable {t u : Tuple}

/-- Two rows are incomparable if their values under some key have no order,
those under the earlier keys being equal. -/
def Incomparable (t u : Tuple) (keys : List SortKey) : Prop :=
  ∃ earlier key later, keys = earlier ++ key :: later
    ∧ (∀ k ∈ earlier, (t.getD k.name).compare (u.getD k.name) = .ok .eq)
    ∧ ∃ e, (t.getD key.name).compare (u.getD key.name) = .error e

/-- The first key stops the comparison, or it finds the rows equal and a
later one does. -/
theorem incomparable_cons_iff {key : SortKey} :
    t.Incomparable u (key :: keys)
      ↔ (∃ e, (t.getD key.name).compare (u.getD key.name) = .error e)
        ∨ (t.getD key.name).compare (u.getD key.name) = .ok .eq
          ∧ t.Incomparable u keys := by
  constructor
  · rintro ⟨earlier, stop, later, hkeys, hequal, hstop⟩
    cases earlier with
    | nil =>
        cases hkeys
        exact .inl hstop
    | cons first earlier =>
        cases hkeys
        exact .inr ⟨hequal _ (List.mem_cons_self ..), earlier, stop, later, rfl,
          fun k hk => hequal k (List.mem_cons_of_mem _ hk), hstop⟩
  · rintro (hstop | ⟨hfirst, earlier, stop, later, rfl, hequal, hstop⟩)
    · exact ⟨[], key, keys, rfl, nofun, hstop⟩
    · exact ⟨key :: earlier, stop, later, rfl,
        List.forall_mem_cons.2 ⟨hfirst, hequal⟩, hstop⟩

theorem not_incomparable_nil : ¬t.Incomparable u [] := by
  rintro ⟨earlier, key, later, hkeys, -⟩
  exact List.append_ne_nil_of_right_ne_nil earlier (List.cons_ne_nil _ _)
    hkeys.symm

/-- Comparison fails on the rows that are incomparable. -/
theorem compareBy_fails_iff :
    (∃ e, t.compareBy u keys = .error e) ↔ t.Incomparable u keys := by
  induction keys with
  | nil => exact iff_of_false nofun not_incomparable_nil
  | cons key keys ih =>
      rw [incomparable_cons_iff, compareBy]
      cases (t.getD key.name).compare (u.getD key.name) with
      | error e => exact iff_of_true ⟨e, rfl⟩ (.inl ⟨e, rfl⟩)
      | ok o =>
          cases key.direction <;> cases o <;>
            simp [Direction.apply, bind, Except.bind, pure, Except.pure, ih]

theorem comparable_iff_not_incomparable :
    Comparable (fun t u => compareBy t u keys) t u
      ↔ ¬t.Incomparable u keys := by
  rw [← compareBy_fails_iff]
  show (∃ o, t.compareBy u keys = .ok o) ↔ _
  cases t.compareBy u keys with
  | ok o => exact iff_of_true ⟨o, rfl⟩ nofun
  | error e => exact iff_of_false nofun fun h => h ⟨e, rfl⟩

end Tuple

-- ========================================================= collections

namespace Tuples

/-- Sorting with insertion is how queries sort. -/
theorem sortedWith_insertion (ts : Tuples) :
    ts.sortedWith .insertion keys = .ofExcept (ts.sortedBy keys) := by
  rw [sortedWith, Sorter.sort_insertion, sortedBy]
  cases stableSort (fun t u => t.compareBy u keys) ts.rows <;> rfl

/-- Whichever the sort, it comes to an order if every two rows can be
compared. -/
theorem sortedWith_isOk_iff (sort : StableSort) {ts : Tuples} :
    (∃ us, ts.sortedWith sort keys = .ok us)
      ↔ ts.rows.Pairwise (Comparable fun t u => t.compareBy u keys) := by
  rw [← sort.sort_isOk_iff (Tuple.coherent_compareBy keys), sortedWith]
  simp only [Attempt.bind_eq_ok_iff]
  constructor
  · rintro ⟨us, rows, hrows, -⟩
    exact ⟨rows, hrows⟩
  · rintro ⟨rows, hrows⟩
    exact ⟨_, rows, hrows, rfl⟩

/-- A sort that never gives up does not give up on rows. -/
theorem sortedWith_ne_gaveUp {sort : Sorter} {ts : Tuples}
    (hsteady : (sort ts.size).Steady) : ts.sortedWith sort keys ≠ .gaveUp := by
  have hne := hsteady.attempt_ne_gaveUp
    fun i j => Tuple.compareBy (ts.rows.get i) (ts.rows.get j) keys
  unfold sortedWith Sorter.sort
  cases hsort : (sort ts.rows.length).attempt
      fun i j => Tuple.compareBy (ts.rows.get i) (ts.rows.get j) keys with
  | ok order => exact nofun
  | error e => exact nofun
  | gaveUp => exact absurd hsort hne

/-- Rows that are not all comparable are two that are not. -/
theorem not_pairwise_comparable_iff {ts : Tuples} :
    ¬ts.rows.Pairwise (Comparable fun t u => t.compareBy u keys)
      ↔ ∃ t ∈ ts.rows, ∃ u ∈ ts.rows, (t == u) = false
        ∧ t.Incomparable u keys := by
  have hsymm : Std.Symm (Comparable fun t u => Tuple.compareBy t u keys) :=
    ⟨fun _ _ h => h.symm (Tuple.coherent_compareBy keys)⟩
  constructor
  · intro h
    by_contra hall
    refine h (ts.distinct.imp_of_mem fun {t u} ht hu hne => ?_)
    exact Tuple.comparable_iff_not_incomparable.2 fun hincomparable =>
      hall ⟨t, ht, u, hu, hne, hincomparable⟩
  · rintro ⟨t, ht, u, hu, hne, hincomparable⟩ h
    have htu : t ≠ u := by
      rintro rfl
      rw [BEq.rfl] at hne
      cases hne
    exact Tuple.comparable_iff_not_incomparable.1 (h.forall ht hu htu)
      hincomparable

end Tuples

-- =========================================================== relations

namespace Resolved

variable {r r' : Resolved}

/-- Ordering as queries do it. -/
theorem orderWith_insertion :
    r.orderWith .insertion keys = .ofExcept (r.orderBy keys) := by
  rw [orderWith, Tuples.sortedWith_insertion, orderBy]
  cases r.header.require (keys.map SortKey.name) with
  | error e => rfl
  | ok =>
      cases r.tuples.sortedBy keys <;> rfl

theorem orderBy_eq_ok_iff {x : Resolved} :
    r.orderBy keys = .ok x
      ↔ r.orderWith StableSort.insertion keys = .ok x := by
  rw [← Attempt.ofExcept_eq_ok_iff, ← orderWith_insertion]
  rfl

theorem orderBy_eq_error_iff {e : QueryError} :
    r.orderBy keys = .error e
      ↔ r.orderWith StableSort.insertion keys = .error e := by
  rw [← Attempt.ofExcept_eq_error_iff, ← orderWith_insertion]
  rfl

section Known

variable (hkeys : ∀ key ∈ keys, key.name ∈ r.header.names)

include hkeys

/-- With keys that are there, ordering is sorting. -/
theorem orderWith_eq (sort : Sorter) :
    r.orderWith sort keys
      = (do return ⟨r.header, ← r.tuples.sortedWith sort keys⟩
          : Attempt ValueError Resolved).mapError .value := by
  have hrequire : r.header.require (keys.map SortKey.name) = .ok () := by
    refine Header.require_of_mem fun name hname => ?_
    obtain ⟨key, hkey, rfl⟩ := List.mem_map.1 hname
    exact hkeys key hkey
  rw [orderWith, hrequire]
  cases r.tuples.sortedWith sort keys <;> rfl

/-- Ordering by keys that are there comes to an end unless two rows are
incomparable. -/
theorem orderWith_isOk_iff (sort : StableSort) :
    (∃ x, r.orderWith sort keys = .ok x)
      ↔ r.tuples.rows.Pairwise (Comparable fun t u => t.compareBy u keys) := by
  rw [← Tuples.sortedWith_isOk_iff sort, orderWith_eq hkeys]
  cases r.tuples.sortedWith sort keys with
  | ok ts => exact iff_of_true ⟨_, rfl⟩ ⟨_, rfl⟩
  | error e => exact iff_of_false nofun nofun
  | gaveUp => exact iff_of_false nofun nofun

/-- Ordering by keys that are there succeeds, fails for the values, or is
given up. -/
theorem orderWith_cases (sort : Sorter) :
    (∃ x, r.orderWith sort keys = .ok x)
      ∨ (∃ e, r.orderWith sort keys = .error (.value e))
      ∨ r.orderWith sort keys = .gaveUp := by
  rw [orderWith_eq hkeys]
  cases r.tuples.sortedWith sort keys with
  | ok ts => exact .inl ⟨_, rfl⟩
  | error e => exact .inr (.inl ⟨e, rfl⟩)
  | gaveUp => exact .inr (.inr rfl)

/-- If two rows are incomparable it fails, and says that it is for their
values, unless the sort gives up. -/
theorem orderWith_fails_iff (sort : StableSort) :
    (∃ e, r.orderWith sort keys = .error (.value e))
      ↔ (∃ t ∈ r.tuples.rows, ∃ u ∈ r.tuples.rows, (t == u) = false
          ∧ t.Incomparable u keys)
        ∧ r.orderWith sort keys ≠ .gaveUp := by
  rw [← Tuples.not_pairwise_comparable_iff, ← orderWith_isOk_iff hkeys sort]
  rcases orderWith_cases hkeys sort.sorter with ⟨x, h⟩ | ⟨e, h⟩ | h <;>
    simp [h]

omit hkeys in
/-- A sort that never gives up orders the rows or fails. -/
theorem orderWith_ne_gaveUp {sort : Sorter}
    (hsteady : (sort r.tuples.size).Steady) :
    r.orderWith sort keys ≠ .gaveUp := by
  have hne : r.tuples.sortedWith sort keys ≠ .gaveUp :=
    Tuples.sortedWith_ne_gaveUp hsteady
  unfold orderWith
  cases r.header.require (keys.map SortKey.name) with
  | error e => exact nofun
  | ok =>
      cases hsorted : r.tuples.sortedWith sort keys with
      | ok ts => exact nofun
      | error e => exact nofun
      | gaveUp => exact absurd hsorted hne

end Known

end Resolved

end RelAlgebra
