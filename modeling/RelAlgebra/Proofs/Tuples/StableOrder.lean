/-
What a stable sort comes to, whichever it is. Elements that can all be
compared are in a total preorder, if their order is coherent, so a sort that
succeeds has put them in that preorder, and equal ones in their old order.
A list without repetitions has just one such arrangement. So all sorts that
succeed come to the same list.

An arrangement says no more than that, so it can be handled without any sort:
what is chosen from it is arranged, and one after another is the arrangement
by both comparisons.
-/
import RelAlgebra.Proofs.Tuples.ComparisonSort

namespace RelAlgebra

-- ============================================================ sublists

section Sublists

variable {α : Type} {xs : List α} {x y : α}

/-- Of two elements of a list, one comes first. -/
theorem sublist_or_sublist (hx : x ∈ xs) (hy : y ∈ xs) (hne : x ≠ y) :
    [x, y].Sublist xs ∨ [y, x].Sublist xs := by
  have hsymm : Std.Symm fun x y => [x, y].Sublist xs ∨ [y, x].Sublist xs :=
    ⟨fun _ _ h => h.symm⟩
  have hpairs : xs.Pairwise fun x y =>
      [x, y].Sublist xs ∨ [y, x].Sublist xs :=
    List.pairwise_iff_forall_sublist.2 .inl
  exact hpairs.forall hx hy hne

/-- Only one of them does, if nothing is listed twice. -/
theorem not_sublist_swap (hxs : xs.Nodup) (h : [x, y].Sublist xs) :
    ¬[y, x].Sublist xs := by
  induction xs with
  | nil => cases h
  | cons a xs ih =>
      intro hswap
      obtain ⟨ha, hxs⟩ := List.nodup_cons.1 hxs
      rw [List.cons_sublist_cons'] at h hswap
      rcases h with h | ⟨rfl, hy⟩
      · rcases hswap with hswap | ⟨rfl, -⟩
        · exact ih hxs h hswap
        · exact ha (h.subset (by simp))
      · rcases hswap with hswap | ⟨rfl, -⟩
        · exact ha (hswap.subset (by simp))
        · exact ha (hy.subset (by simp))

end Sublists

-- ======================================================== arrangements

section Arrangements

variable {α ε : Type} {compare : α → α → Except ε Ordering}
  {xs ys zs : List α} {x y : α}

/-- The second list has the elements of the first in ascending order, equal
ones as the first lists them. -/
structure Arranges (compare : α → α → Except ε Ordering)
    (xs ys : List α) : Prop where
  perm : ys.Perm xs
  ordered : ys.Pairwise fun x y =>
    compare x y = .ok .lt ∨ compare x y = .ok .eq ∧ [x, y].Sublist xs

/-- Compares by the first comparison, and by the second what the first finds
equal. -/
def compareFirst (first second : α → α → Except ε Ordering) (x y : α) :
    Except ε Ordering := do
  match ← first x y with
  | .eq => second x y
  | o => return o

namespace Arranges

theorem ascending (h : Arranges compare xs ys) :
    ys.Pairwise (NoGreater compare) := by
  refine h.ordered.imp fun {x y} hxy => ?_
  rcases hxy with hlt | ⟨heq, -⟩
  · exact ⟨.lt, hlt, nofun⟩
  · exact ⟨.eq, heq, nofun⟩

/-- Any two elements are listed in one order only, whatever they compare
as. -/
theorem not_ordered_swap (hc : Coherent fun x y o => compare x y = .ok o)
    (hxs : xs.Nodup)
    (h : compare x y = .ok .lt ∨ compare x y = .ok .eq ∧ [x, y].Sublist xs) :
    ¬(compare y x = .ok .lt ∨ compare y x = .ok .eq ∧ [y, x].Sublist xs) := by
  intro hback
  rcases hback with hyx | ⟨hyx, hswap⟩
  · rcases h with hxy | ⟨hxy, -⟩ <;> cases hxy.symm.trans (hc.swap hyx)
  · rcases h with hxy | ⟨-, hsub⟩
    · cases hxy.symm.trans (hc.swap hyx)
    · exact not_sublist_swap hxs hsub hswap

/-- Equal elements keep their order. -/
theorem stable (hc : Coherent fun x y o => compare x y = .ok o)
    (hxs : xs.Nodup) (h : Arranges compare xs ys) (hsub : [x, y].Sublist xs)
    (heq : compare x y = .ok .eq) : [x, y].Sublist ys := by
  have hne : x ≠ y := fun hxy =>
    List.nodup_iff_sublist.1 hxs y (hxy ▸ hsub)
  have hx : x ∈ ys := h.perm.mem_iff.2 (hsub.subset (by simp))
  have hy : y ∈ ys := h.perm.mem_iff.2 (hsub.subset (by simp))
  rcases sublist_or_sublist hx hy hne with hkept | hswap
  · exact hkept
  · exact absurd (List.pairwise_iff_forall_sublist.1 h.ordered hswap)
      (not_ordered_swap hc hxs (.inr ⟨heq, hsub⟩))

/-- A list without repetitions is arranged in one way only. -/
theorem unique (hc : Coherent fun x y o => compare x y = .ok o)
    (hxs : xs.Nodup) (hys : Arranges compare xs ys)
    (hzs : Arranges compare xs zs) : ys = zs :=
  (hys.perm.trans hzs.perm.symm).eq_of_pairwise
    (fun _ _ _ _ hxy hyx => absurd hyx (not_ordered_swap hc hxs hxy))
    hys.ordered hzs.ordered

/-- Choosing from an arranged list is arranging what is chosen: of chosen
elements, one comes first in the list if it does among the chosen ones. -/
theorem filter (h : Arranges compare xs ys) (p : α → Bool) :
    Arranges compare (xs.filter p) (ys.filter p) where
  perm := h.perm.filter p
  ordered := by
    refine (h.ordered.filter p).imp_of_mem fun {x y} hx hy hxy => ?_
    refine hxy.imp_right fun ⟨heq, hsub⟩ => ⟨heq, ?_⟩
    have hpair : [x, y].filter p = [x, y] := by
      rw [List.filter_cons_of_pos (List.of_mem_filter hx),
        List.filter_cons_of_pos (List.of_mem_filter hy), List.filter_nil]
    exact hpair ▸ hsub.filter p

/-- A list arranged by one comparison, and that list by another, is the list
arranged by both: what the later one finds equal stays as the earlier one put
it. -/
theorem lex {first second : α → α → Except ε Ordering}
    (h : Arranges second xs ys) (h' : Arranges first ys zs) :
    Arranges (compareFirst first second) xs zs where
  perm := h'.perm.trans h.perm
  ordered := by
    refine h'.ordered.imp fun {x y} hxy => ?_
    unfold compareFirst
    rcases hxy with hlt | ⟨heq, hsub⟩
    · rw [hlt]
      exact .inl rfl
    · rw [heq]
      exact List.pairwise_iff_forall_sublist.1 h.ordered hsub

end Arranges

end Arrangements

-- =============================================================== sorts

namespace StableSort

variable {α ε : Type} (s : StableSort)
  {compare : α → α → Except ε Ordering} {xs ys : List α}
  (hc : Coherent fun x y o => compare x y = .ok o)

include hc

/-- A sort that succeeds arranges its list. -/
theorem arranges_of_sort (h : s.sorter.sort compare xs = .ok ys) :
    Arranges compare xs ys := by
  obtain ⟨order, hrun, rfl⟩ := Sorter.sort_eq_ok_iff.1 h
  obtain ⟨_, hsome, hperm, hordered⟩ :=
    s.ordered_of_run (hc.comap xs.get) hrun
  cases hsome
  have hplaces : ∀ i j : Fin xs.length, i < j → [xs.get i, xs.get j].Sublist xs :=
    fun i j hlt => List.pairwise_iff_getElem.1
      (List.pairwise_iff_forall_sublist.2 id) i j i.isLt j.isLt hlt
  constructor
  · exact (hperm.map xs.get).trans
      (.of_eq (List.map_get_finRange xs))
  · rw [List.pairwise_map]
    refine hordered.imp fun {i j} hij => ?_
    rcases hij with hlt | ⟨heq, hlt⟩
    · exact .inl hlt
    · exact .inr ⟨heq, hplaces i j hlt⟩

/-- All sorts that succeed come to the same list, and if one succeeds all
do. -/
theorem sort_eq_ok_iff (hxs : xs.Nodup) :
    s.sorter.sort compare xs = .ok ys ↔ Arranges compare xs ys := by
  refine ⟨s.arranges_of_sort hc, fun h => ?_⟩
  have hcomparable : ys.Pairwise (Comparable compare) :=
    h.ascending.imp fun ⟨o, ho, _⟩ => ⟨o, ho⟩
  obtain ⟨zs, hzs⟩ := (s.sort_isOk_iff hc).2
    ((h.perm.pairwise_iff fun hxy => Comparable.symm hc hxy).1 hcomparable)
  rw [hzs, (s.arranges_of_sort hc hzs).unique hc hxs h]

end StableSort

end RelAlgebra
