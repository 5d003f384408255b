/-
Stable sorting by a comparison that may fail. What comes out has the
elements that went in, in ascending order. If the order is coherent, the
sort comes to an end exactly when every two elements can be compared: it
compares only some pairs, but an ascending list leaves no pair without an
order. So whether it fails does not depend on how the elements arrive.
-/
import RelAlgebra.Proofs.Tuples.Membership
import RelAlgebra.Proofs.Value.Order
import RelAlgebra.Tuples.Sort

namespace RelAlgebra

section Insertion

variable {α ε : Type} {compare : α → α → Except ε Ordering} {x y : α}
  {xs ys : List α}

/-- Whether the comparison of two elements comes to an end. -/
def Comparable (compare : α → α → Except ε Ordering) (x y : α) : Prop :=
  ∃ o, compare x y = .ok o

/-- Whether the first element compares as no greater than the second. -/
def NoGreater (compare : α → α → Except ε Ordering) (x y : α) : Prop :=
  ∃ o, compare x y = .ok o ∧ o ≠ .gt

-- ============================================================ elements

/-- One step of an insertion that succeeds. -/
theorem insertDescending_cons_eq_ok
    (h : insertDescending compare x (y :: ys) = .ok xs) :
    (compare x y = .ok .lt
        ∧ ∃ zs, insertDescending compare x ys = .ok zs ∧ xs = y :: zs)
      ∨ (∃ o, compare x y = .ok o ∧ o ≠ .lt) ∧ xs = x :: y :: ys := by
  unfold insertDescending at h
  cases hxy : compare x y with
  | error e =>
      rw [hxy] at h
      cases h
  | ok o =>
      rw [hxy] at h
      cases o with
      | lt =>
          cases hrest : insertDescending compare x ys with
          | error e =>
              rw [hrest] at h
              cases h
          | ok zs =>
              rw [hrest] at h
              cases h
              exact .inl ⟨rfl, zs, rfl, rfl⟩
      | eq =>
          cases h
          exact .inr ⟨⟨.eq, rfl, nofun⟩, rfl⟩
      | gt =>
          cases h
          exact .inr ⟨⟨.gt, rfl, nofun⟩, rfl⟩

/-- An insertion adds the element. -/
theorem perm_insertDescending
    (h : insertDescending compare x ys = .ok xs) : xs.Perm (x :: ys) := by
  induction ys generalizing xs with
  | nil =>
      cases h
      exact .refl _
  | cons y ys ih =>
      rcases insertDescending_cons_eq_ok h with ⟨-, zs, hzs, rfl⟩ | ⟨-, rfl⟩
      · exact ((ih hzs).cons y).trans (.swap x y ys)
      · exact .refl _

/-- One step of a sort that succeeds. -/
theorem sortDescending_cons_eq_ok
    (h : sortDescending compare (x :: xs) = .ok ys) :
    ∃ zs, sortDescending compare xs = .ok zs
      ∧ insertDescending compare x zs = .ok ys := by
  unfold sortDescending at h
  cases hzs : sortDescending compare xs with
  | error e =>
      rw [hzs] at h
      cases h
  | ok zs =>
      rw [hzs] at h
      exact ⟨zs, rfl, h⟩

theorem perm_sortDescending
    (h : sortDescending compare xs = .ok ys) : ys.Perm xs := by
  induction xs generalizing ys with
  | nil =>
      cases h
      exact .refl _
  | cons x xs ih =>
      obtain ⟨zs, hzs, hys⟩ := sortDescending_cons_eq_ok h
      exact (perm_insertDescending hys).trans ((ih hzs).cons x)

theorem stableSort_eq_ok (h : stableSort compare xs = .ok ys) :
    sortDescending compare xs.reverse = .ok ys.reverse := by
  unfold stableSort at h
  cases hzs : sortDescending compare xs.reverse with
  | error e =>
      rw [hzs] at h
      cases h
  | ok zs =>
      rw [hzs] at h
      cases h
      rw [List.reverse_reverse]

/-- A sort gives back the elements that it was given. -/
theorem perm_stableSort (h : stableSort compare xs = .ok ys) :
    ys.Perm xs := by
  have hperm := perm_sortDescending (stableSort_eq_ok h)
  exact (List.reverse_perm ys).symm.trans
    (hperm.trans (List.reverse_perm xs))

-- =============================================================== order

variable (hc : Coherent fun x y o => compare x y = .ok o)

include hc

/-- Being no greater is transitive, as the order is. -/
theorem NoGreater.trans {z : α} (hxy : NoGreater compare x y)
    (hyz : NoGreater compare y z) : NoGreater compare x z := by
  obtain ⟨o, hxy, ho⟩ := hxy
  obtain ⟨o', hyz, ho'⟩ := hyz
  refine ⟨o.then o', hc.trans hxy hyz ho ho', ?_⟩
  cases o <;> cases o' <;> simp_all

theorem Comparable.symm (h : Comparable compare x y) :
    Comparable compare y x := by
  obtain ⟨o, h⟩ := h
  exact ⟨o.swap, hc.swap h⟩

/-- The element moves back past greater ones only, and stops at one that
is no greater; what is behind that one is no greater in its turn. -/
theorem descending_insertDescending
    (hys : ys.Pairwise fun y z => NoGreater compare z y)
    (h : insertDescending compare x ys = .ok xs) :
    xs.Pairwise fun y z => NoGreater compare z y := by
  induction ys generalizing xs with
  | nil =>
      cases h
      exact List.pairwise_singleton _ _
  | cons y ys ih =>
      obtain ⟨hy, htail⟩ := List.pairwise_cons.1 hys
      rcases insertDescending_cons_eq_ok h with
        ⟨hlt, zs, hzs, rfl⟩ | ⟨⟨o, hxy, ho⟩, rfl⟩
      · refine List.pairwise_cons.2 ⟨fun z hz => ?_, ih htail hzs⟩
        rcases List.mem_cons.1 ((perm_insertDescending hzs).subset hz)
          with rfl | hz
        · exact ⟨.lt, hlt, nofun⟩
        · exact hy z hz
      · have hyx : NoGreater compare y x :=
          ⟨o.swap, hc.swap hxy, by cases o <;> simp_all⟩
        refine List.pairwise_cons.2 ⟨fun z hz => ?_, hys⟩
        rcases List.mem_cons.1 hz with rfl | hz
        · exact hyx
        · exact (hy z hz).trans hc hyx

/-- What is sorted so far has its greatest element first. -/
theorem descending_sortDescending
    (h : sortDescending compare xs = .ok ys) :
    ys.Pairwise fun y z => NoGreater compare z y := by
  induction xs generalizing ys with
  | nil =>
      cases h
      exact .nil
  | cons x xs ih =>
      obtain ⟨zs, hzs, hys⟩ := sortDescending_cons_eq_ok h
      exact descending_insertDescending hc (ih hzs) hys

/-- What a sort gives back ascends. -/
theorem ascending_stableSort (h : stableSort compare xs = .ok ys) :
    ys.Pairwise (NoGreater compare) :=
  List.pairwise_reverse.1
    (descending_sortDescending hc (stableSort_eq_ok h))

omit hc in
/-- An element that can be compared with all others can be inserted. -/
theorem insertDescending_of_comparable
    (h : ∀ y ∈ ys, Comparable compare x y) :
    ∃ zs, insertDescending compare x ys = .ok zs := by
  induction ys with
  | nil => exact ⟨_, rfl⟩
  | cons y ys ih =>
      obtain ⟨o, ho⟩ := h y (List.mem_cons_self ..)
      obtain ⟨zs, hzs⟩ := ih fun z hz => h z (List.mem_cons_of_mem _ hz)
      unfold insertDescending
      rw [ho]
      cases o with
      | lt =>
          rw [hzs]
          exact ⟨_, rfl⟩
      | eq => exact ⟨_, rfl⟩
      | gt => exact ⟨_, rfl⟩

omit hc in
/-- Elements that can all be compared are sorted. -/
theorem sortDescending_of_comparable (h : xs.Pairwise (Comparable compare)) :
    ∃ ys, sortDescending compare xs = .ok ys := by
  induction xs with
  | nil => exact ⟨_, rfl⟩
  | cons x xs ih =>
      obtain ⟨hx, hxs⟩ := List.pairwise_cons.1 h
      obtain ⟨zs, hzs⟩ := ih hxs
      unfold sortDescending
      rw [hzs]
      exact insertDescending_of_comparable fun z hz =>
        hx z ((perm_sortDescending hzs).subset hz)

/-- A sort succeeds exactly if every two elements can be compared. -/
theorem stableSort_isOk_iff :
    (∃ ys, stableSort compare xs = .ok ys)
      ↔ xs.Pairwise (Comparable compare) := by
  constructor
  · rintro ⟨ys, hys⟩
    have hascending := ascending_stableSort hc hys
    refine ((perm_stableSort hys).pairwise_iff
      (fun h => Comparable.symm hc h)).1 ?_
    exact hascending.imp fun ⟨o, h, _⟩ => ⟨o, h⟩
  · intro h
    have hreverse : xs.reverse.Pairwise (Comparable compare) :=
      List.pairwise_reverse.2 (h.imp fun h => Comparable.symm hc h)
    obtain ⟨ys, hys⟩ := sortDescending_of_comparable hreverse
    exact ⟨ys.reverse, by rw [stableSort, hys]; rfl⟩

end Insertion

-- ================================================================ rows

/-- An order in a direction is the order, or the order backwards. -/
theorem Coherent.directed {α : Type} {R : α → α → Ordering → Prop}
    (h : Coherent R) (d : Direction) :
    Coherent fun a b o => R a b (d.apply o) := by
  cases d with
  | ascending => exact h
  | descending => exact h.reverse

/-- Reversing an order twice gives it back. -/
theorem Direction.apply_apply (d : Direction) (o : Ordering) :
    d.apply (d.apply o) = o := by
  cases d <;> simp [apply]

namespace Tuple

variable {t u : Tuple}

/-- The first key decides, unless it finds no difference. -/
theorem compareBy_cons_eq_ok_iff {key : SortKey} {keys : List SortKey}
    {o : Ordering} :
    t.compareBy u (key :: keys) = .ok o
      ↔ (t.getD key.name).compare (u.getD key.name)
            = .ok (key.direction.apply o) ∧ o ≠ .eq
        ∨ (t.getD key.name).compare (u.getD key.name)
            = .ok (key.direction.apply .eq) ∧ t.compareBy u keys = .ok o := by
  rw [compareBy]
  cases (t.getD key.name).compare (u.getD key.name) with
  | error e =>
      constructor
      · intro h
        cases h
      · rintro (⟨h, -⟩ | ⟨h, -⟩) <;> cases h
  | ok first =>
      have heq : ∀ o, first = key.direction.apply o
          ↔ key.direction.apply first = o := by
        intro o
        constructor
        · rintro rfl
          exact key.direction.apply_apply o
        · rintro rfl
          exact (key.direction.apply_apply first).symm
      simp only [bind, Except.bind, pure, Except.pure]
      rw [Except.ok.injEq, Except.ok.injEq, heq, heq]
      cases key.direction.apply first with
      | eq => grind
      | lt => grind
      | gt => grind

/-- Comparing rows key by key is coherent, as comparing values is. -/
theorem coherent_compareBy (keys : List SortKey) :
    Coherent fun t u o => Tuple.compareBy t u keys = .ok o := by
  induction keys with
  | nil =>
      refine ⟨fun h => ?_, fun h h' _ _ => ?_⟩
      · cases h
        rfl
      · cases h
        cases h'
        rfl
  | cons key keys ih =>
      simp only [compareBy_cons_eq_ok_iff]
      exact ((Value.coherent_compare.directed key.direction).comap
        fun t => Tuple.getD t key.name).lex ih

end Tuple

namespace Tuples

variable {ts us : Tuples} {keys : List SortKey}

/-- Sorted rows are collected again. -/
theorem sortedBy_eq_ok_iff :
    ts.sortedBy keys = .ok us
      ↔ ∃ rows, stableSort (fun t u => t.compareBy u keys) ts.rows = .ok rows
        ∧ ofList rows = us := by
  unfold sortedBy
  cases stableSort (fun t u => t.compareBy u keys) ts.rows with
  | error e =>
      constructor
      · intro h
        cases h
      · rintro ⟨rows, h, -⟩
        cases h
  | ok rows =>
      constructor
      · intro h
        cases h
        exact ⟨rows, rfl, rfl⟩
      · rintro ⟨_, h, rfl⟩
        cases h
        rfl

theorem mem_of_mem_sortedBy {t : Tuple} (h : ts.sortedBy keys = .ok us)
    (ht : t ∈ us.rows) : t ∈ ts.rows := by
  obtain ⟨rows, hrows, rfl⟩ := sortedBy_eq_ok_iff.1 h
  exact (perm_stableSort hrows).subset (mem_of_mem_ofList ht)

end Tuples

end RelAlgebra
