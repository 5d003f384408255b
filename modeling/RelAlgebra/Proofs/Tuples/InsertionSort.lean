/-
The order that a stable sort has to find, and sorting by insertion, which
finds it. An element comes before another if it is less, or if the two are
equal and it was listed first. Under a total preorder this is a total order,
and a sort never asks for it as such: it asks whether the later of two
elements is less, which then says which of them comes first.

What is known of all sorts that go by comparisons alone holds of insertion.
It never gives up, so it is the sort that orders rows wherever only what
ordering comes to counts.
-/
import RelAlgebra.Proofs.Tuples.ComparisonSort
import RelAlgebra.Proofs.Tuples.Relabelling
import RelAlgebra.Tuples.Sorter

namespace RelAlgebra

-- =============================================================== order

section Order

variable {n : Nat} {cmp : Fin n → Fin n → Ordering} {i j k : Fin n}

/-- Whether a stable sort lists `i` before `j`. -/
def Before (cmp : Fin n → Fin n → Ordering) (i j : Fin n) : Prop :=
  cmp i j = .lt ∨ cmp i j = .eq ∧ i < j

variable [Std.TransCmp cmp]

/-- Coming first is transitive: ties are broken by the places, in one
direction. -/
theorem Before.trans (hij : Before cmp i j) (hjk : Before cmp j k) :
    Before cmp i k := by
  rcases hij with hij | ⟨hij, hlt⟩
  · rcases hjk with hjk | ⟨hjk, -⟩
    · exact .inl (Std.TransCmp.lt_trans hij hjk)
    · exact .inl (Std.TransCmp.lt_of_lt_of_eq hij hjk)
  · rcases hjk with hjk | ⟨hjk, hlt'⟩
    · exact .inl (Std.TransCmp.lt_of_eq_of_lt hij hjk)
    · exact .inr ⟨Std.TransCmp.eq_trans hij hjk, hlt.trans hlt'⟩

/-- Of two elements only one comes first. -/
theorem Before.asymm (hij : Before cmp i j) : ¬Before cmp j i := by
  have hswap : cmp i j = (cmp j i).swap := Std.OrientedCmp.eq_swap
  rintro (hji | ⟨hji, hlt'⟩)
  · rw [hji] at hswap
    rcases hij with hij | ⟨hij, -⟩ <;> cases hij.symm.trans hswap
  · rw [hji] at hswap
    rcases hij with hij | ⟨-, hlt⟩
    · cases hij.symm.trans hswap
    · exact absurd hlt' (Fin.not_lt.2 (Fin.le_of_lt hlt))

/-- Of two elements, the one listed first comes first unless the other is
less. -/
theorem before_of_ne_lt (hlt : j < i) (hij : cmp i j ≠ .lt) :
    Before cmp j i := by
  have hswap : cmp j i = (cmp i j).swap := Std.OrientedCmp.eq_swap
  cases h : cmp i j with
  | lt => exact absurd h hij
  | eq => exact .inr ⟨by rw [hswap, h]; rfl, hlt⟩
  | gt => exact .inl (by rw [hswap, h]; rfl)

end Order

-- ============================================================= results

namespace Comparing

variable {n : Nat} {ε α β : Type} {cmp : Fin n → Fin n → Ordering}
  {answer : Fin n → Fin n → Except ε Ordering} {i j : Fin n}

@[simp]
theorem result_pure (a : α) : (pure a : Comparing n α).result cmp = some a :=
  rfl

/-- A computation goes on with the result of the first part, or gives up with
it. -/
@[simp]
theorem result_bind (c : Comparing n α) (f : α → Comparing n β) :
    (c >>= f).result cmp
      = (c.result cmp).bind fun a => (f a).result cmp := by
  induction c with
  | done a => rfl
  | giveUp => rfl
  | compare i j differ next ih => exact ih _

theorem result_ask (hne : i ≠ j) : (ask i j).result cmp = some (cmp i j) := by
  rw [ask, dif_neg hne]
  rfl

/-- The computation lists these elements, each in the relation to those
behind it. -/
def Lists (cmp : Fin n → Fin n → Ordering) (R : Fin n → Fin n → Prop)
    (c : Comparing n (List (Fin n))) (is : List (Fin n)) : Prop :=
  ∃ order, c.result cmp = some order ∧ order.Perm is ∧ order.Pairwise R

namespace Lists

variable {R R' : Fin n → Fin n → Prop} {is js : List (Fin n)}
  {c : Comparing n (List (Fin n))}

theorem pure (hperm : js.Perm is) (hjs : js.Pairwise R) :
    Lists cmp R (pure js) is :=
  ⟨js, rfl, hperm, hjs⟩

/-- Goes on with what is listed. -/
theorem bind (hc : Lists cmp R c is)
    {f : List (Fin n) → Comparing n (List (Fin n))}
    (hf : ∀ order : List (Fin n), order.Perm is → order.Pairwise R →
      Lists cmp R' (f order) js) : Lists cmp R' (c >>= f) js := by
  obtain ⟨order, hresult, hperm, horder⟩ := hc
  obtain ⟨order', hresult', hperm', horder'⟩ := hf order hperm horder
  refine ⟨order', ?_, hperm', horder'⟩
  rw [result_bind, hresult]
  exact hresult'

theorem congr {d : Comparing n (List (Fin n))} (hc : Lists cmp R c is)
    (h : d.result cmp = c.result cmp) : Lists cmp R d is := by
  unfold Lists
  rwa [h]

/-- Which elements there are does not depend on how they are listed. -/
theorem perm (hc : Lists cmp R c is) (h : is.Perm js) : Lists cmp R c js := by
  obtain ⟨order, hresult, hperm, horder⟩ := hc
  exact ⟨order, hresult, hperm.trans h, horder⟩

/-- Listing the elements backwards. -/
theorem reverse (hc : Lists cmp (fun i j => R j i) c is) :
    Lists cmp R (do return (← c).reverse) is :=
  hc.bind fun order hperm horder =>
    .pure ((List.reverse_perm order).trans hperm) (List.pairwise_reverse.2 horder)

end Lists

-- =========================================================== insertion

section Insertion

variable {is js : List (Fin n)}

theorem result_insertion_of_lt (hne : i ≠ j) (h : cmp i j = .lt) :
    (insertion i (j :: js)).result cmp
      = (do return j :: (← insertion i js) : Comparing n _).result cmp := by
  rw [insertion, result_bind, result_ask hne, h]
  rfl

theorem result_insertion_of_ne_lt (hne : i ≠ j) (h : cmp i j ≠ .lt) :
    (insertion i (j :: js)).result cmp = some (i :: j :: js) := by
  rw [insertion, result_bind, result_ask hne]
  cases hcmp : cmp i j with
  | lt => exact absurd hcmp h
  | eq => rfl
  | gt => rfl

variable [Std.TransCmp cmp]

/-- An element that was listed behind the others moves back past those that
it is less than. -/
theorem lists_insertion (hjs : js.Pairwise fun j k => Before cmp k j)
    (hi : ∀ j ∈ js, j < i) :
    Lists cmp (fun j k => Before cmp k j) (insertion i js) (i :: js) := by
  induction js with
  | nil => exact .pure (.refl _) (List.pairwise_singleton _ _)
  | cons j js ih =>
      obtain ⟨hj, hrest⟩ := List.pairwise_cons.1 hjs
      obtain ⟨hji, his⟩ := List.forall_mem_cons.1 hi
      have hne : i ≠ j := Fin.ne_of_gt hji
      by_cases hlt : cmp i j = .lt
      · refine Lists.congr ((ih hrest his).bind fun order hperm horder => ?_)
          (result_insertion_of_lt hne hlt)
        refine .pure ((hperm.cons j).trans (.swap i j js)) ?_
        refine List.pairwise_cons.2 ⟨fun k hk => ?_, horder⟩
        rcases List.mem_cons.1 (hperm.subset hk) with rfl | hk
        · exact .inl hlt
        · exact hj k hk
      · refine ⟨_, result_insertion_of_ne_lt hne hlt, .refl _,
          List.pairwise_cons.2 ⟨fun k hk => ?_, hjs⟩⟩
        have hbefore : Before cmp j i := before_of_ne_lt hji hlt
        rcases List.mem_cons.1 hk with rfl | hk
        · exact hbefore
        · exact (hj k hk).trans hbefore

/-- Elements listed behind the others are inserted one after the other. -/
theorem lists_insertions (hjs : js.Pairwise fun j k => Before cmp k j)
    (his : is.Pairwise fun i i' => i' < i) (hlt : ∀ i ∈ is, ∀ j ∈ js, j < i) :
    Lists cmp (fun j k => Before cmp k j) (insertions js is) (is ++ js) := by
  induction is with
  | nil => exact .pure (.refl _) hjs
  | cons i is ih =>
      obtain ⟨hi, hrest⟩ := List.pairwise_cons.1 his
      obtain ⟨hij, hlt⟩ := List.forall_mem_cons.1 hlt
      refine (ih hrest hlt).bind fun order hperm horder => ?_
      refine (lists_insertion horder fun k hk => ?_).perm (hperm.cons i)
      rcases List.mem_append.1 (hperm.subset hk) with hk | hk
      · exact hi k hk
      · exact hij k hk

/-- Sorting by insertion lists all elements in their order. -/
theorem lists_insertionSort :
    Lists cmp (Before cmp) (insertionSort n) (List.finRange n) := by
  have hplaces : (List.finRange n).reverse.Pairwise fun i i' => i' < i :=
    List.pairwise_reverse.2 (List.pairwise_lt_finRange n)
  have hlists : Lists cmp (fun i j => Before cmp j i)
      (insertions [] (List.finRange n).reverse)
      ((List.finRange n).reverse ++ []) := lists_insertions .nil hplaces nofun
  rw [List.append_nil] at hlists
  exact (hlists.perm (List.reverse_perm _)).reverse

end Insertion

-- ================================================================ runs

/-- What goes on with a result fails or gives up as the run so far does. -/
theorem run_bind (c : Comparing n α) (f : α → Comparing n β) :
    (c >>= f).run answer = c.run answer >>= fun
      | some a => (f a).run answer
      | none => .ok none := by
  induction c with
  | done a => rfl
  | giveUp => rfl
  | compare i j differ next ih =>
      show (answer i j >>= fun o => (next o >>= f).run answer)
        = (answer i j >>= fun o => (next o).run answer) >>= _
      cases answer i j with
      | error e => rfl
      | ok o => exact ih o

/-- An insertion of places makes the comparisons that the insertion of
elements makes. -/
theorem run_insertion {is : List (Fin n)} (hi : i ∉ is) :
    (insertion i is).run answer
      = (insertDescending answer i is).map some := by
  induction is with
  | nil => rfl
  | cons j js ih =>
      obtain ⟨hne, hrest⟩ := List.ne_and_not_mem_of_not_mem_cons hi
      rw [insertion, run_bind, ask, dif_neg hne, insertDescending]
      show (answer i j >>= fun o => Except.ok (some o)) >>= _ = _
      cases answer i j with
      | error e => rfl
      | ok o =>
          cases o with
          | lt =>
              show (insertion i js >>= _).run answer = _
              rw [run_bind, ih hrest]
              cases insertDescending answer i js <;> rfl
          | eq => rfl
          | gt => rfl

/-- And so do all of them, by induction on the elements. -/
theorem run_insertions {is : List (Fin n)} (hdistinct : is.Nodup) :
    (insertions [] is).run answer = (sortDescending answer is).map some := by
  induction is with
  | nil => rfl
  | cons i is ih =>
      obtain ⟨hi, hrest⟩ := List.nodup_cons.1 hdistinct
      rw [insertions, run_bind, ih hrest, sortDescending]
      cases hsort : sortDescending answer is with
      | error e => rfl
      | ok js =>
          exact run_insertion fun h =>
            hi ((perm_sortDescending hsort).subset h)

/-- So the sort of places fails, or ends, as the sort of elements does. -/
theorem run_insertionSort :
    (insertionSort n).run answer
      = (stableSort answer (List.finRange n)).map some := by
  rw [insertionSort, run_bind,
    run_insertions (List.nodup_reverse.2 (List.nodup_finRange n)), stableSort]
  cases sortDescending answer (List.finRange n).reverse <;> rfl

/-- An insertion has no step that gives up. -/
theorem steady_insertion (i : Fin n) (js : List (Fin n)) :
    (insertion i js).Steady := by
  induction js with
  | nil => exact trivial
  | cons j js ih =>
      have hask : (ask i j).Steady := by
        unfold ask
        split
        · exact trivial
        · exact fun _ => trivial
      refine hask.bind fun o => ?_
      cases o with
      | lt => exact ih.bind fun _ => trivial
      | eq => exact trivial
      | gt => exact trivial

/-- Insertion never gives up. -/
theorem steady_insertionSort (n : Nat) : (insertionSort n).Steady := by
  have hsteady : ∀ is : List (Fin n), (insertions [] is).Steady := by
    intro is
    induction is with
    | nil => exact trivial
    | cons i is ih => exact ih.bind (steady_insertion i)
  exact (hsteady _).bind fun _ => trivial

end Comparing

-- ============================================================= the sort

/-- Sorting by insertion. -/
def StableSort.insertion : StableSort where
  sorter := .insertion
  sorts _ _ := Comparing.lists_insertionSort

/-- It is the sort that orders rows. -/
theorem Sorter.sort_insertion {α ε : Type}
    (compare : α → α → Except ε Ordering) (xs : List α) :
    insertion.sort compare xs = .ofExcept (stableSort compare xs) := by
  have hmap : stableSort compare ((List.finRange xs.length).map xs.get)
      = (stableSort (fun i j => compare (xs.get i) (xs.get j))
          (List.finRange xs.length)).map (List.map xs.get) :=
    stableSort_map (fun _ _ => rfl) _
  rw [List.map_get_finRange] at hmap
  have hrun : ((Comparing.insertionSort xs.length).run
        fun i j => compare (xs.get i) (xs.get j))
      = (stableSort (fun i j => compare (xs.get i) (xs.get j))
          (List.finRange xs.length)).map some := Comparing.run_insertionSort
  rw [hmap, sort]
  cases hsort : stableSort (fun i j => compare (xs.get i) (xs.get j))
      (List.finRange xs.length) with
  | ok order =>
      rw [hsort] at hrun
      rw [insertion, Comparing.attempt_eq_ok_iff.2 hrun]
      rfl
  | error e =>
      rw [hsort] at hrun
      have hends := (Comparing.attempt_of_run_eq_error hrun).resolve_right
        ((Comparing.steady_insertionSort _).attempt_ne_gaveUp _)
      rw [insertion, hends]
      rfl

end RelAlgebra
