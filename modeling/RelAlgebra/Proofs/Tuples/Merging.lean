/-
Merging two lists that are in order, the elements of the second listed
behind those of the first. A merge from one end takes the elements as they
come. A merge from both ends takes half of them at the front and half at the
back, and gives up if the ends do not meet; in lists that are in order they
do.

What carries this is where each end stands: it has taken a first part of
either list, in order, and all that it has taken comes before all that is
left to it. If the two ends had taken an element twice, another one would be
left to both of them, and of the two each would come before the other.
-/
import RelAlgebra.Proofs.Tuples.InsertionSort

namespace RelAlgebra

namespace Comparing

variable {n : Nat} {cmp : Fin n → Fin n → Ordering}
  {R : Fin n → Fin n → Prop} {as bs is : List (Fin n)}

/-- Asked about elements of two lists, `second` says which is to come
first. -/
def Decides (cmp : Fin n → Fin n → Ordering) (R : Fin n → Fin n → Prop)
    (second : Fin n → Fin n → Comparing n Bool) (as bs : List (Fin n)) : Prop :=
  ∀ a ∈ as, ∀ b ∈ bs, (second a b).result cmp = some true ∧ R b a
    ∨ (second a b).result cmp = some false ∧ R a b

theorem result_less {i j : Fin n} (hne : i ≠ j) :
    (less i j).result cmp = some (decide (cmp i j = .lt)) := by
  rw [less, result_bind, result_ask hne]
  rfl

/-- Asking whether the later of two elements is less says which of them
comes first. -/
theorem less_cases (cmp : Fin n → Fin n → Ordering) [Std.TransCmp cmp]
    {i j : Fin n} (h : j < i) :
    (less i j).result cmp = some true ∧ Before cmp i j
      ∨ (less i j).result cmp = some false ∧ Before cmp j i := by
  rw [result_less (Fin.ne_of_gt h)]
  by_cases hlt : cmp i j = .lt
  · exact .inl ⟨congrArg some (decide_eq_true hlt), .inl hlt⟩
  · exact .inr ⟨congrArg some (decide_eq_false hlt), before_of_ne_lt h hlt⟩

section Asked

variable [Std.TransCmp cmp] (hlt : ∀ a ∈ as, ∀ b ∈ bs, a < b)

include hlt

/-- The question that a merge asks at the front of two lists. -/
theorem decides_front : Decides cmp (Before cmp) (fun a b => less b a) as bs :=
  fun a ha b hb => less_cases cmp (hlt a ha b hb)

/-- The question that it asks at their back. -/
theorem decides_back :
    Decides cmp (fun i j => Before cmp j i) (fun b a => less b a) bs.reverse
      as.reverse :=
  fun b hb a ha =>
    less_cases cmp (hlt a (List.mem_reverse.1 ha) b (List.mem_reverse.1 hb))

end Asked

-- ==================================================== merges from one end

section Merging

variable {second : Fin n → Fin n → Comparing n Bool}
  (htrans : ∀ i j k, R i j → R j k → R i k)

include htrans

/-- What is to come first of the second list is put before the head of the
first. The induction is on the second list, and the rest of the first is
merged by hypothesis. -/
theorem lists_mergeBehind {a : Fin n}
    {rest : List (Fin n) → Comparing n (List (Fin n))}
    (hrest : ∀ bs', bs'.Sublist bs → Lists cmp R (rest bs') (as ++ bs'))
    (has : (a :: as).Pairwise R) (hbs : bs.Pairwise R)
    (hsecond : Decides cmp R second [a] bs) :
    Lists cmp R (mergeBehind second a rest bs) (a :: as ++ bs) := by
  obtain ⟨ha, -⟩ := List.pairwise_cons.1 has
  induction bs with
  | nil =>
      refine (hrest [] (.refl _)).bind fun order hperm horder => ?_
      refine .pure (hperm.cons a) (List.pairwise_cons.2 ⟨fun i hi => ?_, horder⟩)
      exact ha i (by simpa using hperm.subset hi)
  | cons b bs ih =>
      obtain ⟨hb, hbs⟩ := List.pairwise_cons.1 hbs
      rcases hsecond a (List.mem_singleton_self a) b (List.mem_cons_self ..)
        with ⟨htrue, hba⟩ | ⟨hfalse, hab⟩
      · have hlists := ih (fun bs' h => hrest bs' (h.cons b)) hbs
          fun a' ha' b' hb' => hsecond a' ha' b' (List.mem_cons_of_mem b hb')
        have hresult : (mergeBehind second a rest (b :: bs)).result cmp
            = (do return b :: (← mergeBehind second a rest bs)
                : Comparing n _).result cmp := by
          rw [mergeBehind, result_bind, htrue]
          rfl
        refine (hlists.bind fun order hperm horder => ?_).congr hresult
        refine .pure ((hperm.cons b).trans List.perm_middle.symm)
          (List.pairwise_cons.2 ⟨fun i hi => ?_, horder⟩)
        rcases List.mem_append.1 (hperm.subset hi) with hi | hi
        · rcases List.mem_cons.1 hi with rfl | hi
          · exact hba
          · exact htrans _ _ _ hba (ha i hi)
        · exact hb i hi
      · have hresult : (mergeBehind second a rest (b :: bs)).result cmp
            = (do return a :: (← rest (b :: bs))
                : Comparing n _).result cmp := by
          rw [mergeBehind, result_bind, hfalse]
          rfl
        refine ((hrest _ (.refl _)).bind fun order hperm horder => ?_).congr
          hresult
        refine .pure (hperm.cons a)
          (List.pairwise_cons.2 ⟨fun i hi => ?_, horder⟩)
        rcases List.mem_append.1 (hperm.subset hi) with hi | hi
        · exact ha i hi
        · rcases List.mem_cons.1 hi with rfl | hi
          · exact hab
          · exact htrans _ _ _ hab (hb i hi)

/-- Two lists in order are merged in order, by induction on the first. -/
theorem lists_mergeBy (has : as.Pairwise R) (hbs : bs.Pairwise R)
    (hsecond : Decides cmp R second as bs) :
    Lists cmp R (mergeBy second as bs) (as ++ bs) := by
  induction as generalizing bs with
  | nil => exact .pure (.refl _) hbs
  | cons a as ih =>
      refine lists_mergeBehind htrans (fun bs' h => ?_) has hbs ?_
      · exact ih has.of_cons (hbs.sublist h) fun a' ha' b hb =>
          hsecond a' (List.mem_cons_of_mem a ha') b (h.subset hb)
      · exact fun a' ha' b hb =>
          hsecond a' (List.mem_singleton.1 ha' ▸ List.mem_cons_self ..) b hb

end Merging

section Merge

variable [Std.TransCmp cmp] (has : as.Pairwise (Before cmp))
  (hbs : bs.Pairwise (Before cmp)) (hlt : ∀ a ∈ as, ∀ b ∈ bs, a < b)

include has hbs hlt

/-- And so they are from whichever end. -/
theorem lists_merge : Lists cmp (Before cmp) (merge as bs) (as ++ bs) := by
  unfold merge
  split
  · exact lists_mergeBy (fun _ _ _ => Before.trans) has hbs (decides_front hlt)
  · have hmerged : Lists cmp (fun i j => Before cmp j i)
        (mergeBy (fun b a => less b a) bs.reverse as.reverse)
        (bs.reverse ++ as.reverse) :=
      lists_mergeBy (fun _ _ _ hij hjk => hjk.trans hij)
        (List.pairwise_reverse.2 hbs) (List.pairwise_reverse.2 has)
        (decides_back hlt)
    refine (hmerged.perm ?_).reverse
    rw [← List.reverse_append]
    exact List.reverse_perm _

end Merge

-- =================================================== merges from both ends

/-- Where the end of a merge stands that has taken the elements `ps` of `as`
and `qs` of `bs`. -/
structure MergeEnd.Stands (R : Fin n → Fin n → Prop)
    (as bs ps qs : List (Fin n)) (e : MergeEnd n) : Prop where
  first : ps ++ e.first = as
  second : qs ++ e.second = bs
  perm : e.taken.Perm (ps ++ qs)
  ordered : e.taken.Pairwise fun i j => R j i
  ahead : ∀ i ∈ e.taken, ∀ j ∈ e.first ++ e.second, R i j

namespace MergeEnd.Stands

variable {second : Fin n → Fin n → Comparing n Bool} {e : MergeEnd n}
  {ps qs taken xs ys : List (Fin n)} {x y : Fin n}

/-- Nothing was taken yet. -/
theorem start (as bs : List (Fin n)) : Stands R as bs [] [] ⟨[], as, bs⟩ where
  first := rfl
  second := rfl
  perm := .refl _
  ordered := .nil
  ahead := nofun

/-- If the head of the first list comes before all that is left, it is the
next one. -/
theorem takeFirst (h : Stands R as bs ps qs ⟨taken, x :: xs, ys⟩)
    (hx : ∀ i ∈ xs ++ ys, R x i) :
    Stands R as bs (ps ++ [x]) qs ⟨x :: taken, xs, ys⟩ where
  first := by simpa using h.first
  second := h.second
  perm := by simpa using (h.perm.cons x).trans List.perm_middle.symm
  ordered := List.pairwise_cons.2
    ⟨fun i hi => h.ahead i hi x (by simp), h.ordered⟩
  ahead := List.forall_mem_cons.2
    ⟨hx, fun i hi j hj => h.ahead i hi j (List.mem_cons_of_mem x hj)⟩

theorem takeSecond (h : Stands R as bs ps qs ⟨taken, xs, y :: ys⟩)
    (hy : ∀ i ∈ xs ++ ys, R y i) :
    Stands R as bs ps (qs ++ [y]) ⟨y :: taken, xs, ys⟩ where
  first := h.first
  second := by simpa using h.second
  perm := by
    have hlast := (h.perm.cons y).trans (List.perm_append_singleton y _).symm
    rwa [List.append_assoc] at hlast
  ordered := List.pairwise_cons.2
    ⟨fun i hi => h.ahead i hi y (by simp), h.ordered⟩
  ahead := List.forall_mem_cons.2
    ⟨hy, fun i hi j hj => h.ahead i hi j
      (((List.sublist_cons_self y ys).append_left xs).subset hj)⟩

/-- As long as both lists have elements left, one more is taken, from one
list or the other. -/
theorem take (h : Stands R as bs ps qs e)
    (htrans : ∀ i j k, R i j → R j k → R i k) (has : as.Pairwise R)
    (hbs : bs.Pairwise R) (hsecond : Decides cmp R second as bs)
    (hps : ps.length < as.length) (hqs : qs.length < bs.length) :
    ∃ e' ps' qs', (e.take second).result cmp = some e'
      ∧ ps'.length + qs'.length = ps.length + qs.length + 1
      ∧ Stands R as bs ps' qs' e' := by
  obtain ⟨taken, first, rest⟩ := e
  have hfirst : ps ++ first = as := h.first
  have hrest : qs ++ rest = bs := h.second
  cases first with
  | nil =>
      rw [List.append_nil] at hfirst
      rw [hfirst] at hps
      exact absurd hps (Nat.lt_irrefl _)
  | cons x xs =>
      cases rest with
      | nil =>
          rw [List.append_nil] at hrest
          rw [hrest] at hqs
          exact absurd hqs (Nat.lt_irrefl _)
      | cons y ys =>
          rw [← hfirst] at has
          rw [← hrest] at hbs
          have hx : ∀ i ∈ xs, R x i :=
            (List.pairwise_cons.1 (List.pairwise_append.1 has).2.1).1
          have hy : ∀ i ∈ ys, R y i :=
            (List.pairwise_cons.1 (List.pairwise_append.1 hbs).2.1).1
          rcases hsecond x (by simp [← hfirst]) y (by simp [← hrest])
            with ⟨htrue, hyx⟩ | ⟨hfalse, hxy⟩
          · refine ⟨⟨y :: taken, x :: xs, ys⟩, ps, qs ++ [y], ?_, ?_,
              h.takeSecond fun i hi => ?_⟩
            · simp [MergeEnd.take, htrue]
            · simp [Nat.add_assoc]
            · rcases List.mem_append.1 hi with hi | hi
              · rcases List.mem_cons.1 hi with rfl | hi
                · exact hyx
                · exact htrans _ _ _ hyx (hx i hi)
              · exact hy i hi
          · refine ⟨⟨x :: taken, xs, y :: ys⟩, ps ++ [x], qs, ?_, ?_,
              h.takeFirst fun i hi => ?_⟩
            · simp [MergeEnd.take, hfalse]
            · simp [Nat.add_right_comm]
            · rcases List.mem_append.1 hi with hi | hi
              · exact hx i hi
              · rcases List.mem_cons.1 hi with rfl | hi
                · exact hxy
                · exact htrans _ _ _ hxy (hy i hi)

end MergeEnd.Stands

section Lists

variable {α : Type} {as bs cs ds : List α}

/-- A list cut in two places, the first of which comes first, has a middle
part. -/
theorem exists_middle (h : as ++ bs = cs ++ ds)
    (hle : as.length ≤ cs.length) : ∃ ms, bs = ms ++ ds ∧ cs = as ++ ms := by
  rcases List.append_eq_append_iff.1 h with ⟨ms, hcs, hbs⟩ | ⟨ms, has, hds⟩
  · exact ⟨ms, hbs, hcs⟩
  · have hnil : ms = [] := by
      rw [has, List.length_append] at hle
      exact List.length_eq_zero_iff.1 (by omega)
    subst hnil
    exact ⟨[], hds.symm, by simpa using has.symm⟩

/-- Parts of a list that are longer together than the list overlap. -/
theorem exists_mem_of_lt (h : as ++ bs = cs ++ ds)
    (hlt : cs.length < as.length) : ∃ a ∈ as, a ∈ ds := by
  obtain ⟨ms, hds, has⟩ := exists_middle h.symm (Nat.le_of_lt hlt)
  cases ms with
  | nil => simp [has] at hlt
  | cons a ms => exact ⟨a, by simp [has], by simp [hds]⟩

/-- Each of two lists is cut at two places. An element between the places is
in the first part of the one cut and in the second part of the other; which
cut has it in the first part goes by which place comes first. -/
theorem exists_passed {as' bs' cs' ds' : List α} (h : as ++ bs = cs ++ ds)
    (h' : as' ++ bs' = cs' ++ ds') (hlt : cs.length < as.length)
    (hlt' : as'.length < cs'.length) :
    ∃ i j, i ∈ as ∧ i ∈ ds ∧ j ∈ bs' ∧ j ∈ cs' := by
  obtain ⟨i, hi, hi'⟩ := exists_mem_of_lt h hlt
  obtain ⟨j, hj, hj'⟩ := exists_mem_of_lt h'.symm hlt'
  exact ⟨i, j, hi, hi', hj', hj⟩

end Lists

section Ends

variable [Std.TransCmp cmp] {front back : MergeEnd n}
  {ps qs ps' qs' : List (Fin n)}

/-- The two ends of a merge have taken the elements `ps` and `ps'` of `as`,
and `qs` and `qs'` of `bs`. -/
structure Between (cmp : Fin n → Fin n → Ordering)
    (as bs ps qs ps' qs' : List (Fin n)) (front back : MergeEnd n) : Prop where
  front : front.Stands (Before cmp) as bs ps qs
  back : back.Stands (fun i j => Before cmp j i) bs.reverse as.reverse qs' ps'

namespace Between

section Cuts

variable (h : Between cmp as bs ps qs ps' qs' front back)

include h

omit [Std.TransCmp cmp] in
/-- Where the two ends have cut the first list. -/
theorem first_eq :
    ps ++ front.first = back.second.reverse ++ ps'.reverse := by
  rw [h.front.first, ← List.reverse_append, h.back.second,
    List.reverse_reverse]

omit [Std.TransCmp cmp] in
/-- Where they have cut the second one. -/
theorem second_eq :
    qs ++ front.second = back.first.reverse ++ qs'.reverse := by
  rw [h.front.second, ← List.reverse_append, h.back.first,
    List.reverse_reverse]

/-- What both ends have taken does not come before what is left to both. -/
theorem not_taken_twice {i j : Fin n} (hi : i ∈ ps ++ qs)
    (hi' : i ∈ qs'.reverse ++ ps'.reverse)
    (hj : j ∈ front.first ++ front.second)
    (hj' : j ∈ back.first.reverse ++ back.second.reverse) : False := by
  have htaken : i ∈ front.taken := h.front.perm.mem_iff.2 hi
  have htaken' : i ∈ back.taken := h.back.perm.mem_iff.2 (by simpa using hi')
  exact (h.front.ahead i htaken j hj).asymm
    (h.back.ahead i htaken' j (by simpa using hj'))

/-- Ends that have taken equally many elements, and no more than half of all
each, have not passed each other. What is between them is left to both. -/
theorem meets (hsame : ps.length + qs.length = qs'.length + ps'.length)
    (hhalf : 2 * (ps.length + qs.length) ≤ as.length + bs.length) :
    ∃ ms ns, (front.first = ms ++ ps'.reverse
        ∧ back.second.reverse = ps ++ ms)
      ∧ front.second = ns ++ qs'.reverse ∧ back.first.reverse = qs ++ ns := by
  have hfirst := congrArg List.length h.first_eq
  have hsecond := congrArg List.length h.second_eq
  have has := congrArg List.length h.front.first
  have hbs := congrArg List.length h.front.second
  simp only [List.length_append] at hfirst hsecond has hbs
  simp only [List.length_reverse] at hfirst hsecond
  have hps : ps.length ≤ back.second.reverse.length := by
    by_contra hlt
    obtain ⟨i, j, hi, hi', hj, hj'⟩ := exists_passed h.first_eq h.second_eq
      (Nat.lt_of_not_le hlt) (by rw [List.length_reverse] at hlt ⊢; omega)
    exact h.not_taken_twice (List.mem_append_left _ hi)
      (List.mem_append_right _ hi') (List.mem_append_right _ hj)
      (List.mem_append_left _ hj')
  have hqs : qs.length ≤ back.first.reverse.length := by
    by_contra hlt
    obtain ⟨i, j, hi, hi', hj, hj'⟩ := exists_passed h.second_eq h.first_eq
      (Nat.lt_of_not_le hlt) (by rw [List.length_reverse] at hlt ⊢; omega)
    exact h.not_taken_twice (List.mem_append_right _ hi)
      (List.mem_append_left _ hi') (List.mem_append_left _ hj)
      (List.mem_append_right _ hj')
  obtain ⟨ms, hms⟩ := exists_middle h.first_eq hps
  obtain ⟨ns, hns⟩ := exists_middle h.second_eq hqs
  exact ⟨ms, ns, hms, hns⟩

end Cuts

/-- Two ends that have taken half of all elements each, but for one that may
be left over, join to the merged list. -/
theorem lists_meet (h : Between cmp as bs ps qs ps' qs' front back)
    (hsame : ps.length + qs.length = qs'.length + ps'.length)
    (hhalf : ps.length + qs.length = (as.length + bs.length) / 2) :
    Lists cmp (Before cmp) (meet as bs front back) (as ++ bs) := by
  obtain ⟨ms, ns, ⟨hfirst, hsecond'⟩, hsecond, hfirst'⟩ :=
    h.meets hsame (by omega)
  have has : as = ps ++ (ms ++ ps'.reverse) := by
    rw [← hfirst, h.front.first]
  have hbs : bs = qs ++ (ns ++ qs'.reverse) := by
    rw [← hsecond, h.front.second]
  have hlength := congrArg List.length has
  have hlength' := congrArg List.length hbs
  simp only [List.length_append, List.length_reverse] at hlength hlength'
  have hleft : front.first.length + back.second.length
      = as.length + ms.length := by
    have hcut := congrArg List.length hsecond'
    simp only [List.length_append, List.length_reverse] at hcut
    rw [hfirst, hcut, List.length_append, List.length_reverse]
    omega
  have hright : front.second.length + back.first.length
      = bs.length + ns.length := by
    have hcut := congrArg List.length hfirst'
    simp only [List.length_append, List.length_reverse] at hcut
    rw [hsecond, hcut, List.length_append, List.length_reverse]
    omega
  have hmeet : meet as bs front back
      = pure (front.taken.reverse ++ ms ++ ns ++ back.taken) := by
    unfold meet
    rw [hleft, hright, if_pos ⟨Nat.le_add_right _ _, Nat.le_add_right _ _⟩,
      Nat.add_sub_cancel_left, Nat.add_sub_cancel_left, hfirst, hsecond,
      List.take_left, List.take_left]
  have hfew : ms.length + ns.length ≤ 1 := by omega
  rw [hmeet]
  refine .pure ?_ ?_
  · rw [List.perm_iff_count]
    intro i
    have hfront := h.front.perm.count_eq i
    have hback := h.back.perm.count_eq i
    simp only [has, hbs, List.count_append, List.count_reverse]
      at hfront hback ⊢
    omega
  · have hmiddle : (ms ++ ns).Pairwise (Before cmp) := by
      rw [← List.length_append] at hfew
      match ms ++ ns, hfew with
      | [], _ => exact .nil
      | [i], _ => exact List.pairwise_singleton _ i
    have hbehind : ∀ i ∈ ms ++ ns, ∀ j ∈ back.taken, Before cmp i j := by
      refine fun i hi j hj => h.back.ahead j hj i ?_
      have hleft : i ∈ back.first.reverse ++ back.second.reverse := by
        rw [hfirst', hsecond']
        rcases List.mem_append.1 hi with hi | hi <;> simp [hi]
      simpa using hleft
    rw [List.append_assoc _ ms ns, List.append_assoc, List.pairwise_append]
    refine ⟨List.pairwise_reverse.2 h.front.ordered,
      List.pairwise_append.2 ⟨hmiddle, h.back.ordered, hbehind⟩,
      fun i hi j hj => h.front.ahead i (List.mem_reverse.1 hi) j ?_⟩
    rw [hfirst, hsecond]
    rcases List.mem_append.1 hj with hj | hj
    · rcases List.mem_append.1 hj with hj | hj <;> simp [hj]
    · rcases List.mem_append.1 (h.back.perm.subset hj) with hj | hj <;>
        simp [hj]

end Between

/-- Each end takes as many elements as it is told to. -/
theorem exists_between (has : as.Pairwise (Before cmp))
    (hbs : bs.Pairwise (Before cmp)) (hlt : ∀ a ∈ as, ∀ b ∈ bs, a < b) (k : Nat)
    (h : Between cmp as bs ps qs ps' qs' front back)
    (hfront : ps.length + qs.length + k ≤ min as.length bs.length)
    (hback : qs'.length + ps'.length + k ≤ min as.length bs.length) :
    ∃ front' back' rs ss rs' ss',
      (takeBoth k front back).result cmp = some (front', back')
        ∧ rs.length + ss.length = ps.length + qs.length + k
        ∧ ss'.length + rs'.length = qs'.length + ps'.length + k
        ∧ Between cmp as bs rs ss rs' ss' front' back' := by
  induction k generalizing front back ps qs ps' qs' with
  | zero => exact ⟨front, back, ps, qs, ps', qs', rfl, rfl, rfl, h⟩
  | succ k ih =>
      obtain ⟨front₁, ps₁, qs₁, hresult, hcount, hstands⟩ :=
        h.front.take (fun _ _ _ => Before.trans) has hbs (decides_front hlt)
          (by omega) (by omega)
      obtain ⟨back₁, qs₂, ps₂, hresult', hcount', hstands'⟩ :=
        h.back.take (fun _ _ _ hij hjk => hjk.trans hij)
          (List.pairwise_reverse.2 hbs) (List.pairwise_reverse.2 has)
          (decides_back hlt) (by rw [List.length_reverse]; omega)
          (by rw [List.length_reverse]; omega)
      obtain ⟨front', back', rs, ss, rs', ss', hrest, hlength, hlength',
        hbetween⟩ := ih ⟨hstands, hstands'⟩ (by omega) (by omega)
      refine ⟨front', back', rs, ss, rs', ss', ?_, by omega, by omega,
        hbetween⟩
      rw [takeBoth, result_bind, hresult]
      show ((back.take _ >>= _).result cmp) = _
      rw [result_bind, hresult']
      exact hrest

/-- The ends of a merge from both ends meet. -/
theorem lists_mergeEnds (has : as.Pairwise (Before cmp))
    (hbs : bs.Pairwise (Before cmp)) (hlt : ∀ a ∈ as, ∀ b ∈ bs, a < b)
    (hle : as.length ≤ bs.length + 1) (hle' : bs.length ≤ as.length + 1) :
    Lists cmp (Before cmp) (mergeEnds as bs) (as ++ bs) := by
  have hstart : Between cmp as bs [] [] [] [] ⟨[], as, bs⟩
      ⟨[], bs.reverse, as.reverse⟩ := ⟨.start as bs, .start _ _⟩
  obtain ⟨front, back, ps, qs, ps', qs', hresult, hcount, hcount', hbetween⟩ :=
    exists_between has hbs hlt ((as.length + bs.length) / 2) hstart
      (by simp only [List.length_nil]; omega)
      (by simp only [List.length_nil]; omega)
  simp only [List.length_nil, Nat.zero_add] at hcount hcount'
  refine (hbetween.lists_meet (by omega) hcount).congr ?_
  rw [mergeEnds, result_bind, hresult]
  rfl

end Ends

end Comparing

end RelAlgebra
