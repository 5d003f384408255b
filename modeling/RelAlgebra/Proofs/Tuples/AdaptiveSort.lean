/-
The sort by runs and blocks is right for every total preorder, and there it
does not give up. Its parts are told one by one, each by the elements that
it takes and lists: four elements at once, a block, the run at the front of
a list. What is left goes by induction on how many elements there can be.
-/
import RelAlgebra.Proofs.Tuples.Merging

namespace RelAlgebra

namespace Comparing

variable {n : Nat} {cmp : Fin n → Fin n → Ordering}
  {R : Fin n → Fin n → Prop} {is : List (Fin n)}

-- ============================================================== blocks

section Blocks

variable [Std.TransCmp cmp]

/-- Two elements are put in their order; if they are in it already, which of
them was listed first does not count. -/
theorem exists_ordered (cmp : Fin n → Fin n → Ordering) [Std.TransCmp cmp]
    {i j : Fin n} (h : i < j ∨ Before cmp i j) :
    ∃ a b, (ordered i j).result cmp = some (a, b) ∧ [a, b].Perm [i, j]
      ∧ Before cmp a b := by
  have hresult : ∀ o, (less j i).result cmp = some o →
      (ordered i j).result cmp = some (if o then (j, i) else (i, j)) := by
    intro o ho
    rw [ordered, result_bind, ho]
    rfl
  have hkept : (less j i).result cmp = some false ∧ Before cmp i j →
      ∃ a b, (ordered i j).result cmp = some (a, b) ∧ [a, b].Perm [i, j]
        ∧ Before cmp a b :=
    fun ⟨hless, hij⟩ => ⟨i, j, hresult false hless, .refl _, hij⟩
  rcases h with hlt | hij
  · rcases less_cases cmp hlt with ⟨hless, hji⟩ | h
    · exact ⟨j, i, hresult true hless, .swap i j [], hji⟩
    · exact hkept h
  · refine hkept ⟨?_, hij⟩
    have hne : j ≠ i := by
      rintro rfl
      exact hij.asymm hij
    have hlt : cmp j i ≠ .lt := fun h => hij.asymm (.inl h)
    rw [result_less hne, decide_eq_false hlt]

omit [Std.TransCmp cmp] in
/-- Four elements are in order if the two in the middle are, in either order
between the others. -/
theorem pairwise_four {w x y z i j : Fin n} (hxy : R x y)
    (hperm : [x, y].Perm [i, j]) (hi : R w i ∧ R i z) (hj : R w j ∧ R j z)
    (hwz : R w z) : [w, x, y, z].Pairwise R := by
  have hmiddle : ∀ k ∈ [x, y], R w k ∧ R k z := by
    intro k hk
    rcases List.mem_pair.1 (hperm.subset hk) with rfl | rfl
    · exact hi
    · exact hj
  have hx := hmiddle x (by simp)
  have hy := hmiddle y (by simp)
  simp [hxy, hx, hy, hwz]

omit [Std.TransCmp cmp] in
/-- What is listed of four elements, by what their comparisons come to. -/
theorem result_sortFour {i j k l a b c d x y : Fin n} {low high : Bool}
    (hlow : (ordered i j).result cmp = some (a, b))
    (hhigh : (ordered k l).result cmp = some (c, d))
    (hleast : (less c a).result cmp = some low)
    (hgreatest : (less d b).result cmp = some high)
    (hmiddle : (ordered (if low then a else if high then c else b)
      (if high then d else if low then b else c)).result cmp = some (x, y)) :
    (sortFour i j k l).result cmp
      = some [if low then c else a, x, y, if high then b else d] := by
  rw [sortFour, result_bind, hlow]
  show (ordered k l >>= _).result cmp = _
  rw [result_bind, hhigh]
  show (less c a >>= _).result cmp = _
  rw [result_bind, hleast]
  show (less d b >>= _).result cmp = _
  rw [result_bind, hgreatest]
  show (ordered _ _ >>= _).result cmp = _
  rw [result_bind, hmiddle]
  rfl

/-- Four elements are put in order: the least, the greatest, and the two that
are left. -/
theorem lists_sortFour (cmp : Fin n → Fin n → Ordering) [Std.TransCmp cmp]
    {i j k l : Fin n} (hlt : [i, j, k, l].Pairwise (· < ·)) :
    Lists cmp (Before cmp) (sortFour i j k l) [i, j, k, l] := by
  obtain ⟨⟨hij, hik, hil⟩, ⟨hjk, hjl⟩, hkl⟩ : (i < j ∧ i < k ∧ i < l)
      ∧ (j < k ∧ j < l) ∧ k < l := by
    simpa using hlt
  obtain ⟨a, b, hlow, hab, hab'⟩ := exists_ordered cmp (.inl hij)
  obtain ⟨c, d, hhigh, hcd, hcd'⟩ := exists_ordered cmp (.inl hkl)
  have hpairs : ∀ x ∈ [a, b], ∀ y ∈ [c, d], x < y := by
    intro x hx y hy
    rcases List.mem_pair.1 (hab.subset hx) with rfl | rfl <;>
      rcases List.mem_pair.1 (hcd.subset hy) with rfl | rfl <;> assumption
  have hperm : ∀ {w x y z p q : Fin n}, [x, y].Perm [p, q] →
      [w, p, q, z].Perm [a, b, c, d] → [w, x, y, z].Perm [i, j, k, l] :=
    fun hxy h => (((hxy.append_right [_]).cons _).trans h).trans
      (hab.append hcd)
  have hlast : [c, d, b].Perm [b, c, d] :=
    (List.perm_append_comm : ([c, d] ++ [b]).Perm _)
  have hac := hpairs a (by simp) c (by simp)
  have had := hpairs a (by simp) d (by simp)
  have hbc := hpairs b (by simp) c (by simp)
  have hbd := hpairs b (by simp) d (by simp)
  -- The least and the greatest of all are known; the others are left to be
  -- put in order, which for two of one pair they are already.
  rcases less_cases cmp hac with ⟨hleast, hca⟩ | ⟨hleast, hac'⟩
  · rcases less_cases cmp hbd with ⟨hgreatest, hdb⟩ | ⟨hgreatest, hbd'⟩
    · obtain ⟨x, y, hmiddle, hxy, hxy'⟩ :=
        exists_ordered cmp (.inl had)
      refine ⟨_, result_sortFour hlow hhigh hleast hgreatest hmiddle,
        hperm hxy ?_, pairwise_four hxy' hxy ⟨hca, hab'⟩ ⟨hcd', hdb⟩
          (hca.trans hab')⟩
      exact (List.Perm.swap a c [d, b]).trans (hlast.cons a)
    · obtain ⟨x, y, hmiddle, hxy, hxy'⟩ :=
        exists_ordered cmp (.inr hab')
      refine ⟨_, result_sortFour hlow hhigh hleast hgreatest hmiddle,
        hperm hxy ?_, pairwise_four hxy' hxy ⟨hca, hab'.trans hbd'⟩
          ⟨hca.trans hab', hbd'⟩ hcd'⟩
      exact (List.perm_append_comm : ([c] ++ [a, b]).Perm _).append_right [d]
  · rcases less_cases cmp hbd with ⟨hgreatest, hdb⟩ | ⟨hgreatest, hbd'⟩
    · obtain ⟨x, y, hmiddle, hxy, hxy'⟩ :=
        exists_ordered cmp (.inr hcd')
      refine ⟨_, result_sortFour hlow hhigh hleast hgreatest hmiddle,
        hperm hxy ?_, pairwise_four hxy' hxy ⟨hac', hcd'.trans hdb⟩
          ⟨hac'.trans hcd', hdb⟩ hab'⟩
      exact hlast.cons a
    · obtain ⟨x, y, hmiddle, hxy, hxy'⟩ :=
        exists_ordered cmp (.inl hbc)
      refine ⟨_, result_sortFour hlow hhigh hleast hgreatest hmiddle,
        hperm hxy (.refl _),
        pairwise_four hxy' hxy ⟨hab', hbd'⟩ ⟨hac', hcd'⟩ (hab'.trans hbd')⟩

/-- The elements of a part that is listed first come before the others. -/
theorem lt_of_perm {ps qs order order' : List (Fin n)}
    (h : (ps ++ qs).Pairwise (· < ·)) (hps : order.Perm ps)
    (hqs : order'.Perm qs) : ∀ i ∈ order, ∀ j ∈ order', i < j :=
  fun i hi j hj => (List.pairwise_append.1 h).2.2 i (hps.subset hi) j
    (hqs.subset hj)

/-- A first part of the list is put in order, and what is behind it is
handed back. -/
theorem exists_sortHead (cmp : Fin n → Fin n → Ordering) [Std.TransCmp cmp]
    (size : Nat) (his : is.Pairwise (· < ·)) :
    ∃ order rest ps, (sortHead size is).result cmp = some (order, rest)
      ∧ is = ps ++ rest ∧ order.Perm ps ∧ order.Pairwise (Before cmp) := by
  have hnone : ∃ order rest ps,
      (pure ([], is) : Comparing n _).result cmp = some (order, rest)
        ∧ is = ps ++ rest ∧ order.Perm ps ∧ order.Pairwise (Before cmp) :=
    ⟨[], is, [], rfl, rfl, .refl _, .nil⟩
  unfold sortHead
  split
  · split
    · rename_i a b c d e f g h rest
      have hparts : ([a, b, c, d] ++ ([e, f, g, h] ++ rest)).Pairwise (· < ·) :=
        his
      obtain ⟨hlow, hhigh, -⟩ := List.pairwise_append.1 hparts
      obtain ⟨low, hresult, hperm, horder⟩ := lists_sortFour cmp hlow
      obtain ⟨high, hresult', hperm', horder'⟩ :=
        lists_sortFour cmp (List.pairwise_append.1 hhigh).1
      obtain ⟨order, hmerged, hperm'', horder''⟩ := lists_mergeEnds horder horder'
        (lt_of_perm (hparts.sublist (List.prefix_append _ rest).sublist)
          hperm hperm')
        (by simp [hperm.length_eq, hperm'.length_eq])
        (by simp [hperm.length_eq, hperm'.length_eq])
      refine ⟨order, rest, [a, b, c, d] ++ [e, f, g, h], ?_, rfl,
        hperm''.trans (hperm.append hperm'), horder''⟩
      simp [hresult, hresult', hmerged]
    · exact hnone
  · split
    · split
      · rename_i a b c d rest
        have hparts : ([a, b, c, d] ++ rest).Pairwise (· < ·) := his
        obtain ⟨order, hresult, hperm, horder⟩ :=
          lists_sortFour cmp (List.pairwise_append.1 hparts).1
        exact ⟨order, rest, [a, b, c, d], by simp [hresult], rfl, hperm, horder⟩
      · exact hnone
    · exact hnone

/-- What is behind a part that is in order is inserted into it. -/
theorem lists_insertions_behind {ps rest order : List (Fin n)}
    (his : (ps ++ rest).Pairwise (· < ·)) (hperm : order.Perm ps)
    (horder : order.Pairwise (Before cmp)) :
    Lists cmp (fun i j => Before cmp j i) (insertions order.reverse rest.reverse)
      (ps ++ rest) := by
  have hlists := lists_insertions (List.pairwise_reverse.2 horder)
    (List.pairwise_reverse.2 (List.pairwise_append.1 his).2.1)
    fun i hi j hj => lt_of_perm his hperm (.refl rest) j
      (List.mem_reverse.1 hj) i (List.mem_reverse.1 hi)
  refine hlists.perm (List.perm_append_comm.trans ?_)
  exact ((List.reverse_perm order).trans hperm).append (List.reverse_perm rest)

/-- A block is put in order: its halves are sorted behind their heads, and
then merged. -/
theorem lists_sortBlock (his : is.Pairwise (· < ·)) :
    Lists cmp (Before cmp) (sortBlock is) is := by
  have hhalves : (is.take (is.length / 2) ++ is.drop (is.length / 2)).Pairwise
      (· < ·) := by
    rwa [List.take_append_drop]
  obtain ⟨hlow, hhigh, -⟩ := List.pairwise_append.1 hhalves
  obtain ⟨low, lowRest, ps, hresult, hcut, hperm, horder⟩ :=
    exists_sortHead cmp is.length hlow
  obtain ⟨high, highRest, qs, hresult', hcut', hperm', horder'⟩ :=
    exists_sortHead cmp is.length hhigh
  rw [hcut] at hlow
  rw [hcut'] at hhigh
  refine Lists.congr (c := do
    let low ← insertions low.reverse lowRest.reverse
    let high ← insertions high.reverse highRest.reverse
    mergeEnds low.reverse high.reverse) ?_ ?_
  · refine (lists_insertions_behind hlow hperm horder).bind
      fun as has has' => ?_
    refine (lists_insertions_behind hhigh hperm' horder').bind
      fun bs hbs hbs' => ?_
    rw [← hcut] at has
    rw [← hcut'] at hbs
    have has := (List.reverse_perm as).trans has
    have hbs := (List.reverse_perm bs).trans hbs
    refine (lists_mergeEnds (List.pairwise_reverse.2 has')
      (List.pairwise_reverse.2 hbs') (lt_of_perm hhalves has hbs) ?_ ?_).perm
        ((has.append hbs).trans (.of_eq (List.take_append_drop _ _)))
    · rw [has.length_eq, hbs.length_eq, List.length_take, List.length_drop]
      omega
    · rw [has.length_eq, hbs.length_eq, List.length_take, List.length_drop]
      omega
  · simp [sortBlock, hresult, hresult']

end Blocks

-- ================================================================ runs

section Runs

variable [Std.TransCmp cmp]

/-- How the elements of a run stand to those behind them. -/
def InRun (cmp : Fin n → Fin n → Ordering) (descending : Bool) (i j : Fin n) :
    Prop :=
  if descending then Before cmp j i else Before cmp i j

/-- What goes on descending, or not descending, does so throughout. -/
theorem InRun.trans {descending : Bool} {i j k : Fin n}
    (hij : InRun cmp descending i j) (hjk : InRun cmp descending j k) :
    InRun cmp descending i k := by
  cases descending with
  | true => exact Before.trans hjk hij
  | false => exact Before.trans hij hjk

/-- The elements that are compared first say how a run goes. -/
theorem exists_less (cmp : Fin n → Fin n → Ordering) [Std.TransCmp cmp]
    {i j : Fin n} (h : i < j) :
    ∃ descending, (less j i).result cmp = some descending
      ∧ InRun cmp descending i j := by
  rcases less_cases cmp h with ⟨hless, hji⟩ | ⟨hless, hij⟩
  · exact ⟨true, hless, hji⟩
  · exact ⟨false, hless, hij⟩

/-- A run goes on for as long as each element stands to the next as the run
has it. -/
theorem exists_runBehind (cmp : Fin n → Fin n → Ordering)
    [Std.TransCmp cmp] (descending : Bool) {i : Fin n}
    (his : (i :: is).Pairwise (· < ·)) :
    ∃ k, (runBehind descending i is).result cmp = some k ∧ k ≤ is.length
      ∧ (i :: is.take k).Pairwise (InRun cmp descending) := by
  induction is generalizing i with
  | nil => exact ⟨0, rfl, Nat.le_refl _, List.pairwise_singleton _ _⟩
  | cons j js ih =>
      obtain ⟨hi, hjs⟩ := List.pairwise_cons.1 his
      obtain ⟨k, hresult, hk, hrun⟩ := ih hjs
      obtain ⟨o, hless, hij⟩ := exists_less cmp (hi j (List.mem_cons_self ..))
      by_cases hgoes : o = descending
      · subst hgoes
        refine ⟨k + 1, ?_, Nat.succ_le_succ hk, ?_⟩
        · simp [runBehind, hless, hresult]
        · refine List.pairwise_cons.2 ⟨fun m hm => ?_, hrun⟩
          rcases List.mem_cons.1 hm with rfl | hm
          · exact hij
          · exact hij.trans ((List.pairwise_cons.1 hrun).1 m hm)
      · refine ⟨0, ?_, Nat.zero_le _, List.pairwise_singleton _ _⟩
        simp [runBehind, hless, hgoes]

/-- The front of a list is a run as far as it was found to go on. -/
theorem exists_existingRun (cmp : Fin n → Fin n → Ordering) [Std.TransCmp cmp]
    (his : is.Pairwise (· < ·)) :
    ∃ descending k, (existingRun is).result cmp = some (descending, k)
      ∧ (is.take k).Pairwise (InRun cmp descending) := by
  match is, his with
  | [], _ => exact ⟨false, 0, rfl, .nil⟩
  | [i], _ => exact ⟨false, 1, rfl, List.pairwise_singleton _ i⟩
  | i :: j :: js, his =>
      obtain ⟨hi, hjs⟩ := List.pairwise_cons.1 his
      obtain ⟨descending, hless, hij⟩ :=
        exists_less cmp (hi j (List.mem_cons_self ..))
      obtain ⟨k, hresult, -, hrun⟩ := exists_runBehind cmp descending hjs
      refine ⟨descending, k + 2, by simp [existingRun, hless, hresult], ?_⟩
      refine List.pairwise_cons.2 ⟨fun m hm => ?_, hrun⟩
      rcases List.mem_cons.1 hm with rfl | hm
      · exact hij
      · exact hij.trans ((List.pairwise_cons.1 hrun).1 m hm)

/-- Some elements are taken from the front of the list, unless it is empty,
and put in order. -/
def TakesRun (cmp : Fin n → Fin n → Ordering)
    (c : Comparing n (List (Fin n) × List (Fin n))) (is : List (Fin n)) :
    Prop :=
  ∃ run rest ps, c.result cmp = some (run, rest) ∧ is = ps ++ rest ∧ ps ≠ []
    ∧ run.Perm ps ∧ run.Pairwise (Before cmp)

/-- A block is taken from the front and sorted. -/
theorem takesRun_nextBlock (his : is.Pairwise (· < ·)) (hne : is ≠ []) :
    TakesRun cmp (nextBlock is) is := by
  have hblock : Lists cmp (Before cmp) (sortBlock (is.take 32)) (is.take 32) :=
    lists_sortBlock (his.sublist (List.take_sublist 32 is))
  obtain ⟨run, hresult, hperm, hrun⟩ := hblock
  refine ⟨run, is.drop 32, is.take 32, ?_, (List.take_append_drop 32 is).symm,
    ?_, hperm, hrun⟩
  · simp [nextBlock, hresult]
  · simpa using hne

omit [Std.TransCmp cmp] in
/-- A descending run is turned around. -/
theorem straightened {descending : Bool} {run : List (Fin n)}
    (hrun : run.Pairwise (InRun cmp descending)) :
    let straight := if descending then run.reverse else run
    straight.Perm run ∧ straight.Pairwise (Before cmp) := by
  cases descending with
  | true => exact ⟨List.reverse_perm run, List.pairwise_reverse.2 hrun⟩
  | false => exact ⟨.refl run, hrun⟩

/-- Whichever is taken, a run or a block, it is not empty, and it is
in order. -/
theorem takesRun_nextRun {good : Nat} (hgood : 0 < good)
    (his : is.Pairwise (· < ·)) (hne : is ≠ []) :
    TakesRun cmp (nextRun good is) is := by
  have hblock : TakesRun cmp (nextBlock is) is := takesRun_nextBlock his hne
  obtain ⟨descending, k, hresult, hrun⟩ := exists_existingRun cmp his
  unfold nextRun
  split
  · by_cases hk : good ≤ k
    · obtain ⟨hperm, hordered⟩ := straightened hrun
      have htaken : is.take k ≠ [] := by
        simp only [ne_eq, List.take_eq_nil_iff]
        exact not_or.2 ⟨Nat.ne_of_gt (Nat.lt_of_lt_of_le hgood hk), hne⟩
      refine ⟨_, is.drop k, is.take k, ?_, (List.take_append_drop k is).symm,
        htaken, hperm, hordered⟩
      simp [hresult, hk]
    · obtain ⟨run, rest, ps, hnext, hcut⟩ := hblock
      exact ⟨run, rest, ps, by simp [hresult, hk, hnext], hcut⟩
  · exact hblock

omit [Std.TransCmp cmp] in
theorem sortRuns_succ {good bound : Nat} (hne : is ≠ []) :
    sortRuns good (bound + 1) is
      = (do
        let (run, rest) ← nextRun good is
        merge run (← sortRuns good bound rest)) := by
  cases is with
  | nil => exact absurd rfl hne
  | cons i is => rfl

/-- A list is put in order run by run. The induction is on the bound, which
goes down as the list gets shorter. -/
theorem lists_sortRuns {good : Nat} (hgood : 0 < good) (bound : Nat)
    (his : is.Pairwise (· < ·)) (hbound : is.length ≤ bound) :
    Lists cmp (Before cmp) (sortRuns good bound is) is := by
  induction bound generalizing is with
  | zero =>
      cases List.length_eq_zero_iff.1 (Nat.le_zero.1 hbound)
      exact .pure (.refl _) .nil
  | succ bound ih =>
      by_cases hne : is = []
      · subst hne
        exact .pure (.refl _) .nil
      have htaken : TakesRun cmp (nextRun good is) is :=
        takesRun_nextRun hgood his hne
      obtain ⟨run, rest, ps, hresult, rfl, hps, hperm, hrun⟩ := htaken
      have hshorter : rest.length ≤ bound := by
        have hpos := List.length_pos_iff.2 hps
        rw [List.length_append] at hbound
        omega
      have hlists : Lists cmp (Before cmp)
          (do merge run (← sortRuns good bound rest)) (ps ++ rest) :=
        (ih (List.pairwise_append.1 his).2.1 hshorter).bind
          fun order hperm' horder =>
            (lists_merge hrun horder (lt_of_perm his hperm hperm')).perm
              (hperm.append hperm')
      refine hlists.congr ?_
      rw [sortRuns_succ hne, result_bind, hresult]
      rfl

end Runs

end Comparing

-- ============================================================= the sort

/-- Sorting by runs and blocks. -/
def StableSort.adaptive : StableSort where
  sorter := .adaptive
  sorts := by
    intro n cmp _
    unfold Sorter.adaptive
    split
    · exact Comparing.lists_insertionSort
    · exact Comparing.lists_sortRuns (by omega) n (List.pairwise_lt_finRange n)
        (by rw [List.length_finRange])

/-- Up to twenty elements are inserted, so short lists are never given
up. -/
theorem Sorter.steady_adaptive {n : Nat} (hn : n ≤ 20) :
    (adaptive n).Steady := by
  rw [adaptive, if_pos hn]
  exact Comparing.steady_insertionSort n

end RelAlgebra
