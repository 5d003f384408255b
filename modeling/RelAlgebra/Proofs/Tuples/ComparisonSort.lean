/-
Sorts that are right for every total preorder, whichever they are. Such a
sort goes by comparisons alone, so what it does with comparisons that fail
follows: it looks at some pairs only, but it cannot miss a pair without an
order. If it came to its end without a failure, it would put the two in one
order by the answers it had, which agree with a total preorder that has them
the other way. And as these answers agree with a total preorder, it does not
give up before a comparison has failed. After that anything may happen: the
sort may come to an end, and then the failure is what it comes to, or it may
give up.
-/
import Mathlib.Data.List.FinRange
import Mathlib.Data.List.Pairwise
import RelAlgebra.Proofs.Tuples.Extension
import RelAlgebra.Proofs.Tuples.Sorting
import RelAlgebra.Tuples.Comparing

namespace RelAlgebra

/-- A sort that is right for every total preorder: it does not give up, and
gives each element once, in ascending order, and equal ones in their old
order. -/
structure StableSort where
  sorter : Sorter
  sorts : ∀ {n : Nat} (cmp : Fin n → Fin n → Ordering) [Std.TransCmp cmp],
    ∃ order, (sorter n).result cmp = some order
      ∧ order.Perm (List.finRange n)
      ∧ order.Pairwise fun i j => cmp i j = .lt ∨ cmp i j = .eq ∧ i < j

instance : Coe StableSort Sorter := ⟨StableSort.sorter⟩

-- ================================================================ runs

namespace Comparing

variable {n : Nat} {ε α β : Type} {answer : Fin n → Fin n → Except ε Ordering}

/-- Once a failure is noted it stays. -/
theorem run_noting_some (answer : Fin n → Fin n → Except ε Ordering)
    (c : Comparing n α) (e : ε) :
    (c.run (noting answer) (some e)).2 = some e := by
  induction c with
  | done a => rfl
  | giveUp => rfl
  | compare i j differ next ih => exact ih .eq

/-- A comparison that comes to an end is made, and nothing is noted. -/
theorem run_noting_of_ok {i j : Fin n} {differ : i ≠ j}
    {next : Ordering → Comparing n α} {o : Ordering} (h : answer i j = .ok o) :
    (compare i j differ next).run (noting answer) none
      = (next o).run (noting answer) none := by
  have hnoting : noting answer i j none = (o, none) := by
    simp only [noting, h]
  show (next (noting answer i j none).1).run (noting answer)
    (noting answer i j none).2 = _
  rw [hnoting]

/-- A comparison that fails counts as equal, and its failure is what is
noted in the end. -/
theorem run_noting_of_error {i j : Fin n} {differ : i ≠ j}
    {next : Ordering → Comparing n α} {e : ε} (h : answer i j = .error e) :
    ((compare i j differ next).run (noting answer) none).2 = some e := by
  have hnoting : noting answer i j none = (.eq, some e) := by
    simp only [noting, h]
  show ((next (noting answer i j none).1).run (noting answer)
    (noting answer i j none).2).2 = _
  rw [hnoting]
  exact run_noting_some answer (next .eq) e

/-- Where no comparison fails, nothing is noted. -/
theorem attempt_of_run_eq_ok {c : Comparing n α} {a : Option α}
    (h : c.run answer = .ok a) : c.attempt answer = settle (a, none) := by
  induction c with
  | done b =>
      cases h
      rfl
  | giveUp =>
      cases h
      rfl
  | compare i j differ next ih =>
      rw [run] at h
      cases ho : answer i j with
      | error e =>
          rw [ho] at h
          cases h
      | ok o =>
          rw [ho] at h
          rw [attempt, run_noting_of_ok ho]
          exact ih o h

/-- Where a comparison fails, the first failure is what counts, unless the
computation gives up later on. -/
theorem attempt_of_run_eq_error {c : Comparing n α} {e : ε}
    (h : c.run answer = .error e) :
    c.attempt answer = .error e ∨ c.attempt answer = .gaveUp := by
  induction c with
  | done b => cases h
  | giveUp => cases h
  | compare i j differ next ih =>
      rw [run] at h
      cases ho : answer i j with
      | ok o =>
          rw [ho] at h
          rw [attempt, run_noting_of_ok ho]
          exact ih o h
      | error e' =>
          rw [ho] at h
          cases h
          have hnoted : ((compare i j differ next).run (noting answer) none).2
              = some e := run_noting_of_error ho
          unfold attempt
          generalize (compare i j differ next).run (noting answer) none
            = ended at hnoted
          obtain ⟨result, noted⟩ := ended
          cases hnoted
          cases result with
          | none => exact .inr rfl
          | some a => exact .inl rfl

/-- A result is one of a run in which nothing failed. -/
theorem attempt_eq_ok_iff {c : Comparing n α} {a : α} :
    c.attempt answer = .ok a ↔ c.run answer = .ok (some a) := by
  constructor
  · intro h
    cases hrun : c.run answer with
    | error e => rcases attempt_of_run_eq_error hrun with h' | h' <;>
        cases h.symm.trans h'
    | ok result =>
        rw [attempt_of_run_eq_ok hrun] at h
        cases result with
        | none => cases h
        | some b =>
            cases h
            rfl
  · exact attempt_of_run_eq_ok

/-- If any two different elements can be compared, nothing fails. -/
theorem run_of_comparable (c : Comparing n α)
    (h : ∀ i j, i ≠ j → Comparable answer i j) : ∃ a, c.run answer = .ok a := by
  induction c with
  | done a => exact ⟨some a, rfl⟩
  | giveUp => exact ⟨none, rfl⟩
  | compare i j differ next ih =>
      obtain ⟨o, ho⟩ := h i j differ
      rw [run, ho]
      exact ih o

/-- A run in which nothing fails has the result that any answers give which
agree with those it had. -/
theorem result_of_run {c : Comparing n α} {a : Option α}
    (h : c.run answer = .ok a) {cmp : Fin n → Fin n → Ordering}
    (hcmp : ∀ i j o, answer i j = .ok o → cmp i j = o) : c.result cmp = a := by
  induction c with
  | done b => exact Except.ok.inj h
  | giveUp => exact Except.ok.inj h
  | compare i j differ next ih =>
      cases ho : answer i j with
      | error e =>
          rw [run, ho] at h
          cases h
      | ok o =>
          rw [run, ho] at h
          rw [result, hcmp i j o ho]
          exact ih o h

-- ======================================================= steady running

/-- Whatever the answers, the computation does not give up. -/
def Steady : Comparing n α → Prop
  | .done _ => True
  | .giveUp => False
  | .compare _ _ _ next => ∀ o, (next o).Steady

theorem Steady.bind {c : Comparing n α} {f : α → Comparing n β}
    (hc : c.Steady) (hf : ∀ a, (f a).Steady) : (c >>= f).Steady := by
  induction c with
  | done a => exact hf a
  | giveUp => exact hc.elim
  | compare i j differ next ih => exact fun o => ih o (hc o)

/-- Running it comes to a result, or to the first failure. -/
theorem Steady.attempt_ne_gaveUp {c : Comparing n α} (hc : c.Steady)
    (answer : Fin n → Fin n → Except ε Ordering) :
    c.attempt answer ≠ .gaveUp := by
  have hsome : ∀ noted, ∃ a, (c.run (noting answer) noted).1 = some a := by
    intro noted
    induction c generalizing noted with
    | done a => exact ⟨a, rfl⟩
    | giveUp => exact hc.elim
    | compare i j differ next ih => exact ih _ (hc _) _
  obtain ⟨a, ha⟩ := hsome none
  unfold attempt
  generalize c.run (noting answer) none = ended at ha
  obtain ⟨result, noted⟩ := ended
  cases ha
  cases noted <;> exact nofun

end Comparing

/-- Sorting a list is sorting the places of its elements. -/
theorem Sorter.sort_eq_ok_iff {α ε : Type} {s : Sorter}
    {compare : α → α → Except ε Ordering} {xs ys : List α} :
    s.sort compare xs = .ok ys
      ↔ ∃ order,
          ((s xs.length).run fun i j => compare (xs.get i) (xs.get j))
            = .ok (some order) ∧ order.map xs.get = ys := by
  rw [sort, Attempt.bind_eq_ok_iff]
  refine exists_congr fun order => ?_
  rw [Comparing.attempt_eq_ok_iff]
  exact and_congr_right fun _ => ⟨Attempt.ok.inj, congrArg Attempt.ok⟩

-- ==================================================== total preorders

section Answers

variable {ι ε : Type} [DecidableEq ι] {answer : ι → ι → Except ε Ordering}

/-- The answers as a total comparison: an element is equal to itself, and
so are elements without an answer. -/
def answered (answer : ι → ι → Except ε Ordering) (i j : ι) : Ordering :=
  if i = j then .eq
  else
    match answer i j with
    | .ok o => o
    | .error _ => .eq

theorem answered_of_ok (hc : Coherent fun i j o => answer i j = .ok o)
    {i j : ι} {o : Ordering} (h : answer i j = .ok o) :
    answered answer i j = o := by
  unfold answered
  split
  · rename_i hij
    subst hij
    have hswap : o = o.swap := Except.ok.inj (h.symm.trans (hc.swap h))
    cases o with
    | eq => rfl
    | lt => cases hswap
    | gt => cases hswap
  · rw [h]

/-- Coherent answers to all questions are a total preorder. An element need
not have an answer with itself, as not-a-number has none. -/
theorem transCmp_answered (hc : Coherent fun i j o => answer i j = .ok o)
    (hall : ∀ i j, i ≠ j → Comparable answer i j) :
    Std.TransCmp (answered answer) where
  eq_swap := by
    intro i j
    by_cases hij : i = j
    · subst hij
      simp [answered]
    · obtain ⟨o, ho⟩ := hall i j hij
      rw [answered_of_ok hc ho, answered_of_ok hc (hc.swap ho),
        Ordering.swap_swap]
  isLE_trans := by
    intro i j k hij hjk
    by_cases hne : i = j
    · rwa [hne]
    by_cases hne' : j = k
    · rwa [← hne']
    obtain ⟨o, ho⟩ := hall i j hne
    obtain ⟨o', ho'⟩ := hall j k hne'
    rw [answered_of_ok hc ho] at hij
    rw [answered_of_ok hc ho'] at hjk
    have hik := hc.trans ho ho' (Ordering.isLE_iff_ne_gt.1 hij)
      (Ordering.isLE_iff_ne_gt.1 hjk)
    rw [answered_of_ok hc hik]
    cases o <;> cases o' <;> simp_all

end Answers

-- ======================================================== missing orders

namespace StableSort

variable {n : Nat} {ε α : Type} (s : StableSort)

/-- A sort by ranks. -/
theorem result_rank (rank : Fin n → Nat) :
    ∃ order, (s.sorter n).result
          (fun i j => Ord.compare (rank i) (rank j)) = some order
      ∧ order.Perm (List.finRange n)
      ∧ order.Pairwise fun i j => rank i ≤ rank j := by
  have : Std.TransCmp fun i j => Ord.compare (rank i) (rank j) :=
    inferInstanceAs (Std.TransCmp (compareOn rank))
  obtain ⟨order, hresult, hperm, hascending⟩ :=
    s.sorts fun i j => Ord.compare (rank i) (rank j)
  refine ⟨order, hresult, hperm, hascending.imp fun {i j} h => ?_⟩
  rcases h with h | ⟨h, -⟩
  · exact Nat.le_of_lt (Nat.compare_eq_lt.1 h)
  · exact Nat.le_of_eq (Nat.compare_eq_eq.1 h)

section Runs

variable {answer : Fin n → Fin n → Except ε Ordering}
  (hc : Coherent fun i j o => answer i j = .ok o)
  {result : Option (List (Fin n))}
  (h : (s.sorter n).run answer = .ok result)

include hc h

/-- A run in which nothing fails has an order on all pairs of elements. -/
theorem comparable_of_run {i j : Fin n} (hne : i ≠ j) :
    Comparable answer i j := by
  by_contra hij
  have hunique : ∀ {a b o o'}, answer a b = .ok o → answer a b = .ok o' →
      o = o' := fun h h' => Except.ok.inj (h.symm.trans h')
  have hji : ¬Comparable answer j i := fun h => hij (Comparable.symm hc h)
  obtain ⟨rank, hrank, hlt⟩ := hc.exists_rank hunique hne
    fun o ho => hij ⟨o, ho⟩
  obtain ⟨rank', hrank', hlt'⟩ := hc.exists_rank hunique hne.symm
    fun o ho => hji ⟨o, ho⟩
  obtain ⟨order, hresult, hperm, hascending⟩ := s.result_rank rank
  obtain ⟨order', hresult', -, hascending'⟩ := s.result_rank rank'
  rw [Comparing.result_of_run h hrank] at hresult
  rw [Comparing.result_of_run h hrank'] at hresult'
  cases hresult.symm.trans hresult'
  -- Whichever of the two comes first, one of the ranks forbids it.
  have hboth : order.Pairwise fun a b =>
      (rank a ≤ rank b ∧ rank' a ≤ rank' b)
        ∨ (rank b ≤ rank a ∧ rank' b ≤ rank' a) :=
    (hascending.and hascending').imp .inl
  have hmem : ∀ a, a ∈ order := fun a => hperm.mem_iff.2 (List.mem_finRange a)
  have : Std.Symm fun a b : Fin n =>
      (rank a ≤ rank b ∧ rank' a ≤ rank' b)
        ∨ (rank b ≤ rank a ∧ rank' b ≤ rank' a) := ⟨fun _ _ h => h.symm⟩
  rcases hboth.forall (hmem i) (hmem j) hne with h | h
  · omega
  · omega

/-- A run in which nothing fails does not give up, and lists the places in
the order of the answers. -/
theorem ordered_of_run :
    ∃ order, result = some order ∧ order.Perm (List.finRange n)
      ∧ order.Pairwise fun i j =>
          answer i j = .ok .lt ∨ answer i j = .ok .eq ∧ i < j := by
  have hall : ∀ i j, i ≠ j → Comparable answer i j :=
    fun i j hne => s.comparable_of_run hc h hne
  have : Std.TransCmp (answered answer) := transCmp_answered hc hall
  obtain ⟨order, hresult, hperm, hascending⟩ := s.sorts (answered answer)
  rw [Comparing.result_of_run h fun i j o ho => answered_of_ok hc ho]
    at hresult
  have hdistinct : order.Nodup := hperm.nodup_iff.2 (List.nodup_finRange n)
  refine ⟨order, hresult, hperm,
    (hascending.and hdistinct).imp fun {i j} hij => ?_⟩
  obtain ⟨hij, hne⟩ := hij
  obtain ⟨o, ho⟩ := hall i j hne
  rw [answered_of_ok hc ho] at hij
  rcases hij with rfl | ⟨rfl, hlt⟩
  · exact .inl ho
  · exact .inr ⟨ho, hlt⟩

end Runs

/-- Whichever the sort, it succeeds exactly if every two elements can be
compared. -/
theorem sort_isOk_iff {compare : α → α → Except ε Ordering}
    (hc : Coherent fun x y o => compare x y = .ok o) {xs : List α} :
    (∃ ys, s.sorter.sort compare xs = .ok ys)
      ↔ xs.Pairwise (Comparable compare) := by
  have hplaces : xs.Pairwise (Comparable compare)
      ↔ ∀ i j : Fin xs.length, i ≠ j → Comparable compare (xs.get i) (xs.get j) := by
    rw [List.pairwise_iff_get]
    refine ⟨fun h i j hne => ?_, fun h i j hlt => h i j (Fin.ne_of_lt hlt)⟩
    rcases Fin.lt_or_lt_of_ne hne with hlt | hlt
    · exact h i j hlt
    · exact (h j i hlt).symm hc
  have hcoherent := hc.comap xs.get
  rw [hplaces]
  constructor
  · rintro ⟨ys, hys⟩ i j hne
    obtain ⟨order, hrun, -⟩ := Sorter.sort_eq_ok_iff.1 hys
    exact s.comparable_of_run hcoherent hrun hne
  · intro h
    obtain ⟨result, hrun⟩ := (s.sorter xs.length).run_of_comparable h
    obtain ⟨order, rfl, -⟩ := s.ordered_of_run hcoherent hrun
    exact ⟨_, Sorter.sort_eq_ok_iff.2 ⟨order, hrun, rfl⟩⟩

end StableSort

end RelAlgebra
