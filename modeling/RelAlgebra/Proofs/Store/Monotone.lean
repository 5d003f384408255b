/-
Running a positive query on two stores, where each relation of the first
has some of the rows that its counterpart in the second has. If the query
comes to rows on the second store it does so on the first, and to some of
these rows.
-/
import RelAlgebra.Proofs.Algebra.Monotone
import RelAlgebra.Proofs.Store.RowOrder

namespace RelAlgebra.Store

variable {n : Nat}

/-- Positive queries are monotone, their success included. That the rows
fit their headers is not needed. -/
theorem execute_monotone (s s' : Store n) (q : Query (Fin n))
    (hq : q.isPositive = true) (a b : Fin n → Resolved)
    (ha : ∀ i ∈ q.leaves, s.get i = .resolved (a i))
    (hb : ∀ i ∈ q.leaves, s'.get i = .resolved (b i))
    (hheader : ∀ i ∈ q.leaves, (a i).header = (b i).header)
    (hrows : ∀ i ∈ q.leaves, ∀ t ∈ (a i).tuples.rows,
      (b i).tuples.contains t = true)
    (hfloats : ∀ i ∈ q.leaves, ∀ j ∈ q.leaves, ∀ x y,
      (a i).HasFloat x ∨ (b i).HasFloat x →
      (a j).HasFloat y ∨ (b j).HasFloat y →
      (Value.float x == Value.float y) = true → x.toBits = y.toBits)
    (r' : Resolved) (hr' : (execute q s').value = .ok r') :
    ∃ r, (execute q s).value = .ok r ∧ r.header = r'.header
      ∧ ∀ t ∈ r.tuples.rows, r'.tuples.contains t = true := by
  let F := fun x => ∃ i ∈ q.leaves, (a i).HasFloat x ∨ (b i).HasFloat x
  have hV : Discerning (Value.FloatIn F) := by
    refine discerning_floatIn ?_
    rintro x y ⟨i, hi, hx⟩ ⟨j, hj, hy⟩
    exact hfloats i hi j hj x y hx hy
  have hwithin : ∀ i ∈ q.leaves,
      (a i).Within (Value.FloatIn F) (b i) := by
    intro i hi
    have hvalues : ∀ t ∈ (a i).tuples.rows ++ (b i).tuples.rows,
        t.Over (Value.FloatIn F) := by
      intro t ht name value hvalue x hx
      have hget : t.get? name = some (.float x) :=
        hvalue.trans (congrArg some hx)
      exact ⟨i, hi, (List.mem_append.1 ht).imp (fun ht => ⟨t, ht, name, hget⟩)
        fun ht => ⟨t, ht, name, hget⟩⟩
    refine ⟨hheader i hi, fun t ht => ?_, fun t ht => ?_⟩
    · obtain ⟨u, hu, hut⟩ := Tuples.contains_iff.1 (hrows i hi t ht)
      have heq : u = t :=
        (hvalues u (List.mem_append_right _ hu)).eq_of_beq hV
          (hvalues t (List.mem_append_left _ ht)) hut
      exact heq ▸ hu
    · exact hvalues t (List.mem_append_right _ ht)
  have hends : Tolerance.downward.Relates (Resolved.Within (Value.FloatIn F))
      (q.eval s.outcome) (q.eval s'.outcome) :=
    Query.relates_within hV hq fun i hi =>
      ⟨a i, b i, outcome_of_get (ha i hi), outcome_of_get (hb i hi),
        hwithin i hi⟩
  rw [← value_execute, ← value_execute] at hends
  obtain ⟨r, hr, hwithin⟩ := Tolerance.exists_ok_of_downward hends hr'
  refine ⟨r, hr, hwithin.header, fun t ht => ?_⟩
  exact Tuples.contains_iff.2 ⟨t, hwithin.rows t ht, BEq.rfl⟩

/-- Sorting a column needs an order on its numbers, and so on fewer of
them. -/
theorem execute_monotone_column :
    let sorted : Query (Fin 1) :=
      .unary (.orderBy [⟨"x", .descending⟩]) (.relation 0)
    let q : Query (Fin 1) := .binary (.semiJoin .left) sorted (.relation 0)
    let s := Store.push .empty (.resolved (column [1.5, 2.5]))
    let s' := Store.push .empty (.resolved (column [2.5, 0.0, 1.5]))
    ∃ r' r, (execute q s').value = .ok r' ∧ (execute q s).value = .ok r
      ∧ r.header = r'.header
      ∧ ∀ t ∈ r.tuples.rows, r'.tuples.contains t = true := by
  intro sorted q s s'
  have hsub : ∀ x ∈ [(1.5 : Float), 2.5], x ∈ [(2.5 : Float), 0.0, 1.5] := by
    simp
  have hbits : ∀ x ∈ [(2.5 : Float), 0.0, 1.5],
      ∀ y ∈ [(2.5 : Float), 0.0, 1.5],
      (Value.float x == Value.float y) = true → x.toBits = y.toBits := by
    decide +kernel
  have hrows : ∀ t ∈ (column [1.5, 2.5]).tuples.rows,
      (column [2.5, 0.0, 1.5]).tuples.contains t = true := by
    decide +kernel
  have hmem : ∀ x, (column [1.5, 2.5]).HasFloat x
      ∨ (column [2.5, 0.0, 1.5]).HasFloat x → x ∈ [(2.5 : Float), 0.0, 1.5] :=
    fun x hx => hx.elim (fun hx => hsub x (mem_of_hasFloat_column hx))
      mem_of_hasFloat_column
  have hok : (execute q s').value.toBool = true := by decide +kernel
  obtain ⟨r', hr'⟩ : ∃ r', (execute q s').value = .ok r' := by
    cases h : (execute q s').value with
    | ok r' => exact ⟨r', rfl⟩
    | error e => rw [h] at hok; cases hok
  obtain ⟨r, hr⟩ := execute_monotone s s' q rfl (fun _ => column [1.5, 2.5])
    (fun _ => column [2.5, 0.0, 1.5])
    (fun i _ => by cases i using Fin.cases <;> rfl)
    (fun i _ => by cases i using Fin.cases <;> rfl)
    (fun _ _ => header_column _ _) (fun _ _ => hrows)
    (fun _ _ _ _ x y hx hy => hbits x (hmem x hx) y (hmem y hy)) r' hr'
  exact ⟨r', r, hr', hr⟩

end RelAlgebra.Store
