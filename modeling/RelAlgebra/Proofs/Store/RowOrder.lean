/-
Running queries on stores whose relations have the same rows in different
orders. Where equal floats have the same bits, a query ends alike on both
stores: with the same header and the same set of rows, or in a failure.
-/
import RelAlgebra.Proofs.Algebra.RowOrder
import RelAlgebra.Proofs.Store.Outcome

namespace RelAlgebra

/-- Whether the float occurs in a row. -/
def Resolved.HasFloat (r : Resolved) (x : Float) : Prop :=
  ∃ t ∈ r.tuples.rows, ∃ name, t.get? name = some (.float x)

/-- Whether the value is one of these floats, if it is a float. -/
def Value.FloatIn (F : Float → Prop) (value : Value) : Prop :=
  ∀ x, value = .float x → F x

/-- Values without other floats than these are discerning, if these floats
have the same bits as soon as they are equal. -/
theorem discerning_floatIn {F : Float → Prop}
    (hF : ∀ x y, F x → F y → (Value.float x == Value.float y) = true →
      x.toBits = y.toBits) : Discerning (Value.FloatIn F) where
  null := by
    intro x h
    cases h
  eq_of_beq := by
    intro v w hv hw h
    refine Value.eq_of_beq h ?_
    cases v with
    | float x =>
        cases w with
        | float y =>
            have hbits := hF x y (hv x rfl) (hw y rfl) h
            rw [Binary64.eq_of_toBits_eq hbits]
        | _ => cases h
    | _ => cases w <;> first | rfl | cases h

namespace Store

variable {n : Nat}

/-- A cell that holds rows stands for them. -/
theorem outcome_of_get {s : Store n} {i : Fin n} {r : Resolved}
    (h : s.get i = .resolved r) : s.outcome i = .ok r := by
  rw [outcome_get, h]
  rfl

/-- Running a query does not depend on the order of the rows it reads. -/
theorem execute_rowOrder (s s' : Store n) (q : Query (Fin n))
    (a b : Fin n → Resolved) (ha : ∀ i ∈ q.leaves, s.get i = .resolved (a i))
    (hb : ∀ i ∈ q.leaves, s'.get i = .resolved (b i))
    (hheader : ∀ i ∈ q.leaves, (a i).header = (b i).header)
    (hrows : ∀ i ∈ q.leaves, (a i).tuples.rows.Perm (b i).tuples.rows)
    (hfloats : ∀ i ∈ q.leaves, ∀ j ∈ q.leaves, ∀ x y,
      (a i).HasFloat x → (a j).HasFloat y →
      (Value.float x == Value.float y) = true → x.toBits = y.toBits) :
    ((∃ r, (execute q s).value = .ok r) ↔ ∃ r, (execute q s').value = .ok r)
      ∧ ∀ r r', (execute q s).value = .ok r →
          (execute q s').value = .ok r' →
          r.header = r'.header ∧ (r.tuples == r'.tuples) = true := by
  let F := fun x => ∃ i ∈ q.leaves, (a i).HasFloat x
  have hV : Discerning (Value.FloatIn F) := by
    refine discerning_floatIn ?_
    rintro x y ⟨i, hi, hx⟩ ⟨j, hj, hy⟩
    exact hfloats i hi j hj x y hx hy
  have hleaves : ∀ i ∈ q.leaves, EndsAlike
      (Resolved.SameRows (Value.FloatIn F)) (s.outcome i) (s'.outcome i) := by
    intro i hi
    rw [outcome_of_get (ha i hi), outcome_of_get (hb i hi)]
    refine .ok ⟨hheader i hi, fun t => (hrows i hi).mem_iff, ?_⟩
    intro t ht name value hvalue x hx
    exact ⟨i, hi, t, ht, name, hvalue.trans (congrArg some hx)⟩
  have hends := Query.endsAlike_sameRows hV hleaves
  rw [(answers_execute q s rfl).1, (answers_execute q s' rfl).1]
  generalize q.eval s.outcome = result at hends ⊢
  generalize q.eval s'.outcome = result' at hends ⊢
  cases hends with
  | ok h =>
      refine ⟨⟨fun _ => ⟨_, rfl⟩, fun _ => ⟨_, rfl⟩⟩, fun r r' hr hr' => ?_⟩
      cases hr
      cases hr'
      exact ⟨h.header, (Tuples.beq_iff_perm _ _).2 (h.perm.map _)⟩
  | error =>
      refine ⟨⟨fun ⟨_, hr⟩ => ?_, fun ⟨_, hr⟩ => ?_⟩, fun r r' hr => ?_⟩ <;>
        cases hr

/-- A relation of floats, one in a row. -/
def column (xs : List Float) : Resolved :=
  ⟨⟨[⟨"x", .required .float⟩], by decide, by decide⟩,
    .ofList (xs.map fun x => Tuple.ofPairs [("x", .float x)])⟩

theorem header_column (xs ys : List Float) :
    (column xs).header = (column ys).header := rfl

/-- The floats of a column are those it lists. -/
theorem mem_of_hasFloat_column {xs : List Float} {x : Float}
    (h : (column xs).HasFloat x) : x ∈ xs := by
  obtain ⟨t, ht, name, hx⟩ := h
  obtain ⟨y, hy, rfl⟩ := List.mem_map.1 (Tuples.mem_of_mem_ofList ht)
  rw [Tuple.get?_ofPairs (by simp), lookup_cons_eq] at hx
  split at hx
  · cases hx
    exact hy
  · cases hx

/-- Two numbers, which are ordered in either order. -/
theorem execute_rowOrder_column :
    let q : Query (Fin 1) :=
      .unary (.orderBy [⟨"x", .descending⟩]) (.relation 0)
    let s := Store.push .empty (.resolved (column [0.0, 1.5]))
    let s' := Store.push .empty (.resolved (column [1.5, 0.0]))
    ((∃ r, (execute q s).value = .ok r) ↔ ∃ r, (execute q s').value = .ok r)
      ∧ ∀ r r', (execute q s).value = .ok r →
          (execute q s').value = .ok r' →
          r.header = r'.header ∧ (r.tuples == r'.tuples) = true := by
  have hbits : ∀ x ∈ [(0.0 : Float), 1.5], ∀ y ∈ [(0.0 : Float), 1.5],
      (Value.float x == Value.float y) = true → x.toBits = y.toBits := by
    decide +kernel
  exact execute_rowOrder _ _ _ (fun _ => column [0.0, 1.5])
    (fun _ => column [1.5, 0.0]) (fun i _ => by cases i using Fin.cases <;> rfl)
    (fun i _ => by cases i using Fin.cases <;> rfl) (fun _ _ => rfl)
    (fun _ _ => .swap _ _ _) fun _ _ _ _ x y hx hy =>
      hbits x (mem_of_hasFloat_column hx) y (mem_of_hasFloat_column hy)

end Store

end RelAlgebra
