/-
Running a query on a database whose names are replaced, one to one. The run
succeeds exactly if it did before the names were replaced, with the same
rows and attributes but for the names, in the same order; and it fails with
the same error but for the names.
-/
import Mathlib.Logic.Equiv.Basic
import RelAlgebra.Proofs.Algebra.Relabelling
import RelAlgebra.Proofs.Store.RowOrder

namespace RelAlgebra.Store

variable {n : Nat}

/-- Names of attributes are only labels: replacing them in the relations
and in the query replaces them in the result, or in the error. -/
theorem execute_relabel (f : String ↪ String) (s s' : Store n)
    (q : Query (Fin n)) (a : Fin n → Resolved)
    (ha : ∀ i ∈ q.leaves, s.get i = .resolved (a i))
    (ha' : ∀ i ∈ q.leaves, s'.get i = .resolved ((a i).relabel f)) :
    ((∃ r, (execute q s).value = .ok r)
        ↔ ∃ r, (execute (q.relabel f) s').value = .ok r)
      ∧ (∀ r, (execute q s).value = .ok r →
          (execute (q.relabel f) s').value = .ok (r.relabel f))
      ∧ ∀ e, (execute q s).value = .error e →
          ∃ e', (execute (q.relabel f) s').value = .error e'
            ∧ e.Relabels f e' := by
  have hends : Resolved.Relabels f (q.eval s.outcome)
      ((q.relabel f).eval s'.outcome) :=
    Query.relabels_eval fun i hi =>
      ⟨a i, outcome_of_get (ha i hi), outcome_of_get (ha' i hi)⟩
  rw [← value_execute, ← value_execute] at hends
  generalize (execute q s).value = result at hends ⊢
  generalize (execute (q.relabel f) s').value = result' at hends ⊢
  cases hends with
  | ok h =>
      subst h
      refine ⟨⟨fun _ => ⟨_, rfl⟩, fun _ => ⟨_, rfl⟩⟩, fun r hr => ?_, nofun⟩
      cases hr
      rfl
  | left h => exact h.elim
  | right h => exact h.elim
  | both h =>
      refine ⟨⟨nofun, nofun⟩, nofun, fun e he => ?_⟩
      cases he
      exact ⟨_, rfl, h⟩

/-- A relation of two rows with two columns. -/
def points : Resolved :=
  ⟨⟨[⟨"x", .required .integer⟩, ⟨"y", .required .integer⟩], by decide,
      by decide⟩,
    .ofList [Tuple.ofPairs [("x", .integer 1), ("y", .integer 2)],
      Tuple.ofPairs [("x", .integer 4), ("y", .integer 3)]]⟩

/-- The names of these columns swapped. -/
def swapped : String ↪ String := (Equiv.swap "x" "y").toEmbedding

/-- The smaller coordinate is listed second where the columns are
swapped. -/
theorem execute_relabel_points :
    let q : Query (Fin 1) :=
      .unary (.select (.comparison .lt (.member (.attribute "x"))
        (.member (.attribute "y")))) (.relation 0)
    let s := Store.push .empty (.resolved (points.relabel swapped))
    ∃ r, (execute (q.relabel swapped) s).value = .ok r
      ∧ r.header.names = ["y", "x"]
      ∧ r.tuples.rows
        = [Tuple.ofPairs [("x", .integer 2), ("y", .integer 1)]] := by
  intro q s
  have hresult := (execute_relabel swapped
    (Store.push .empty (.resolved points)) s q (fun _ => points)
    (fun i _ => by cases i using Fin.cases <;> rfl)
    (fun i _ => by cases i using Fin.cases <;> rfl)).2.1 _ rfl
  exact ⟨_, hresult, rfl, rfl⟩

end RelAlgebra.Store
