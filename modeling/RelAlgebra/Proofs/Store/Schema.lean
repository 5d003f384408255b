/-
Running one query on two databases with the same schema: stores whose
relations have the same headers, with whatever rows. The results have one
header. If one run fails on headers, the other does not come to a result: it
fails with the same error, or on values. Where it would fail on the values
that it sorts by, the sort may give up, and then there is no error.
-/
import RelAlgebra.Proofs.Algebra.Schema
import RelAlgebra.Proofs.Store.Ordering

namespace RelAlgebra

/-- An error about headers in one of two related runs is met in the other, as
long as that one is not given up. -/
theorem Tolerance.schema_met {α : Type} {R : α → α → Prop}
    {x y : Attempt QueryError α} {x' y' : Except QueryError α}
    (h : schema.Relates R x' y') (hx : x.Follows (∃ v, · = .value v) x')
    (hy : y.Follows (∃ v, · = .value v) y') {e : QueryError}
    (he : x = .error e) (hschema : e.isSchema = true) :
    (∃ e', y = .error e' ∧ (e' = e ∨ e'.isData = true)) ↔ y ≠ .gaveUp := by
  have hvalue : ¬∃ v, e = .value v := by
    rintro ⟨v, rfl⟩
    cases hschema
  obtain ⟨e', hy', hmet⟩ := schema_error h (hx.eq_error he hvalue) hschema
  rcases hy.of_error hy' with ⟨e'', hends, rfl | ⟨v, rfl⟩⟩ | hends
  · exact iff_of_true ⟨e'', hends, hmet⟩ (hends ▸ nofun)
  · exact iff_of_true ⟨.value v, hends, .inr rfl⟩ (hends ▸ nofun)
  · exact iff_of_false (fun ⟨_, herror, _⟩ => nomatch hends.symm.trans herror)
      fun hne => hne hends

namespace Store

variable {n : Nat}

/-- The schema of a query is independent of the data, and of the sorts. Two
runs that come to rows have one header. Where one of them fails with an error
about headers, the other does not come to rows: it fails too, with that error
or with one about values, exactly if its sort does not give up. The sort gives
up only where inserting the rows one by one fails on values; so a run that
inserts them fails as it should. -/
theorem execute_schema (sort sort' : StableSort) (s s' : Store n)
    (q : Query (Fin n)) (a b : Fin n → Resolved)
    (ha : ∀ i ∈ q.leaves, s.get i = .resolved (a i))
    (hb : ∀ i ∈ q.leaves, s'.get i = .resolved (b i))
    (hheader : ∀ i ∈ q.leaves, (a i).header = (b i).header) :
    let result := s.executeWith sort q
    let result' := s'.executeWith sort' q
    (∀ r r', result = .ok r → result' = .ok r' → r.header = r'.header)
      ∧ (∀ e, result = .error e → e.isSchema = true →
          ((∃ e', result' = .error e' ∧ (e' = e ∨ e'.isData = true))
            ↔ result' ≠ .gaveUp))
      ∧ (∀ e, result' = .error e → e.isSchema = true →
          ((∃ e', result = .error e' ∧ (e' = e ∨ e'.isData = true))
            ↔ result ≠ .gaveUp))
      ∧ (result' = .gaveUp → ∃ v, (execute q s').value = .error (.value v))
      ∧ ∀ e, (execute q s).value = .error e → e.isSchema = true →
          ∃ e', (execute q s').value = .error e'
            ∧ (e' = e ∨ e'.isData = true) := by
  intro result result'
  have hends : Tolerance.schema.Relates Resolved.SameHeader
      (execute q s).value (execute q s').value := by
    rw [value_execute, value_execute]
    exact Query.relates_schema fun i hi =>
      ⟨a i, b i, outcome_of_get (ha i hi), outcome_of_get (hb i hi),
        hheader i hi⟩
  have hresult := s.follows_executeWith_of_resolved q sort ha
  have hresult' := s'.follows_executeWith_of_resolved q sort' hb
  refine ⟨fun r r' hr hr' => ?_, fun e he => ?_, fun e he => ?_,
    fun hgaveUp => ?_, fun e => Tolerance.schema_error hends⟩
  · rw [hresult.eq_ok_iff.1 hr, hresult'.eq_ok_iff.1 hr'] at hends
    cases hends with
    | ok h => exact h
  · exact Tolerance.schema_met hends hresult hresult' he
  · exact Tolerance.schema_met (Tolerance.schema_swap hends) hresult' hresult he
  · obtain ⟨e, he, v, rfl⟩ := hresult'.of_gaveUp hgaveUp
    exact ⟨v, he⟩

/-- A name that is missing is reported for one number, which needs no
sorting; with a number that is none, sorting may fail first. -/
theorem execute_schema_column :
    let q : Query (Fin 1) :=
      .unary (.project ["z"])
        (.unary (.orderBy [⟨"x", .ascending⟩]) (.relation 0))
    let s := Store.push .empty (.resolved (column [1.5]))
    let s' := Store.push .empty (.resolved (column [1.5, 0.0 / 0.0]))
    s.executeWith StableSort.adaptive q = .error (.unknownAttributes ["z"])
      ∧ ∃ e, s'.executeWith StableSort.adaptive q = .error e
        ∧ (e = .unknownAttributes ["z"] ∨ e.isData = true) := by
  intro q s s'
  have hfails : s.executeWith StableSort.adaptive q
      = .error (.unknownAttributes ["z"]) := rfl
  have hends : (s'.executeWith StableSort.adaptive q).isGaveUp = false := by
    decide +kernel
  obtain ⟨-, hmet, -⟩ := execute_schema .adaptive .adaptive s s' q
    (fun _ => column [1.5]) (fun _ => column [1.5, 0.0 / 0.0])
    (fun i _ => by cases i using Fin.cases <;> rfl)
    (fun i _ => by cases i using Fin.cases <;> rfl) fun _ _ =>
      header_column _ _
  refine ⟨hfails, (hmet _ hfails rfl).2 fun hgaveUp => ?_⟩
  rw [Attempt.isGaveUp_iff.2 hgaveUp] at hends
  cases hends

/-- Of one row the missing name is reported; over rows that the sort gives up
on there is no error at all. -/
theorem not_execute_schema :
    let q : Query (Fin 1) :=
      .unary (.project ["z"]) (.unary
        (.orderBy [⟨"x", .ascending⟩, ⟨"y", .ascending⟩]) (.relation 0))
    let s := Store.push .empty (.resolved (columnsXY [(3.0, 0.0)]))
    let s' := Store.push .empty (.resolved (columnsXY stuckXY))
    (columnsXY [(3.0, 0.0)]).header = (columnsXY stuckXY).header
      ∧ s.executeWith StableSort.adaptive q
        = .error (.unknownAttributes ["z"])
      ∧ s'.executeWith StableSort.adaptive q = .gaveUp := by
  intro q s s'
  refine ⟨rfl, rfl, Attempt.isGaveUp_iff.1 ?_⟩
  decide +kernel

end Store

end RelAlgebra
