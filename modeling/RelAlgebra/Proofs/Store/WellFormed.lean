/-
Type soundness of whole programs. If a program makes its relations from
rows that are checked against a header, and from queries over these, then
every relation it has comes to a well-formed one, or to a failure; so does
every query over them, whatever was read before.
-/
import RelAlgebra.Proofs.Algebra.WellFormed
import RelAlgebra.Proofs.Store.Transparency

namespace RelAlgebra

-- ======================================================= constructions

/-- Whether literal rows are checked against their header; rows that are
taken as they are come without any promise. -/
def Construction.isChecked {ρ : Type} : Construction ρ → Bool
  | .ofResolved _ => false
  | _ => true

/-- Whether the step makes no relation from unchecked rows. -/
def Step.isChecked : Step → Bool
  | .define _ made => made.isChecked
  | _ => true

namespace Construction

variable {ρ ρ' : Type}

/-- Whether rows are checked does not depend on names. -/
theorem isChecked_of_mapRelations? {f : ρ → Option ρ'}
    {made : Construction ρ} {made' : Construction ρ'}
    (h : made.mapRelations? f = some made') :
    made'.isChecked = made.isChecked := by
  cases made with
  | ofQuery q =>
      obtain ⟨q', -, hmade⟩ := Option.bind_eq_some_iff.1 h
      cases hmade
      rfl
  | _ =>
      cases h
      rfl

/-- A construction that checks its rows makes a well-formed relation from
well-formed ones. -/
theorem yields_wellFormed {below : ρ → Outcome}
    (hbelow : ∀ i, Yields Resolved.WellFormed (below i))
    {made : Construction ρ} (hmade : made.isChecked = true) :
    Yields Resolved.WellFormed (made.outcome below) := by
  cases made with
  | ofRows attributes rows =>
      refine Yields.bind (P := fun _ => True) (fun _ _ => trivial)
        fun header _ => Yields.ok (.of_fits fun t ht => ?_)
      obtain ⟨row, hrow, rfl⟩ := List.mem_map.1 (Tuples.mem_of_mem_ofList ht)
      exact Tuple.fits_ofPairs (List.mem_filter.1 hrow).2
  | ofMaps attributes rows =>
      refine Yields.bind (P := fun _ => True) (fun _ _ => trivial)
        fun header _ => Yields.ok (.of_fits fun t ht => ?_)
      obtain ⟨row, hrow, rfl⟩ := List.mem_map.1 (Tuples.mem_of_mem_ofList ht)
      exact Tuple.fits_project_names (List.mem_filter.1 hrow).2
  | ofResolved r => cases hmade
  | ofQuery q => exact (Query.yields_wellFormed hbelow q).mapError

end Construction

/-- A step that checks its rows keeps relations well formed. -/
theorem Step.keeps_wellFormed {step : Step} (h : step.isChecked = true) :
    step.Keeps (Yields Resolved.WellFormed) := by
  cases step with
  | define name made =>
      intro ρ find? below made' hmade hbelow
      have hchecked : made'.isChecked = true :=
        (Construction.isChecked_of_mapRelations? hmade).trans h
      exact made'.yields_wellFormed hbelow hchecked
  | clone name source => trivial
  | read r => trivial

-- ============================================================ programs

/-- Type soundness: after a program that checks its rows, every query that
succeeds has a well-formed result. -/
theorem Session.execute_wellFormed (finish : Digest.Finish)
    (program : List Step) (hprogram : ∀ step ∈ program, step.isChecked = true)
    (q : Query String) (r : Resolved)
    (hr : (ask finish (.execute q) (after finish program)).value
      = some (.result (.ok r))) :
    r.WellFormed := by
  have hsound : ∀ i, Yields Resolved.WellFormed
      ((Archive.ofProgram program).history.outcome i) :=
    Archive.outcome_ofProgram fun step hmem =>
      Step.keeps_wellFormed (hprogram step hmem)
  rw [ask_after] at hr
  obtain ⟨r', hread, hanswer⟩ := Option.map_eq_some_iff.1 hr
  obtain ⟨q', -, hq'⟩ := Option.bind_eq_some_iff.1 hread
  cases hq'
  injection hanswer with heval
  exact Query.yields_wellFormed hsound q' r heval

/-- A quotient of checked rows is well formed. -/
theorem Session.execute_wellFormed_pairing :
    ∃ r, (ask (fun _ => 0)
          (.execute (.binary .divide (.relation "p") (.relation "s")))
          (after (fun _ => 0) (pairing []))).value
        = some (.result (.ok r))
      ∧ r.WellFormed :=
  ⟨_, rfl, execute_wellFormed (fun _ => 0) (pairing []) (by decide)
    (.binary .divide (.relation "p") (.relation "s")) _ rfl⟩

end RelAlgebra
