/-
Names in whole programs. If a program makes its relations from rows that
fit their headers, and from queries over these, then no query over them
ever fails for want of a name in a row, nor does a relation that it reads.
The names that the input of an operator lacks end the query as soon as it
comes to that operator, and are reported all together, whatever the rows of
the input.
-/
import RelAlgebra.Proofs.Algebra.Binding
import RelAlgebra.Proofs.Store.WellFormed

namespace RelAlgebra

-- ======================================================= constructions

/-- Whether rows that are taken as they are come fit for their header. -/
def Construction.WellFormed {ρ : Type} : Construction ρ → Prop
  | .ofResolved r => r.WellFormed
  | _ => True

/-- Whether the step makes no relation of unfit rows. -/
def Step.WellFormed : Step → Prop
  | .define _ made => made.WellFormed
  | _ => True

/-- A relation that is made well formed over such relations is one of them. -/
theorem Construction.outcome_bound {ρ : Type} {below : ρ → Outcome}
    (hbelow : ∀ i, (below i).Bound) {made : Construction ρ}
    (hmade : made.WellFormed) : (made.outcome below).Bound := by
  have hyields : ∀ i, Yields Resolved.WellFormed (below i) :=
    fun i => (Concludes.iff.1 (hbelow i)).1
  have hheader : ∀ attributes, Raises
      (fun e : RelationError => e.isUnbound = false)
      ((Header.ofAttributes attributes).mapError .header) :=
    fun _ => Raises.mapError fun _ _ => rfl
  cases made with
  | ofRows attributes rows =>
      exact Concludes.iff.2 ⟨yields_wellFormed hyields rfl,
        (hheader attributes).bind fun _ _ => Raises.ok⟩
  | ofMaps attributes rows =>
      exact Concludes.iff.2 ⟨yields_wellFormed hyields rfl,
        (hheader attributes).bind fun _ _ => Raises.ok⟩
  | ofResolved r => exact .ok hmade
  | ofQuery q =>
      refine Concludes.mapError ?_
      simp only [RelationError.isUnbound_ofQuery]
      exact Query.concludes_bound hbelow q

/-- So every step of a well-formed program keeps them so. -/
theorem Step.keeps_bound {step : Step} (h : step.WellFormed) :
    step.Keeps Outcome.Bound := by
  cases step with
  | define name made =>
      intro ρ find? below made' hmade hbelow
      refine made'.outcome_bound hbelow ?_
      cases made with
      | ofQuery q =>
          obtain ⟨q', -, hq'⟩ := Option.bind_eq_some_iff.1 hmade
          cases hq'
          trivial
      | _ =>
          cases hmade
          exact h
  | clone name source => trivial
  | read r => trivial

-- ============================================================ programs

/-- After a program whose rows fit their headers, queries do not fail for
want of a name in a row. A name that the input of an operator lacks is
reported when a query comes to the operator, together with the others that
it lacks, and for every other rows of the input just so. -/
theorem Session.execute_bound (finish : Digest.Finish) (program : List Step)
    (hprogram : ∀ step ∈ program, step.WellFormed) :
    let s := after finish program
    let result := fun q : Query (Fin s.size) => (Store.execute q s.store).value
    let succeeds := fun q => ∃ r, result q = .ok r
    (∀ q e, result q = .error e → e.isUnbound = false)
      ∧ (∀ q op input r name,
          QueryTree.ComesTo succeeds (.unary op input) q →
          result input = .ok r → name ∈ op.reads → name ∉ r.header.names →
          ∃ names, (∀ m, m ∈ names ↔ m ∈ op.reads ∧ m ∉ r.header.names)
            ∧ (∀ rows, op.apply ⟨r.header, rows⟩
                = .error (.unknownAttributes names))
            ∧ result q = .error (.unknownAttributes names))
      ∧ ∀ q p left right l r header name,
          QueryTree.ComesTo succeeds
            (.binary (.basic (.thetaJoin p)) left right) q →
          result left = .ok l → result right = .ok r →
          l.header.join r.header = .ok header →
          name ∈ p.attributes → name ∉ header.names →
          ∃ names, (∀ m, m ∈ names ↔ m ∈ p.attributes ∧ m ∉ header.names)
            ∧ (∀ rows rows', Resolved.thetaJoin p ⟨l.header, rows⟩
                  ⟨r.header, rows'⟩ = .error (.unknownAttributes names))
            ∧ result q = .error (.unknownAttributes names) := by
  intro s result succeeds
  have hbound : ∀ i, (s.store.outcome i).Bound :=
    (reflects_after finish program).outcome (Archive.outcome_ofProgram
      fun step hmem => Step.keeps_bound (hprogram step hmem))
  have hresult : result = Query.eval s.store.outcome :=
    funext fun q => Store.value_execute s.store q
  rw [show succeeds = fun q => ∃ r, q.eval s.store.outcome = .ok r by
    rw [← hresult], hresult]
  refine ⟨fun q e he => ?_, ?_, ?_⟩
  · exact (Concludes.iff.1 (Query.concludes_bound hbound q)).2 e he
  · intro q op input r name hcomes hinput hname hfree
    refine ⟨_, fun m => Header.mem_missing,
      fun rows => op.apply_of_not_mem (r := ⟨r.header, rows⟩) hname hfree, ?_⟩
    refine hcomes.evalWith_eq_error ?_
    show (Query.eval s.store.outcome input >>= op.apply) = _
    rw [hinput]
    exact op.apply_of_not_mem hname hfree
  · intro q p left right l r header name hcomes hl hr hheader hname hfree
    refine ⟨_, fun m => Header.mem_missing, fun rows rows' =>
      Resolved.thetaJoin_of_not_mem (l := ⟨l.header, rows⟩)
        (r := ⟨r.header, rows'⟩) hheader hname hfree, ?_⟩
    refine hcomes.evalWith_eq_error ?_
    show (Query.eval s.store.outcome left >>= fun a =>
      Query.eval s.store.outcome right >>= fun b => a.thetaJoin p b) = _
    rw [hl, hr]
    exact Resolved.thetaJoin_of_not_mem hheader hname hfree

/-- A selection from the pairs of two relations reads a name that they have
and two that they lack. -/
theorem Session.execute_bound_pairing :
    let s := after (fun _ => 0) (pairing [])
    let p : Predicate :=
      .and (.comparison .lt (.member (.attribute "z"))
        (.member (.attribute "x"))) (.member (.attribute "w"))
    let q : Query (Fin s.size) := .unary (.select p) (.relation (2 : Fin 3))
    ∃ names,
      (Store.execute q s.store).value = .error (.unknownAttributes names)
      ∧ (∀ m, m ∈ names ↔ m ∈ ["w", "x", "z"] ∧ m ∉ ["x", "y"])
      ∧ (QueryError.unknownAttributes names).isUnbound = false := by
  intro s p q
  have hprogram : ∀ step ∈ pairing [], step.WellFormed := by
    intro step hstep
    simp only [pairing, List.append_nil, List.cons_append, List.nil_append,
      List.mem_cons, List.not_mem_nil, or_false] at hstep
    rcases hstep with rfl | rfl | rfl <;> trivial
  obtain ⟨hbound, hmissing, -⟩ :=
    execute_bound (fun _ => 0) (pairing []) hprogram
  obtain ⟨names, hnames, -, hq⟩ :=
    hmissing q (.select p) _ _ "z" .here rfl (by decide) (by decide)
  exact ⟨names, hq, hnames, hbound q _ hq⟩

end RelAlgebra
