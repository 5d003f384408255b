/-
Laws of the algebra, as they show when queries are run on a store: two
queries over the same relations compared by their results. Selections become
set operations and go below joins, projections collapse into one, and a
renaming is undone by another. Running a query gives what evaluating it over
the outcomes of the relations gives, so each law comes down to one about the
operators.
-/
import RelAlgebra.Proofs.Algebra.PlanFailures
import RelAlgebra.Proofs.Algebra.Projection
import RelAlgebra.Proofs.Algebra.Pushdown
import RelAlgebra.Proofs.Algebra.Renaming
import RelAlgebra.Proofs.Store.Joins

namespace RelAlgebra.Store

variable {n : Nat}

-- ========================================================== selections

/-- Selection turns connectives of predicates into set operations. Both
sides of each law succeed or both fail; where they succeed, conjunction and
negation give the very rows of the set operation in their order, and
disjunction gives them in another order. -/
theorem execute_select_connectives (s : Store n) (b : Query (Fin n))
    (p q : Predicate) :
    let result := fun query : Query (Fin n) => (execute query s).value
    let selected := fun p => QueryTree.unary (.select p) b
    EndsAlike (fun x y => x = y) (result (selected (p.and q)))
        (result (.binary (.basic .intersect) (selected p) (selected q)))
      ∧ EndsAlike (fun x y => x = y) (result (selected p.not))
        (result (.binary (.basic .subtract) b (selected p)))
      ∧ EndsAlike (fun x y => x.header = y.header
            ∧ x.tuples.rows.Perm y.tuples.rows)
        (result (selected (p.or q)))
        (result (.binary (.basic .union) (selected p) (selected q))) := by
  simp only [value_execute, Query.eval, QueryTree.evalWith]
  cases QueryTree.evalWith BinaryOperator.apply
      (fun i => (s.outcome i).mapError .relation) b with
  | error e => exact ⟨.error, .error, .error⟩
  | ok r => exact ⟨r.select_and p q, r.select_not p, r.select_or p q⟩

/-- Selection can be pushed below a join. Where selecting from the left side
succeeds, the predicate reads names of that side only, and then selecting from
the natural join comes to what joining the selected rows comes to. If the
headers are compatible, both succeed, with the pairs of agreeing rows of which
the left row is selected, merged in the order of the join; if not, both fail
for all attributes at odds. -/
theorem execute_select_naturalJoin (s : Store n) (p q : Query (Fin n))
    (l r k : Resolved) (c : Predicate) (hp : (execute p s).value = .ok l)
    (hq : (execute q s).value = .ok r) (hl : l.WellFormed)
    (hr : r.WellFormed)
    (hk : (execute (.unary (.select c) p) s).value = .ok k) :
    let result := fun query : Query (Fin n) => (execute query s).value
    let join := QueryTree.binary (ρ := Fin n) (.basic .naturalJoin)
    let selectedFirst := result (join (.unary (.select c) p) q)
    result (.unary (.select c) (join p q)) = selectedFirst
      ∧ (l.header.Compatible r.header →
          ∃ x, selectedFirst = .ok x
            ∧ x.header.attributes = l.header.attributes
              ++ r.header.attributes.filter (fun a => a.name ∉ l.header.names)
            ∧ x.tuples.rows
              = ((l.agreeingPairs r).filter fun a => c.holds a.1).map
                  fun a => a.1.merge a.2)
      ∧ (¬l.header.Compatible r.header →
          selectedFirst
            = .error (.incompatibleAttributes (l.header.clashes r.header))) := by
  intro result join selectedFirst
  rw [value_execute_unary, hp] at hk
  have hc : c.AppliesTo l := Resolved.select_isOk_iff.1 ⟨k, hk⟩
  have hfirst : selectedFirst = (l.chosen c).naturalJoin r := by
    show (execute _ s).value = _
    rw [value_execute_binary, value_execute_unary, hp, hq]
    show (l.select c >>= fun x => x.naturalJoin r) = _
    rw [Resolved.select_of_appliesTo hc]
    rfl
  rw [hfirst]
  refine ⟨?_, fun hcompatible => ?_, fun hincompatible => ?_⟩
  · show (execute _ s).value = _
    rw [value_execute_unary, value_execute_binary, hp, hq]
    exact Resolved.select_naturalJoin hl hr hc
  · refine ⟨(l.joined r).chosen c, ?_, Header.attributes_joined _ _,
      Resolved.rows_chosen_joined hl hr hc.names⟩
    rw [← Resolved.joined_chosen hl hr hc.names]
    exact Resolved.naturalJoin_of_compatible hcompatible
  · rw [← Header.conflicts_eq_clashes]
    exact Resolved.naturalJoin_of_not_compatible hincompatible

/-- Whether one divided by `x` is above zero, which tells the zeros
apart. -/
def reciprocalAboveZero : Predicate :=
  .comparison .gt
    (.numeric (.arithmetic .div (.member (.literal (.float 1.0)))
      (.member (.attribute "x"))))
    (.member (.literal (.float 0.0)))

/-- The zeros of the two sides agree, and the predicate is asked about that of
the left side; with text for numbers nothing is joined. -/
theorem execute_select_naturalJoin_zeros :
    let c := reciprocalAboveZero
    let select := QueryTree.unary (β := BinaryOperator) (ρ := Fin 3) (.select c)
    let join := QueryTree.binary (ρ := Fin 3) (.basic .naturalJoin)
    let s : Store 3 := ((Store.empty.push (.resolved sideXY)).push
      (.resolved sideXZ)).push (.resolved labelsY)
    let result := fun query => (execute query s).value
    (∃ x, result (select (join (.relation 0) (.relation 1))) = .ok x
        ∧ result (join (select (.relation 0)) (.relation 1)) = .ok x
        ∧ x.tuples.size = 1)
      ∧ result (select (join (.relation 0) (.relation 2)))
        = .error (.incompatibleAttributes
            [(⟨"y", .optional .float⟩, ⟨"y", .required .string⟩)]) := by
  intro c select join s result
  have hselects : (result (select (.relation 0))).toBool = true := by
    decide +kernel
  obtain ⟨k, hk⟩ : ∃ k, result (select (.relation 0)) = .ok k := by
    cases h : result (select (.relation 0)) with
    | ok k => exact ⟨k, rfl⟩
    | error e => rw [h] at hselects; cases hselects
  constructor
  · obtain ⟨hpushed, hboth, -⟩ := execute_select_naturalJoin s (.relation 0)
      (.relation 1) sideXY sideXZ k c rfl rfl (Resolved.wellFormed_ofRows _ _)
      (Resolved.wellFormed_ofRows _ _) hk
    obtain ⟨x, hx, -, hrows⟩ := hboth (Header.conflicts_eq_nil_iff.1 rfl)
    refine ⟨x, hpushed.trans hx, hx, ?_⟩
    rw [Tuples.size, hrows]
    decide +kernel
  · obtain ⟨hpushed, -, hneither⟩ := execute_select_naturalJoin s
      (.relation 0) (.relation 2) sideXY labelsY k c rfl rfl
      (Resolved.wellFormed_ofRows _ _) (Resolved.wellFormed_ofRows _ _) hk
    refine hpushed.trans (hneither fun hc => ?_)
    have hnone := Header.conflicts_eq_nil_iff.2 hc
    cases hnone

-- ========================================================== projections

/-- Projections cascade. Projecting on different names, and the result on some
of them, in any order, is projecting on the latter at once: the same header,
with the attributes that they name, and the shortened rows, of equal ones the
first, in the order of their first occurrence. The rows need not fit the
header. If they do, projecting on all names in any order lists the attributes
in that order and leaves the rows as they are. -/
theorem execute_project_project (s : Store n) (p : Query (Fin n))
    (r : Resolved) (hp : (execute p s).value = .ok r) :
    let result := fun query : Query (Fin n) => (execute query s).value
    let project := fun names =>
      QueryTree.unary (β := BinaryOperator) (ρ := Fin n) (.project names)
    (∀ names names' : List String, names ≠ [] → names.Nodup → names'.Nodup →
        (∀ name ∈ names, name ∈ names') →
        (∀ name ∈ names', name ∈ r.header.names) →
        ∃ x, result (project names p) = .ok x
          ∧ result (project names (project names' p)) = .ok x
          ∧ x.header.names = names
          ∧ (∀ a ∈ x.header.attributes, a ∈ r.header.attributes)
          ∧ x.tuples.rows
            = (r.tuples.rows.map fun t => t.project names).eraseDups)
      ∧ (r.WellFormed → ∀ names : List String, names.Perm r.header.names →
          ∃ x, result (project names p) = .ok x
            ∧ x.header.names = names
            ∧ (∀ a ∈ x.header.attributes, a ∈ r.header.attributes)
            ∧ x.tuples.rows = r.tuples.rows) := by
  simp only [value_execute_unary, hp]
  refine ⟨fun names names' hsome hdiffer hdiffer' hsub hsub' => ?_,
    fun hr names hperm => ?_⟩
  · obtain ⟨m, rfl, hattributes, honce, htwice⟩ :=
      Resolved.exists_project_project hsome hdiffer hdiffer' hsub hsub'
    exact ⟨_, honce, htwice, rfl, hattributes, Tuples.rows_ofList _⟩
  · obtain ⟨m, hnames, hattributes, hall⟩ :=
      Resolved.exists_project_of_perm hr hperm
    exact ⟨_, hall, hnames, hattributes, rfl⟩

/-- Rows that do not fit: one lacks a name, the other two have a name too
many. -/
def unfitXY : Resolved :=
  ⟨sideXY.header, .ofList [.ofPairs [("x", .float 0.0)],
    .ofPairs [("x", .float (-0.0)), ("y", .null), ("z", .null)],
    .ofPairs [("x", .float 0.0), ("y", .float 1.5), ("z", .null)]]⟩

/-- The first two rows collapse in the first projection already, and the last
one only in the second; the zero of the first row is kept. -/
theorem execute_project_project_zeros :
    let s : Store 2 :=
      (Store.empty.push (.resolved unfitXY)).push (.resolved sideXY)
    let result := fun query : Query (Fin 2) => (execute query s).value
    let project := fun names =>
      QueryTree.unary (β := BinaryOperator) (ρ := Fin 2) (.project names)
    (∃ x, result (project ["x"] (.relation 0)) = .ok x
        ∧ result (project ["x"] (project ["y", "x"] (.relation 0))) = .ok x
        ∧ x.tuples.rows = [.ofPairs [("x", .float 0.0)]])
      ∧ ∃ x, result (project ["y", "x"] (.relation 1)) = .ok x
        ∧ x.tuples.rows = sideXY.tuples.rows := by
  intro s result project
  constructor
  · obtain ⟨x, honce, htwice, -, -, hrows⟩ :=
      (execute_project_project s (.relation 0) unfitXY rfl).1 ["x"]
        ["y", "x"] (by decide) (by decide) (by decide) (by decide) (by decide)
    exact ⟨x, honce, htwice, hrows.trans rfl⟩
  · obtain ⟨x, hx, -, -, hrows⟩ :=
      (execute_project_project s (.relation 1) sideXY rfl).2
        (Resolved.wellFormed_ofRows _ _) ["y", "x"] (.swap ..)
    exact ⟨x, hx, hrows⟩

-- ========================================================== renamings

/-- Renaming gives an attribute another name and loses nothing. It fails for a
name that the header lacks, and for a new name that another attribute has. On
well-formed rows, where it does not fail, the attribute keeps its place and
type, every row has the value of the old name under the new one and all others
as they were, and renaming back restores the relation. -/
theorem execute_rename (s : Store n) (p : Query (Fin n)) (r : Resolved)
    (old new : String) (hp : (execute p s).value = .ok r) :
    let result := fun query : Query (Fin n) => (execute query s).value
    let renamed := QueryTree.unary (β := BinaryOperator) (.rename new old) p
    (∀ e, result renamed = .error e
        ↔ old ∉ r.header.names ∧ e = .unknownAttributes [old]
          ∨ old ∈ r.header.names ∧ new ≠ old ∧ new ∈ r.header.names
            ∧ e = .header (.duplicates [new]))
      ∧ (r.WellFormed → old ∈ r.header.names →
          new = old ∨ new ∉ r.header.names →
          ∃ x, result renamed = .ok x
            ∧ x.header.attributes = r.header.attributes.map (fun a =>
              if a.name = old then { a with name := new } else a)
            ∧ x.header.position? new = r.header.position? old
            ∧ List.Forall₂ (fun t u => ∀ name, u.get? name
                = if name = new then t.get? old
                  else if name = old then none
                  else t.get? name) r.tuples.rows x.tuples.rows
            ∧ result (.unary (.rename old new) renamed) = .ok r) := by
  simp only [value_execute_unary, hp]
  refine ⟨fun e => Resolved.rename_eq_error_iff, fun hr hold hfree => ?_⟩
  refine ⟨r.relabel (exchange old new), Resolved.rename_of_free hr hold hfree,
    (Header.map_renamed hfree).symm, ?_,
    Resolved.forall₂_relabel_exchange hr hfree,
    Resolved.rename_rename hr hold hfree⟩
  have hplace := r.header.position?_relabel (f := exchange old new) old
  rwa [exchange_old] at hplace

/-- The second column gets a name that sorts first, and stays the second. -/
theorem execute_rename_sideXY :
    let s : Store 1 := Store.empty.push (.resolved sideXY)
    let result := fun query : Query (Fin 1) => (execute query s).value
    let rename := fun new old =>
      QueryTree.unary (β := BinaryOperator) (ρ := Fin 1) (.rename new old)
    result (rename "y" "a" (rename "a" "y" (.relation 0))) = .ok sideXY
      ∧ (∃ x, result (rename "a" "y" (.relation 0)) = .ok x
        ∧ x.header.names = ["x", "a"] ∧ x.tuples.size = sideXY.tuples.size)
      ∧ result (rename "x" "y" (.relation 0))
        = .error (.header (.duplicates ["x"]))
      ∧ result (rename "x" "z" (.relation 0))
        = .error (.unknownAttributes ["z"]) := by
  intro s result rename
  have hlaw := fun new old =>
    execute_rename s (.relation 0) sideXY old new rfl
  obtain ⟨x, hx, hattributes, -, hrows, hback⟩ :=
    (hlaw "a" "y").2 (Resolved.wellFormed_ofRows _ _) (by decide)
      (.inr (by decide))
  have hnames : x.header.names = ["x", "a"] := by
    rw [Header.names, hattributes]
    decide
  exact ⟨hback, ⟨x, hx, hnames, hrows.length_eq.symm⟩,
    ((hlaw "x" "y").1 _).2 (.inr ⟨by decide, by decide, by decide, rfl⟩),
    ((hlaw "x" "z").1 _).2 (.inl ⟨by decide, rfl⟩)⟩

end RelAlgebra.Store
