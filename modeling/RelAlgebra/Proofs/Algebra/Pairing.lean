/-
Joins and products told by pairs of rows. The pairs run through the left
rows, and for each of them through the right rows. A natural join merges the
pairs that agree on every name that both headers have, a product merges all
pairs. Of well-formed relations no two merged rows are equal, so there are as
many rows as pairs; and a product is the join of relations that have no name
in common. For the same reason a theta join, which tests the merged rows
before they are collected, tests the rows of the natural join in their order:
it is a selection over it, failures included. Dividing a product by its right
side gives the left side back, as the columns that are taken away are those
that were added, and every row of the left side is paired with all of them.
-/
import Mathlib.Data.List.ProdSigma
import RelAlgebra.Proofs.Algebra.Division

namespace RelAlgebra

/-- Taking the attributes of `k` away from those of `h` and `k` leaves those
of `h`. -/
theorem Header.remainder_joined {h k : Header}
    (hdisjoint : ∀ name ∈ h.names, name ∉ k.names)
    (hproper : ∃ name ∈ (h.joined k).names, name ∉ k.names) :
    (h.joined k).remainder k hproper = h := by
  have hleft : ∀ a ∈ h.attributes, (!k.contains a.name) = true :=
    fun a ha => not_contains_iff.2 (hdisjoint _ (mem_names_of_mem ha))
  have hright : ∀ a ∈ k.attributes, ¬(!k.contains a.name) = true :=
    fun a ha => not_contains_iff.not.2 fun h => h (mem_names_of_mem ha)
  refine ext_attributes ?_
  show (h.joined k).attributes.filter (fun a => !k.contains a.name) = _
  rw [attributes_joined_of_disjoint hdisjoint, List.filter_append,
    List.filter_eq_self.2 hleft, List.filter_eq_nil_iff.2 hright,
    List.append_nil]

namespace Resolved

variable {l r : Resolved}

/-- The pairs of a row of `l` and a row of `r` that have equal values under
every name that both relations have. -/
def agreeingPairs (l r : Resolved) : List (Tuple × Tuple) :=
  (l.tuples.rows ×ˢ r.tuples.rows).filter fun p =>
    ∀ name ∈ l.header.names, name ∈ r.header.names →
      (p.1.get? name == p.2.get? name) = true

/-- The joined rows are the agreeing pairs, merged. -/
theorem joinedRows_eq_map (l r : Resolved) :
    l.joinedRows r = (l.agreeingPairs r).map fun p => p.1.merge p.2 := by
  unfold joinedRows agreeingPairs
  show _ = ((l.tuples.rows.flatMap fun t =>
    r.tuples.rows.map (Prod.mk t)).filter _).map _
  rw [List.filter_flatMap, List.map_flatMap]
  refine List.flatMap_congr fun t _ => ?_
  rw [List.filter_map, List.map_map]
  refine congrArg (List.map t.merge) (List.filter_congr fun u _ => ?_)
  rw [Bool.eq_iff_iff, Tuple.agreeOn_iff, Function.comp_apply,
    decide_eq_true_iff]
  simp only [Header.mem_names_overlap, and_imp]

/-- The rows of a pair that agrees fit their headers, and match. -/
theorem fits_of_mem_agreeingPairs (hl : l.WellFormed) (hr : r.WellFormed)
    {p : Tuple × Tuple} (hp : p ∈ l.agreeingPairs r) :
    p.1.Fits l.header ∧ p.2.Fits r.header ∧ p.1.Matches p.2 := by
  obtain ⟨hmem, hagree⟩ := List.mem_filter.1 hp
  obtain ⟨hleft, hright⟩ := List.pair_mem_product.1 hmem
  have ht := hl.fits p.1 hleft
  have hu := hr.fits p.2 hright
  refine ⟨ht, hu, fun name value value' hvalue hvalue' => ?_⟩
  rw [← Tuple.beq_get?_of_some hvalue hvalue']
  exact decide_eq_true_iff.1 hagree name (ht.mem_names hvalue)
    (hu.mem_names hvalue')

/-- No two pairs merge into equal rows, so there are as many rows as pairs. -/
theorem size_joined (hl : l.WellFormed) (hr : r.WellFormed) :
    (l.joined r).tuples.size = (l.agreeingPairs r).length := by
  rw [Tuples.size, rows_joined hl hr, joinedRows_eq_map, List.length_map]

-- ========================================================= theta joins

/-- A theta join is a selection from the natural join. -/
theorem thetaJoin_of_compatible (hl : l.WellFormed) (hr : r.WellFormed)
    (hc : l.header.Compatible r.header) (p : Predicate) :
    l.thetaJoin p r = (l.joined r).select p := by
  unfold thetaJoin select Tuples.filterM
  rw [Header.join_of_compatible hc, rows_joined hl hr]
  rfl

/-- Where names clash it fails as the natural join does, before the predicate
is looked at. -/
theorem thetaJoin_of_not_compatible (hc : ¬l.header.Compatible r.header)
    (p : Predicate) :
    l.thetaJoin p r
      = .error (.incompatibleAttributes (l.header.conflicts r.header)) := by
  unfold thetaJoin
  rw [Header.join_of_not_compatible hc]
  rfl

/-- A theta join is a selection over the natural join. -/
theorem thetaJoin_eq_select (hl : l.WellFormed) (hr : r.WellFormed)
    (p : Predicate) :
    l.thetaJoin p r = (do (← l.naturalJoin r).select p) := by
  by_cases hc : l.header.Compatible r.header
  · rw [thetaJoin_of_compatible hl hr hc, naturalJoin_of_compatible hc]
    rfl
  · rw [thetaJoin_of_not_compatible hc, naturalJoin_of_not_compatible hc]
    rfl

-- ============================================================ products

section Disjoint

variable (hdisjoint : ∀ name ∈ l.header.names, name ∉ r.header.names)

include hdisjoint

/-- Without a common name there is nothing to agree on. -/
theorem agreeingPairs_of_disjoint :
    l.agreeingPairs r = l.tuples.rows ×ˢ r.tuples.rows :=
  List.filter_eq_self.2 fun _ _ =>
    decide_eq_true fun name hleft hright =>
      absurd hright (hdisjoint name hleft)

/-- Without common names all rows agree. -/
theorem joinedRows_of_disjoint :
    l.joinedRows r
      = l.tuples.rows.flatMap fun t => r.tuples.rows.map t.merge := by
  rw [joinedRows_eq_map, agreeingPairs_of_disjoint hdisjoint]
  show ((l.tuples.rows.flatMap fun t =>
    r.tuples.rows.map (Prod.mk t)).map _) = _
  rw [List.map_flatMap]
  refine List.flatMap_congr fun t _ => ?_
  rw [List.map_map]
  rfl

/-- So the product is the natural join. -/
theorem paired_eq_joined : l.paired r = l.joined r := by
  unfold paired joined
  rw [joinedRows_of_disjoint hdisjoint]

theorem size_paired (hl : l.WellFormed) (hr : r.WellFormed) :
    (l.paired r).tuples.size = l.tuples.size * r.tuples.size := by
  rw [paired_eq_joined hdisjoint, size_joined hl hr,
    agreeingPairs_of_disjoint hdisjoint, List.length_product]
  rfl

-- ==================================================== divided products

theorem WellFormed.paired (hl : l.WellFormed) (hr : r.WellFormed) :
    (l.paired r).WellFormed := by
  rw [paired_eq_joined hdisjoint]
  exact hl.joined hr

/-- Where nothing has to agree, one row is a partner of all. -/
theorem withPartner_of_disjoint (hrows : r.tuples.rows ≠ []) :
    l.withPartner r = l := by
  obtain ⟨u, hu⟩ := List.exists_mem_of_ne_nil _ hrows
  have hpartner : ∀ t ∈ l.tuples.rows, decide (l.Partnered r t) = true :=
    fun t _ => decide_eq_true ⟨u, hu, fun name hleft hright =>
      absurd hright (hdisjoint name hleft)⟩
  exact congrArg (Resolved.mk l.header)
    (Tuples.ext_rows (List.filter_eq_self.2 hpartner))

/-- A product without the columns of its right side has the rows of the left
one, as they are, if there is a right row. -/
theorem shortened_paired (hl : l.WellFormed) (hr : r.WellFormed)
    (hproper : ∃ name ∈ (l.paired r).header.names, name ∉ r.header.names) :
    (l.paired r).shortened r hproper = l.withPartner r := by
  show (l.paired r).projected
    ((l.header.joined r.header).remainder r.header hproper) = _
  rw [Header.remainder_joined hdisjoint hproper, paired_eq_joined hdisjoint,
    projected_joined hl hr]

/-- The product has all pairs of a candidate and a row of the divisor, so the
quotient keeps every candidate. -/
theorem divide_paired (hl : l.WellFormed) (hr : r.WellFormed) :
    BinaryOperator.divide.apply (l.paired r) r = .ok (l.withPartner r) := by
  have hsub : ∀ a ∈ r.header.attributes, a ∈ (l.paired r).header.attributes :=
    fun a ha => Header.mem_joined.2 (.inr ⟨ha, fun hname =>
      hdisjoint a.name hname (Header.mem_names_of_mem ha)⟩)
  have hproper : ∃ name ∈ (l.paired r).header.names,
      name ∉ r.header.names := by
    obtain ⟨a, ha⟩ := List.exists_mem_of_ne_nil _ l.header.nonempty
    have hname := Header.mem_names_of_mem ha
    exact ⟨a.name, Header.mem_names_joined.2 (.inl hname),
      hdisjoint a.name hname⟩
  have hkept : (l.withPartner r).tuples.filter
        (fun u => ∀ t ∈ r.tuples.rows,
          (l.paired r).tuples.contains (u.merge t) = true)
      = (l.withPartner r).tuples := by
    refine Tuples.ext_rows (List.filter_eq_self.2 fun u hu => ?_)
    exact decide_eq_true fun t ht =>
      contains_paired (Tuples.mem_of_mem_filter hu) ht
  rw [divide_eq (hl.paired hdisjoint hr) hr hsub hproper,
    shortened_paired hdisjoint hl hr hproper, hkept]
  show Except.ok (Resolved.mk
    ((l.header.joined r.header).remainder r.header hproper) _) = _
  rw [Header.remainder_joined hdisjoint hproper]
  rfl

end Disjoint

/-- No row has a partner in a relation without rows. -/
theorem withPartner_of_rows_eq_nil (hrows : r.tuples.rows = []) :
    l.withPartner r = ⟨l.header, .empty⟩ := by
  have hnone : ∀ t ∈ l.tuples.rows, ¬decide (l.Partnered r t) = true := by
    intro t _ hpartner
    obtain ⟨u, hu, -⟩ := decide_eq_true_iff.1 hpartner
    rw [hrows] at hu
    cases hu
  exact congrArg (Resolved.mk l.header)
    (Tuples.ext_rows (List.filter_eq_nil_iff.2 hnone))

end Resolved

end RelAlgebra
