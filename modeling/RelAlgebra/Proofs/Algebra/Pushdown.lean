/-
Selections below joins. What a predicate comes to depends on the values of
the names that it reads and on nothing else, and a merged row has the values
of its left row under all names of that row, as the left row has them. So a
predicate about the left side comes on every merged row to what it comes to
on the left one, and to choose from the joined rows is to join the chosen
ones. The nested loops run through the left rows outermost, so what is left
of them after the choice is in the same order either way.
-/
import RelAlgebra.Proofs.Algebra.Pairing
import RelAlgebra.Proofs.Expression.Names

namespace RelAlgebra

/-- Pairs whose first part is chosen. -/
theorem filter_product {α β : Type} (xs : List α) (ys : List β)
    (p : α → Bool) :
    xs.filter p ×ˢ ys = (xs ×ˢ ys).filter fun a => p a.1 := by
  induction xs with
  | nil => rfl
  | cons x rest ih =>
      have hfirst : ∀ a ∈ ys.map fun b => (x, b), p a.1 = p x := by
        intro a ha
        obtain ⟨b, -, rfl⟩ := List.mem_map.1 ha
        rfl
      rw [List.product_cons, List.filter_append, ← ih,
        List.filter_congr hfirst, List.filter_cons]
      cases p x with
      | true => rw [List.filter_true]; rfl
      | false => rw [List.filter_false]; rfl

-- ================================================================ rows

namespace Tuple.Fits

variable {h : Header} {t : Tuple} {p : Predicate}

/-- A predicate about the left row does not see what it is merged with. -/
theorem eval_merge (ht : t.Fits h)
    (hnames : ∀ name ∈ p.attributes, name ∈ h.names) (u : Tuple) :
    p.eval (t.merge u).get? = p.eval t.get? := by
  refine p.readsExactly.congr _ _ fun name hname => ?_
  obtain ⟨value, hvalue⟩ := ht.get?_isSome (hnames name hname)
  rw [get?_merge, hvalue]
  rfl

/-- A predicate on names of the left header holds of a merged row as of its
left part. -/
theorem holds_merge (ht : t.Fits h)
    (hnames : ∀ name ∈ p.attributes, name ∈ h.names) (u : Tuple) :
    p.holds (t.merge u) = p.holds t := by
  simp only [Predicate.holds, Tuples.passes, ht.eval_merge hnames]

end Tuple.Fits

-- =============================================================== joins

namespace Resolved

variable {l r : Resolved} {p : Predicate}

/-- A predicate that applies to the left side applies to the join. -/
theorem appliesTo_joined (hl : l.WellFormed) (hr : r.WellFormed)
    (hp : p.AppliesTo l) : p.AppliesTo (l.joined r) where
  names name hname := Header.mem_names_joined.2 (.inl (hp.names name hname))
  rows v hv := by
    rw [rows_joined hl hr] at hv
    obtain ⟨t, ht, u, -, -, rfl⟩ := (mem_joinedRows hl hr).1 hv
    obtain ⟨b, hb⟩ := hp.rows t ht
    exact ⟨b, ((hl.fits t ht).eval_merge hp.names u).trans hb⟩

/-- The pairs of which the left row is chosen. -/
theorem agreeingPairs_chosen (l r : Resolved) (p : Predicate) :
    (l.chosen p).agreeingPairs r
      = (l.agreeingPairs r).filter fun a => p.holds a.1 := by
  unfold agreeingPairs
  show ((l.tuples.rows.filter p.holds) ×ˢ r.tuples.rows).filter _ = _
  rw [filter_product, List.filter_filter, List.filter_filter]
  exact List.filter_congr fun _ _ => Bool.and_comm ..

/-- The joined rows that are chosen are those whose left row is. -/
theorem rows_chosen_joined (hl : l.WellFormed) (hr : r.WellFormed)
    (hnames : ∀ name ∈ p.attributes, name ∈ l.header.names) :
    ((l.joined r).chosen p).tuples.rows
      = ((l.agreeingPairs r).filter fun a => p.holds a.1).map
          fun a => a.1.merge a.2 := by
  show (l.joined r).tuples.rows.filter p.holds = _
  rw [rows_joined hl hr, joinedRows_eq_map, List.filter_map]
  refine congrArg _ (List.filter_congr fun a ha => ?_)
  exact (fits_of_mem_agreeingPairs hl hr ha).1.holds_merge hnames a.2

/-- Choosing rows of the left relation before joining is choosing the joined
rows afterwards. -/
theorem joined_chosen (hl : l.WellFormed) (hr : r.WellFormed)
    (hnames : ∀ name ∈ p.attributes, name ∈ l.header.names) :
    (l.chosen p).joined r = (l.joined r).chosen p := by
  have hchosen : (l.chosen p).WellFormed :=
    .of_fits fun t ht => hl.fits t (Tuples.mem_of_mem_filter ht)
  have hrows : ((l.chosen p).joined r).tuples
      = ((l.joined r).chosen p).tuples := by
    refine Tuples.ext_rows ?_
    rw [rows_joined hchosen hr, joinedRows_eq_map, agreeingPairs_chosen,
      rows_chosen_joined hl hr hnames]
  exact congrArg (Resolved.mk _) hrows

/-- Selecting from a join by a predicate that applies to its left side is
joining the rows that it chooses there. -/
theorem select_naturalJoin (hl : l.WellFormed) (hr : r.WellFormed)
    (hp : p.AppliesTo l) :
    (l.naturalJoin r >>= fun x => x.select p)
      = (l.chosen p).naturalJoin r := by
  by_cases hc : l.header.Compatible r.header
  · have hc' : (l.chosen p).header.Compatible r.header := hc
    rw [naturalJoin_of_compatible hc, naturalJoin_of_compatible hc',
      joined_chosen hl hr hp.names]
    exact select_of_appliesTo (appliesTo_joined hl hr hp)
  · have hc' : ¬(l.chosen p).header.Compatible r.header := hc
    rw [naturalJoin_of_not_compatible hc, naturalJoin_of_not_compatible hc']
    rfl

end Resolved

end RelAlgebra
