/-
Natural joins at both ends of what two headers can have in common. Headers
without a common name leave nothing to agree on, so the join pairs all rows
and is the product. With one header on both sides rows agree exactly if they
are equal, and a merged row is its left row. As no two rows of the right side
are equal, a left row is merged with one row at most. So the join keeps the
rows that the right side has too, as the left side has them: it is the
intersection, and a relation joined with itself is itself.
-/
import RelAlgebra.Proofs.Algebra.Pairing

namespace RelAlgebra

-- ============================================================= headers

namespace Header

variable {h k : Header}

/-- Headers without common names do not clash. -/
theorem compatible_of_disjoint
    (hdisjoint : ∀ name ∈ h.names, name ∉ k.names) : h.Compatible k := by
  intro a ha b hb hname
  have hleft : b.name ∈ h.names := hname ▸ mem_names_of_mem ha
  exact absurd (mem_names_of_mem hb) (hdisjoint b.name hleft)

theorem compatible_self (h : Header) : h.Compatible h := by
  intro a ha b hb hname
  rw [eq_of_name_eq ha hb hname]

theorem joined_self (h : Header) : h.joined h = h := by
  refine ext_attributes ?_
  have hnone : h.attributes.filter (fun a => a.name ∉ h.names) = [] := by
    simp only [List.filter_eq_nil_iff, decide_eq_true_iff, not_not]
    exact fun a => mem_names_of_mem
  rw [attributes_joined, hnone, List.append_nil]

end Header

-- ================================================================ rows

namespace Tuple

variable {h : Header} {t u : Tuple}

/-- Rows that fit one header match exactly if they are equal. -/
theorem Fits.matches_iff_beq (ht : t.Fits h) (hu : u.Fits h) :
    t.Matches u ↔ (t == u) = true := by
  rw [beq_iff_get?]
  constructor
  · intro hmatch name
    by_cases hname : name ∈ h.names
    · obtain ⟨value, hvalue⟩ := ht.get?_isSome hname
      obtain ⟨value', hvalue'⟩ := hu.get?_isSome hname
      rw [beq_get?_of_some hvalue hvalue']
      exact hmatch name value value' hvalue hvalue'
    · rw [ht.get?_eq_none hname, hu.get?_eq_none hname]
      rfl
  · intro hequal name value value' hvalue hvalue'
    rw [← beq_get?_of_some hvalue hvalue']
    exact hequal name

/-- A row that fits the header has all the names of a merge within it. -/
theorem Fits.merge_eq_left (ht : t.Fits h) (hu : u.Fits h) :
    t.merge u = t := by
  refine ext_get? fun name => ?_
  rw [get?_merge]
  by_cases hname : name ∈ h.names
  · obtain ⟨value, hvalue⟩ := ht.get?_isSome hname
    rw [hvalue]
    rfl
  · rw [ht.get?_eq_none hname, hu.get?_eq_none hname]
    rfl

end Tuple

namespace Tuples

variable {ts : Tuples} {t : Tuple}

/-- The rows of a collection that are equal to a row are one at most. -/
theorem filter_beq_of_contains (h : ts.contains t = true) :
    ∃ u, ts.rows.filter (t == ·) = [u] := by
  obtain ⟨u, hu, hut⟩ := contains_iff.1 h
  have hmem : u ∈ ts.rows.filter (t == ·) :=
    List.mem_filter.2 ⟨hu, BEq.symm hut⟩
  have hequal : ∀ v ∈ ts.rows.filter (t == ·), (t == v) = true :=
    fun v hv => (List.mem_filter.1 hv).2
  have hdistinct := ts.distinct.filter (t == ·)
  match hrows : ts.rows.filter (t == ·) with
  | [] =>
      rw [hrows] at hmem
      cases hmem
  | [v] => exact ⟨v, rfl⟩
  | v :: w :: rest =>
      rw [hrows] at hequal hdistinct
      have hvw : (v == w) = true :=
        BEq.trans (BEq.symm (hequal v (by simp))) (hequal w (by simp))
      rw [List.rel_of_pairwise_cons hdistinct (by simp)] at hvw
      cases hvw

theorem filter_beq_of_not_contains (h : ts.contains t = false) :
    ts.rows.filter (t == ·) = [] := by
  refine List.filter_eq_nil_iff.2 fun u hu hequal => ?_
  have hcontains := contains_iff.2 ⟨u, hu, BEq.symm hequal⟩
  rw [h] at hcontains
  cases hcontains

theorem intersection_self (ts : Tuples) : ts.intersection ts = ts :=
  ext_rows (List.filter_eq_self.2 fun _ => contains_of_mem)

end Tuples

-- =============================================================== joins

namespace Resolved

variable {l r : Resolved}

/-- Without a common name the join is the product, for any rows. -/
theorem naturalJoin_of_disjoint
    (hdisjoint : ∀ name ∈ l.header.names, name ∉ r.header.names) :
    l.naturalJoin r = l.product r := by
  rw [naturalJoin_of_compatible (Header.compatible_of_disjoint hdisjoint),
    product_of_disjoint hdisjoint, paired_eq_joined hdisjoint]

section SameHeader

variable (hl : l.WellFormed) (hr : r.WellFormed)
  (hheader : l.header = r.header)

include hl hr hheader

/-- The joined rows are the rows of the left side that the right side has
too. -/
theorem joinedRows_of_header_eq :
    l.joinedRows r = l.tuples.rows.filter r.tuples.contains := by
  rw [← List.flatMap_singleton' (l.tuples.rows.filter _), flatMap_filter_eq]
  unfold joinedRows
  refine List.flatMap_congr fun t ht => ?_
  have ht : t.Fits r.header := hheader ▸ hl.fits t ht
  have hagree : (r.tuples.rows.filter
      (t.agreeOn ((r.header.overlap l.header).map Attribute.name)))
      = r.tuples.rows.filter (t == ·) := by
    refine List.filter_congr fun u hu => ?_
    have hu := hr.fits u hu
    rw [Bool.eq_iff_iff, hheader, ht.agreeOn_iff_matches hu,
      ht.matches_iff_beq hu]
  have hmerge : ∀ u ∈ r.tuples.rows.filter (t == ·), t.merge u = t :=
    fun u hu => ht.merge_eq_left (hr.fits u (List.mem_filter.1 hu).1)
  rw [hagree, List.map_congr_left hmerge]
  split
  · rename_i hcontains
    obtain ⟨u, hu⟩ := Tuples.filter_beq_of_contains hcontains
    rw [hu]
    rfl
  · rename_i hcontains
    rw [Bool.not_eq_true] at hcontains
    rw [Tuples.filter_beq_of_not_contains hcontains]
    rfl

/-- Under one header, rows agree if they are equal, so the join is the
intersection. -/
theorem joined_of_header_eq :
    l.joined r = ⟨l.header, l.tuples.intersection r.tuples⟩ := by
  have hjoined : l.header.joined r.header = l.header := by
    rw [← hheader, Header.joined_self]
  have hrows : (l.joined r).tuples = l.tuples.intersection r.tuples :=
    Tuples.ext_rows
      ((rows_joined hl hr).trans (joinedRows_of_header_eq hl hr hheader))
  rw [← hrows, ← hjoined]
  rfl

/-- With one header on both sides the join is the intersection. -/
theorem naturalJoin_of_header_eq :
    l.naturalJoin r = setOperation Tuples.intersection l r := by
  have hcompatible : l.header.Compatible r.header :=
    hheader ▸ Header.compatible_self l.header
  rw [naturalJoin_of_compatible hcompatible, joined_of_header_eq hl hr hheader,
    setOperation_of_header_eq _ hheader]

end SameHeader

/-- A relation joined with itself is itself. -/
theorem naturalJoin_self (hl : l.WellFormed) : l.naturalJoin l = .ok l := by
  rw [naturalJoin_of_header_eq hl hl rfl, setOperation_of_header_eq _ rfl,
    Tuples.intersection_self]

end Resolved

end RelAlgebra
