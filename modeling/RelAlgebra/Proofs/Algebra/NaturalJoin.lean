/-
Natural joins of well-formed relations. Rows that fit their headers agree
on the common names exactly if they match, so a joined row gives both of
its rows back: the left one itself and one equal to the right. Hence no two
joined rows are equal, and a join lists the merged rows of all matching
pairs, left rows outermost, dropping none. Read this way, joins associate
exactly, and commute up to the order of attributes and rows, as matching
and merging do; and either side of each law fails where headers are not
compatible.
-/
import RelAlgebra.Proofs.Algebra.WellFormed
import RelAlgebra.Proofs.Header.Joining
import RelAlgebra.Proofs.Tuple.Merging
import RelAlgebra.Proofs.Tuples.Repetition

namespace RelAlgebra

/-- A filter before a nested loop can be a test inside it. -/
theorem flatMap_filter_eq {α β : Type} (l : List α) (p : α → Bool)
    (f : α → List β) :
    (l.filter p).flatMap f = l.flatMap fun x => if p x then f x else [] := by
  induction l with
  | nil => rfl
  | cons x rest ih =>
      rw [List.filter_cons, List.flatMap_cons, ← ih]
      cases p x with
      | true => rfl
      | false => rfl

-- ================================================================ rows

theorem Header.mem_names_overlap {h k : Header} {name : String} :
    name ∈ (k.overlap h).map Attribute.name
      ↔ name ∈ h.names ∧ name ∈ k.names := by
  unfold overlap
  simp only [List.mem_map, List.mem_filter, contains_iff]
  constructor
  · rintro ⟨a, ⟨ha, hname⟩, rfl⟩
    exact ⟨hname, mem_names_of_mem ha⟩
  · rintro ⟨hname, hk⟩
    obtain ⟨a, ha, rfl⟩ := mem_names_iff.1 hk
    exact ⟨a, ⟨ha, hname⟩, rfl⟩

namespace Tuple

variable {h k m : Header} {t t' u u' v : Tuple}

/-- A row that fits has a value under every name of the header. -/
theorem Fits.get?_isSome (ht : t.Fits h) {name : String}
    (hname : name ∈ h.names) : ∃ value, t.get? name = some value :=
  Option.isSome_iff_exists.1 (mem_names_iff.1 ((ht.names name).2 hname))

theorem Fits.mem_names (ht : t.Fits h) {name : String} {value : Value}
    (hvalue : t.get? name = some value) : name ∈ h.names :=
  (ht.names name).1 (mem_names_iff.2 (by rw [hvalue]; rfl))

/-- Rows that fit agree on the common names exactly if they match. -/
theorem Fits.agreeOn_iff_matches (ht : t.Fits h) (hu : u.Fits k) :
    t.agreeOn ((k.overlap h).map Attribute.name) u = true ↔ t.Matches u := by
  rw [agreeOn_iff]
  constructor
  · intro hagree name value value' hvalue hvalue'
    rw [← beq_get?_of_some hvalue hvalue']
    exact hagree name
      (Header.mem_names_overlap.2 ⟨ht.mem_names hvalue, hu.mem_names hvalue'⟩)
  · intro hmatch name hname
    obtain ⟨hleft, hright⟩ := Header.mem_names_overlap.1 hname
    obtain ⟨value, hvalue⟩ := ht.get?_isSome hleft
    obtain ⟨value', hvalue'⟩ := hu.get?_isSome hright
    rw [beq_get?_of_some hvalue hvalue']
    exact hmatch name value value' hvalue hvalue'

/-- And they match exactly if all values under common names are equal. -/
theorem Fits.matches_iff_getD (ht : t.Fits h) (hu : u.Fits k) :
    t.Matches u
      ↔ ∀ name ∈ h.names, name ∈ k.names →
          (t.getD name == u.getD name) = true := by
  constructor
  · intro hmatch name hleft hright
    obtain ⟨value, hvalue⟩ := ht.get?_isSome hleft
    obtain ⟨value', hvalue'⟩ := hu.get?_isSome hright
    rw [getD_of_get? hvalue, getD_of_get? hvalue']
    exact hmatch name value value' hvalue hvalue'
  · intro hagree name value value' hvalue hvalue'
    rw [← getD_of_get? hvalue, ← getD_of_get? hvalue']
    exact hagree name (ht.mem_names hvalue) (hu.mem_names hvalue')

/-- Merged rows fit the joined header. -/
theorem Fits.merge_joined (ht : t.Fits h) (hu : u.Fits k) :
    (t.merge u).Fits (h.joined k) :=
  ht.merge hu fun _ => Header.mem_joined

/-- Three rows that fit agree pair by pair, however they are grouped. -/
theorem Fits.agreeOn_assoc (ht : t.Fits h) (hu : u.Fits k) (hv : v.Fits m) :
    t.agreeOn ((k.overlap h).map Attribute.name) u = true
        ∧ (t.merge u).agreeOn ((m.overlap (h.joined k)).map Attribute.name) v
          = true
      ↔ u.agreeOn ((m.overlap k).map Attribute.name) v = true
        ∧ t.agreeOn (((k.joined m).overlap h).map Attribute.name) (u.merge v)
          = true := by
  rw [ht.agreeOn_iff_matches hu, (ht.merge_joined hu).agreeOn_iff_matches hv,
    hu.agreeOn_iff_matches hv, ht.agreeOn_iff_matches (hu.merge_joined hv)]
  exact matches_assoc

/-- A merged row gives its left row back. -/
theorem Fits.project_merge_left (ht : t.Fits h) :
    (t.merge u).project h.names = t :=
  project_merge_of_names ht.names

/-- And a row equal to its right one, which counts as changed only where
the left row has equal values. -/
theorem Fits.project_merge_right (hu : u.Fits k) (hmatch : t.Matches u) :
    ((t.merge u).project k.names == u) = true := by
  have hswapped := project_congr (merge_comm hmatch) k.names
  rwa [hu.project_merge_left] at hswapped

/-- So equal merged rows are merged from equal rows. -/
theorem Fits.beq_of_merge_beq (ht : t.Fits h) (ht' : t'.Fits h)
    (hu : u.Fits k) (hu' : u'.Fits k) (hmatch : t.Matches u)
    (hmatch' : t'.Matches u') (hmerged : (t.merge u == t'.merge u') = true) :
    (t == t') = true ∧ (u == u') = true := by
  constructor
  · have hleft := project_congr hmerged h.names
    rwa [ht.project_merge_left, ht'.project_merge_left] at hleft
  · have hright := project_congr hmerged k.names
    exact BEq.trans (BEq.symm (hu.project_merge_right hmatch))
      (BEq.trans hright (hu'.project_merge_right hmatch'))

end Tuple

-- =============================================================== joins

namespace Resolved

variable {l r a b c : Resolved}

/-- The natural join of relations with compatible headers. -/
def joined (l r : Resolved) : Resolved :=
  ⟨l.header.joined r.header, .ofList (l.joinedRows r)⟩

@[simp]
theorem header_joined : (l.joined r).header = l.header.joined r.header := rfl

theorem naturalJoin_of_compatible (hc : l.header.Compatible r.header) :
    l.naturalJoin r = .ok (l.joined r) := by
  unfold naturalJoin
  rw [Header.join_of_compatible hc]
  rfl

theorem naturalJoin_of_not_compatible (hc : ¬l.header.Compatible r.header) :
    l.naturalJoin r
      = .error (.incompatibleAttributes (l.header.conflicts r.header)) := by
  unfold naturalJoin
  rw [Header.join_of_not_compatible hc]
  rfl

/-- The joined rows are the merges of rows that match. -/
theorem mem_joinedRows (hl : l.WellFormed) (hr : r.WellFormed) {t : Tuple} :
    t ∈ l.joinedRows r
      ↔ ∃ u ∈ l.tuples.rows, ∃ v ∈ r.tuples.rows,
          u.Matches v ∧ u.merge v = t := by
  unfold joinedRows
  simp only [List.mem_flatMap, List.mem_map, List.mem_filter, and_assoc]
  constructor
  · rintro ⟨u, hu, v, hv, hagree, rfl⟩
    exact ⟨u, hu, v, hv,
      ((hl.fits u hu).agreeOn_iff_matches (hr.fits v hv)).1 hagree, rfl⟩
  · rintro ⟨u, hu, v, hv, hmatch, rfl⟩
    exact ⟨u, hu, v, hv,
      ((hl.fits u hu).agreeOn_iff_matches (hr.fits v hv)).2 hmatch, rfl⟩

/-- No two joined rows are equal. -/
theorem distinct_joinedRows (hl : l.WellFormed) (hr : r.WellFormed) :
    (l.joinedRows r).Pairwise fun t u => (t == u) = false := by
  have hmatches : ∀ {t u}, t ∈ l.tuples.rows →
      u ∈ r.tuples.rows.filter
        (t.agreeOn ((r.header.overlap l.header).map Attribute.name)) →
      t.Fits l.header ∧ u.Fits r.header ∧ t.Matches u := by
    intro t u ht hu
    obtain ⟨hu, hagree⟩ := List.mem_filter.1 hu
    have ht := hl.fits t ht
    have hu := hr.fits u hu
    exact ⟨ht, hu, (ht.agreeOn_iff_matches hu).1 hagree⟩
  unfold joinedRows
  rw [List.pairwise_flatMap]
  constructor
  · intro t ht
    rw [List.pairwise_map]
    refine (r.tuples.distinct.filter _).imp_of_mem fun {u u'} hu hu' hne => ?_
    obtain ⟨ht, hu, hmatch⟩ := hmatches ht hu
    obtain ⟨-, hu', hmatch'⟩ := hmatches ‹t ∈ _› hu'
    by_contra hmerged
    rw [Bool.not_eq_false] at hmerged
    rw [(ht.beq_of_merge_beq ht hu hu' hmatch hmatch' hmerged).2] at hne
    cases hne
  · refine l.tuples.distinct.imp_of_mem fun {t t'} ht ht' hne x hx y hy => ?_
    obtain ⟨u, hu, rfl⟩ := List.mem_map.1 hx
    obtain ⟨u', hu', rfl⟩ := List.mem_map.1 hy
    obtain ⟨ht, hu, hmatch⟩ := hmatches ht hu
    obtain ⟨ht', hu', hmatch'⟩ := hmatches ht' hu'
    by_contra hmerged
    rw [Bool.not_eq_false] at hmerged
    rw [(ht.beq_of_merge_beq ht' hu hu' hmatch hmatch' hmerged).1] at hne
    cases hne

/-- A join drops no merged row. -/
theorem rows_joined (hl : l.WellFormed) (hr : r.WellFormed) :
    (l.joined r).tuples.rows = l.joinedRows r :=
  Tuples.rows_ofList_of_distinct (distinct_joinedRows hl hr)

/-- Joining keeps rows well formed. -/
theorem WellFormed.joined (hl : l.WellFormed) (hr : r.WellFormed) :
    (l.joined r).WellFormed := by
  refine .of_fits fun t ht => ?_
  obtain ⟨u, hu, v, hv, -, rfl⟩ :=
    (mem_joinedRows hl hr).1 (Tuples.mem_of_mem_ofList ht)
  exact (hl.fits u hu).merge_joined (hr.fits v hv)

-- ====================================================== associativity

/-- Both groupings run through the same triples of rows in the same order,
keep those that match pair by pair, and merge them to the same row. -/
theorem joinedRows_assoc (ha : a.WellFormed) (hb : b.WellFormed)
    (hc : c.WellFormed) :
    (a.joined b).joinedRows c = a.joinedRows (b.joined c) := by
  unfold joinedRows
  rw [rows_joined ha hb, rows_joined hb hc, header_joined, header_joined]
  unfold joinedRows
  dsimp only
  rw [List.flatMap_assoc]
  refine List.flatMap_congr fun t ht => ?_
  rw [List.flatMap_map, flatMap_filter_eq, List.filter_flatMap,
    List.map_flatMap]
  refine List.flatMap_congr fun u hu => ?_
  have htriples := fun v hv =>
    (ha.fits t ht).agreeOn_assoc (hb.fits u hu) (hc.fits v hv)
  have hmerge : t.merge ∘ u.merge = (t.merge u).merge :=
    funext fun v => (Tuple.merge_assoc t u v).symm
  rw [List.filter_map, List.filter_filter, List.map_map, hmerge]
  -- Whether the first two rows agree is settled on the left before the
  -- third one is looked at, and with it on the right.
  split
  · rename_i htu
    refine congrArg _ (List.filter_congr fun v hv => ?_)
    rw [Bool.eq_iff_iff, Function.comp_apply, Bool.and_eq_true, and_comm,
      ← htriples v hv]
    exact ⟨fun h => ⟨htu, h⟩, And.right⟩
  · rename_i htu
    rw [eq_comm, List.map_eq_nil_iff, List.filter_eq_nil_iff]
    intro v hv h
    rw [Function.comp_apply, Bool.and_eq_true, and_comm, ← htriples v hv] at h
    exact htu h.1

/-- Three relations have one join, whichever two are joined first, rows and
their order included. -/
theorem joined_assoc (ha : a.WellFormed) (hb : b.WellFormed)
    (hc : c.WellFormed) : (a.joined b).joined c = a.joined (b.joined c) := by
  show Resolved.mk _ (.ofList ((a.joined b).joinedRows c))
    = Resolved.mk _ (.ofList (a.joinedRows (b.joined c)))
  rw [joinedRows_assoc ha hb hc]
  exact congrArg (Resolved.mk · _)
    (Header.joined_assoc a.header b.header c.header)

/-- Joining the first two relations first fails if headers clash in either
step. -/
theorem naturalJoin_nested_left_eq_error
    (h : ¬(a.header.Compatible b.header
      ∧ (a.header.joined b.header).Compatible c.header)) :
    ∃ e, (do let x ← a.naturalJoin b; x.naturalJoin c) = .error e := by
  by_cases hab : a.header.Compatible b.header
  · rw [naturalJoin_of_compatible hab]
    exact ⟨_, naturalJoin_of_not_compatible fun hc => h ⟨hab, hc⟩⟩
  · rw [naturalJoin_of_not_compatible hab]
    exact ⟨_, rfl⟩

/-- And so does joining the last two first. -/
theorem naturalJoin_nested_right_eq_error
    (h : ¬(b.header.Compatible c.header
      ∧ a.header.Compatible (b.header.joined c.header))) :
    ∃ e, (do let y ← b.naturalJoin c; a.naturalJoin y) = .error e := by
  by_cases hbc : b.header.Compatible c.header
  · rw [naturalJoin_of_compatible hbc]
    exact ⟨_, naturalJoin_of_not_compatible fun ha => h ⟨hbc, ha⟩⟩
  · rw [naturalJoin_of_not_compatible hbc]
    exact ⟨_, rfl⟩

/-- Natural join is associative: both groupings give one relation, with its
rows in one order, or both fail. -/
theorem naturalJoin_assoc (ha : a.WellFormed) (hb : b.WellFormed)
    (hc : c.WellFormed) :
    EndsAlike (fun x y => x = y)
      (do let x ← a.naturalJoin b; x.naturalJoin c)
      (do let y ← b.naturalJoin c; a.naturalJoin y) := by
  by_cases hleft : a.header.Compatible b.header
      ∧ (a.header.joined b.header).Compatible c.header
  · obtain ⟨hbc, hright⟩ := Header.compatible_assoc.1 hleft
    rw [naturalJoin_of_compatible hleft.1, naturalJoin_of_compatible hbc]
    show EndsAlike _ ((a.joined b).naturalJoin c) (a.naturalJoin (b.joined c))
    rw [naturalJoin_of_compatible hleft.2, naturalJoin_of_compatible hright]
    exact .ok (joined_assoc ha hb hc)
  · obtain ⟨e, he⟩ := naturalJoin_nested_left_eq_error hleft
    obtain ⟨e', he'⟩ := naturalJoin_nested_right_eq_error
      (Header.compatible_assoc.not.1 hleft)
    rw [he, he']
    exact .error

-- ====================================================== commutativity

/-- What one join contains, the join the other way contains. -/
theorem contains_joined_of_swapped (hl : l.WellFormed) (hr : r.WellFormed)
    {t : Tuple} (h : (l.joined r).tuples.contains t = true) :
    (r.joined l).tuples.contains t = true := by
  obtain ⟨x, hx, hxt⟩ := Tuples.contains_ofList_iff.1 h
  obtain ⟨u, hu, v, hv, hmatch, rfl⟩ := (mem_joinedRows hl hr).1 hx
  refine Tuples.contains_ofList_iff.2 ⟨v.merge u, ?_, ?_⟩
  · exact (mem_joinedRows hr hl).2 ⟨v, hv, u, hu, hmatch.symm, rfl⟩
  · exact BEq.trans (Tuple.merge_comm hmatch.symm) hxt

/-- The two joins of two relations have the same rows, if in another order. -/
theorem joined_comm (hl : l.WellFormed) (hr : r.WellFormed) :
    ((l.joined r).tuples == (r.joined l).tuples) = true := by
  rw [Tuples.beq_iff_contains]
  intro t
  rw [Bool.eq_iff_iff]
  exact ⟨contains_joined_of_swapped hl hr, contains_joined_of_swapped hr hl⟩

/-- Natural join is commutative up to the order of attributes and rows. -/
theorem naturalJoin_comm (hl : l.WellFormed) (hr : r.WellFormed) :
    EndsAlike (fun x y => x.header.attributes.Perm y.header.attributes
        ∧ (x.tuples == y.tuples) = true)
      (l.naturalJoin r) (r.naturalJoin l) := by
  by_cases hc : l.header.Compatible r.header
  · rw [naturalJoin_of_compatible hc, naturalJoin_of_compatible hc.symm]
    exact .ok ⟨Header.perm_joined_comm hc, joined_comm hl hr⟩
  · rw [naturalJoin_of_not_compatible hc,
      naturalJoin_of_not_compatible fun h => hc h.symm]
    exact .error

end Resolved

end RelAlgebra
