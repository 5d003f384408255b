/-
Type soundness of the algebra. A row fits a header if it has just the
names of the header, with values of the declared types; a relation is well
formed if its rows fit its header. The constructors for literal rows build
well-formed relations, each operator keeps them so, and hence every query
does, by induction on the query.
-/
import RelAlgebra.Proofs.Header
import RelAlgebra.Proofs.Query.Endings
import RelAlgebra.Proofs.Tuples.LiteralRows
import RelAlgebra.Proofs.Tuples.Sorting
import RelAlgebra.Store.Construction

namespace RelAlgebra

-- ========================================================= fitting rows

/-- The row has the names of the header, with values of the declared
types. -/
structure Tuple.Fits (header : Header) (t : Tuple) : Prop where
  names : ∀ name, name ∈ t.names ↔ name ∈ header.names
  types : ∀ a ∈ header.attributes, ∀ value,
    t.get? a.name = some value → value.conforms a.type = true

/-- The header has attributes of different names, the rows differ, and
each fits the header. -/
structure Resolved.WellFormed (r : Resolved) : Prop where
  nonempty : r.header.attributes ≠ []
  namesDiffer : r.header.names.Nodup
  rowsDiffer : r.tuples.rows.Pairwise fun t u => (t == u) = false
  fits : ∀ t ∈ r.tuples.rows, Tuple.Fits r.header t

/-- What has to be shown of a relation, as headers and collections carry
the rest. -/
theorem Resolved.WellFormed.of_fits {r : Resolved}
    (h : ∀ t ∈ r.tuples.rows, Tuple.Fits r.header t) : r.WellFormed where
  nonempty := r.header.nonempty
  namesDiffer := r.header.distinct
  rowsDiffer := r.tuples.distinct
  fits := h

namespace Tuple

variable {t u : Tuple} {h k header : Header}

/-- A row that fits stores a value for each attribute. -/
theorem Fits.stored (ht : t.Fits h) {a : Attribute} (ha : a ∈ h.attributes) :
    ∃ value, t.get? a.name = some value ∧ value.conforms a.type = true := by
  have hname : a.name ∈ t.names :=
    (ht.names a.name).2 (Header.mem_names_of_mem ha)
  obtain ⟨value, hvalue⟩ := Option.isSome_iff_exists.1 (mem_names_iff.1 hname)
  exact ⟨value, hvalue, ht.types a ha value hvalue⟩

theorem Fits.get?_eq_none (ht : t.Fits h) {name : String}
    (hname : name ∉ h.names) : t.get? name = none :=
  get?_eq_none_iff.2 fun hmem => hname ((ht.names name).1 hmem)

/-- A row fits if it stores what the attributes ask for, and no more. -/
theorem Fits.of_stored
    (hstored : ∀ a ∈ h.attributes,
      ∃ value, t.get? a.name = some value ∧ value.conforms a.type = true)
    (honly : ∀ name ∈ t.names, name ∈ h.names) : t.Fits h where
  names name := by
    refine ⟨honly name, fun hname => ?_⟩
    obtain ⟨a, ha, rfl⟩ := Header.mem_names_iff.1 hname
    obtain ⟨value, hvalue, -⟩ := hstored a ha
    exact mem_names_iff.2 (by rw [hvalue]; rfl)
  types a ha value hvalue := by
    obtain ⟨value', hvalue', hconforms⟩ := hstored a ha
    rw [hvalue] at hvalue'
    cases hvalue'
    exact hconforms

-- ======================================================== literal rows

/-- A row with the names of the header, cut to them, fits it. -/
theorem fits_project_names (ht : Tuples.fitsNames h t = true) :
    (t.project h.names).Fits h := by
  unfold Tuples.fitsNames at ht
  rw [Bool.and_eq_true, List.all_eq_true, List.all_eq_true] at ht
  refine Fits.of_stored (fun a ha => ?_) fun name hname => ?_
  · refine ⟨t.getD a.name, ?_, ht.2 a ha⟩
    rw [get?_project, if_pos (Header.mem_names_of_mem ha)]
  · rw [mem_names_iff, get?_project] at hname
    split at hname
    · assumption
    · cases hname

/-- A positional row fits as the row that it names, which is complete. -/
theorem fits_ofPairs {row : List Value}
    (hrow : Tuples.fitsPositions h row = true) :
    (ofPairs (h.names.zip row)).Fits h := by
  have hadmits : h.Admits row := Tuples.fitsPositions_iff.1 hrow
  have hlength : row.length = h.size := hadmits.length_eq
  have hspelled : h.spelled (h.keyed row) = row := Header.spelled_keyed hlength
  have hcomplete : (h.keyed row).project h.names = h.keyed row := by
    rw [← Header.keyed_spelled, hspelled]
  show (h.keyed row).Fits h
  rw [← hcomplete]
  refine fits_project_names (Tuples.fitsNames_iff.2 ?_)
  rw [hspelled]
  exact ⟨Header.covers_keyed hlength, hadmits⟩

-- ====================================================== rows of results

/-- A projected row fits the projected header. -/
theorem Fits.project {names : List String} (ht : t.Fits h)
    (hnames : ∀ name ∈ names, name ∈ h.names)
    (hheader : header.attributes = names.filterMap h.attribute?) :
    (t.project names).Fits header := by
  refine Fits.of_stored (fun a ha => ?_) fun name hname => ?_
  · rw [hheader, List.mem_filterMap] at ha
    obtain ⟨name, hname, hfind⟩ := ha
    obtain ⟨ha, rfl⟩ := Header.attribute?_eq_some_iff.1 hfind
    obtain ⟨value, hvalue, hconforms⟩ := ht.stored ha
    refine ⟨value, ?_, hconforms⟩
    rw [get?_project, if_pos hname, getD_of_get? hvalue]
  · rw [mem_names_iff, get?_project] at hname
    split at hname
    · rename_i hmem
      obtain ⟨a, ha, rfl⟩ := Header.mem_names_iff.1 (hnames name hmem)
      refine Header.mem_names_iff.2 ⟨a, ?_, rfl⟩
      rw [hheader, List.mem_filterMap]
      exact ⟨a.name, hmem, Header.attribute?_eq_some_iff.2 ⟨ha, rfl⟩⟩
    · cases hname

/-- Renaming moves one value together with its attribute. That no other
attribute has the new name is what the new header checks. -/
theorem Fits.renamed {old new : String} (ht : t.Fits h)
    (hold : old ∈ h.names)
    (hheader : header.attributes = h.attributes.map fun a =>
      if a.name = old then { a with name := new } else a) :
    (t.renamed old new).Fits header := by
  have hold' : old ∈ t.names := (ht.names old).2 hold
  obtain ⟨b, hb, hbname⟩ := Header.mem_names_iff.1 hold
  have hmoved : ∀ a ∈ h.attributes,
      (if a.name = old then { a with name := new } else a)
        ∈ header.attributes := by
    intro a ha
    rw [hheader]
    exact List.mem_map_of_mem ha
  refine Fits.of_stored (fun c hc => ?_) fun name hname => ?_
  · rw [hheader, List.mem_map] at hc
    obtain ⟨a, ha, rfl⟩ := hc
    obtain ⟨value, hvalue, hconforms⟩ := ht.stored ha
    by_cases hname : a.name = old
    · rw [if_pos hname]
      refine ⟨value, ?_, hconforms⟩
      rw [get?_renamed, if_pos hold', if_pos rfl, ← hname, hvalue]
    · rw [if_neg hname]
      refine ⟨value, ?_, hconforms⟩
      have hfree := Header.ne_of_renamed hold hheader ha hname
      rw [get?_renamed, if_pos hold', if_neg hfree, if_neg hname, hvalue]
  · rw [mem_names_iff, get?_renamed, if_pos hold'] at hname
    split at hname
    · rename_i hnew
      have hmem := Header.mem_names_of_mem (hmoved b hb)
      rw [if_pos hbname] at hmem
      rw [hnew]
      exact hmem
    · split at hname
      · cases hname
      · rename_i hne
        obtain ⟨a, ha, rfl⟩ :=
          Header.mem_names_iff.1 ((ht.names name).1 (mem_names_iff.2 hname))
        have hmem := Header.mem_names_of_mem (hmoved a ha)
        rw [if_neg hne] at hmem
        exact hmem

/-- A merged row fits a header that has the attributes of both, the left
ones winning as the left values do. -/
theorem Fits.merge (ht : t.Fits h) (hu : u.Fits k)
    (hheader : ∀ a, a ∈ header.attributes
      ↔ a ∈ h.attributes ∨ a ∈ k.attributes ∧ a.name ∉ h.names) :
    (t.merge u).Fits header := by
  refine Fits.of_stored (fun a ha => ?_) fun name hname => ?_
  · rcases (hheader a).1 ha with ha | ⟨ha, hfree⟩
    · obtain ⟨value, hvalue, hconforms⟩ := ht.stored ha
      exact ⟨value, by rw [get?_merge, hvalue]; rfl, hconforms⟩
    · obtain ⟨value, hvalue, hconforms⟩ := hu.stored ha
      refine ⟨value, ?_, hconforms⟩
      rw [get?_merge, ht.get?_eq_none hfree, hvalue]
      rfl
  · by_cases hleft : name ∈ h.names
    · obtain ⟨a, ha, rfl⟩ := Header.mem_names_iff.1 hleft
      exact Header.mem_names_of_mem ((hheader a).2 (.inl ha))
    · rw [mem_names_iff, get?_merge, ht.get?_eq_none hleft, Option.none_or,
        ← mem_names_iff, hu.names] at hname
      obtain ⟨a, ha, rfl⟩ := Header.mem_names_iff.1 hname
      exact Header.mem_names_of_mem ((hheader a).2 (.inr ⟨ha, hleft⟩))

end Tuple

-- =========================================================== operators

namespace Resolved.WellFormed

variable {l r : Resolved}

/-- Projected rows have the projected names, and their values are
as before. -/
theorem project (hr : r.WellFormed) (names : List String) :
    Yields WellFormed (r.project names) := by
  refine Yields.bind (P := fun _ => ∀ name ∈ names, name ∈ r.header.names)
    (fun _ hrequire _ => Header.mem_of_require hrequire) fun _ hnames => ?_
  refine Yields.bind (fun _ => Header.attributes_of_derive)
    fun header hheader => ?_
  refine Yields.ok (of_fits fun t ht => ?_)
  obtain ⟨u, hu, rfl⟩ := List.mem_map.1 (Tuples.mem_of_mem_ofList ht)
  exact (hr.fits u hu).project hnames hheader

/-- A renamed row has its value under the new name, of the same type. -/
theorem rename (hr : r.WellFormed) (new old : String) :
    Yields WellFormed (r.rename new old) := by
  refine Yields.bind (P := fun _ => old ∈ r.header.names)
    (fun _ hrequire => Header.mem_of_require hrequire
      (List.mem_singleton.2 rfl)) fun _ hold => ?_
  split
  · exact Yields.ok hr
  · refine Yields.bind (fun _ => Header.attributes_of_derive)
      fun header hheader => ?_
    refine Yields.ok (of_fits fun t ht => ?_)
    obtain ⟨u, hu, rfl⟩ := List.mem_map.1 (Tuples.mem_of_mem_ofList ht)
    exact (hr.fits u hu).renamed hold hheader

/-- Rows that are chosen from rows that fit. -/
theorem where_fits {header : Header} {rows : List Tuple} {p : Predicate}
    (hrows : ∀ t ∈ rows, t.Fits header) :
    Yields (fun ts => WellFormed ⟨header, ts⟩)
      (Tuples.ofListWhereM (fun t => p.eval t.get?) rows) := by
  intro ts hts
  obtain ⟨-, rfl⟩ := Tuples.ofListWhereM_eq_ok_iff.1 hts
  exact of_fits fun t ht =>
    hrows t (List.mem_of_mem_filter (Tuples.mem_of_mem_ofList ht))

theorem select (hr : r.WellFormed) (p : Predicate) :
    Yields WellFormed (r.select p) := by
  refine Yields.bind (P := fun _ => True) (fun _ _ => trivial) fun _ _ => ?_
  exact (where_fits hr.fits).mapError.bind fun _ hts => Yields.ok hts

theorem orderBy (hr : r.WellFormed) (keys : List SortKey) :
    Yields WellFormed (r.orderBy keys) := by
  refine Yields.bind (P := fun _ => True) (fun _ _ => trivial) fun _ _ => ?_
  have hsorted : Yields (fun ts => WellFormed ⟨r.header, ts⟩)
      (r.tuples.sortedBy keys) :=
    fun ts hts => of_fits fun t ht =>
      hr.fits t (Tuples.mem_of_mem_sortedBy hts ht)
  exact hsorted.mapError.bind fun _ hts => Yields.ok hts

/-- A set operation takes its rows from operands under one header. -/
theorem setOperation (hl : l.WellFormed) (hr : r.WellFormed)
    {op : Tuples → Tuples → Tuples}
    (hop : ∀ {ts us t}, t ∈ (op ts us).rows → t ∈ ts.rows ∨ t ∈ us.rows) :
    Yields WellFormed (Resolved.setOperation op l r) := by
  refine Yields.bind (fun _ => Header.eq_of_requireSame) fun _ hsame => ?_
  refine Yields.ok (of_fits fun t ht => ?_)
  rcases hop ht with ht | ht
  · exact hl.fits t ht
  · show t.Fits l.header
    rw [hsame]
    exact hr.fits t ht

/-- A pair of rows has the names of both headers. -/
theorem product (hl : l.WellFormed) (hr : r.WellFormed) :
    Yields WellFormed (l.product r) := by
  refine Yields.bind (P := fun header => l.header.product r.header = .ok header)
    (fun _ => id) fun header hheader => ?_
  refine Yields.ok (of_fits fun t ht => ?_)
  obtain ⟨u, hu, ht⟩ := List.mem_flatMap.1 (Tuples.mem_of_mem_ofList ht)
  obtain ⟨v, hv, rfl⟩ := List.mem_map.1 ht
  refine (hl.fits u hu).merge (hr.fits v hv) fun a => ?_
  show a ∈ header.attributes ↔ _
  rw [Header.attributes_of_product hheader, List.mem_append]
  refine or_congr_right ⟨fun ha => ⟨ha, fun hname => ?_⟩, And.left⟩
  exact Header.disjoint_of_product hheader hname
    (Header.mem_names_of_mem ha)

/-- The rows of a join fit its header, whatever is chosen from them. -/
theorem fits_joinedRows (hl : l.WellFormed) (hr : r.WellFormed)
    {header : Header} (hheader : l.header.join r.header = .ok header) :
    ∀ t ∈ l.joinedRows r, t.Fits header := by
  intro t ht
  obtain ⟨u, hu, ht⟩ := List.mem_flatMap.1 ht
  obtain ⟨v, hv, rfl⟩ := List.mem_map.1 ht
  exact (hl.fits u hu).merge (hr.fits v (List.mem_of_mem_filter hv))
    fun _ => Header.mem_attributes_of_join hheader

/-- A merged row takes every value from a row that fits. -/
theorem naturalJoin (hl : l.WellFormed) (hr : r.WellFormed) :
    Yields WellFormed (l.naturalJoin r) := by
  refine Yields.bind (P := fun header => l.header.join r.header = .ok header)
    (fun _ => id) fun header hheader => ?_
  exact Yields.ok (of_fits fun t ht =>
    fits_joinedRows hl hr hheader t (Tuples.mem_of_mem_ofList ht))

theorem thetaJoin (hl : l.WellFormed) (hr : r.WellFormed) (p : Predicate) :
    Yields WellFormed (l.thetaJoin p r) := by
  refine Yields.bind (P := fun header => l.header.join r.header = .ok header)
    (fun _ => id) fun header hheader => ?_
  refine Yields.bind (P := fun _ => True) (fun _ _ => trivial) fun _ _ => ?_
  exact (where_fits (fits_joinedRows hl hr hheader)).mapError.bind
    fun _ hts => Yields.ok hts

/-- The operators on one relation keep rows well formed. -/
theorem unary (op : UnaryOperator) {r : Resolved} (hr : r.WellFormed) :
    Yields WellFormed (op.apply r) := by
  cases op with
  | project names => exact hr.project names
  | select p => exact hr.select p
  | rename new old => exact hr.rename new old
  | orderBy keys => exact hr.orderBy keys

/-- The basic operators on two relations keep rows well formed. -/
theorem basic (op : BasicOperator) {l r : Resolved} (hl : l.WellFormed)
    (hr : r.WellFormed) : Yields WellFormed (op.apply l r) := by
  cases op with
  | intersect =>
      exact hl.setOperation hr fun ht => .inl (Tuples.mem_of_mem_filter ht)
  | union => exact hl.setOperation hr Tuples.mem_of_mem_union
  | subtract =>
      exact hl.setOperation hr fun ht => .inl (Tuples.mem_of_mem_filter ht)
  | product => exact hl.product hr
  | naturalJoin => exact hl.naturalJoin hr
  | thetaJoin p => exact hl.thetaJoin hr p

end Resolved.WellFormed

-- ============================================================= queries

/-- A query over well-formed relations has a well-formed result. -/
theorem Query.yields_wellFormed {ρ : Type} {outcome : ρ → Outcome}
    (houtcome : ∀ i, Yields Resolved.WellFormed (outcome i)) (q : Query ρ) :
    Yields Resolved.WellFormed (q.eval outcome) :=
  Query.yields_eval (fun op _ => Resolved.WellFormed.unary op)
    (fun op _ _ => Resolved.WellFormed.basic op) houtcome q

end RelAlgebra
