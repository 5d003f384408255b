/-
Division, as it shows when queries are run on a store. On well-formed rows
it is a query for all, which keeps the rows of a projection that the dividend
has together with every row of the divisor, and gives back what was multiplied
by the divisor. On any rows it fails on headers only, and tells of its own two
and not of those that its plan computes; so do semi joins, which have plans as
well.
-/
import RelAlgebra.Proofs.Algebra.PlanFailures
import RelAlgebra.Proofs.Store.Joins

namespace RelAlgebra.Store

variable {n : Nat}

/-- If the divisor's attributes are some of the dividend's, but not all,
division succeeds. Its header is the dividend without the divisor's
attributes, and its rows are those of the projection on that header that
the dividend has merged with every row of the divisor. The projection lists
rows in the order of their first occurrence, and so does the quotient; by
an empty divisor it is the whole projection. -/
theorem execute_divide (s : Store n) (p q : Query (Fin n)) (l r : Resolved)
    (hp : (execute p s).value = .ok l) (hq : (execute q s).value = .ok r)
    (hl : l.WellFormed) (hr : r.WellFormed)
    (hsub : ∀ a ∈ r.header.attributes, a ∈ l.header.attributes)
    (hproper : ∃ a ∈ l.header.attributes, a ∉ r.header.attributes) :
    let kept := l.header.attributes.filter fun a => a ∉ r.header.attributes
    let names := kept.map Attribute.name
    ∃ c d, (execute (.unary (.project names) p) s).value = .ok c
      ∧ (execute (.binary .divide p q) s).value = .ok d
      ∧ c.header.attributes = kept ∧ d.header.attributes = kept
      ∧ c.tuples.rows
        = (l.tuples.rows.map fun t => t.project names).eraseDups
      ∧ d.tuples.rows
        = c.tuples.rows.filter (fun u =>
            ∀ t ∈ r.tuples.rows, l.tuples.contains (u.merge t) = true)
      ∧ (r.tuples.rows = [] → d = c) := by
  have hnames : ∃ name ∈ l.header.names, name ∉ r.header.names := by
    obtain ⟨a, ha, hfree⟩ := hproper
    exact ⟨a.name, Header.mem_names_of_mem ha, fun hname =>
      hfree (Header.mem_of_mem_names hsub ha hname)⟩
  have hkept : (l.header.remainder r.header hnames).attributes
      = l.header.attributes.filter fun a => a ∉ r.header.attributes :=
    Header.without_eq_filter hsub
  intro kept names
  have hlisted : names = (l.header.remainder r.header hnames).names :=
    congrArg (List.map Attribute.name) hkept.symm
  have hproject : l.project names = .ok (l.shortened r hnames) := by
    rw [hlisted]
    exact Resolved.project_names fun _ ha => (Header.mem_without.1 ha).1
  simp only [value_execute_unary, value_execute_binary, hp, hq]
  refine ⟨l.shortened r hnames, _, hproject,
    Resolved.divide_eq hl hr hsub hnames, hkept, hkept, ?_, rfl, ?_⟩
  · rw [hlisted]
    exact Tuples.rows_ofList _
  · intro hempty
    refine congrArg (Resolved.mk _) (Tuples.ext_rows ?_)
    refine List.filter_eq_self.2 fun u _ => decide_eq_true fun t ht => ?_
    rw [hempty] at ht
    cases ht

/-- A divisor: a missing number and zero. -/
def columnY : Resolved :=
  .ofRows ⟨[⟨"y", .optional .float⟩], nofun, by decide⟩
    [[.null], [.float 0.0]]

/-- A dividend in which one number is paired with both. -/
def pairedYX : Resolved :=
  side "y" "x" (by decide) [(.null, .float 1.5), (.float 2.5, .float 0.0),
    (.null, .float (-0.0)), (.float (-0.0), .float 1.5)]

/-- Zero is found in the other sign, and the number that lacks it is
dropped. -/
theorem execute_divide_pairs :
    let s : Store 2 :=
      (Store.empty.push (.resolved pairedYX)).push (.resolved columnY)
    ∃ c d, (execute (.unary (.project ["x"]) (.relation 0)) s).value = .ok c
      ∧ (execute (.binary .divide (.relation 0) (.relation 1)) s).value = .ok d
      ∧ d.header.names = ["x"]
      ∧ d.tuples.rows
        = c.tuples.rows.filter (fun u => ∀ t ∈ columnY.tuples.rows,
            pairedYX.tuples.contains (u.merge t) = true)
      ∧ c.tuples.size = 2 ∧ d.tuples.size = 1 := by
  intro s
  obtain ⟨c, d, hc, hd, -, hheader, hcrows, hdrows, -⟩ :=
    execute_divide s (.relation 0) (.relation 1) pairedYX columnY rfl rfl
      (Resolved.wellFormed_ofRows _ _) (Resolved.wellFormed_ofRows _ _)
      (by decide) (by decide)
  refine ⟨c, d, hc, hd, ?_, hdrows, ?_, ?_⟩
  · rw [Header.names, hheader]
    rfl
  · rw [Tuples.size, hcrows]
    decide +kernel
  · rw [Tuples.size, hdrows, hcrows]
    decide +kernel

-- ============================================================ products

/-- Division undoes product. The product of well-formed relations without a
common name, divided by its right side, is its left side as soon as the right
one has a row: the same header, and the very rows in their order. By a right
side without rows nothing is left but the header. -/
theorem execute_divide_product (s : Store n) (p q : Query (Fin n))
    (l r : Resolved) (hp : (execute p s).value = .ok l)
    (hq : (execute q s).value = .ok r) (hl : l.WellFormed)
    (hr : r.WellFormed)
    (hdisjoint : ∀ name ∈ l.header.names, name ∉ r.header.names) :
    let quotient :=
      (execute (.binary .divide (.binary (.basic .product) p q) q) s).value
    (r.tuples.rows ≠ [] → quotient = .ok l)
      ∧ (r.tuples.rows = [] → quotient = .ok ⟨l.header, .empty⟩) := by
  intro quotient
  have hproduct : (execute (.binary (.basic .product) p q) s).value
      = .ok (l.paired r) := by
    rw [value_execute_binary, hp, hq]
    exact Resolved.product_of_disjoint hdisjoint
  have hquotient : quotient = .ok (l.withPartner r) := by
    show (execute _ s).value = _
    rw [value_execute_binary, hproduct, hq]
    exact Resolved.divide_paired hdisjoint hl hr
  rw [hquotient]
  refine ⟨fun hrows => ?_, fun hrows => ?_⟩
  · rw [Resolved.withPartner_of_disjoint hdisjoint hrows]
  · rw [Resolved.withPartner_of_rows_eq_nil hrows]

/-- Rows with missing numbers and zeros come back as they were. -/
theorem execute_divide_product_zeros :
    let divisor := side "u" "v" (by decide)
      [(.null, .float 0.5), (.float (-0.0), .null)]
    let s : Store 3 := ((Store.empty.push (.resolved sideXZ)).push
      (.resolved divisor)).push (.resolved (side "u" "v" (by decide) []))
    let quotient := fun i =>
      (execute (.binary .divide
        (.binary (.basic .product) (.relation 0) (.relation i))
        (.relation i)) s).value
    quotient 1 = .ok sideXZ ∧ quotient 2 = .ok ⟨sideXZ.header, .empty⟩ := by
  intro divisor s quotient
  obtain ⟨hsome, -⟩ := execute_divide_product s (.relation 0) (.relation 1)
    sideXZ divisor rfl rfl (Resolved.wellFormed_ofRows _ _)
    (Resolved.wellFormed_ofRows _ _) (by decide)
  obtain ⟨-, hnone⟩ := execute_divide_product s (.relation 0) (.relation 2)
    sideXZ _ rfl rfl (Resolved.wellFormed_ofRows _ _)
    (Resolved.wellFormed_ofRows _ _) (by decide)
  exact ⟨hsome (by decide +kernel), hnone rfl⟩

-- ============================================================ failures

/-- How semi joins and division fail, whatever the rows. A left semi join
and an anti join fail exactly if some shared name has different types, with
all the pairs of attributes at odds in the order of the right header; a right
semi join likewise with the sides swapped. Division fails exactly if the
divisor has an attribute that the dividend lacks, showing both headers, or
else if it has all attributes of the dividend, as no header is empty. The
headers of joins and products that pass their checks are always built. -/
theorem execute_plans_eq_error_iff (s : Store n) (p q : Query (Fin n))
    (l r : Resolved) (hp : (execute p s).value = .ok l)
    (hq : (execute q s).value = .ok r) :
    let result := fun op => (execute (.binary op p q) s).value
    let clashing := ∃ a ∈ l.header.attributes, ∃ b ∈ r.header.attributes,
      a.name = b.name ∧ a.type ≠ b.type
    (∀ kind e, kind = .left ∨ kind = .anti →
        (result (.semiJoin kind) = .error e
          ↔ clashing
            ∧ e = .incompatibleAttributes (l.header.clashes r.header)))
      ∧ (∀ e, result (.semiJoin .right) = .error e
          ↔ clashing
            ∧ e = .incompatibleAttributes (r.header.clashes l.header))
      ∧ (∀ e, result .divide = .error e
          ↔ (∃ a ∈ r.header.attributes, a ∉ l.header.attributes)
              ∧ e = .notSuperset l.header.attributes r.header.attributes
            ∨ (∀ a ∈ r.header.attributes, a ∈ l.header.attributes)
              ∧ (∀ a ∈ l.header.attributes, a ∈ r.header.attributes)
              ∧ e = .header .empty)
      ∧ ∀ (h k : Header) (e : HeaderError),
          h.join k ≠ .error (.header e) ∧ h.product k ≠ .error (.header e) := by
  simp only [value_execute_binary, hp, hq, ← Header.not_compatible_iff]
  refine ⟨fun kind e hkind => ?_, fun e => ?_,
    fun e => Resolved.divide_eq_error_iff,
    fun h k e => ⟨h.join_ne_header k e, h.product_ne_header k e⟩⟩
  · exact SemiJoinKind.eval_eq_error_iff hkind
  · rw [Header.compatible_comm]
    exact SemiJoinKind.eval_eq_error_iff (.inl rfl)

/-- Text stands under a name for numbers, which no semi join and no quotient
takes; and nothing is left of a dividend that is divided by itself. -/
theorem execute_plans_eq_error_iff_labels :
    let s : Store 2 :=
      (Store.empty.push (.resolved sideXY)).push (.resolved labelsY)
    let result := fun op i j =>
      (execute (.binary op (.relation i) (.relation j)) s).value
    result (.semiJoin .anti) 0 1
        = .error (.incompatibleAttributes
            [(⟨"y", .optional .float⟩, ⟨"y", .required .string⟩)])
      ∧ result .divide 0 1
        = .error (.notSuperset sideXY.header.attributes
            labelsY.header.attributes)
      ∧ result .divide 0 0 = .error (.header .empty) := by
  intro s result
  obtain ⟨hsemi, -, hdivide, -⟩ := execute_plans_eq_error_iff s
    (.relation 0) (.relation 1) sideXY labelsY rfl rfl
  obtain ⟨-, -, hcovering, -⟩ := execute_plans_eq_error_iff s
    (.relation 0) (.relation 0) sideXY sideXY rfl rfl
  refine ⟨(hsemi .anti _ (.inr rfl)).2 ⟨?_, rfl⟩,
    (hdivide _).2 (.inl ⟨?_, rfl⟩), (hcovering _).2 (.inr ⟨?_, ?_, rfl⟩)⟩
  · decide
  · decide
  · exact fun _ ha => ha
  · exact fun _ ha => ha

end RelAlgebra.Store
