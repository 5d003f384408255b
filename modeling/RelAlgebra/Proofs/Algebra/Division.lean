/-
Division of well-formed relations. The divisor's attributes are among those
of the dividend, and the others make the header of the quotient. The plan
never asks whether a candidate goes with all rows of the divisor: it pairs
every candidate with every row of the divisor, takes the rows of the
dividend away, and takes what is left away from the candidates. What is left
contains a candidate exactly if the dividend lacks one of its pairs, so the
quotient keeps the candidates of which it lacks none, in their order.
-/
import RelAlgebra.Proofs.Algebra.SemiJoin

namespace RelAlgebra

namespace Header

variable {h k : Header} {a : Attribute} {name : String}

/-- The attributes of `h` without those of `k`, if some are left. -/
def remainder (h k : Header) (hproper : ∃ name ∈ h.names, name ∉ k.names) :
    Header where
  attributes := h.without k
  nonempty := by
    obtain ⟨name, hname, hfree⟩ := hproper
    obtain ⟨a, ha, rfl⟩ := mem_names_iff.1 hname
    exact List.ne_nil_of_mem (mem_without.2 ⟨ha, hfree⟩)
  distinct := h.distinct.sublist (List.filter_sublist.map _)

variable (hproper : ∃ name ∈ h.names, name ∉ k.names)

theorem names_remainder :
    (h.remainder k hproper).names = h.names.filter (!k.contains ·) := by
  show (h.attributes.filter fun a => !k.contains a.name).map Attribute.name = _
  unfold names
  rw [List.filter_map]
  rfl

theorem mem_names_remainder :
    name ∈ (h.remainder k hproper).names ↔ name ∈ h.names ∧ name ∉ k.names := by
  rw [names_remainder, List.mem_filter, not_contains_iff]

/-- An attribute that shares its name with one of a smaller header is that
one. -/
theorem mem_of_mem_names (hsub : ∀ a ∈ k.attributes, a ∈ h.attributes)
    (ha : a ∈ h.attributes) (hname : a.name ∈ k.names) : a ∈ k.attributes := by
  obtain ⟨b, hb, hbname⟩ := mem_names_iff.1 hname
  exact eq_of_name_eq (hsub b hb) ha hbname ▸ hb

/-- If the divisor is part of the dividend, what is left are the attributes
that it does not have. -/
theorem without_eq_filter (hsub : ∀ a ∈ k.attributes, a ∈ h.attributes) :
    h.without k = h.attributes.filter fun a => a ∉ k.attributes := by
  unfold without
  refine List.filter_congr fun a ha => ?_
  rw [Bool.eq_iff_iff, not_contains_iff, decide_eq_true_iff]
  exact not_congr ⟨mem_of_mem_names hsub ha, mem_names_of_mem⟩

/-- A header is made up of the attributes of a smaller one and the
rest. -/
theorem mem_joined_remainder (hsub : ∀ a ∈ k.attributes, a ∈ h.attributes) :
    a ∈ ((h.remainder k hproper).joined k).attributes
      ↔ a ∈ h.attributes := by
  rw [mem_joined, mem_names_remainder hproper]
  show a ∈ h.without k ∨ _ ↔ _
  rw [mem_without]
  constructor
  · rintro (⟨ha, -⟩ | ⟨ha, -⟩)
    · exact ha
    · exact hsub a ha
  · intro ha
    by_cases hname : a.name ∈ k.names
    · exact .inr ⟨mem_of_mem_names hsub ha hname, fun h => h.2 hname⟩
    · exact .inl ⟨ha, hname⟩

/-- A divisor whose attributes are all in the dividend passes the check. -/
theorem requireSuperset_of_subset
    (hsub : ∀ a ∈ k.attributes, a ∈ h.attributes) :
    h.requireSuperset k = .ok () := by
  unfold requireSuperset
  rw [if_pos]
  rw [List.all_eq_true]
  intro a ha
  exact decide_eq_true (attribute?_eq_some_iff.2 ⟨hsub a ha, rfl⟩)

end Header

namespace Resolved

variable {l r x : Resolved} {k : Header} {t u : Tuple}

/-- The product of relations without a common name. -/
def paired (l r : Resolved) : Resolved :=
  ⟨l.header.joined r.header,
    .ofList (l.tuples.rows.flatMap fun t => r.tuples.rows.map t.merge)⟩

theorem product_of_disjoint
    (hdisjoint : ∀ name ∈ l.header.names, name ∉ r.header.names) :
    l.product r = .ok (l.paired r) := by
  unfold product
  rw [Header.product_of_disjoint hdisjoint]
  rfl

theorem mem_of_mem_paired (h : t ∈ (l.paired r).tuples.rows) :
    ∃ u ∈ l.tuples.rows, ∃ v ∈ r.tuples.rows, u.merge v = t := by
  obtain ⟨u, hu, ht⟩ := List.mem_flatMap.1 (Tuples.mem_of_mem_ofList h)
  obtain ⟨v, hv, rfl⟩ := List.mem_map.1 ht
  exact ⟨u, hu, v, hv, rfl⟩

theorem contains_paired (hu : u ∈ l.tuples.rows) {v : Tuple}
    (hv : v ∈ r.tuples.rows) :
    (l.paired r).tuples.contains (u.merge v) = true :=
  Tuples.contains_ofList_iff.2
    ⟨u.merge v, List.mem_flatMap.2 ⟨u, hu, List.mem_map_of_mem hv⟩, BEq.rfl⟩

theorem mem_of_mem_projected (h : t ∈ (x.projected k).tuples.rows) :
    ∃ u ∈ x.tuples.rows, u.project k.names = t :=
  List.mem_map.1 (Tuples.mem_of_mem_ofList h)

theorem contains_projected (h : x.tuples.contains t = true) :
    (x.projected k).tuples.contains (t.project k.names) = true := by
  obtain ⟨u, hu, hut⟩ := Tuples.contains_iff.1 h
  exact Tuples.contains_ofList_iff.2
    ⟨u.project k.names, List.mem_map_of_mem hu, Tuple.project_congr hut _⟩

/-- Projecting on a part of the header keeps rows well formed. -/
theorem WellFormed.projected (hx : x.WellFormed)
    (hsub : ∀ a ∈ k.attributes, a ∈ x.header.attributes) :
    (x.projected k).WellFormed :=
  hx.project k.names _ (project_names hsub)

-- ============================================================ quotient

section Quotient

variable (hl : l.WellFormed) (hr : r.WellFormed)
  (hsub : ∀ a ∈ r.header.attributes, a ∈ l.header.attributes)
  (hproper : ∃ name ∈ l.header.names, name ∉ r.header.names)

/-- The candidates of a quotient: the dividend without the attributes of
the divisor. -/
def shortened (l r : Resolved)
    (hproper : ∃ name ∈ l.header.names, name ∉ r.header.names) : Resolved :=
  l.projected (l.header.remainder r.header hproper)

/-- The pairs of a candidate and a row of the divisor that the dividend
lacks. -/
def lacked (l r : Resolved)
    (hproper : ∃ name ∈ l.header.names, name ∉ r.header.names) : Resolved :=
  ⟨l.header, (((l.shortened r hproper).paired r).projected
    l.header).tuples.difference l.tuples⟩

include hl in
/-- The candidates fit what is left of the header. -/
theorem WellFormed.shortened : (l.shortened r hproper).WellFormed :=
  hl.projected fun _ ha => (Header.mem_without.1 ha).1

include hl hr hsub in
/-- A candidate merged with a row of the divisor has the names of the
dividend. -/
theorem project_candidate_merge (hu : u ∈ (l.shortened r hproper).tuples.rows)
    (ht : t ∈ r.tuples.rows) :
    (u.merge t).project l.header.names = u.merge t := by
  have hfits := ((hl.shortened hproper).fits u hu).merge_joined (hr.fits t ht)
  refine Tuple.project_of_names fun name => ?_
  rw [hfits.names, Header.mem_names_iff, Header.mem_names_iff]
  show (∃ a ∈ ((l.header.remainder r.header hproper).joined
    r.header).attributes, _) ↔ _
  simp only [Header.mem_joined_remainder hproper hsub]

include hl hr hsub in
/-- A candidate is found among the shortened rows of the pairs that the
dividend lacks exactly if it lacks one that is made with the candidate. -/
theorem contains_projected_lacked
    (hu : u ∈ (l.shortened r hproper).tuples.rows) :
    ((l.lacked r hproper).projected
        (l.header.remainder r.header hproper)).tuples.contains u = true
      ↔ ∃ t ∈ r.tuples.rows, l.tuples.contains (u.merge t) = false := by
  have hfits : ∀ v ∈ (l.shortened r hproper).tuples.rows, ∀ t,
      (v.merge t).project (l.header.remainder r.header hproper).names = v :=
    fun v hv t => ((hl.shortened hproper).fits v hv).project_merge_left
  constructor
  · intro h
    obtain ⟨w, hw, hwu⟩ := Tuples.contains_iff.1 h
    obtain ⟨x, hx, rfl⟩ := mem_of_mem_projected hw
    obtain ⟨hx, hlacked⟩ := List.mem_filter.1 hx
    obtain ⟨y, hy, rfl⟩ := mem_of_mem_projected hx
    obtain ⟨v, hv, t, ht, rfl⟩ := mem_of_mem_paired hy
    rw [project_candidate_merge hl hr hsub hproper hv ht] at hlacked hwu
    rw [hfits v hv t] at hwu
    rw [Tuples.eq_of_beq hv hu hwu] at hlacked
    exact ⟨t, ht, by simpa using hlacked⟩
  · rintro ⟨t, ht, hlacked⟩
    have hpair : (((l.shortened r hproper).paired r).projected
        l.header).tuples.contains (u.merge t) = true := by
      rw [← project_candidate_merge hl hr hsub hproper hu ht]
      exact contains_projected (contains_paired hu ht)
    have hfound := contains_projected (x := l.lacked r hproper)
      (k := l.header.remainder r.header hproper)
      (Tuples.contains_difference hpair hlacked)
    rwa [hfits u hu t] at hfound

/-- The first plan lists the candidates: the rows of the dividend without the
attributes of the divisor. -/
theorem eval_candidates :
    (Plan.candidates l r).eval = .ok (l.shortened r hproper) := by
  have hnames : Plan.quotientNames l r
      = (l.header.remainder r.header hproper).names :=
    (Header.names_remainder hproper).symm
  show l.project (Plan.quotientNames l r) = _
  rw [hnames]
  exact project_names fun _ ha => (Header.mem_without.1 ha).1

include hsub in
/-- The pairs that the dividend lacks: the headers line up all along, so
no step of the plan fails. -/
theorem eval_lacked :
    (((l.shortened r hproper).product r
        >>= fun pairs => pairs.project l.header.names)
        >>= fun rows => setOperation Tuples.difference rows l)
      = .ok (l.lacked r hproper) := by
  have hdisjoint : ∀ name ∈ (l.shortened r hproper).header.names,
      name ∉ r.header.names :=
    fun name hname =>
      ((Header.mem_names_remainder hproper).1 hname).2
  have hall : ∀ a ∈ l.header.attributes,
      a ∈ ((l.shortened r hproper).paired r).header.attributes :=
    fun a ha => (Header.mem_joined_remainder hproper hsub).2 ha
  rw [product_of_disjoint hdisjoint]
  show (((l.shortened r hproper).paired r).project l.header.names >>= fun x =>
    setOperation Tuples.difference x l) = _
  rw [project_names hall]
  exact setOperation_of_header_eq Tuples.difference rfl

include hsub in
/-- The second plan takes from the candidates those that lack a pair with some
row of the divisor. -/
theorem eval_quotient :
    (Plan.quotient (l.shortened r hproper) l r).eval
      = .ok ⟨l.header.remainder r.header hproper,
          (l.shortened r hproper).tuples.difference
            ((l.lacked r hproper).projected
              (l.header.remainder r.header hproper)).tuples⟩ := by
  have hnames : Plan.quotientNames l r
      = (l.header.remainder r.header hproper).names :=
    (Header.names_remainder hproper).symm
  have hrest : ∀ a ∈ (l.header.remainder r.header hproper).attributes,
      a ∈ (l.lacked r hproper).header.attributes :=
    fun _ ha => (Header.mem_without.1 ha).1
  show (((((l.shortened r hproper).product r
        >>= fun pairs => pairs.project l.header.names)
        >>= fun rows => setOperation Tuples.difference rows l)
        >>= fun lacked => lacked.project (Plan.quotientNames l r))
        >>= fun rest =>
          setOperation Tuples.difference (l.shortened r hproper) rest) = _
  rw [eval_lacked hsub hproper]
  show ((l.lacked r hproper).project (Plan.quotientNames l r) >>= fun rest =>
    setOperation Tuples.difference (l.shortened r hproper) rest) = _
  rw [hnames, project_names hrest]
  exact setOperation_of_header_eq Tuples.difference rfl

include hsub in
/-- So a division with attributes left succeeds, whatever the rows. -/
theorem divide_of_proper :
    BinaryOperator.divide.apply l r
      = .ok ⟨l.header.remainder r.header hproper,
          (l.shortened r hproper).tuples.difference
            ((l.lacked r hproper).projected
              (l.header.remainder r.header hproper)).tuples⟩ := by
  show (l.header.requireSuperset r.header >>= fun _ =>
    (Plan.candidates l r).eval >>= fun c => (Plan.quotient c l r).eval) = _
  rw [Header.requireSuperset_of_subset hsub]
  show ((Plan.candidates l r).eval >>= _) = _
  rw [eval_candidates hproper]
  exact eval_quotient hsub hproper

include hl hr hsub in
/-- Division keeps the candidates that go with all rows of the divisor. -/
theorem divide_eq :
    BinaryOperator.divide.apply l r
      = .ok ⟨l.header.remainder r.header hproper,
          (l.shortened r hproper).tuples.filter fun u =>
            ∀ t ∈ r.tuples.rows, l.tuples.contains (u.merge t) = true⟩ := by
  have hkept : (l.shortened r hproper).tuples.difference
        ((l.lacked r hproper).projected
          (l.header.remainder r.header hproper)).tuples
      = (l.shortened r hproper).tuples.filter fun u =>
          ∀ t ∈ r.tuples.rows, l.tuples.contains (u.merge t) = true := by
    refine Tuples.filter_congr fun u hu => ?_
    rw [Bool.eq_iff_iff, Bool.not_eq_true', ← Bool.not_eq_true,
      contains_projected_lacked hl hr hsub hproper hu, decide_eq_true_iff]
    simp only [not_exists, not_and, Bool.not_eq_false]
  rw [divide_of_proper hsub hproper, hkept]

end Quotient

end Resolved

end RelAlgebra
