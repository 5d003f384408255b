/-
What the plans of semi joins and of division fail with, whatever the rows.
Each plan runs several basic operators, every one of which checks headers
that the steps before it have computed. Those headers line up: the plans
succeed wherever their first check does, with one exception, a quotient that
has no attributes left. So no failure of an inner step shows: a semi join
fails as its join does, and division as its own check on the divisor, or for
want of attributes.
-/
import RelAlgebra.Proofs.Algebra.Division

namespace RelAlgebra

-- ============================================================= headers

namespace Header

variable {h k : Header}

/-- The pairs of an attribute of `h` and one of `k` that have one name but
different types, in the order of `k`. -/
def clashes (h k : Header) : List (Attribute × Attribute) :=
  k.attributes.flatMap fun b =>
    (h.attributes.filter fun a => a.name = b.name ∧ a.type ≠ b.type).map
      fun a => (a, b)

/-- Headers clash if an attribute of each has the name of the other but not
its type. -/
theorem not_compatible_iff :
    ¬h.Compatible k
      ↔ ∃ a ∈ h.attributes, ∃ b ∈ k.attributes,
          a.name = b.name ∧ a.type ≠ b.type := by
  simp only [Compatible, not_forall, exists_prop]

/-- Of one name there is the attribute that is looked up, if any. -/
theorem filter_name (h : Header) (name : String) :
    h.attributes.filter (fun a => a.name = name)
      = (h.attribute? name).toList := by
  cases hfind : h.attribute? name with
  | none => exact List.filter_eq_nil_iff.2 (List.find?_eq_none.1 hfind)
  | some a =>
      obtain ⟨ha, rfl⟩ := attribute?_eq_some_iff.1 hfind
      have hsame : ∀ b ∈ h.attributes, (b.name = a.name ↔ b = a) :=
        fun b hb => ⟨eq_of_name_eq hb ha, congrArg Attribute.name⟩
      rw [List.filter_congr fun b hb => decide_eq_decide.2 (hsame b hb),
        List.filter_eq, List.count_eq_one_of_mem (nodup_attributes h) ha]
      rfl

/-- The conflicts that an error lists are all there are. -/
theorem conflicts_eq_clashes (h k : Header) :
    h.conflicts k = h.clashes k := by
  unfold conflicts clashes
  rw [List.filterMap_eq_flatMap_toList]
  refine List.flatMap_congr fun b _ => ?_
  have hsplit : h.attributes.filter
        (fun a => a.name = b.name ∧ a.type ≠ b.type)
      = (h.attribute? b.name).toList.filter (fun a => a.type ≠ b.type) := by
    rw [← filter_name, List.filter_filter]
    refine List.filter_congr fun a _ => ?_
    rw [Bool.decide_and, Bool.and_comm]
  rw [hsplit]
  cases h.attribute? b.name with
  | none => rfl
  | some a =>
      by_cases htype : a.type = b.type
      · simp [htype]
      · simp [htype]

/-- The header of a join is always built. -/
theorem join_ne_header (h k : Header) (e : HeaderError) :
    h.join k ≠ .error (.header e) := by
  by_cases hc : h.Compatible k
  · rw [join_of_compatible hc]
    exact nofun
  · rw [join_of_not_compatible hc]
    exact nofun

/-- A product of headers with a common name fails, and shows the attributes
that share names. -/
theorem product_of_not_disjoint
    (hshared : ∃ name ∈ h.names, name ∈ k.names) :
    h.product k = .error (.notDisjoint (h.overlap k) (k.overlap h)) := by
  obtain ⟨name, hleft, hright⟩ := hshared
  obtain ⟨a, ha, rfl⟩ := mem_names_iff.1 hleft
  have hmem : a ∈ h.overlap k :=
    List.mem_filter.2 ⟨ha, contains_iff.2 hright⟩
  unfold product
  cases hoverlap : h.overlap k with
  | nil =>
      rw [hoverlap] at hmem
      cases hmem
  | cons b rest => rfl

theorem product_ne_header (h k : Header) (e : HeaderError) :
    h.product k ≠ .error (.header e) := by
  by_cases hshared : ∃ name ∈ h.names, name ∈ k.names
  · rw [product_of_not_disjoint hshared]
    exact nofun
  · rw [product_of_disjoint fun name hleft hright =>
      hshared ⟨name, hleft, hright⟩]
    exact nofun

/-- A divisor with an attribute that the dividend lacks is refused. -/
theorem requireSuperset_of_not_subset
    (hsub : ¬∀ a ∈ k.attributes, a ∈ h.attributes) :
    h.requireSuperset k
      = .error (.notSuperset h.attributes k.attributes) := by
  unfold requireSuperset
  rw [if_neg]
  intro hall
  refine hsub fun a ha => ?_
  have hfind := decide_eq_true_iff.1 (List.all_eq_true.1 hall a ha)
  exact (attribute?_eq_some_iff.1 hfind).1

end Header

-- ========================================================== semi joins

namespace SemiJoinKind

variable {l r : Resolved} {e : QueryError}

/-- A semi join that keeps rows of the left relation, be it those with a
partner or the others, fails exactly where names clash, and shows them. -/
theorem eval_eq_error_iff {kind : SemiJoinKind}
    (hkind : kind = .left ∨ kind = .anti) :
    (kind.plan l r).eval = .error e
      ↔ ¬l.header.Compatible r.header
        ∧ e = .incompatibleAttributes (l.header.clashes r.header) := by
  by_cases hc : l.header.Compatible r.header
  · have hends : ∃ x, (kind.plan l r).eval = .ok x := by
      rcases hkind with rfl | rfl
      · exact ⟨_, eval_left_of_compatible hc⟩
      · exact ⟨_, eval_anti_of_compatible hc⟩
    obtain ⟨x, hx⟩ := hends
    rw [hx]
    exact iff_of_false nofun fun h => h.1 hc
  · have hfails : (kind.plan l r).eval
        = .error (.incompatibleAttributes (l.header.clashes r.header)) := by
      rw [← Header.conflicts_eq_clashes]
      rcases hkind with rfl | rfl
      · exact eval_left_of_not_compatible hc
      · exact eval_anti_of_not_compatible hc
    rw [hfails, Except.error.injEq, eq_comm]
    exact (and_iff_right hc).symm

end SemiJoinKind

-- ============================================================ division

namespace Resolved

variable {l r : Resolved} {e : QueryError}

theorem divide_of_not_subset
    (hsub : ¬∀ a ∈ r.header.attributes, a ∈ l.header.attributes) :
    BinaryOperator.divide.apply l r
      = .error (.notSuperset l.header.attributes r.header.attributes) := by
  show (l.header.requireSuperset r.header >>= _) = _
  rw [Header.requireSuperset_of_not_subset hsub]
  rfl

/-- A divisor with all attributes of the dividend leaves none to project
on. -/
theorem divide_of_covering
    (hsub : ∀ a ∈ r.header.attributes, a ∈ l.header.attributes)
    (hcover : ∀ a ∈ l.header.attributes, a ∈ r.header.attributes) :
    BinaryOperator.divide.apply l r = .error (.header .empty) := by
  have hnone : Plan.quotientNames l r = [] := by
    refine List.filter_eq_nil_iff.2 fun name hname => ?_
    obtain ⟨a, ha, rfl⟩ := Header.mem_names_iff.1 hname
    rw [Header.not_contains_iff, not_not]
    exact Header.mem_names_of_mem (hcover a ha)
  have hcandidates : (Plan.candidates l r).eval
      = .error (.header .empty) := by
    show l.project (Plan.quotientNames l r) = _
    rw [hnone]
    rfl
  show (l.header.requireSuperset r.header >>= fun _ =>
    (Plan.candidates l r).eval >>= _) = _
  rw [Header.requireSuperset_of_subset hsub, hcandidates]
  rfl

/-- Division fails if the divisor has an attribute that the dividend lacks,
or else if it has all of them. -/
theorem divide_eq_error_iff :
    BinaryOperator.divide.apply l r = .error e
      ↔ (∃ a ∈ r.header.attributes, a ∉ l.header.attributes)
          ∧ e = .notSuperset l.header.attributes r.header.attributes
        ∨ (∀ a ∈ r.header.attributes, a ∈ l.header.attributes)
          ∧ (∀ a ∈ l.header.attributes, a ∈ r.header.attributes)
          ∧ e = .header .empty := by
  by_cases hlacks : ∃ a ∈ r.header.attributes, a ∉ l.header.attributes
  · have hsub : ¬∀ a ∈ r.header.attributes, a ∈ l.header.attributes := by
      simpa only [not_forall, exists_prop] using hlacks
    rw [divide_of_not_subset hsub, Except.error.injEq, eq_comm]
    exact ⟨fun he => .inl ⟨hlacks, he⟩,
      fun h => h.elim And.right fun h => absurd h.1 hsub⟩
  · have hsub : ∀ a ∈ r.header.attributes, a ∈ l.header.attributes := by
      simpa only [not_exists, not_and, not_not] using hlacks
    by_cases hcover : ∀ a ∈ l.header.attributes, a ∈ r.header.attributes
    · rw [divide_of_covering hsub hcover, Except.error.injEq, eq_comm]
      exact ⟨fun he => .inr ⟨hsub, hcover, he⟩,
        fun h => h.elim (fun h => absurd h.1 hlacks) fun h => h.2.2⟩
    · have hproper : ∃ name ∈ l.header.names, name ∉ r.header.names := by
        simp only [not_forall, exists_prop] at hcover
        obtain ⟨a, ha, hfree⟩ := hcover
        exact ⟨a.name, Header.mem_names_of_mem ha,
          fun hname => hfree (Header.mem_of_mem_names hsub ha hname)⟩
      rw [divide_of_proper hsub hproper]
      exact ⟨nofun, fun h => h.elim (fun h => absurd h.1 hlacks)
        fun h => absurd h.2.1 hcover⟩

end Resolved

end RelAlgebra
