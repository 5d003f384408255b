/-
Semi joins of well-formed relations. They are plans: join, project back on
the names of one side, and for the anti join take the result away. Projected
back, every joined row is the row that it was merged from, once for each of
its partners, and collecting leaves one of these. So a semi join is a
filter: it keeps the rows that have a partner, and the anti join keeps the
others, all of them as they are and in their order.
-/
import RelAlgebra.Proofs.Algebra.NaturalJoin
import RelAlgebra.Proofs.Algebra.Selection

namespace RelAlgebra

namespace Resolved

variable {l r x : Resolved} {k : Header} {t : Tuple}

-- ========================================================= projections

/-- The relation projected on the names of a header. -/
def projected (x : Resolved) (k : Header) : Resolved :=
  ⟨k, .ofList (x.tuples.rows.map (·.project k.names))⟩

/-- Projecting on the names of a header gives that header, if all of its
attributes are there. -/
theorem project_names (hsub : ∀ a ∈ k.attributes, a ∈ x.header.attributes) :
    x.project k.names = .ok (x.projected k) := by
  have hnames : ∀ name ∈ k.names, name ∈ x.header.names := by
    intro name hname
    obtain ⟨a, ha, rfl⟩ := Header.mem_names_iff.1 hname
    exact Header.mem_names_of_mem (hsub a ha)
  unfold project
  rw [Header.require_of_mem hnames,
    Header.filterMap_attribute?_of_subset hsub]
  show (Header.derive k.attributes >>= _) = _
  rw [Header.derive_attributes]
  rfl

-- ============================================================ partners

/-- Whether a row of `l` agrees with some row of `r` on all names that the
two relations share. -/
def Partnered (l r : Resolved) (t : Tuple) : Prop :=
  ∃ u ∈ r.tuples.rows, ∀ name ∈ l.header.names, name ∈ r.header.names →
    (t.get? name == u.get? name) = true

instance (l r : Resolved) : DecidablePred (l.Partnered r) := fun t =>
  inferInstanceAs (Decidable (∃ u ∈ r.tuples.rows, ∀ name ∈ l.header.names,
    name ∈ r.header.names → (t.get? name == u.get? name) = true))

/-- A partner is a row that agrees on the common names. -/
theorem partnered_iff :
    l.Partnered r t
      ↔ ∃ u ∈ r.tuples.rows,
          t.agreeOn ((r.header.overlap l.header).map Attribute.name) u
            = true := by
  unfold Partnered
  simp only [Tuple.agreeOn_iff, Header.mem_names_overlap, and_imp]

/-- The rows of `l` that have a partner in `r`. -/
def withPartner (l r : Resolved) : Resolved :=
  ⟨l.header, l.tuples.filter fun t => l.Partnered r t⟩

/-- The rows of `l` that have no partner in `r`. -/
def withoutPartner (l r : Resolved) : Resolved :=
  ⟨l.header, l.tuples.filter fun t => !l.Partnered r t⟩

/-- Joined and projected back, each row is there once for each of its
partners, and is collected once. -/
theorem projected_joined (hl : l.WellFormed) (hr : r.WellFormed) :
    (l.joined r).projected l.header = l.withPartner r := by
  have hback : (l.joined r).tuples.rows.map (·.project l.header.names)
      = l.tuples.rows.flatMap fun t =>
          (r.tuples.rows.filter (t.agreeOn
            ((r.header.overlap l.header).map Attribute.name))).map
              fun _ => t := by
    rw [rows_joined hl hr]
    unfold joinedRows
    rw [List.map_flatMap]
    refine List.flatMap_congr fun t ht => ?_
    rw [List.map_map]
    exact List.map_congr_left fun u _ => (hl.fits t ht).project_merge_left
  have hpartner : ∀ t, (!(r.tuples.rows.filter (t.agreeOn
        ((r.header.overlap l.header).map Attribute.name))).isEmpty)
      = decide (l.Partnered r t) := by
    intro t
    rw [Bool.eq_iff_iff, Bool.not_eq_true', ← Bool.not_eq_true,
      List.isEmpty_iff, List.filter_eq_nil_iff, decide_eq_true_iff,
      partnered_iff]
    simp only [not_forall, not_not, exists_prop]
  unfold projected withPartner Tuples.ofList
  rw [hback, Tuples.insertAll_flatMap_const]
  simp only [hpartner]
  exact congrArg (Resolved.mk l.header) (Tuples.ofList_filter _ _)

end Resolved

-- =============================================================== plans

namespace SemiJoinKind

variable {l r : Resolved}

/-- On compatible headers no step of the plan fails, whatever the rows. -/
theorem eval_left_of_compatible (hc : l.header.Compatible r.header) :
    (left.plan l r).eval = .ok ((l.joined r).projected l.header) := by
  have hsub : ∀ a ∈ l.header.attributes,
      a ∈ (l.joined r).header.attributes :=
    fun a ha => Header.mem_joined.2 (.inl ha)
  show (l.naturalJoin r >>= fun x => x.project l.header.names) = _
  rw [Resolved.naturalJoin_of_compatible hc]
  exact Resolved.project_names hsub

/-- The plan of an anti join takes away what the plan of a semi join keeps. -/
theorem eval_anti_of_compatible (hc : l.header.Compatible r.header) :
    (anti.plan l r).eval
      = .ok ⟨l.header, l.tuples.difference
          ((l.joined r).projected l.header).tuples⟩ := by
  show ((left.plan l r).eval >>= fun x =>
    Resolved.setOperation Tuples.difference l x) = _
  rw [eval_left_of_compatible hc]
  exact Resolved.setOperation_of_header_eq Tuples.difference rfl

/-- A left semi join keeps the rows with a partner. -/
theorem eval_left (hl : l.WellFormed) (hr : r.WellFormed)
    (hc : l.header.Compatible r.header) :
    (left.plan l r).eval = .ok (l.withPartner r) := by
  rw [eval_left_of_compatible hc, Resolved.projected_joined hl hr]

theorem eval_anti (hl : l.WellFormed) (hr : r.WellFormed)
    (hc : l.header.Compatible r.header) :
    (anti.plan l r).eval = .ok (l.withoutPartner r) := by
  have hrows : l.tuples.difference (l.withPartner r).tuples
      = (l.withoutPartner r).tuples := Tuples.difference_filter l.tuples _
  rw [eval_anti_of_compatible hc, Resolved.projected_joined hl hr, hrows]
  rfl

/-- Relations whose headers are not compatible have no semi join of either
kind, as they do not join. -/
theorem eval_left_of_not_compatible (hc : ¬l.header.Compatible r.header) :
    (left.plan l r).eval
      = .error (.incompatibleAttributes (l.header.conflicts r.header)) := by
  show (l.naturalJoin r >>= fun x => x.project l.header.names) = _
  rw [Resolved.naturalJoin_of_not_compatible hc]
  rfl

theorem eval_anti_of_not_compatible (hc : ¬l.header.Compatible r.header) :
    (anti.plan l r).eval
      = .error (.incompatibleAttributes (l.header.conflicts r.header)) := by
  show ((left.plan l r).eval >>= fun x =>
    Resolved.setOperation Tuples.difference l x) = _
  rw [eval_left_of_not_compatible hc]
  rfl

end SemiJoinKind

-- ============================================================ partition

namespace Resolved

variable {l r : Resolved}

/-- No row is both with and without a partner. -/
theorem intersection_partners (l r : Resolved) :
    setOperation Tuples.intersection (l.withPartner r) (l.withoutPartner r)
      = .ok ⟨l.header, .empty⟩ := by
  have hheader : (l.withPartner r).header = (l.withoutPartner r).header := rfl
  have hnone : (l.withPartner r).tuples.intersection
      (l.withoutPartner r).tuples = .empty := by
    show (l.tuples.filter _).intersection (l.tuples.filter _) = _
    rw [Tuples.intersection_filter]
    refine Tuples.ext_rows (List.filter_eq_nil_iff.2 fun t _ h => ?_)
    simp at h
  rw [setOperation_of_header_eq _ hheader, hnone]
  rfl

/-- The union lists the rows with a partner first. -/
theorem union_partners (l r : Resolved) :
    ∃ x, setOperation Tuples.union (l.withPartner r) (l.withoutPartner r)
        = .ok x
      ∧ x.header = l.header ∧ x.tuples.rows.Perm l.tuples.rows := by
  have hheader : (l.withPartner r).header = (l.withoutPartner r).header := rfl
  refine ⟨_, setOperation_of_header_eq _ hheader, rfl, ?_⟩
  have hperm := Tuples.perm_union_filter l.tuples
    (fun t => decide (l.Partnered r t)) fun t => !decide (l.Partnered r t)
  have hall : (l.tuples.filter fun t =>
      decide (l.Partnered r t) || !decide (l.Partnered r t)).rows
      = l.tuples.rows :=
    List.filter_eq_self.2 fun t _ => by simp
  rwa [hall] at hperm

end Resolved

end RelAlgebra
