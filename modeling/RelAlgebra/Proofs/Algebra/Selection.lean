/-
Selections. A predicate applies to a relation if the header has all names
that it reads and if it comes to a truth value on every row; a selection
succeeds exactly for predicates that apply, and keeps the rows for which
they hold. A connective applies exactly if its sides do, as each of them is
evaluated on every row, and then it holds where its sides say so. So
selecting by a connective is a set operation on the selections by its
sides, and fails exactly if that does.
-/
import RelAlgebra.Proofs.Header
import RelAlgebra.Proofs.Query.Endings
import RelAlgebra.Proofs.Tuples.Choice

namespace RelAlgebra

/-- Combining two evaluations succeeds exactly if both of them do. -/
theorem exists_ok_combine_iff {ε α β γ : Type} {x : Except ε α}
    {y : Except ε β} {f : α → β → γ} :
    (∃ c, (do let a ← x; let b ← y; return f a b) = Except.ok c)
      ↔ (∃ a, x = .ok a) ∧ ∃ b, y = .ok b := by
  constructor
  · rintro ⟨c, hc⟩
    cases x with
    | error e => cases hc
    | ok a =>
        cases y with
        | error e => cases hc
        | ok b => exact ⟨⟨a, rfl⟩, b, rfl⟩
  · rintro ⟨⟨a, rfl⟩, b, rfl⟩
    exact ⟨f a b, rfl⟩

-- ========================================================== predicates

namespace Predicate

variable {p q : Predicate} {r : Resolved} {t : Tuple}

/-- Whether the predicate comes to a truth value on the row. -/
def Decides (p : Predicate) (t : Tuple) : Prop := ∃ b, p.eval t.get? = .ok b

/-- Whether the predicate holds of the row. -/
def holds (p : Predicate) (t : Tuple) : Bool :=
  Tuples.passes (fun t => p.eval t.get?) t

/-- A predicate that can be decided evaluates to whether it holds. -/
theorem eval_of_decides (h : p.Decides t) :
    p.eval t.get? = .ok (p.holds t) := by
  obtain ⟨b, hb⟩ := h
  simp [holds, Tuples.passes, hb]

theorem holds_of_eval {b : Bool} (h : p.eval t.get? = .ok b) :
    p.holds t = b := by
  simp [holds, Tuples.passes, h]

-- Both sides are evaluated, also where the first one settles the matter.

/-- Both sides of a conjunction are evaluated, so it is decided if
both are. -/
theorem decides_and : (p.and q).Decides t ↔ p.Decides t ∧ q.Decides t := by
  unfold Decides
  rw [Predicate.eval]
  exact exists_ok_combine_iff

theorem decides_or : (p.or q).Decides t ↔ p.Decides t ∧ q.Decides t := by
  unfold Decides
  rw [Predicate.eval]
  exact exists_ok_combine_iff

theorem decides_not : p.not.Decides t ↔ p.Decides t := by
  unfold Decides
  rw [Predicate.eval]
  constructor
  · rintro ⟨b, hb⟩
    cases hp : p.eval t.get? with
    | error e => rw [hp] at hb; cases hb
    | ok a => exact ⟨a, rfl⟩
  · rintro ⟨a, ha⟩
    exact ⟨!a, by rw [ha]; rfl⟩

/-- On rows that decide both sides, a conjunction is their conjunction. -/
theorem holds_and (hp : p.Decides t) (hq : q.Decides t) :
    (p.and q).holds t = (p.holds t && q.holds t) := by
  refine holds_of_eval ?_
  rw [Predicate.eval, eval_of_decides hp, eval_of_decides hq]
  rfl

theorem holds_or (hp : p.Decides t) (hq : q.Decides t) :
    (p.or q).holds t = (p.holds t || q.holds t) := by
  refine holds_of_eval ?_
  rw [Predicate.eval, eval_of_decides hp, eval_of_decides hq]
  rfl

theorem holds_not (hp : p.Decides t) : p.not.holds t = !p.holds t := by
  refine holds_of_eval ?_
  rw [Predicate.eval, eval_of_decides hp]
  rfl

/-- Whether the predicate can be asked of the relation: the header has all
names that it reads, and it comes to a truth value on every row. -/
structure AppliesTo (p : Predicate) (r : Resolved) : Prop where
  names : ∀ name ∈ p.attributes, name ∈ r.header.names
  rows : ∀ t ∈ r.tuples.rows, p.Decides t

/-- A conjunction applies where both sides do. -/
theorem appliesTo_and :
    (p.and q).AppliesTo r ↔ p.AppliesTo r ∧ q.AppliesTo r := by
  constructor
  · intro ⟨hnames, hrows⟩
    refine ⟨⟨fun name hname => hnames name ?_, fun t ht => ?_⟩,
      ⟨fun name hname => hnames name ?_, fun t ht => ?_⟩⟩
    · exact NameSet.mem_union.2 (.inl hname)
    · exact (decides_and.1 (hrows t ht)).1
    · exact NameSet.mem_union.2 (.inr hname)
    · exact (decides_and.1 (hrows t ht)).2
  · intro ⟨hp, hq⟩
    refine ⟨fun name hname => ?_, fun t ht => ?_⟩
    · exact (NameSet.mem_union.1 hname).elim (hp.names name) (hq.names name)
    · exact decides_and.2 ⟨hp.rows t ht, hq.rows t ht⟩

/-- The two connectives read the same names and fail on the same rows. -/
theorem appliesTo_or :
    (p.or q).AppliesTo r ↔ p.AppliesTo r ∧ q.AppliesTo r := by
  rw [← appliesTo_and]
  refine ⟨fun ⟨hnames, hrows⟩ => ⟨hnames, fun t ht => ?_⟩,
    fun ⟨hnames, hrows⟩ => ⟨hnames, fun t ht => ?_⟩⟩
  · exact decides_and.2 (decides_or.1 (hrows t ht))
  · exact decides_or.2 (decides_and.1 (hrows t ht))

theorem appliesTo_not : p.not.AppliesTo r ↔ p.AppliesTo r := by
  refine ⟨fun ⟨hnames, hrows⟩ => ⟨hnames, fun t ht => ?_⟩,
    fun ⟨hnames, hrows⟩ => ⟨hnames, fun t ht => ?_⟩⟩
  · exact decides_not.1 (hrows t ht)
  · exact decides_not.2 (hrows t ht)

/-- The order of the rows does not count. -/
theorem appliesTo_congr {x : Resolved} (hheader : x.header = r.header)
    (hrows : x.tuples.rows.Perm r.tuples.rows) :
    p.AppliesTo x ↔ p.AppliesTo r := by
  constructor
  · intro ⟨hnames, hdecides⟩
    exact ⟨hheader ▸ hnames, fun t ht => hdecides t (hrows.mem_iff.2 ht)⟩
  · intro ⟨hnames, hdecides⟩
    exact ⟨hheader ▸ hnames, fun t ht => hdecides t (hrows.mem_iff.1 ht)⟩

end Predicate

-- ========================================================== selections

namespace Resolved

variable {p q : Predicate} {r : Resolved}

/-- The relation with only the rows for which the predicate holds. -/
def chosen (r : Resolved) (p : Predicate) : Resolved :=
  ⟨r.header, r.tuples.filter p.holds⟩

/-- A predicate that applies chooses the rows of which it holds. -/
theorem select_of_appliesTo (h : p.AppliesTo r) :
    r.select p = .ok (r.chosen p) := by
  unfold select
  rw [Header.require_of_mem h.names]
  show (Except.mapError _ (Tuples.ofListWhereM _ _) >>= _) = _
  rw [Tuples.ofListWhereM_of_ok h.rows, Tuples.ofList_filter]
  rfl

/-- The first row on which the predicate fails decides what the failure
is. -/
theorem select_of_first_error {before after : List Tuple} {t : Tuple}
    {e : EvalError} (hnames : ∀ name ∈ p.attributes, name ∈ r.header.names)
    (hrows : r.tuples.rows = before ++ t :: after)
    (hbefore : ∀ u ∈ before, p.Decides u) (h : p.eval t.get? = .error e) :
    r.select p = .error (.predicate e) := by
  have hfirst : Tuples.ofListWhereM (fun t => p.eval t.get?) r.tuples.rows
      = .error e := by
    rw [hrows]
    exact Tuples.ofListWhereM_of_first_error hbefore h
  unfold select
  rw [Header.require_of_mem hnames]
  show (Except.mapError _ (Tuples.ofListWhereM _ _) >>= _) = _
  rw [hfirst]
  rfl

/-- One that does not apply fails on the header or on a row. -/
theorem select_of_not_appliesTo (h : ¬p.AppliesTo r) :
    ∃ e, r.select p = .error e := by
  unfold select
  cases hrequire : r.header.require p.attributes.toList with
  | error e => exact ⟨e, rfl⟩
  | ok =>
      have hrows : ¬∀ t ∈ r.tuples.rows, p.Decides t := fun hrows =>
        h ⟨fun _ hname => Header.mem_of_require hrequire hname, hrows⟩
      simp only [not_forall] at hrows
      obtain ⟨t, ht, hundecided⟩ := hrows
      cases heval : p.eval t.get? with
      | ok b => exact absurd ⟨b, heval⟩ hundecided
      | error e =>
          obtain ⟨e', he'⟩ := Tuples.ofListWhereM_of_error
            (f := fun t => p.eval t.get?) ht heval
          refine ⟨.predicate e', ?_⟩
          show (Except.mapError _ (Tuples.ofListWhereM _ _) >>= _) = _
          rw [he']
          rfl

/-- Selecting succeeds for the predicates that apply, and for no others. -/
theorem select_isOk_iff :
    (∃ a, r.select p = .ok a) ↔ p.AppliesTo r := by
  by_cases hp : p.AppliesTo r
  · exact iff_of_true ⟨_, select_of_appliesTo hp⟩ hp
  · obtain ⟨e, he⟩ := select_of_not_appliesTo hp
    refine iff_of_false (fun ⟨a, ha⟩ => ?_) hp
    rw [he] at ha
    cases ha

/-- A set operation succeeds on relations with one header. -/
theorem setOperation_of_header_eq {a b : Resolved}
    (op : Tuples → Tuples → Tuples) (h : a.header = b.header) :
    setOperation op a b = .ok ⟨a.header, op a.tuples b.tuples⟩ := by
  unfold setOperation Header.requireSame
  rw [if_pos h]
  rfl

/-- Selecting by a connective compares with a set operation on the
selections by both sides as the rows chosen by either do. -/
theorem endsAlike_select {R : Resolved → Resolved → Prop} {c : Predicate}
    {op : Tuples → Tuples → Tuples}
    (hc : c.AppliesTo r ↔ p.AppliesTo r ∧ q.AppliesTo r)
    (hR : p.AppliesTo r → q.AppliesTo r →
      R (r.chosen c)
        ⟨r.header, op (r.chosen p).tuples (r.chosen q).tuples⟩) :
    EndsAlike R (r.select c) (do
      let a ← r.select p
      let b ← r.select q
      setOperation op a b) := by
  by_cases hp : p.AppliesTo r
  · by_cases hq : q.AppliesTo r
    · rw [select_of_appliesTo (hc.2 ⟨hp, hq⟩), select_of_appliesTo hp,
        select_of_appliesTo hq]
      show EndsAlike R _ (setOperation op (r.chosen p) (r.chosen q))
      have hheader : (r.chosen p).header = (r.chosen q).header := rfl
      rw [setOperation_of_header_eq op hheader]
      exact .ok (hR hp hq)
    · obtain ⟨e, he⟩ := select_of_not_appliesTo hq
      obtain ⟨e', he'⟩ := select_of_not_appliesTo fun h => hq (hc.1 h).2
      rw [he, he', select_of_appliesTo hp]
      exact .error
  · obtain ⟨e, he⟩ := select_of_not_appliesTo hp
    obtain ⟨e', he'⟩ := select_of_not_appliesTo fun h => hp (hc.1 h).1
    rw [he, he']
    exact .error

/-- Selecting by both predicates is intersecting the selections. -/
theorem select_and (r : Resolved) (p q : Predicate) :
    EndsAlike (fun a b => a = b) (r.select (p.and q)) (do
      let a ← r.select p
      let b ← r.select q
      setOperation Tuples.intersection a b) := by
  refine endsAlike_select Predicate.appliesTo_and fun hp hq => ?_
  unfold chosen
  rw [Tuples.intersection_filter]
  refine congrArg (Resolved.mk r.header) (Tuples.filter_congr fun t ht => ?_)
  exact Predicate.holds_and (hp.rows t ht) (hq.rows t ht)

/-- Selecting by either predicate has the rows of the union of the
selections. -/
theorem select_or (r : Resolved) (p q : Predicate) :
    EndsAlike (fun a b => a.header = b.header
        ∧ a.tuples.rows.Perm b.tuples.rows)
      (r.select (p.or q)) (do
        let a ← r.select p
        let b ← r.select q
        setOperation Tuples.union a b) := by
  refine endsAlike_select Predicate.appliesTo_or fun hp hq => ⟨rfl, ?_⟩
  have hchosen : r.tuples.filter (p.or q).holds
      = r.tuples.filter fun t => p.holds t || q.holds t :=
    Tuples.filter_congr fun t ht =>
      Predicate.holds_or (hp.rows t ht) (hq.rows t ht)
  show (r.tuples.filter (p.or q).holds).rows.Perm _
  rw [hchosen]
  exact (Tuples.perm_union_filter r.tuples p.holds q.holds).symm

/-- Selecting by a negation is taking the selection away. -/
theorem select_not (r : Resolved) (p : Predicate) :
    EndsAlike (fun a b => a = b) (r.select p.not) (do
      let b ← r.select p
      setOperation Tuples.difference r b) := by
  by_cases hp : p.AppliesTo r
  · rw [select_of_appliesTo (Predicate.appliesTo_not.2 hp),
      select_of_appliesTo hp]
    show EndsAlike _ _ (setOperation Tuples.difference r (r.chosen p))
    have hheader : r.header = (r.chosen p).header := rfl
    rw [setOperation_of_header_eq _ hheader, chosen, chosen,
      Tuples.difference_filter]
    refine .ok (congrArg (Resolved.mk r.header) ?_)
    exact Tuples.filter_congr fun t ht => Predicate.holds_not (hp.rows t ht)
  · obtain ⟨e, he⟩ := select_of_not_appliesTo hp
    obtain ⟨e', he'⟩ := select_of_not_appliesTo fun h =>
      hp (Predicate.appliesTo_not.1 h)
    rw [he, he']
    exact .error

end Resolved

end RelAlgebra
