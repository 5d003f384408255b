/-
Merged rows. Two rows match if they have equal values under every name that
both have. This does not depend on any header, and it goes through merging
from both sides: of three rows, the first two match and their merge matches
the third exactly if the last two match and the first matches their merge.
Merging itself associates exactly, and commutes up to equality where rows
match.
-/
import RelAlgebra.Algebra.Binary
import RelAlgebra.Proofs.Tuples.Equality

namespace RelAlgebra.Tuple

variable {t t' u u' v : Tuple} {names : List String}

-- ============================================================ matching

/-- The rows have equal values under every name that both have. -/
def Matches (t u : Tuple) : Prop :=
  ∀ name value value', t.get? name = some value → u.get? name = some value' →
    (value == value') = true

theorem Matches.symm (h : t.Matches u) : u.Matches t :=
  fun name value value' hvalue hvalue' =>
    BEq.symm (h name value' value hvalue' hvalue)

theorem agreeOn_iff :
    t.agreeOn names u = true
      ↔ ∀ name ∈ names, (t.get? name == u.get? name) = true :=
  List.all_eq_true

theorem beq_get?_of_some {name : String} {value value' : Value}
    (h : t.get? name = some value) (h' : u.get? name = some value') :
    (t.get? name == u.get? name) = (value == value') := by
  rw [h, h']
  rfl

/-- The value of a name that the left row has is found in a merged row,
else that of the right one. -/
theorem get?_merge_eq_some_iff {name : String} {value : Value} :
    (t.merge u).get? name = some value
      ↔ t.get? name = some value
        ∨ t.get? name = none ∧ u.get? name = some value := by
  rw [get?_merge, Option.or_eq_some_iff]

/-- Where the left rows match, it is the same to match their merge or both
of them. -/
theorem matches_merge_left (h : t.Matches u) :
    (t.merge u).Matches v ↔ t.Matches v ∧ u.Matches v := by
  constructor
  · intro hv
    have ht : t.Matches v := fun name value value' hvalue hvalue' =>
      hv name value value' (get?_merge_eq_some_iff.2 (.inl hvalue)) hvalue'
    refine ⟨ht, fun name value value' hvalue hvalue' => ?_⟩
    cases hleft : t.get? name with
    | none =>
        exact hv name value value'
          (get?_merge_eq_some_iff.2 (.inr ⟨hleft, hvalue⟩)) hvalue'
    | some first =>
        exact BEq.trans (BEq.symm (h name first value hleft hvalue))
          (ht name first value' hleft hvalue')
  · rintro ⟨ht, hu⟩ name value value' hvalue hvalue'
    rcases get?_merge_eq_some_iff.1 hvalue with hvalue | ⟨-, hvalue⟩
    · exact ht name value value' hvalue hvalue'
    · exact hu name value value' hvalue hvalue'

/-- A row matches a merged one exactly if it matches both parts, as these
match. -/
theorem matches_merge_right (h : u.Matches v) :
    t.Matches (u.merge v) ↔ t.Matches u ∧ t.Matches v := by
  have hsymm : ∀ {t u : Tuple}, t.Matches u ↔ u.Matches t :=
    ⟨Matches.symm, Matches.symm⟩
  rw [hsymm, matches_merge_left h, hsymm (t := u), hsymm (t := v)]

/-- Three rows are matched pair by pair, however they are grouped. -/
theorem matches_assoc :
    t.Matches u ∧ (t.merge u).Matches v
      ↔ u.Matches v ∧ t.Matches (u.merge v) := by
  constructor
  · rintro ⟨htu, hv⟩
    obtain ⟨htv, huv⟩ := (matches_merge_left htu).1 hv
    exact ⟨huv, (matches_merge_right huv).2 ⟨htu, htv⟩⟩
  · rintro ⟨huv, ht⟩
    obtain ⟨htu, htv⟩ := (matches_merge_right huv).1 ht
    exact ⟨htu, (matches_merge_left htu).2 ⟨htv, huv⟩⟩

-- ============================================================= merging

/-- Merging is associative: the leftmost row with the name wins. -/
theorem merge_assoc (t u v : Tuple) :
    (t.merge u).merge v = t.merge (u.merge v) :=
  ext_get? fun name => by simp only [get?_merge, Option.or_assoc]

/-- Rows that match merge to equal rows either way. -/
theorem merge_comm (h : t.Matches u) : (t.merge u == u.merge t) = true := by
  rw [beq_iff_get?]
  intro name
  rw [get?_merge, get?_merge]
  cases ht : t.get? name with
  | none => simp
  | some value =>
      cases hu : u.get? name with
      | none => simp
      | some value' => exact h name value value' ht hu

/-- Equal rows have the same names, with equal values. -/
theorem get?_of_beq (h : (t == u) = true) (name : String) :
    t.get? name = none ∧ u.get? name = none
      ∨ ∃ value value', t.get? name = some value ∧ u.get? name = some value'
          ∧ (value == value') = true := by
  have hname := (beq_iff_get? t u).1 h name
  cases ht : t.get? name with
  | none =>
      cases hu : u.get? name with
      | none => exact .inl ⟨rfl, rfl⟩
      | some value' =>
          rw [ht, hu] at hname
          cases hname
  | some value =>
      cases hu : u.get? name with
      | none =>
          rw [ht, hu] at hname
          cases hname
      | some value' =>
          rw [ht, hu] at hname
          exact .inr ⟨value, value', rfl, rfl, hname⟩

-- ========================================================== projecting

/-- Equal rows have equal values under each name. -/
theorem getD_congr (h : (t == u) = true) (name : String) :
    (t.getD name == u.getD name) = true := by
  rcases get?_of_beq h name with ⟨ht, hu⟩ | ⟨value, value', ht, hu, hvalue⟩
  · rw [getD, getD, ht, hu]
    rfl
  · rw [getD_of_get? ht, getD_of_get? hu]
    exact hvalue

/-- Equal rows have equal projections. -/
theorem project_congr (h : (t == u) = true) (names : List String) :
    (t.project names == u.project names) = true := by
  rw [beq_iff_get?]
  intro name
  rw [get?_project, get?_project]
  by_cases hname : name ∈ names
  · rw [if_pos hname, if_pos hname]
    exact getD_congr h name
  · rw [if_neg hname, if_neg hname]
    rfl

/-- A row projected on the names that it has. -/
theorem project_of_names (h : ∀ name, name ∈ t.names ↔ name ∈ names) :
    t.project names = t := by
  refine ext_get? fun name => ?_
  rw [get?_project]
  by_cases hname : name ∈ names
  · obtain ⟨value, hvalue⟩ :=
      Option.isSome_iff_exists.1 (mem_names_iff.1 ((h name).2 hname))
    rw [if_pos hname, getD_of_get? hvalue, hvalue]
  · rw [if_neg hname, get?_eq_none_iff.2 fun hmem => hname ((h name).1 hmem)]

/-- Projected on the names of the left row, a merged row is the left
row. -/
theorem project_merge_of_names
    (h : ∀ name, name ∈ t.names ↔ name ∈ names) :
    (t.merge u).project names = t := by
  have hsame : (t.merge u).project names = t.project names := by
    refine ext_get? fun name => ?_
    rw [get?_project, get?_project]
    by_cases hname : name ∈ names
    · obtain ⟨value, hvalue⟩ :=
        Option.isSome_iff_exists.1 (mem_names_iff.1 ((h name).2 hname))
      have hmerged : (t.merge u).get? name = some value :=
        get?_merge_eq_some_iff.2 (.inl hvalue)
      rw [getD_of_get? hmerged, getD_of_get? hvalue]
    · rw [if_neg hname, if_neg hname]
  rw [hsame, project_of_names h]

end RelAlgebra.Tuple
