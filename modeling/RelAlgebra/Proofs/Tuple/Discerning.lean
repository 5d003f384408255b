/-
Rows whose values are the same as soon as they are equal. Floats may be
equal without being the same, as the two zeros are; where they are not,
equal rows are the same row. Rows that operators make have no other values
than those that they are made from, but for the absent one.
-/
import RelAlgebra.Proofs.Tuples.Equality

namespace RelAlgebra

/-- Values that are the same as soon as they are equal, with the absent
value among them. -/
structure Discerning (V : Value → Prop) : Prop where
  null : V .null
  eq_of_beq : ∀ {v w : Value}, V v → V w → (v == w) = true → v = w

namespace Tuple

variable {V : Value → Prop} {t u : Tuple}

/-- Whether the row stores only such values. -/
def Over (V : Value → Prop) (t : Tuple) : Prop :=
  ∀ name value, t.get? name = some value → V value

/-- Rows of such values are the same as soon as they are equal. -/
theorem Over.eq_of_beq (hV : Discerning V) (ht : t.Over V) (hu : u.Over V)
    (h : (t == u) = true) : t = u := by
  have hpairs : t.pairs = u.pairs := by
    refine list_eq_of_beq (fun p hp q hq hpq => ?_) h
    have hpq : (p.1 == q.1 && p.2 == q.2) = true := hpq
    rw [Bool.and_eq_true, beq_iff_eq] at hpq
    have hp := ht p.1 p.2 (get?_eq_some_iff.2 hp)
    have hq := hu q.1 q.2 (get?_eq_some_iff.2 hq)
    exact Prod.ext hpq.1 (hV.eq_of_beq hp hq hpq.2)
  exact ext_get? fun name => by rw [get?, get?, hpairs]

/-- A missing name reads as the absent value, which is one of the values. -/
theorem Over.getD (hV : Discerning V) (ht : t.Over V) (name : String) :
    V (t.getD name) := by
  unfold Tuple.getD
  cases h : t.get? name with
  | none => exact hV.null
  | some value => exact ht name value h

/-- A projected row has no new values, except that a missing one is absent. -/
theorem Over.project (hV : Discerning V) (ht : t.Over V)
    (names : List String) : (t.project names).Over V := by
  intro name value h
  rw [get?_project] at h
  split at h
  · cases h
    exact ht.getD hV name
  · cases h

theorem Over.renamed (ht : t.Over V) (old new : String) :
    (t.renamed old new).Over V := by
  intro name value h
  rw [get?_renamed] at h
  split at h
  · split at h
    · exact ht old value h
    · split at h
      · cases h
      · exact ht name value h
  · exact ht name value h

/-- A merged row has the values of both. -/
theorem Over.merge (ht : t.Over V) (hu : u.Over V) : (t.merge u).Over V := by
  intro name value h
  rw [get?_merge, Option.or_eq_some_iff] at h
  rcases h with h | ⟨-, h⟩
  · exact ht name value h
  · exact hu name value h

end Tuple

end RelAlgebra
