/-
Total orders that agree with a partial one. A coherent comparison of
finitely many elements may leave two of them without an order; then it can
be extended to a total preorder in which either of the two comes first, as
one likes. The extension ranks each element by how many are below it, once
the elements up to the first of the two have been put below those from the
second one on.
-/
import Mathlib.Data.Finset.Card
import Mathlib.Data.Fintype.Basic
import RelAlgebra.Proofs.Value.Order

namespace RelAlgebra.Coherent

variable {ι : Type} {R : ι → ι → Ordering → Prop} {i j a b c : ι}
  {o : Ordering}

/-- `a` is the same element as `b`, or compares as no greater. -/
def UpTo (R : ι → ι → Ordering → Prop) (a b : ι) : Prop :=
  a = b ∨ ∃ o, R a b o ∧ o ≠ .gt

/-- `a` is less than `b`, or is so as soon as `i` is put below `j`. -/
def Below (R : ι → ι → Ordering → Prop) (i j a b : ι) : Prop :=
  R a b .lt ∨ UpTo R a i ∧ UpTo R j b

section Laws

variable (hR : Coherent R)

include hR

/-- Whoever is up to another is up to whoever is above that one. -/
theorem upTo_trans (hab : UpTo R a b) (hbc : R b c o) (ho : o ≠ .gt) :
    UpTo R a c := by
  rcases hab with rfl | ⟨o', hab, ho'⟩
  · exact .inr ⟨o, hbc, ho⟩
  · refine .inr ⟨o'.then o, hR.trans hab hbc ho' ho, ?_⟩
    cases o <;> cases o' <;> simp_all

/-- What is below an element is below all that are no less. -/
theorem below_trans (hab : Below R i j a b) (hbc : R b c o) (ho : o ≠ .gt) :
    Below R i j a c := by
  rcases hab with hab | ⟨ha, hb⟩
  · exact .inl (hR.trans hab hbc nofun ho)
  · exact .inr ⟨ha, upTo_trans hR hb hbc ho⟩

variable (hij : ¬UpTo R j i)

include hij

/-- That no element is below itself is where the two must be without an
order. -/
theorem not_below_self (hlt : ¬R a a .lt) : ¬Below R i j a a := by
  rintro (h | ⟨hai, hja⟩)
  · exact hlt h
  · rcases hai with rfl | ⟨o, hai, ho⟩
    · exact hij hja
    · exact hij (upTo_trans hR hja hai ho)

end Laws

-- =============================================================== ranks

section Ranks

variable [Fintype ι]

open Classical in
/-- The elements that are below this one. -/
noncomputable def lower (R : ι → ι → Ordering → Prop) (i j a : ι) : Finset ι :=
  Finset.univ.filter fun b => Below R i j b a

/-- The lower elements are those below. -/
theorem mem_lower : b ∈ lower R i j a ↔ Below R i j b a := by
  classical
  rw [lower, Finset.mem_filter]
  exact and_iff_right (Finset.mem_univ b)

/-- How many elements are below this one. -/
noncomputable def rank (R : ι → ι → Ordering → Prop) (i j a : ι) : Nat :=
  (lower R i j a).card

theorem lower_subset (h : ∀ c, Below R i j c a → Below R i j c b) :
    lower R i j a ⊆ lower R i j b :=
  fun c hc => mem_lower.2 (h c (mem_lower.1 hc))

theorem rank_le (h : ∀ c, Below R i j c a → Below R i j c b) :
    rank R i j a ≤ rank R i j b :=
  Finset.card_le_card (lower_subset h)

/-- An element that is below the second and not below itself makes the
difference. -/
theorem rank_lt (h : ∀ c, Below R i j c a → Below R i j c b)
    (hb : Below R i j a b) (ha : ¬Below R i j a a) :
    rank R i j a < rank R i j b :=
  Finset.card_lt_card ((Finset.ssubset_iff_of_subset (lower_subset h)).2
    ⟨a, mem_lower.2 hb, mem_lower.not.2 ha⟩)

variable (hR : Coherent R)
  (hunique : ∀ {a b o o'}, R a b o → R a b o' → o = o')

include hR hunique

/-- Elements that have an order have it by their ranks; and of two others
the first has the lower rank. -/
theorem exists_rank (hne : i ≠ j) (hij : ∀ o, ¬R i j o) :
    ∃ rank : ι → Nat,
      (∀ a b o, R a b o → Ord.compare (rank a) (rank b) = o)
        ∧ rank i < rank j := by
  have hupTo : ¬UpTo R j i := by
    rintro (rfl | ⟨o, h, -⟩)
    · exact hne rfl
    · exact hij _ (hR.swap h)
  have hself : ∀ a, ¬Below R i j a a := by
    refine fun a => not_below_self hR hupTo fun h => ?_
    cases hunique h (hR.swap h)
  have hlt : ∀ a b, R a b .lt → rank R i j a < rank R i j b := fun a b h =>
    rank_lt (fun c hc => below_trans hR hc h nofun) (.inl h) (hself a)
  have hle : ∀ a b, R a b .eq → rank R i j a ≤ rank R i j b := fun a b h =>
    rank_le fun c hc => below_trans hR hc h nofun
  refine ⟨rank R i j, fun a b o h => ?_, ?_⟩
  · cases o with
    | lt => exact Nat.compare_eq_lt.2 (hlt a b h)
    | eq =>
        exact Nat.compare_eq_eq.2
          (Nat.le_antisymm (hle a b h) (hle b a (hR.swap h)))
    | gt => exact Nat.compare_eq_gt.2 (hlt b a (hR.swap h))
  · refine rank_lt (fun c hc => ?_) (.inr ⟨.inl rfl, .inl rfl⟩) (hself i)
    rcases hc with hc | ⟨-, hji⟩
    · exact .inr ⟨.inr ⟨.lt, hc, nofun⟩, .inl rfl⟩
    · exact absurd hji hupTo

end Ranks

end RelAlgebra.Coherent
