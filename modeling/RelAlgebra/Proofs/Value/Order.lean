/-
The order of values is partial, and coherent: two values compare the same
from either side, and what is no greater than a middle value compares with
all that the middle value is no greater than. For floats this is read off
the place of a number in a linear order, which all but not-a-number have.
-/
import RelAlgebra.Value.Order

namespace RelAlgebra

-- ===================================================== coherent orders

/-- What a partial comparison has to satisfy to be an order; `R a b o` says
that `a` and `b` compare as `o`. -/
structure Coherent {α : Type} (R : α → α → Ordering → Prop) : Prop where
  /-- Seen from the other side, the order is swapped. -/
  swap : ∀ {a b : α} {o : Ordering}, R a b o → R b a o.swap
  /-- Elements with one between them have an order. -/
  trans : ∀ {a b c : α} {o o' : Ordering}, R a b o → R b c o' →
    o ≠ .gt → o' ≠ .gt → R a c (o.then o')

namespace Coherent

variable {α β : Type} {R S : α → α → Ordering → Prop}

/-- Total orders are coherent. -/
theorem of_transCmp (cmp : α → α → Ordering) [Std.TransCmp cmp] :
    Coherent fun a b o => cmp a b = o where
  swap := by
    rintro a b _ rfl
    exact Std.OrientedCmp.eq_swap
  trans := by
    rintro a b c _ _ rfl rfl hab hbc
    cases h : cmp a b with
    | lt =>
        rw [Ordering.lt_then]
        exact Std.TransCmp.lt_of_lt_of_isLE h (Ordering.isLE_iff_ne_gt.2 hbc)
    | eq =>
        rw [Ordering.eq_then]
        exact Std.TransCmp.congr_left h
    | gt => exact absurd h hab

/-- The order of images. -/
theorem comap (h : Coherent R) (f : β → α) :
    Coherent fun a b o => R (f a) (f b) o where
  swap hab := h.swap hab
  trans hab hbc ho ho' := h.trans hab hbc ho ho'

/-- The order backwards. -/
theorem reverse (h : Coherent R) : Coherent fun a b o => R a b o.swap where
  swap hab := h.swap hab
  trans := by
    intro a b c o o' hab hbc ho ho'
    have hcb : R c b o' := by simpa using h.swap hbc
    have hba : R b a o := by simpa using h.swap hab
    have hca := h.swap (h.trans hcb hba ho' ho)
    have hthen : o'.then o = o.then o' := by
      cases o <;> cases o' <;> first | rfl | contradiction
    rw [hthen] at hca
    exact hca

/-- One order decides, and a second where the first finds no
difference. -/
theorem lex (hR : Coherent R) (hS : Coherent S) :
    Coherent fun a b o => R a b o ∧ o ≠ .eq ∨ R a b .eq ∧ S a b o where
  swap := by
    rintro a b o (⟨hab, ho⟩ | ⟨hab, hab'⟩)
    · exact .inl ⟨hR.swap hab, by cases o <;> simp_all⟩
    · exact .inr ⟨hR.swap hab, hS.swap hab'⟩
  trans := by
    rintro a b c o o' (⟨hab, hne⟩ | ⟨hab, hab'⟩) (⟨hbc, hne'⟩ | ⟨hbc, hbc'⟩)
      ho ho'
    · refine .inl ⟨hR.trans hab hbc ho ho', ?_⟩
      cases o <;> simp_all
    · have hlt : o = .lt := by cases o <;> simp_all
      subst hlt
      have hac := hR.trans hab hbc nofun nofun
      exact .inl ⟨hac, by simp⟩
    · have hlt : o' = .lt := by cases o' <;> simp_all
      subst hlt
      have hthen : o.then .lt = .lt := by cases o <;> simp_all
      rw [hthen]
      exact .inl ⟨hR.trans hab hbc nofun ho', nofun⟩
    · exact .inr ⟨hR.trans hab hbc nofun nofun,
        hS.trans hab' hbc' ho ho'⟩

end Coherent

-- ============================================================== floats

namespace Binary64

open Float.Model
open scoped Std

attribute [local instance] lexOrd

/-- The place of a number among all numbers: by sign and kind, then by
exponent, then by mantissa. Not-a-number has none. -/
def place? : UnpackedFloat → Option (Int × Int × Int)
  | .notANumber => none
  | .infinity .negative => some (-2, 0, 0)
  | .finite .negative m e _ => some (-1, -e, -m)
  | .zero _ => some (0, 0, 0)
  | .finite .positive m e _ => some (1, e, m)
  | .infinity .positive => some (2, 0, 0)

theorem compare_neg (i j : Int) :
    Ord.compare (-i) (-j) = (Ord.compare i j).swap := by
  rw [Int.compare_swap, Int.compare_eq_ite_lt, Int.compare_eq_ite_lt]
  simp only [Int.neg_lt_neg_iff]

theorem compare_natCast (m n : Nat) :
    Ord.compare (m : Int) (n : Int) = Ord.compare m n := by
  rw [Int.compare_eq_ite_lt, Nat.compare_eq_ite_lt]
  simp only [Int.ofNat_lt]

/-- Triples are compared place by place. -/
theorem compare_triple (i i' j j' k k' : Int) :
    Ord.compare (i, j, k) (i', j', k')
      = (Ord.compare i i').then ((Ord.compare j j').then (Ord.compare k k')) :=
  rfl

/-- Numbers are compared by their places. -/
theorem unpacked_compare_eq (x y : UnpackedFloat) :
    x.compare y
      = (place? x).bind fun p => (place? y).map fun q => Ord.compare p q := by
  cases x with
  | notANumber => rfl
  | infinity s =>
      cases y with
      | infinity s' => cases s <;> cases s' <;> rfl
      | finite s' m e hm => cases s <;> cases s' <;> rfl
      | _ => cases s <;> rfl
  | zero s =>
      cases y with
      | infinity s' => cases s' <;> rfl
      | finite s' m e hm => cases s' <;> rfl
      | _ => rfl
  | finite s m e hm =>
      cases y with
      | infinity s' => cases s <;> cases s' <;> rfl
      | finite s' m' e' hm' =>
          cases s <;> cases s'
          · show some ((Ord.compare e e').then (Ord.compare m m')).swap
              = some (Ord.compare (-1, -e, -(m : Int)) (-1, -e', -(m' : Int)))
            rw [compare_triple, compare_neg, compare_neg, compare_neg,
              compare_natCast, Ordering.swap_then]
            rfl
          · rfl
          · rfl
          · show some ((Ord.compare e e').then (Ord.compare m m'))
              = some (Ord.compare (1, e, (m : Int)) (1, e', (m' : Int)))
            rw [compare_triple, compare_natCast]
            rfl
      | _ => cases s <;> rfl

/-- The comparison is that of the places, which numbers have. -/
theorem compare?_eq_some_iff {x y : Float} {o : Ordering} :
    compare? x y = some o
      ↔ ∃ p q, place? x.toModel.unpack = some p
        ∧ place? y.toModel.unpack = some q ∧ Ord.compare p q = o := by
  have hlt : ∀ x y : Float, x < y
      ↔ x.toModel.unpack.compare y.toModel.unpack = some .lt := by
    intro x y
    show decide (x.toModel.unpack.lt y.toModel.unpack = true) = true ↔ _
    rw [decide_eq_true_iff]
    exact beq_iff_eq
  have heq : (x == y) = true
      ↔ x.toModel.unpack.compare y.toModel.unpack = some .eq :=
    beq_iff_eq (a := x.toModel.unpack.compare y.toModel.unpack)
  unfold compare?
  simp only [hlt, heq, unpacked_compare_eq]
  cases place? x.toModel.unpack with
  | none => simp
  | some p =>
      cases place? y.toModel.unpack with
      | none => simp
      | some q =>
          have hswap : Ord.compare q p = (Ord.compare p q).swap :=
            Std.OrientedOrd.eq_swap
          simp only [Option.bind_some, Option.map_some, hswap,
            Option.some.injEq, exists_eq_left', exists_and_left]
          generalize Ord.compare p q = o'
          cases o' <;> simp

/-- The order on floats is coherent, as far as it goes. -/
theorem coherent_compare? : Coherent fun x y o => compare? x y = some o where
  swap := by
    intro x y o h
    obtain ⟨p, q, hp, hq, rfl⟩ := compare?_eq_some_iff.1 h
    exact compare?_eq_some_iff.2 ⟨q, p, hq, hp, Std.OrientedOrd.eq_swap⟩
  trans := by
    intro x y z o o' hxy hyz ho ho'
    obtain ⟨p, q, hp, hq, hpq⟩ := compare?_eq_some_iff.1 hxy
    obtain ⟨q', r, hq', hr, hqr⟩ := compare?_eq_some_iff.1 hyz
    rw [hq] at hq'
    cases hq'
    exact compare?_eq_some_iff.2 ⟨p, r, hp, hr,
      (Coherent.of_transCmp Ord.compare).trans hpq hqr ho ho'⟩

end Binary64

-- ============================================================== values

namespace Value

/-- How values compare. The absent value is below all others, and these
compare with their own kind only. -/
inductive Compares : Value → Value → Ordering → Prop
  | null : Compares .null .null .eq
  | below {v : Value} (h : v ≠ .null) : Compares .null v .lt
  | above {v : Value} (h : v ≠ .null) : Compares v .null .gt
  | boolean (a b : Bool) :
    Compares (.boolean a) (.boolean b) (Ord.compare a b)
  | integer (a b : Int64) :
    Compares (.integer a) (.integer b) (Ord.compare a b)
  | string (a b : String) :
    Compares (.string a) (.string b) (Ord.compare a b)
  | float {x y : Float} {o : Ordering} (h : Binary64.compare? x y = some o) :
    Compares (.float x) (.float y) o

/-- The order on values is the one that is told case by case. -/
theorem compare?_eq_some_iff {a b : Value} {o : Ordering} :
    compare? a b = some o ↔ Compares a b o := by
  constructor
  · intro h
    cases a <;> cases b <;> first
      | exact .float h
      | (cases h; done)
      | cases h
        first
          | exact .null
          | exact .below nofun
          | exact .above nofun
          | exact .boolean _ _
          | exact .integer _ _
          | exact .string _ _
  · intro h
    cases h with
    | below h => cases b <;> first | rfl | contradiction
    | above h => cases a <;> first | rfl | contradiction
    | float h => exact h
    | _ => rfl

/-- The order on values is coherent: between values of different types there
is none. -/
theorem coherent_compare? : Coherent fun a b o => compare? a b = some o where
  swap := by
    intro a b o h
    rw [compare?_eq_some_iff] at h ⊢
    cases h with
    | null => exact .null
    | below h => exact .above h
    | above h => exact .below h
    | boolean a b => exact Std.OrientedOrd.eq_swap (a := b) ▸ .boolean b a
    | integer a b => exact Std.OrientedOrd.eq_swap (a := b) ▸ .integer b a
    | string a b => exact Std.OrientedOrd.eq_swap (a := b) ▸ .string b a
    | float h => exact .float (Binary64.coherent_compare?.swap h)
  trans := by
    intro a b c o o' hab hbc ho ho'
    rw [compare?_eq_some_iff] at hab hbc ⊢
    cases hab with
    | null => exact hbc
    | below hb =>
        refine .below ?_
        cases hbc <;> first | contradiction | nofun
    | above _ => contradiction
    | boolean a b =>
        cases hbc with
        | above _ => contradiction
        | boolean _ c =>
            exact (Coherent.of_transCmp Ord.compare).trans rfl rfl ho ho'
              ▸ .boolean a c
    | integer a b =>
        cases hbc with
        | above _ => contradiction
        | integer _ c =>
            exact (Coherent.of_transCmp Ord.compare).trans rfl rfl ho ho'
              ▸ .integer a c
    | string a b =>
        cases hbc with
        | above _ => contradiction
        | string _ c =>
            exact (Coherent.of_transCmp Ord.compare).trans rfl rfl ho ho'
              ▸ .string a c
    | float hxy =>
        cases hbc with
        | above _ => contradiction
        | float hyz =>
            exact .float (Binary64.coherent_compare?.trans hxy hyz ho ho')

/-- So it is with the comparison that reports a missing order. -/
theorem coherent_compare :
    Coherent fun a b o => Value.compare a b = .ok o := by
  have hok : ∀ (a b : Value) (o : Ordering),
      Value.compare a b = .ok o ↔ compare? a b = some o := by
    intro a b o
    unfold Value.compare
    cases compare? a b <;> simp
  simp only [hok]
  exact coherent_compare?

end Value

end RelAlgebra
