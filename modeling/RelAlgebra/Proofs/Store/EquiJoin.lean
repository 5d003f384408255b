/-
Joining and comparing, as they show when queries are run on a store. A
natural join comes to what a query without joins comes to: rename the shared
names of the right side, pair all rows, select by comparing the columns, and
project. The query does not fail, although it compares values, as rows fit
their headers and not-a-number is excluded.
-/
import RelAlgebra.Proofs.Algebra.EquiJoin
import RelAlgebra.Proofs.Store.Joins

namespace RelAlgebra

/-- The query with attributes renamed, one after the other; each pair gives
the old name and the new one. -/
def QueryTree.renameAll {β ρ : Type} (pairs : List (String × String))
    (q : QueryTree β ρ) : QueryTree β ρ :=
  pairs.foldl (fun q z => .unary (.rename z.2 z.1) q) q

namespace Store

variable {n : Nat}

/-- Renamings are run one after the other, from the inside. -/
theorem value_execute_renameAll (s : Store n) (pairs : List (String × String))
    (q : Query (Fin n)) :
    (execute (q.renameAll pairs) s).value = (do
      pairs.foldlM (fun r z => r.rename z.2 z.1) (← (execute q s).value)) := by
  induction pairs generalizing q with
  | nil =>
      show _ = ((execute q s).value >>= pure)
      rw [bind_pure]
      rfl
  | cons z rest ih =>
      show (execute ((QueryTree.unary (.rename z.2 z.1) q).renameAll rest)
        s).value = _
      rw [ih, value_execute_unary, bind_assoc]
      rfl

/-- Joining by equality agrees with selecting by comparison. Where the shared
names have one type on both sides, and no not-a-number in a row, the natural
join is the projection of a selection from the product with renamed columns:
the same header and the same rows in the same order, and nothing fails. On
both sides rows meet where all shared values are the same, missing ones
included, or zeros of either sign. -/
theorem execute_naturalJoin_eq_select_product (s : Store n)
    (p q : Query (Fin n)) (l r : Resolved) (pairs : List (String × String))
    (c : Predicate) (hp : (execute p s).value = .ok l)
    (hq : (execute q s).value = .ok r) (hl : l.WellFormed)
    (hr : r.WellFormed) (hc : l.header.Compatible r.header)
    (hs : l.header.Separates r.header pairs) (hlnan : l.FreeOfNaN pairs)
    (hrnan : r.FreeOfNaN pairs)
    (hconjuncts : c.conjuncts = pairs.map fun z => .equates z.1 z.2) :
    let names :=
      l.header.names ++ r.header.names.filter (fun a => a ∉ l.header.names)
    ∃ x, (execute (.binary (.basic .naturalJoin) p q) s).value = .ok x
      ∧ (execute (.unary (.project names) (.unary (.select c)
          (.binary (.basic .product) p (q.renameAll pairs)))) s).value = .ok x
      ∧ ∀ v, v ∈ x.tuples.rows
          ↔ ∃ t ∈ l.tuples.rows, ∃ u ∈ r.tuples.rows,
              (∀ name ∈ l.header.names, name ∈ r.header.names →
                t.getD name = u.getD name
                  ∨ (t.getD name).isZero = true
                    ∧ (u.getD name).isZero = true)
              ∧ t.merge u = v := by
  have hrenamed : (execute (q.renameAll pairs) s).value
      = .ok (r.relabel (exchanges pairs)) := by
    rw [value_execute_renameAll, hq]
    exact Resolved.foldlM_rename hr hs.renames
  have hequi : Resolved.EquiJoin pairs c l r :=
    ⟨hl, hr, hc, hs, hlnan, hrnan, hconjuncts⟩
  have hselected := hequi.eq_joined
  rw [Resolved.header_joined, Header.names_joined] at hselected
  simp only [value_execute_unary, value_execute_binary, hp, hq, hrenamed]
  refine ⟨l.joined r, Resolved.naturalJoin_of_compatible hc, hselected,
    fun v => ?_⟩
  rw [Resolved.rows_joined hl hr, Resolved.mem_joinedRows hl hr]
  simp only [← Value.beq_iff_eq_or_zeros]
  constructor
  · intro h
    obtain ⟨t, ht, u, hu, hmatch, rfl⟩ := h
    exact ⟨t, ht, u, hu,
      ((hl.fits t ht).matches_iff_getD (hr.fits u hu)).1 hmatch, rfl⟩
  · intro h
    obtain ⟨t, ht, u, hu, hagree, rfl⟩ := h
    exact ⟨t, ht, u, hu,
      ((hl.fits t ht).matches_iff_getD (hr.fits u hu)).2 hagree, rfl⟩

/-- Three columns, two of which have the names of a side of a triangle. -/
def labelledXY : Resolved :=
  .ofRows ⟨[⟨"label", .required .string⟩, ⟨"y", .optional .float⟩,
      ⟨"x", .optional .float⟩], nofun, by decide⟩
    [[.string "a", .null, .float (-0.0)],
      [.string "b", .float 2.5, .null]]

/-- The columns of `x` and those of `y` are compared. -/
def equatesXY : Predicate := .and (.equates "x" "x2") (.equates "y" "y2")

/-- The rows meet in a missing number and in two zeros of different sign, by
comparison as in the join. -/
theorem execute_naturalJoin_eq_select_product_zeros :
    let s : Store 2 :=
      (Store.empty.push (.resolved sideXY)).push (.resolved labelledXY)
    ∃ x, (execute (.unary (.project ["x", "y", "label"])
        (.unary (.select equatesXY) (.binary (.basic .product) (.relation 0)
          (.unary (.rename "y2" "y")
            (.unary (.rename "x2" "x") (.relation 1)))))) s).value = .ok x
      ∧ x.tuples.size = 1 := by
  intro s
  have hs : sideXY.header.Separates labelledXY.header
      [("x", "x2"), ("y", "y2")] := by
    refine ⟨fun name => ?_, by decide, by decide, by decide, by decide⟩
    show name ∈ ["x", "y"] ↔ name ∈ ["x", "y"] ∧ name ∈ ["label", "y", "x"]
    simp only [List.mem_cons, List.not_mem_nil, or_false]
    tauto
  obtain ⟨x, hjoin, hselected, -⟩ :=
    execute_naturalJoin_eq_select_product s (.relation 0) (.relation 1) sideXY
      labelledXY [("x", "x2"), ("y", "y2")] equatesXY rfl rfl
      (Resolved.wellFormed_ofRows _ _) (Resolved.wellFormed_ofRows _ _)
      (Header.conflicts_eq_nil_iff.1 rfl) hs (by decide +kernel)
      (by decide +kernel) rfl
  have hx : (execute (.binary (.basic .naturalJoin) (.relation 0)
      (.relation 1)) s).value = .ok (sideXY.joined labelledXY) := rfl
  cases hx.symm.trans hjoin
  exact ⟨_, hselected, by decide +kernel⟩

end Store

end RelAlgebra
