/-
Laws of joins, as they show when queries are run on a store whose relations
come to well-formed rows. Natural joins associate and commute, and lose and
collapse nothing; they are products where no name is shared, and
intersections where all are; theta joins select from them; semi and anti
joins split the rows of one side by whether they have a partner.
-/
import RelAlgebra.Proofs.Algebra.Binding
import RelAlgebra.Proofs.Algebra.Overlap
import RelAlgebra.Proofs.Store.Outcome

namespace RelAlgebra

/-- The relation of the rows that fit the header. -/
def Resolved.ofRows (header : Header) (rows : List (List Value)) : Resolved :=
  ⟨header, .ofRows header rows⟩

/-- Literal rows are checked against the header. -/
theorem Resolved.wellFormed_ofRows (header : Header)
    (rows : List (List Value)) : (ofRows header rows).WellFormed := by
  refine .of_fits fun t ht => ?_
  obtain ⟨row, hrow, rfl⟩ := List.mem_map.1 (Tuples.mem_of_mem_ofList ht)
  exact Tuple.fits_ofPairs (List.mem_filter.1 hrow).2

namespace Store

variable {n : Nat}

-- ======================================================= natural joins

/-- Natural join is associative exactly: one grouping succeeds if the other
does, and then both have one header and the same rows in the same order. It
is commutative up to order: one way succeeds if the other does, and then
with the same attributes and an equal set of rows. -/
theorem execute_naturalJoin_laws (s : Store n) (p q o : Query (Fin n))
    (a b c : Resolved) (hp : (execute p s).value = .ok a)
    (hq : (execute q s).value = .ok b) (ho : (execute o s).value = .ok c)
    (ha : a.WellFormed) (hb : b.WellFormed) (hc : c.WellFormed) :
    let result := fun query : Query (Fin n) => (execute query s).value
    let join := QueryTree.binary (ρ := Fin n) (.basic .naturalJoin)
    EndsAlike (fun x y => x = y) (result (join (join p q) o))
        (result (join p (join q o)))
      ∧ EndsAlike (fun x y => x.header.attributes.Perm y.header.attributes
            ∧ (x.tuples == y.tuples) = true)
        (result (join p q)) (result (join q p)) := by
  simp only [value_execute_binary, hp, hq, ho]
  exact ⟨Resolved.naturalJoin_assoc ha hb hc, Resolved.naturalJoin_comm ha hb⟩

/-- A side of a triangle: pairs of numbers, which may be missing. -/
def side (x y : String) (hdistinct : [x, y].Nodup)
    (pairs : List (Value × Value)) : Resolved :=
  .ofRows ⟨[⟨x, .optional .float⟩, ⟨y, .optional .float⟩], nofun, hdistinct⟩
    (pairs.map fun p => [p.1, p.2])

/-- Two numbers in a row, of which one may be absent. -/
def sideXY : Resolved :=
  side "x" "y" (by decide) [(.float 0.0, .null), (.float 1.5, .float 2.5)]

def sideYZ : Resolved := side "y" "z" (by decide) [(.null, .float 0.5)]

def sideXZ : Resolved :=
  side "x" "z" (by decide) [(.float (-0.0), .float 0.5), (.null, .null)]

/-- Three relations, each two of which have a column in common. -/
def triangle : Store 3 :=
  ((Store.empty.push (.resolved sideXY)).push (.resolved sideYZ)).push
    (.resolved sideXZ)

/-- The rows meet in a missing number and in two zeros of different
sign. -/
theorem execute_naturalJoin_laws_triangle :
    let result := fun query : Query (Fin 3) => (execute query triangle).value
    let join := QueryTree.binary (ρ := Fin 3) (.basic .naturalJoin)
    ∃ r, result (join (join (.relation 0) (.relation 1)) (.relation 2)) = .ok r
      ∧ result (join (.relation 0) (join (.relation 1) (.relation 2))) = .ok r
      ∧ r.header.names = ["x", "y", "z"] ∧ r.tuples.size = 1 := by
  intro result join
  have hlaw : EndsAlike (fun x y => x = y)
      (result (join (join (.relation 0) (.relation 1)) (.relation 2)))
      (result (join (.relation 0) (join (.relation 1) (.relation 2)))) :=
    (execute_naturalJoin_laws triangle (.relation 0) (.relation 1)
      (.relation 2) sideXY sideYZ sideXZ rfl rfl rfl
      (Resolved.wellFormed_ofRows _ _) (Resolved.wellFormed_ofRows _ _)
      (Resolved.wellFormed_ofRows _ _)).1
  have hleft : ∃ r,
      result (join (join (.relation 0) (.relation 1)) (.relation 2)) = .ok r
        ∧ r.header.names = ["x", "y", "z"] ∧ r.tuples.size = 1 :=
    ⟨_, rfl, rfl, by decide +kernel⟩
  obtain ⟨r, hr, hnames, hsize⟩ := hleft
  refine ⟨r, hr, ?_, hnames, hsize⟩
  rw [hr] at hlaw
  generalize result (join (.relation 0) _) = right at hlaw ⊢
  cases hlaw with
  | ok h => exact congrArg Except.ok h.symm

-- ====================================================== lossless joins

/-- A natural join loses nothing and collapses nothing: its rows are those of
the pairs that agree on all shared names, merged, left rows outermost. They
are pairwise different, so there are as many as such pairs, and each of them
gives both of its rows back, the right one up to equality. Likewise a product
has one row for each pair of rows. -/
theorem execute_naturalJoin_lossless (s : Store n) (p q : Query (Fin n))
    (l r : Resolved) (hp : (execute p s).value = .ok l)
    (hq : (execute q s).value = .ok r) (hl : l.WellFormed)
    (hr : r.WellFormed) :
    let result := fun op : BasicOperator =>
      (execute (.binary (.basic op) p q) s).value
    (l.header.Compatible r.header →
        ∃ x, result .naturalJoin = .ok x
          ∧ x.header.attributes = l.header.attributes
            ++ r.header.attributes.filter (fun a => a.name ∉ l.header.names)
          ∧ x.tuples.rows
            = (l.agreeingPairs r).map (fun a => a.1.merge a.2)
          ∧ x.tuples.rows.Pairwise (fun t u => (t == u) = false)
          ∧ x.tuples.size = (l.agreeingPairs r).length
          ∧ ∀ a ∈ l.agreeingPairs r,
              (a.1.merge a.2).project l.header.names = a.1
                ∧ ((a.1.merge a.2).project r.header.names == a.2) = true)
      ∧ ((∀ name ∈ l.header.names, name ∉ r.header.names) →
        ∃ x, result .product = .ok x
          ∧ x.header.attributes = l.header.attributes ++ r.header.attributes
          ∧ x.tuples.rows
            = (l.tuples.rows ×ˢ r.tuples.rows).map (fun a => a.1.merge a.2)
          ∧ x.tuples.size = l.tuples.size * r.tuples.size) := by
  simp only [value_execute_binary, hp, hq]
  refine ⟨fun hc => ?_, fun hdisjoint => ?_⟩
  · refine ⟨l.joined r, Resolved.naturalJoin_of_compatible hc,
      Header.attributes_joined _ _, ?_, (l.joined r).tuples.distinct,
      Resolved.size_joined hl hr, fun a ha => ?_⟩
    · rw [Resolved.rows_joined hl hr, Resolved.joinedRows_eq_map]
    · obtain ⟨hleft, hright, hmatch⟩ :=
        Resolved.fits_of_mem_agreeingPairs hl hr ha
      exact ⟨hleft.project_merge_left, hright.project_merge_right hmatch⟩
  · refine ⟨l.paired r, Resolved.product_of_disjoint hdisjoint,
      Header.attributes_joined_of_disjoint hdisjoint, ?_,
      Resolved.size_paired hdisjoint hl hr⟩
    rw [Resolved.paired_eq_joined hdisjoint, Resolved.rows_joined hl hr,
      Resolved.joinedRows_eq_map, Resolved.agreeingPairs_of_disjoint hdisjoint]

/-- The two zeros make the only pair that agrees; and a product of two rows
with two rows has four. -/
theorem execute_naturalJoin_lossless_zeros :
    let s : Store 4 := triangle.push
      (.resolved (side "u" "v" (by decide)
        [(.null, .null), (.float 0.5, .null)]))
    (∃ x, (execute (.binary (.basic .naturalJoin) (.relation 0)
        (.relation 2)) s).value = .ok x ∧ x.tuples.size = 1)
      ∧ ∃ x, (execute (.binary (.basic .product) (.relation 0)
        (.relation 3)) s).value = .ok x ∧ x.tuples.size = 4 := by
  intro s
  constructor
  · obtain ⟨x, hx, -, -, -, hsize, -⟩ :=
      (execute_naturalJoin_lossless s (.relation 0) (.relation 2) sideXY
        sideXZ rfl rfl (Resolved.wellFormed_ofRows _ _)
        (Resolved.wellFormed_ofRows _ _)).1
        (Header.conflicts_eq_nil_iff.1 rfl)
    refine ⟨x, hx, hsize.trans ?_⟩
    decide +kernel
  · obtain ⟨x, hx, -, -, hsize⟩ :=
      (execute_naturalJoin_lossless s (.relation 0) (.relation 3) sideXY _ rfl
        rfl (Resolved.wellFormed_ofRows _ _)
        (Resolved.wellFormed_ofRows _ _)).2 (by decide)
    refine ⟨x, hx, hsize.trans ?_⟩
    decide +kernel

-- ================================================= nothing or all shared

/-- Natural join is product on relations that share no name, whatever their
rows, and intersection on well-formed relations with one header: the rows of
the left side that the right side has too, as the left side has them. So a
well-formed relation joined with itself is itself. -/
theorem execute_naturalJoin_extremes (s : Store n) (p q : Query (Fin n))
    (l r : Resolved) (hp : (execute p s).value = .ok l)
    (hq : (execute q s).value = .ok r) :
    let result := fun (op : BasicOperator) left right =>
      (execute (.binary (.basic op) left right) s).value
    ((∀ name ∈ l.header.names, name ∉ r.header.names) →
        ∃ x, result .naturalJoin p q = .ok x ∧ result .product p q = .ok x)
      ∧ (l.WellFormed → r.WellFormed → l.header = r.header →
        ∃ x, result .naturalJoin p q = .ok x
          ∧ result .intersect p q = .ok x ∧ x.header = l.header
          ∧ x.tuples.rows = l.tuples.rows.filter r.tuples.contains)
      ∧ (l.WellFormed → result .naturalJoin p p = .ok l) := by
  simp only [value_execute_binary, hp, hq]
  refine ⟨fun hdisjoint => ?_, fun hl hr hheader => ?_, fun hl => ?_⟩
  · have hproduct : l.product r = .ok (l.paired r) :=
      Resolved.product_of_disjoint hdisjoint
    exact ⟨l.paired r,
      (Resolved.naturalJoin_of_disjoint hdisjoint).trans hproduct, hproduct⟩
  · have hintersect : Resolved.setOperation Tuples.intersection l r
        = .ok ⟨l.header, l.tuples.intersection r.tuples⟩ :=
      Resolved.setOperation_of_header_eq _ hheader
    exact ⟨_, (Resolved.naturalJoin_of_header_eq hl hr hheader).trans
      hintersect, hintersect, rfl, rfl⟩
  · exact Resolved.naturalJoin_self hl

/-- Three rows with absent values, one of them beside not-a-number. -/
def sideOfThree : Resolved :=
  side "x" "y" (by decide)
    [(.null, .float Binary64.nan), (.float 0.0, .null), (.null, .null)]

/-- Two rows, one with negative zero and one with not-a-number. -/
def sideOfTwo : Resolved :=
  side "x" "y" (by decide)
    [(.float (-0.0), .null), (.null, .float Binary64.nan)]

/-- Not-a-number and a missing number are had by both sides, and so is zero,
which stays the zero of the left side. -/
theorem execute_naturalJoin_extremes_zeros :
    let s : Store 3 := ((Store.empty.push (.resolved sideOfThree)).push
      (.resolved sideOfTwo)).push
      (.resolved (side "u" "v" (by decide) [(.float 0.5, .null)]))
    let result := fun (op : BasicOperator) left right =>
      (execute (.binary (.basic op) (.relation left) (.relation right))
        s).value
    (∃ x, result .naturalJoin 0 1 = .ok x ∧ result .intersect 0 1 = .ok x
        ∧ x.tuples.rows = sideOfThree.tuples.rows.take 2)
      ∧ (∃ x, result .naturalJoin 0 2 = .ok x ∧ result .product 0 2 = .ok x
        ∧ x.tuples.size = 3)
      ∧ result .naturalJoin 0 0 = .ok sideOfThree := by
  intro s result
  obtain ⟨-, hsame, hself⟩ :=
    execute_naturalJoin_extremes s (.relation 0) (.relation 1) sideOfThree
      sideOfTwo rfl rfl
  obtain ⟨hdisjoint, -, -⟩ :=
    execute_naturalJoin_extremes s (.relation 0) (.relation 2) sideOfThree _
      rfl rfl
  have hleft : sideOfThree.WellFormed := Resolved.wellFormed_ofRows _ _
  have hright : sideOfTwo.WellFormed := Resolved.wellFormed_ofRows _ _
  refine ⟨?_, ?_, hself hleft⟩
  · obtain ⟨x, hjoin, hintersect, -, hrows⟩ := hsame hleft hright rfl
    exact ⟨x, hjoin, hintersect, hrows.trans rfl⟩
  · obtain ⟨x, hjoin, hproduct⟩ := hdisjoint (by decide)
    refine ⟨x, hjoin, hproduct, ?_⟩
    have hsize : ∃ y, result .product 0 2 = .ok y ∧ y.tuples.size = 3 :=
      ⟨_, rfl, by decide +kernel⟩
    obtain ⟨y, hy, hsize⟩ := hsize
    cases hproduct.symm.trans hy
    exact hsize

-- ========================================================= theta joins

/-- A theta join ends as the selection over the natural join does, whatever
comes of it. Headers that are not compatible are reported first, then names
that the joined header lacks, and then the failure of the predicate on the
first joined row where it has one; where it has none the rows are those of
the join for which it holds. -/
theorem execute_thetaJoin_eq_select (s : Store n) (p q : Query (Fin n))
    (l r : Resolved) (c : Predicate) (hp : (execute p s).value = .ok l)
    (hq : (execute q s).value = .ok r) (hl : l.WellFormed)
    (hr : r.WellFormed) :
    let result := fun query : Query (Fin n) => (execute query s).value
    let theta := result (.binary (.basic (.thetaJoin c)) p q)
    let natural := QueryTree.binary (.basic .naturalJoin) p q
    theta = result (.unary (.select c) natural)
      ∧ (¬l.header.Compatible r.header →
          theta
            = .error (.incompatibleAttributes (l.header.conflicts r.header)))
      ∧ (l.header.Compatible r.header →
          ∃ j, result natural = .ok j
            ∧ (∀ name ∈ c.attributes, name ∉ j.header.names →
                theta = .error (.unknownAttributes
                  (j.header.missing c.attributes.toList)))
            ∧ ((∀ name ∈ c.attributes, name ∈ j.header.names) →
                (∀ before t after e, j.tuples.rows = before ++ t :: after →
                    (∀ u ∈ before, c.Decides u) →
                    c.eval t.get? = .error e → theta = .error (.predicate e))
                  ∧ ((∀ t ∈ j.tuples.rows, c.Decides t) →
                    theta = .ok ⟨j.header, j.tuples.filter c.holds⟩))) := by
  simp only [value_execute_unary, value_execute_binary, hp, hq]
  refine ⟨Resolved.thetaJoin_eq_select hl hr c,
    fun hc => Resolved.thetaJoin_of_not_compatible hc c, fun hc => ?_⟩
  have htheta : l.thetaJoin c r = (l.joined r).select c :=
    Resolved.thetaJoin_of_compatible hl hr hc c
  refine ⟨l.joined r, Resolved.naturalJoin_of_compatible hc,
    fun name hname hfree => ?_, fun hnames => ⟨?_, fun hrows => ?_⟩⟩
  · exact Resolved.thetaJoin_of_not_mem (Header.join_of_compatible hc) hname
      hfree
  · intro before t after e hsplit hbefore heval
    exact htheta.trans
      (Resolved.select_of_first_error hnames hsplit hbefore heval)
  · exact htheta.trans (Resolved.select_of_appliesTo ⟨hnames, hrows⟩)

/-- Whether `y` is above `z`. -/
def yAboveZ : Predicate :=
  .comparison .gt (.member (.attribute "y")) (.member (.attribute "z"))

def sideNan : Resolved :=
  side "x" "y" (by decide)
    [(.null, .float 1.5), (.float 0.0, .float Binary64.nan)]

/-- The number of the first joined row is above a missing one, and the second
joined row has not-a-number, which does not compare. -/
theorem execute_thetaJoin_eq_select_nan :
    let s : Store 2 :=
      (Store.empty.push (.resolved sideNan)).push (.resolved sideXZ)
    (execute (.binary (.basic (.thetaJoin yAboveZ)) (.relation 0)
        (.relation 1)) s).value
      = .error (.predicate (.value
          (.incompatible (.float Binary64.nan) (.float 0.5)))) := by
  intro s
  obtain ⟨j, hj, -, hrows⟩ :=
    (execute_thetaJoin_eq_select s (.relation 0) (.relation 1) sideNan sideXZ
      yAboveZ rfl rfl (Resolved.wellFormed_ofRows _ _)
      (Resolved.wellFormed_ofRows _ _)).2.2
      (Header.conflicts_eq_nil_iff.1 rfl)
  have hjoin : (execute (.binary (.basic .naturalJoin) (.relation 0)
      (.relation 1)) s).value = .ok (sideNan.joined sideXZ) := rfl
  cases hjoin.symm.trans hj
  have hsplit : (sideNan.joined sideXZ).tuples.rows
      = [.ofPairs [("x", .null), ("y", .float 1.5), ("z", .null)]]
        ++ .ofPairs [("x", .float 0.0), ("y", .float Binary64.nan),
          ("z", .float 0.5)] :: [] := rfl
  refine (hrows (by decide)).1 _ _ _ _ hsplit (fun u hu => ?_) ?_
  · rw [List.mem_singleton.1 hu]
    exact ⟨true, rfl⟩
  · rfl

-- ========================================================== semi joins

/-- Semi and anti joins partition the kept side. A right semi join is a left
one with the sides swapped, whatever the relations, and fails like it where
the headers are not compatible. On well-formed relations with compatible
headers, a left semi join keeps the rows of the left side that have a
partner, and an anti join those that have none, both as they are and in
their order. So no row is in both, and together they have all rows. -/
theorem execute_semiJoin_partition (s : Store n) (p q : Query (Fin n))
    (l r : Resolved) (hp : (execute p s).value = .ok l)
    (hq : (execute q s).value = .ok r) :
    let result := fun query : Query (Fin n) => (execute query s).value
    let semi := fun kind => QueryTree.binary (ρ := Fin n) (.semiJoin kind)
    result (semi .right p q) = result (semi .left q p)
      ∧ (¬r.header.Compatible l.header →
          result (semi .right p q)
            = .error (.incompatibleAttributes (r.header.conflicts l.header)))
      ∧ (l.WellFormed → r.WellFormed → l.header.Compatible r.header →
          ∃ x y z, result (semi .left p q) = .ok x
            ∧ result (semi .anti p q) = .ok y
            ∧ x.header = l.header ∧ y.header = l.header
            ∧ x.tuples.rows
              = l.tuples.rows.filter (fun t => l.Partnered r t)
            ∧ y.tuples.rows
              = l.tuples.rows.filter (fun t => ¬l.Partnered r t)
            ∧ result (.binary (.basic .intersect) (semi .left p q)
                (semi .anti p q)) = .ok ⟨l.header, .empty⟩
            ∧ result (.binary (.basic .union) (semi .left p q)
                (semi .anti p q)) = .ok z
            ∧ z.header = l.header ∧ z.tuples.rows.Perm l.tuples.rows) := by
  simp only [value_execute_binary, hp, hq]
  refine ⟨rfl, SemiJoinKind.eval_left_of_not_compatible, fun hl hr hc => ?_⟩
  have hleft : BinaryOperator.apply (.semiJoin .left) l r
      = .ok (l.withPartner r) := SemiJoinKind.eval_left hl hr hc
  have hanti : BinaryOperator.apply (.semiJoin .anti) l r
      = .ok (l.withoutPartner r) := SemiJoinKind.eval_anti hl hr hc
  have hboth : ∀ op : Resolved → Resolved → Except QueryError Resolved,
      (do
        let x ← BinaryOperator.apply (.semiJoin .left) l r
        let y ← BinaryOperator.apply (.semiJoin .anti) l r
        op x y)
      = op (l.withPartner r) (l.withoutPartner r) := by
    intro op
    rw [hleft, hanti]
    rfl
  obtain ⟨z, hunion, hheader, hrows⟩ := l.union_partners r
  refine ⟨l.withPartner r, l.withoutPartner r, z, hleft, hanti, rfl, rfl, rfl,
    ?_, ?_, ?_, hheader, hrows⟩
  · exact List.filter_congr fun t _ => (decide_not ..).symm
  · exact (hboth _).trans (l.intersection_partners r)
  · exact (hboth _).trans hunion

/-- A column of text with a name that stands for numbers elsewhere. -/
def labelsY : Resolved :=
  .ofRows ⟨[⟨"y", .required .string⟩], nofun, by decide⟩ [[.string "a"]]

/-- One row has a partner, at a missing number, and the other has none; with
text for numbers there are no partners to look for. -/
theorem execute_semiJoin_partition_triangle :
    let result := fun query : Query (Fin 3) => (execute query triangle).value
    let semi := fun kind => QueryTree.binary (ρ := Fin 3) (.semiJoin kind)
      (.relation 0) (.relation 1)
    let s : Store 2 :=
      (Store.empty.push (.resolved sideXY)).push (.resolved labelsY)
    (∃ x y z, result (semi .left) = .ok x ∧ result (semi .anti) = .ok y
      ∧ result (.binary (.basic .union) (semi .left) (semi .anti)) = .ok z
      ∧ x.tuples.size = 1 ∧ y.tuples.size = 1
      ∧ z.tuples.rows.Perm sideXY.tuples.rows)
    ∧ (execute (.binary (.semiJoin .right) (.relation 0) (.relation 1))
        s).value
      = .error (.incompatibleAttributes
          [(⟨"y", .required .string⟩, ⟨"y", .optional .float⟩)]) := by
  intro result semi s
  constructor
  · obtain ⟨x, y, z, hx, hy, -, -, hxrows, hyrows, -, hz, -, hperm⟩ :=
      (execute_semiJoin_partition triangle (.relation 0) (.relation 1) sideXY
        sideYZ rfl rfl).2.2 (Resolved.wellFormed_ofRows _ _)
        (Resolved.wellFormed_ofRows _ _) (Header.conflicts_eq_nil_iff.1 rfl)
    refine ⟨x, y, z, hx, hy, hz, ?_, ?_, hperm⟩
    · rw [Tuples.size, hxrows]
      decide +kernel
    · rw [Tuples.size, hyrows]
      decide +kernel
  · refine (execute_semiJoin_partition s (.relation 0) (.relation 1) sideXY
      labelsY rfl rfl).2.1 fun hc => ?_
    have hnone := Header.conflicts_eq_nil_iff.2 hc
    cases hnone

end Store

end RelAlgebra
