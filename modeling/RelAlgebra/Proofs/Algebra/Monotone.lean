/-
Positive queries are monotone. A query is positive if its operators are
made without subtraction, which leaves out division and the anti join. One
relation is within another if they have one header and each row of the
first is a row of the second. On relations within others, where equal
values are the same value, a positive operator succeeds if it succeeds on
the others, and its result is within theirs: a loop over rows that comes to
its end does so over fewer rows, a sort needs an order on fewer pairs of
rows, and a row that is dropped is dropped for one that is the same. The
rest is induction on the query.
-/
import RelAlgebra.Proofs.Query.Tolerance
import RelAlgebra.Proofs.Tuple.Discerning
import RelAlgebra.Proofs.Tuples.Choice
import RelAlgebra.Proofs.Tuples.Sorting

namespace RelAlgebra

-- ==================================================== positive queries

/-- Whether the operator is made without subtraction. -/
def BinaryOperator.isPositive : BinaryOperator → Bool
  | .basic .subtract | .divide | .semiJoin .anti => false
  | _ => true

/-- Whether all operators of the query are made without subtraction. -/
def Query.isPositive {ρ : Type} : Query ρ → Bool
  | .relation _ => true
  | .unary _ q => Query.isPositive q
  | .binary op l r =>
    op.isPositive && Query.isPositive l && Query.isPositive r

/-- The left evaluation fails only if the right one does. -/
def Tolerance.downward {ε ε' : Type} : Tolerance ε ε' :=
  ⟨fun _ => False, fun _ => True, fun _ _ => False⟩

namespace Tolerance

/-- Whatever both evaluations have in common is within the tolerance, a
failure included. -/
theorem downward_same {ε α : Type} (x : Except ε α) :
    downward.Relates (fun a b => a = b) x x :=
  Relates.same (fun _ => .inl trivial) x

theorem downward_mapError {ε ε' ε₁ ε₁' α β : Type} {R : α → β → Prop}
    {x : Except ε α} {y : Except ε' β} (h : downward.Relates R x y)
    (g : ε → ε₁) (g' : ε' → ε₁') :
    downward.Relates R (x.mapError g) (y.mapError g') :=
  Relates.mapError (T := downward) h

/-- It is enough to look at what the right one comes to. -/
theorem downward_of_ok {ε ε' α β : Type} {R : α → β → Prop} {x : Except ε α}
    {y : Except ε' β} (h : ∀ b, y = .ok b → ∃ a, x = .ok a ∧ R a b) :
    downward.Relates R x y := by
  cases y with
  | error e => exact .right trivial
  | ok b =>
      obtain ⟨a, rfl, hab⟩ := h b rfl
      exact .ok hab

/-- If the larger evaluation succeeds, so does the smaller one. -/
theorem exists_ok_of_downward {ε ε' α β : Type} {R : α → β → Prop}
    {x : Except ε α} {y : Except ε' β} (h : downward.Relates R x y) {b : β}
    (hy : y = .ok b) : ∃ a, x = .ok a ∧ R a b := by
  cases h with
  | ok h =>
      cases hy
      exact ⟨_, rfl, h⟩
  | left h => exact h.elim
  | right h => cases hy
  | both h => exact h.elim

end Tolerance

-- ========================================================= fewer rows

/-- The relations have one header and the rows of `a` are rows of `b`, all
of them of such values. -/
structure Resolved.Within (V : Value → Prop) (a b : Resolved) : Prop where
  header : a.header = b.header
  rows : ∀ t ∈ a.tuples.rows, t ∈ b.tuples.rows
  values : ∀ t ∈ b.tuples.rows, t.Over V

namespace Resolved.Within

open Tolerance (downward downward_same downward_mapError downward_of_ok)

variable {V : Value → Prop} {a a' b b' : Resolved} {header : Header}
  {rows rows' : List Tuple}

/-- Collecting fewer rows gives fewer rows. -/
theorem ofList (hV : Discerning V) (hrows : ∀ t ∈ rows, t ∈ rows')
    (hvalues : ∀ t ∈ rows', t.Over V) :
    Within V ⟨header, .ofList rows⟩ ⟨header, .ofList rows'⟩ where
  header := rfl
  rows t ht := by
    show t ∈ (Tuples.ofList rows').rows
    rw [Tuples.mem_ofList_iff fun t u ht hu =>
      (hvalues t ht).eq_of_beq hV (hvalues u hu)]
    exact hrows t (Tuples.mem_of_mem_ofList ht)
  values t ht := hvalues t (Tuples.mem_of_mem_ofList ht)

/-- A choice that ends well on more rows does so on fewer. -/
theorem relates_where {ε : Type} {f : Tuple → Except ε Bool}
    (hV : Discerning V) (hrows : ∀ t ∈ rows, t ∈ rows')
    (hvalues : ∀ t ∈ rows', t.Over V) :
    (downward : Tolerance ε ε).Relates
      (fun ts us => Within V ⟨header, ts⟩ ⟨header, us⟩)
      (Tuples.ofListWhereM f rows) (Tuples.ofListWhereM f rows') := by
  refine downward_of_ok fun us hus => ?_
  obtain ⟨hok, rfl⟩ := Tuples.ofListWhereM_eq_ok_iff.1 hus
  refine ⟨_, Tuples.ofListWhereM_of_ok fun t ht => hok t (hrows t ht), ?_⟩
  refine ofList hV (fun t ht => ?_) fun t ht => ?_
  · obtain ⟨ht, hpass⟩ := List.mem_filter.1 ht
    exact List.mem_filter.2 ⟨hrows t ht, hpass⟩
  · exact hvalues t (List.mem_of_mem_filter ht)

/-- A sort of more rows that succeeds has an order on all pairs of fewer
rows. -/
theorem relates_sortedBy (hV : Discerning V) (h : Within V a b)
    (keys : List SortKey) :
    (downward : Tolerance ValueError ValueError).Relates
      (fun ts us => Within V ⟨header, ts⟩ ⟨header, us⟩)
      (a.tuples.sortedBy keys) (b.tuples.sortedBy keys) := by
  have hc := Tuple.coherent_compareBy keys
  refine downward_of_ok fun us hus => ?_
  obtain ⟨ys, hys, rfl⟩ := Tuples.sortedBy_eq_ok_iff.1 hus
  have hpairs := (stableSort_isOk_iff hc).1 ⟨ys, hys⟩
  obtain ⟨zs, hperm, hsub⟩ :=
    List.subperm_of_subset a.tuples.nodup_rows h.rows
  have hfewer : a.tuples.rows.Pairwise
      (Comparable fun t u => t.compareBy u keys) :=
    (hperm.pairwise_iff fun h => Comparable.symm hc h).1
      (hpairs.sublist hsub)
  obtain ⟨xs, hxs⟩ := (stableSort_isOk_iff hc).2 hfewer
  refine ⟨_, Tuples.sortedBy_eq_ok_iff.2 ⟨xs, hxs, rfl⟩, ?_⟩
  refine ofList hV (fun t ht => ?_) fun t ht => ?_
  · exact (perm_stableSort hys).mem_iff.2
      (h.rows t ((perm_stableSort hxs).subset ht))
  · exact h.values t ((perm_stableSort hys).subset ht)

-- ================================================== operators on one

/-- Changing every row in one way. -/
theorem map (hV : Discerning V) (h : Within V a b) {f : Tuple → Tuple}
    (hf : ∀ t, t.Over V → (f t).Over V) (header : Header) :
    Within V ⟨header, .ofList (a.tuples.rows.map f)⟩
      ⟨header, .ofList (b.tuples.rows.map f)⟩ := by
  refine ofList hV (fun t ht => ?_) fun t ht => ?_
  · obtain ⟨u, hu, rfl⟩ := List.mem_map.1 ht
    exact List.mem_map_of_mem (h.rows u hu)
  · obtain ⟨u, hu, rfl⟩ := List.mem_map.1 ht
    exact hf u (h.values u hu)

/-- Rows that are contained are contained projected. -/
theorem project (hV : Discerning V) (h : Within V a b)
    (names : List String) :
    downward.Relates (Within V) (a.project names) (b.project names) := by
  unfold Resolved.project
  rw [h.header]
  refine (downward_same _).bind fun _ _ _ => ?_
  refine (downward_same _).bind fun header _ hheader => ?_
  subst hheader
  exact .ok (h.map hV (fun t ht => ht.project hV names) header)

/-- A predicate that can be evaluated on all rows can be on some, with the
same answers. -/
theorem select (hV : Discerning V) (h : Within V a b) (p : Predicate) :
    downward.Relates (Within V) (a.select p) (b.select p) := by
  unfold Resolved.select
  rw [h.header]
  refine (downward_same _).bind fun _ _ _ => ?_
  exact (downward_mapError (relates_where hV h.rows h.values) _ _).bind
    fun _ _ hts => .ok hts

theorem rename (hV : Discerning V) (h : Within V a b) (new old : String) :
    downward.Relates (Within V) (a.rename new old) (b.rename new old) := by
  unfold Resolved.rename
  rw [h.header]
  refine (downward_same _).bind fun _ _ _ => ?_
  by_cases hname : new = old
  · rw [if_pos hname, if_pos hname]
    exact .ok h
  · rw [if_neg hname, if_neg hname]
    refine (downward_same _).bind fun header _ hheader => ?_
    subst hheader
    exact .ok (h.map hV (fun t ht => ht.renamed old new) header)

/-- What orders all rows orders some of them, and ordering loses none. -/
theorem orderBy (hV : Discerning V) (h : Within V a b)
    (keys : List SortKey) :
    downward.Relates (Within V) (a.orderBy keys) (b.orderBy keys) := by
  unfold Resolved.orderBy
  rw [h.header]
  refine (downward_same _).bind fun _ _ _ => ?_
  exact (downward_mapError (relates_sortedBy hV h keys) _ _).bind
    fun _ _ hts => .ok hts

/-- Of the operators on one relation, all are monotone. -/
theorem unary (hV : Discerning V) (op : UnaryOperator) (h : Within V a b) :
    downward.Relates (Within V) (op.apply a) (op.apply b) := by
  cases op with
  | project names => exact h.project hV names
  | select p => exact h.select hV p
  | rename new old => exact h.rename hV new old
  | orderBy keys => exact h.orderBy hV keys

-- ================================================== operators on two

/-- What fewer rows contain, more rows contain. -/
theorem contains (h : Within V a b) {t : Tuple}
    (ht : a.tuples.contains t = true) : b.tuples.contains t = true := by
  obtain ⟨u, hu, hut⟩ := Tuples.contains_iff.1 ht
  exact Tuples.contains_iff.2 ⟨u, h.rows u hu, hut⟩

/-- A set operation, which is told by the rows that it leaves. -/
theorem setOperation (ha : Within V a a') (hb : Within V b b')
    {op : Tuples → Tuples → Tuples}
    (hrows : ∀ t ∈ (op a.tuples b.tuples).rows,
      t ∈ (op a'.tuples b'.tuples).rows)
    (hop : ∀ {t}, t ∈ (op a'.tuples b'.tuples).rows →
      t ∈ a'.tuples.rows ∨ t ∈ b'.tuples.rows) :
    downward.Relates (Within V) (Resolved.setOperation op a b)
      (Resolved.setOperation op a' b') := by
  unfold Resolved.setOperation
  rw [ha.header, hb.header]
  refine (downward_same _).bind fun _ _ _ => .ok ⟨rfl, hrows, ?_⟩
  intro t ht
  rcases hop ht with ht | ht
  · exact ha.values t ht
  · exact hb.values t ht

/-- A row that is on both sides still is when there are more rows. -/
theorem intersection (ha : Within V a a') (hb : Within V b b') :
    downward.Relates (Within V)
      (Resolved.setOperation Tuples.intersection a b)
      (Resolved.setOperation Tuples.intersection a' b') := by
  refine ha.setOperation hb (fun t ht => ?_)
    fun ht => .inl (Tuples.mem_of_mem_filter ht)
  obtain ⟨ht, hcontains⟩ := List.mem_filter.1 ht
  exact List.mem_filter.2 ⟨ha.rows t ht, hb.contains hcontains⟩

/-- A row of the second operand may be dropped for an equal one of the
first; that they are the same row is where discerning values count. -/
theorem union (hV : Discerning V) (ha : Within V a a') (hb : Within V b b') :
    downward.Relates (Within V) (Resolved.setOperation Tuples.union a b)
      (Resolved.setOperation Tuples.union a' b') := by
  refine ha.setOperation hb (fun t ht => ?_) Tuples.mem_of_mem_union
  have hvalues : ∀ t, t ∈ a'.tuples.rows ∨ t ∈ b'.tuples.rows → t.Over V :=
    fun t ht => ht.elim (ha.values t) (hb.values t)
  unfold Tuples.union
  rw [Tuples.mem_insertAll_iff fun t u ht hu =>
    (hvalues t ht).eq_of_beq hV (hvalues u hu)]
  exact (Tuples.mem_of_mem_union ht).imp (ha.rows t) (hb.rows t)

/-- A pair stays a pair. -/
theorem product (hV : Discerning V) (ha : Within V a a')
    (hb : Within V b b') :
    downward.Relates (Within V) (a.product b) (a'.product b') := by
  unfold Resolved.product
  rw [ha.header, hb.header]
  refine (downward_same _).bind fun header _ hheader => ?_
  subst hheader
  refine .ok (ofList hV (fun t ht => ?_) fun t ht => ?_)
  · obtain ⟨u, hu, ht⟩ := List.mem_flatMap.1 ht
    obtain ⟨v, hv, rfl⟩ := List.mem_map.1 ht
    exact List.mem_flatMap.2
      ⟨u, ha.rows u hu, List.mem_map_of_mem (hb.rows v hv)⟩
  · obtain ⟨u, hu, ht⟩ := List.mem_flatMap.1 ht
    obtain ⟨v, hv, rfl⟩ := List.mem_map.1 ht
    exact (ha.values u hu).merge (hb.values v hv)

/-- A joined row is one of two rows that agree. -/
theorem mem_joinedRows_iff {t : Tuple} :
    t ∈ a.joinedRows b
      ↔ ∃ u ∈ a.tuples.rows, ∃ v ∈ b.tuples.rows,
          u.agreeOn ((b.header.overlap a.header).map Attribute.name) v = true
            ∧ u.merge v = t := by
  unfold joinedRows
  simp only [List.mem_flatMap, List.mem_map, List.mem_filter, and_assoc]

theorem joinedRows (ha : Within V a a') (hb : Within V b b') :
    ∀ t ∈ a.joinedRows b, t ∈ a'.joinedRows b' := by
  intro t ht
  obtain ⟨u, hu, v, hv, hagree, rfl⟩ := mem_joinedRows_iff.1 ht
  rw [ha.header, hb.header] at hagree
  exact mem_joinedRows_iff.2
    ⟨u, ha.rows u hu, v, hb.rows v hv, hagree, rfl⟩

/-- Joined rows have no values but those of the rows joined. -/
theorem values_joinedRows (ha : Within V a a') (hb : Within V b b') :
    ∀ t ∈ a'.joinedRows b', t.Over V := by
  intro t ht
  obtain ⟨u, hu, v, hv, -, rfl⟩ := mem_joinedRows_iff.1 ht
  exact (ha.values u hu).merge (hb.values v hv)

/-- With more rows there are more agreeing pairs. -/
theorem naturalJoin (hV : Discerning V) (ha : Within V a a')
    (hb : Within V b b') :
    downward.Relates (Within V) (a.naturalJoin b) (a'.naturalJoin b') := by
  unfold Resolved.naturalJoin
  rw [ha.header, hb.header]
  refine (downward_same _).bind fun header _ hheader => ?_
  subst hheader
  exact .ok (ofList hV (joinedRows ha hb) (values_joinedRows ha hb))

/-- A theta join evaluates its predicate on the rows of a natural join, and on
fewer if there are fewer. -/
theorem thetaJoin (hV : Discerning V) (ha : Within V a a')
    (hb : Within V b b') (p : Predicate) :
    downward.Relates (Within V) (a.thetaJoin p b) (a'.thetaJoin p b') := by
  unfold Resolved.thetaJoin
  rw [ha.header, hb.header]
  refine (downward_same _).bind fun header _ hheader => ?_
  subst hheader
  refine (downward_same _).bind fun _ _ _ => ?_
  exact (downward_mapError (relates_where hV (joinedRows ha hb)
    (values_joinedRows ha hb)) _ _).bind fun _ _ hts => .ok hts

/-- All operators but the difference are monotone in both relations. -/
theorem basic (hV : Discerning V) {op : BasicOperator}
    (hop : op ≠ .subtract) (ha : Within V a a') (hb : Within V b b') :
    downward.Relates (Within V) (op.apply a b) (op.apply a' b') := by
  cases op with
  | intersect => exact ha.intersection hb
  | union => exact ha.union hV hb
  | subtract => exact absurd rfl hop
  | product => exact ha.product hV hb
  | naturalJoin => exact ha.naturalJoin hV hb
  | thetaJoin p => exact ha.thetaJoin hV hb p

/-- Every operator that is made without subtraction. -/
theorem keptBy (hV : Discerning V) :
    downward.KeptBy (Within V) (fun op op' => op = op')
      (fun op op' => op = op' ∧ op ≠ .subtract) :=
  .of_header (fun _ => .inl trivial) (fun _ _ h => h.header)
    (fun _ _ h => h.1) (fun op _ _ h => unary hV op h)
    fun _ _ _ _ _ hop hl hr => basic hV hop.2 hl hr

end Resolved.Within

-- ============================================================= queries

/-- A positive operator is defined without the difference. -/
theorem BinaryOperator.corresponds_of_isPositive {op : BinaryOperator}
    (h : op.isPositive = true) :
    Corresponds (fun op op' => op = op' ∧ op ≠ .subtract) op op := by
  cases op with
  | basic op =>
      refine .basic ⟨rfl, ?_⟩
      rintro rfl
      cases h
  | divide => cases h
  | semiJoin kind =>
      refine .semiJoin ⟨rfl, nofun⟩ ?_
      rintro rfl
      cases h

/-- A positive query has positive operators throughout. -/
theorem Query.corresponds_of_isPositive {ρ : Type} {S : ρ → ρ → Prop}
    {q : Query ρ} (h : q.isPositive = true) (hS : ∀ i ∈ q.leaves, S i i) :
    QueryTree.Corresponds (fun op op' => op = op')
      (BinaryOperator.Corresponds fun op op' => op = op' ∧ op ≠ .subtract)
      S q q := by
  induction q with
  | relation i => exact .relation (hS i (List.mem_singleton.2 rfl))
  | unary op q ih => exact .unary rfl (ih h hS)
  | binary op l r ihl ihr =>
      rw [Query.isPositive, Bool.and_eq_true, Bool.and_eq_true] at h
      refine .binary (BinaryOperator.corresponds_of_isPositive h.1.1)
        (ihl h.1.2 fun i hi => hS i ?_) (ihr h.2 fun i hi => hS i ?_)
      · exact List.mem_append_left _ hi
      · exact List.mem_append_right _ hi

/-- A positive query over relations within others succeeds if it succeeds
over the others, and its result is within theirs. -/
theorem Query.relates_within {ρ : Type} {V : Value → Prop}
    (hV : Discerning V)
    {outcome outcome' : ρ → Except RelationError Resolved} {q : Query ρ}
    (hq : q.isPositive = true)
    (houtcome : ∀ i ∈ q.leaves, ∃ a b, outcome i = .ok a
      ∧ outcome' i = .ok b ∧ a.Within V b) :
    Tolerance.downward.Relates (Resolved.Within V) (q.eval outcome)
      (q.eval outcome') := by
  refine (Resolved.Within.keptBy hV).query ?_
  refine Query.corresponds_of_isPositive hq fun i hi => ?_
  obtain ⟨a, b, ha, hb, hab⟩ := houtcome i hi
  rw [ha, hb]
  exact .ok hab

end RelAlgebra
