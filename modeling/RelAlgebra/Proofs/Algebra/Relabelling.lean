/-
Names are only labels. Operators compare names with each other and with
those of headers, and otherwise hand them on; so on relations with replaced
names, an operator with replaced names comes to what it came to before,
with replaced names, rows and attributes in their order, or it fails with
the same error but for the names. That holds of queries, by induction; the
plans of division and semi joins take their names from the headers of the
operands, where these are replaced alike.
-/
import RelAlgebra.Proofs.Header.Relabelling
import RelAlgebra.Proofs.Tuples.Relabelling

namespace RelAlgebra

section Definitions

variable (f : String ↪ String)

/-- The relation with replaced names. -/
def Resolved.relabel (r : Resolved) : Resolved :=
  ⟨r.header.relabel f, r.tuples.relabel f⟩

/-- The operator with the names it mentions changed. -/
def UnaryOperator.relabel : UnaryOperator → UnaryOperator
  | .project names => .project (names.map f)
  | .select p => .select (p.relabel f)
  | .rename new old => .rename (f new) (f old)
  | .orderBy keys => .orderBy (keys.map (SortKey.relabel f))

def BasicOperator.relabel : BasicOperator → BasicOperator
  | .thetaJoin p => .thetaJoin (p.relabel f)
  | op => op

/-- The operator with the names it mentions changed; only theta joins mention
any. -/
def BinaryOperator.relabel : BinaryOperator → BinaryOperator
  | .basic op => .basic (op.relabel f)
  | op => op

/-- The query with the names of attributes replaced. -/
def Query.relabel {ρ : Type} : Query ρ → Query ρ
  | .relation r => .relation r
  | .unary op q => .unary (op.relabel f) (relabel q)
  | .binary op l r => .binary (op.relabel f) (relabel l) (relabel r)

end Definitions

variable {f : String ↪ String}

-- ================================================================ rows

/-- Rows agree under the new names as under the old ones. -/
theorem Tuple.agreeOn_relabel (t u : Tuple) (names : List String) :
    (t.relabel f).agreeOn (names.map f) (u.relabel f)
      = t.agreeOn names u := by
  unfold agreeOn
  rw [List.all_map]
  simp only [Function.comp_def, get?_relabel]

/-- A choice of rows by a test that does not mind the names. -/
theorem Tuples.ofListWhereM_relabel {p p' : Tuple → Except EvalError Bool}
    (h : ∀ t, p' (t.relabel f) = (p t).mapError (EvalError.relabel f))
    (rows : List Tuple) :
    ofListWhereM p' (rows.map (Tuple.relabel f))
      = ((ofListWhereM p rows).map (relabel f)).mapError
          (EvalError.relabel f) := by
  have hloop : ∀ ts : Tuples,
      (rows.map (Tuple.relabel f)).foldlM (keepWhere p') (ts.relabel f)
        = ((rows.foldlM (keepWhere p) ts).map (relabel f)).mapError
            (EvalError.relabel f) := by
    induction rows with
    | nil => exact fun _ => rfl
    | cons t rest ih =>
        intro ts
        rw [List.map_cons, List.foldlM_cons, List.foldlM_cons, keepWhere,
          keepWhere, h]
        cases p t with
        | error e => rfl
        | ok b =>
            cases b with
            | true =>
                rw [insert_relabel]
                exact ih (ts.insert t)
            | false => exact ih ts
  exact hloop empty

/-- Rows that the predicate holds of are chosen as before. -/
theorem Predicate.where_relabel (p : Predicate) (rows : List Tuple) :
    Tuples.ofListWhereM (fun t => (p.relabel f).eval t.get?)
        (rows.map (Tuple.relabel f))
      = ((Tuples.ofListWhereM (fun t => p.eval t.get?) rows).map
          (Tuples.relabel f)).mapError (EvalError.relabel f) :=
  Tuples.ofListWhereM_relabel
    (fun t => p.eval_relabel t.get?_relabel) rows

-- =========================================================== operators

namespace Resolved

open Tolerance (relabelling)

/-- Both come to relations, and the second to that of the first with
replaced names; or both fail, with one error but for the names. -/
abbrev Relabels (f : String ↪ String) :
    Except QueryError Resolved → Except QueryError Resolved → Prop :=
  (relabelling f).Relates fun r r' => r' = r.relabel f

variable (l r : Resolved)

theorem relabels_project (names : List String) :
    Relabels f (r.project names) ((r.relabel f).project (names.map f)) := by
  refine (Header.relates_require fun _ => Iff.rfl).bind fun _ _ _ => ?_
  have hattributes : (names.map f).filterMap (r.relabel f).header.attribute?
      = (names.filterMap r.header.attribute?).map (Attribute.relabel f) := by
    rw [List.filterMap_map, List.map_filterMap]
    exact List.filterMap_congr fun name _ => Header.attribute?_relabel _ _
  rw [hattributes]
  refine (Header.relates_derive _).bind fun header header' hheader => ?_
  subst hheader
  exact .ok (congrArg (Resolved.mk _)
    (Tuples.map_relabel (fun t => t.project_relabel names) r.tuples))

/-- The names in a predicate pass for a header as the replaced ones do for
the replaced header. -/
theorem relates_require_predicate (h : Header) (p : Predicate) :
    (relabelling f).Relates (fun _ _ => True)
      (h.require p.attributes.toList)
      ((h.relabel f).require (p.relabel f).attributes.toList) :=
  Header.relates_require fun name => by
    rw [← NameSet.mem_def, p.images_attributes name, List.mem_map]
    rfl

/-- Rows chosen by a predicate, under a header. -/
theorem relabels_where (header : Header) (rows : List Tuple) (p : Predicate) :
    Relabels f
      (do
        let tuples ← (Tuples.ofListWhereM (fun t => p.eval t.get?)
          rows).mapError .predicate
        return ⟨header, tuples⟩)
      (do
        let tuples ← (Tuples.ofListWhereM
          (fun t => (p.relabel f).eval t.get?)
          (rows.map (Tuple.relabel f))).mapError .predicate
        return ⟨header.relabel f, tuples⟩) := by
  rw [p.where_relabel]
  cases Tuples.ofListWhereM (fun t => p.eval t.get?) rows with
  | ok ts => exact .ok rfl
  | error e => exact .both (.predicate e)

/-- A predicate that is relabelled is evaluated on relabelled rows with the
same answers. -/
theorem relabels_select (p : Predicate) :
    Relabels f (r.select p) ((r.relabel f).select (p.relabel f)) :=
  (relates_require_predicate _ p).bind fun _ _ _ =>
    relabels_where r.header r.tuples.rows p

/-- Renaming one name is renaming its image. -/
theorem relabels_rename (new old : String) :
    Relabels f (r.rename new old) ((r.relabel f).rename (f new) (f old)) := by
  refine (Header.relates_require fun name => by simp).bind fun _ _ _ => ?_
  by_cases hname : new = old
  · rw [if_pos hname, if_pos (congrArg f hname)]
    exact .ok rfl
  · rw [if_neg hname, if_neg (f.injective.ne hname)]
    have hattributes : ((r.relabel f).header.attributes.map fun a =>
          if a.name = f old then { a with name := f new } else a)
        = (r.header.attributes.map fun a =>
            if a.name = old then { a with name := new } else a).map
              (Attribute.relabel f) := by
      show (r.header.attributes.map (Attribute.relabel f)).map _ = _
      rw [List.map_map, List.map_map]
      refine List.map_congr_left fun a _ => ?_
      by_cases ha : a.name = old
      · simp [Attribute.relabel, ha]
      · simp [Attribute.relabel, ha, f.injective.eq_iff]
    rw [hattributes]
    refine (Header.relates_derive _).bind fun header header' hheader => ?_
    subst hheader
    exact .ok (congrArg (Resolved.mk _)
      (Tuples.map_relabel (fun t => t.renamed_relabel old new) r.tuples))

/-- Keys lead to the same values under the new names, so the rows compare
alike. -/
theorem relabels_orderBy (keys : List SortKey) :
    Relabels f (r.orderBy keys)
      ((r.relabel f).orderBy (keys.map (SortKey.relabel f))) := by
  have hnames : (keys.map (SortKey.relabel f)).map SortKey.name
      = (keys.map SortKey.name).map f := by
    rw [List.map_map, List.map_map]
    rfl
  have hrequire : (relabelling f).Relates (fun _ _ => True)
      (r.header.require (keys.map SortKey.name))
      ((r.header.relabel f).require
        ((keys.map (SortKey.relabel f)).map SortKey.name)) :=
    Header.relates_require fun _ => by rw [hnames]
  refine hrequire.bind fun _ _ _ => ?_
  show Relabels f _ (Except.mapError _ ((r.tuples.relabel f).sortedBy _) >>= _)
  rw [Tuples.sortedBy_relabel]
  cases r.tuples.sortedBy keys with
  | ok ts => exact .ok rfl
  | error e => exact .both (.value e)

/-- The operators on one relation commute with a change of names. -/
theorem relabels_unary (op : UnaryOperator) :
    Relabels f (op.apply r) ((op.relabel f).apply (r.relabel f)) := by
  cases op with
  | project names => exact relabels_project r names
  | select p => exact relabels_select r p
  | rename new old => exact relabels_rename r new old
  | orderBy keys => exact relabels_orderBy r keys

/-- An operation on rows that commutes with a change of names does so on
relations. -/
theorem relabels_setOperation {op : Tuples → Tuples → Tuples}
    (hop : ∀ ts us, op (ts.relabel f) (us.relabel f) = (op ts us).relabel f) :
    Relabels f (setOperation op l r)
      (setOperation op (l.relabel f) (r.relabel f)) := by
  refine (Header.relates_requireSame _ _).bind fun _ _ _ => .ok ?_
  exact congrArg (Resolved.mk _) (hop l.tuples r.tuples)

/-- Shared names are mapped to shared names, and no others are. -/
theorem relabels_product :
    Relabels f (l.product r) ((l.relabel f).product (r.relabel f)) := by
  refine (Header.relates_product _ _).bind fun header header' hheader => ?_
  have hrows : ((l.relabel f).tuples.rows.flatMap fun t =>
        (r.relabel f).tuples.rows.map t.merge)
      = (l.tuples.rows.flatMap fun t => r.tuples.rows.map t.merge).map
          (Tuple.relabel f) := by
    show ((l.tuples.rows.map (Tuple.relabel f)).flatMap fun t =>
      (r.tuples.rows.map (Tuple.relabel f)).map t.merge) = _
    rw [List.flatMap_map, List.map_flatMap]
    refine List.flatMap_congr fun t _ => ?_
    rw [List.map_map, List.map_map]
    exact List.map_congr_left fun u _ => t.merge_relabel u
  subst hheader
  rw [hrows, Tuples.ofList_relabel]
  exact .ok rfl

/-- The same pairs of rows agree. -/
theorem joinedRows_relabel :
    (l.relabel f).joinedRows (r.relabel f)
      = (l.joinedRows r).map (Tuple.relabel f) := by
  unfold joinedRows
  have hcommon : ((r.relabel f).header.overlap (l.relabel f).header).map
        Attribute.name
      = ((r.header.overlap l.header).map Attribute.name).map f := by
    rw [← Attribute.map_name_relabel, ← Header.overlap_relabel]
    rfl
  rw [hcommon]
  generalize (r.header.overlap l.header).map Attribute.name = common
  show ((l.tuples.rows.map (Tuple.relabel f)).flatMap fun t =>
    ((r.tuples.rows.map (Tuple.relabel f)).filter _).map t.merge) = _
  rw [List.flatMap_map, List.map_flatMap]
  refine List.flatMap_congr fun t _ => ?_
  rw [List.filter_map, List.map_map, List.map_map]
  simp only [Function.comp_def, Tuple.agreeOn_relabel, Tuple.merge_relabel]

/-- The join of the images is the image of the join. -/
theorem relabels_naturalJoin :
    Relabels f (l.naturalJoin r)
      ((l.relabel f).naturalJoin (r.relabel f)) := by
  refine (Header.relates_join _ _).bind fun header header' hheader => ?_
  subst hheader
  rw [joinedRows_relabel, Tuples.ofList_relabel]
  exact .ok rfl

theorem relabels_thetaJoin (p : Predicate) :
    Relabels f (l.thetaJoin p r)
      ((l.relabel f).thetaJoin (p.relabel f) (r.relabel f)) := by
  refine (Header.relates_join _ _).bind fun header header' hheader => ?_
  subst hheader
  refine (relates_require_predicate header p).bind fun _ _ _ => ?_
  rw [joinedRows_relabel]
  exact relabels_where header (l.joinedRows r) p

/-- The basic operators commute with a change of names. -/
theorem relabels_basic (op : BasicOperator) :
    Relabels f (op.apply l r)
      ((op.relabel f).apply (l.relabel f) (r.relabel f)) := by
  cases op with
  | intersect => exact relabels_setOperation l r Tuples.intersection_relabel
  | union => exact relabels_setOperation l r Tuples.union_relabel
  | subtract => exact relabels_setOperation l r Tuples.difference_relabel
  | product => exact relabels_product l r
  | naturalJoin => exact relabels_naturalJoin l r
  | thetaJoin p => exact relabels_thetaJoin l r p

/-- The plan of division projects on the images of the names. -/
theorem quotientNames_relabel :
    Plan.quotientNames (l.relabel f) (r.relabel f)
      = (Plan.quotientNames l r).map f := by
  unfold Plan.quotientNames
  show ((l.header.relabel f).names.filter _) = _
  rw [Header.names_relabel, List.filter_map]
  refine congrArg _ (List.filter_congr fun name _ => ?_)
  exact congrArg (!·) (Header.contains_relabel r.header name)

variable (f) in
/-- Every operator with replaced names. -/
theorem relabels_keptBy : (relabelling f).KeptBy (fun r r' => r' = r.relabel f)
    (fun op op' => op' = op.relabel f) (fun op op' => op' = op.relabel f) where
  unary op _ a _ hop ha := hop ▸ ha ▸ relabels_unary a op
  basic op _ l _ r _ hop hl hr := hop ▸ hl ▸ hr ▸ relabels_basic l r op
  superset l _ r _ hl hr :=
    hl ▸ hr ▸ Header.relates_requireSuperset l.header r.header
  names a _ ha := by
    rw [ha]
    exact congrArg UnaryOperator.project (Header.names_relabel a.header)
  quotientNames l _ r _ hl hr := by
    rw [hl, hr]
    exact congrArg UnaryOperator.project (quotientNames_relabel l r)

end Resolved

-- ============================================================= queries

/-- An operator corresponds to its image, its plan included. -/
theorem BinaryOperator.corresponds_relabel (op : BinaryOperator) :
    Corresponds (fun op op' => op' = op.relabel f) op (op.relabel f) := by
  cases op with
  | basic op => exact .basic rfl
  | divide => exact .divide rfl rfl
  | semiJoin kind => exact .semiJoin rfl fun _ => rfl

/-- Evaluating a query with replaced names over relations with replaced
names. -/
theorem Query.relabels_eval {ρ : Type}
    {outcome outcome' : ρ → Except RelationError Resolved} {q : Query ρ}
    (houtcome : ∀ i ∈ q.leaves, ∃ r, outcome i = .ok r
      ∧ outcome' i = .ok (r.relabel f)) :
    Resolved.Relabels f (q.eval outcome) ((q.relabel f).eval outcome') := by
  refine (Resolved.relabels_keptBy f).query ?_
  induction q with
  | relation i =>
      obtain ⟨r, hr, hr'⟩ := houtcome i (List.mem_singleton.2 rfl)
      refine .relation ?_
      rw [hr, hr']
      exact .ok rfl
  | unary op q ih => exact .unary rfl (ih houtcome)
  | binary op l r ihl ihr =>
      refine .binary op.corresponds_relabel (ihl fun i hi => houtcome i ?_)
        (ihr fun i hi => houtcome i ?_)
      · exact List.mem_append_left _ hi
      · exact List.mem_append_right _ hi

end RelAlgebra
