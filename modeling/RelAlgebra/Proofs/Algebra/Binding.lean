/-
Names that rows turn out not to have. An operator checks the names in its
predicate against the header before it looks at a row, and rows that fit
the header have all its names; so over well-formed relations no predicate
ever misses a name, and this stays so at every inner point of a query. A
name that the header lacks is reported by the check, whatever the rows; and
what an operator reports, the query ends with, once it comes to that
operator.
-/
import RelAlgebra.Proofs.Algebra.WellFormed
import RelAlgebra.Proofs.Expression.Names

namespace RelAlgebra

-- ============================================================== errors

mutual

/-- Whether a predicate read a name that a row does not have, here or in a
relation that failed. -/
def QueryError.isUnbound : QueryError → Bool
  | .predicate e => e.isUnbound
  | .relation e => e.isUnbound
  | _ => false

/-- Whether a predicate read a name that a row does not have, here or in a
relation that failed. -/
def RelationError.isUnbound : RelationError → Bool
  | .query e => e.isUnbound
  | _ => false

end

theorem QueryError.isUnbound_of_isSchema {e : QueryError}
    (h : e.isSchema = true) : e.isUnbound = false := by
  cases e <;> first | rfl | cases h

/-- Handing an error on does not bring a missed name into it. -/
theorem RelationError.isUnbound_ofQuery (e : QueryError) :
    (RelationError.ofQuery e).isUnbound = e.isUnbound := by
  cases e <;> rfl

-- =========================================================== operators

/-- Choosing rows fails as the test does on one of them. -/
theorem Tuples.raises_ofListWhereM {ε : Type} {E : ε → Prop}
    {f : Tuple → Except ε Bool} {rows : List Tuple}
    (h : ∀ t ∈ rows, Raises E (f t)) :
    Raises E (ofListWhereM f rows) := by
  have hloop : ∀ ts, Raises E (rows.foldlM (keepWhere f) ts) := by
    induction rows with
    | nil => exact fun _ => Raises.ok
    | cons t rest ih =>
        intro ts
        rw [List.foldlM_cons]
        have hrow : Raises E (keepWhere f ts t) := by
          refine (h t (List.mem_cons_self ..)).bind fun b _ => ?_
          cases b <;> exact Raises.ok
        have hrest : ∀ u ∈ rest, Raises E (f u) :=
          fun u hu => h u (List.mem_cons_of_mem _ hu)
        exact hrow.bind fun ts' _ => ih hrest ts'
  exact hloop empty

/-- A row that fits has the names that its header passes for. -/
theorem Tuple.Fits.binds {t : Tuple} {h : Header} (ht : t.Fits h)
    {names : NameSet} (hrequire : h.require names.toList = .ok ()) :
    Context.Binds t.get? names := by
  intro name hname
  have hmem : name ∈ t.names :=
    (ht.names name).2 (Header.mem_of_require hrequire hname)
  exact Option.isSome_iff_exists.1 (Tuple.mem_names_iff.1 hmem)

/-- A predicate misses no name on rows that fit a header which has passed
for its names. -/
theorem Predicate.neverUnbound_where {p : Predicate} {h : Header}
    {rows : List Tuple} (hrows : ∀ t ∈ rows, t.Fits h)
    (hrequire : h.require p.attributes.toList = .ok ()) :
    NeverUnbound (Tuples.ofListWhereM (fun t => p.eval t.get?) rows) :=
  Tuples.raises_ofListWhereM fun t ht =>
    p.neverUnbound_eval ((hrows t ht).binds hrequire)

namespace Resolved.WellFormed

/-- Expressions are evaluated only after their names were found in the header,
and rows that fit it have them all. -/
theorem unary_bound (op : UnaryOperator) {r : Resolved} (hr : r.WellFormed) :
    Raises (fun e => e.isUnbound = false) (op.apply r) := by
  refine op.raises_apply (fun _ => QueryError.isUnbound_of_isSchema)
    (fun _ => rfl) r fun p _ hrequire => ?_
  exact Predicate.neverUnbound_where hr.fits hrequire

/-- The predicate of a join is evaluated on merged rows, which fit the joined
header. -/
theorem basic_bound (op : BasicOperator) {l r : Resolved} (hl : l.WellFormed)
    (hr : r.WellFormed) :
    Raises (fun e => e.isUnbound = false) (op.apply l r) := by
  refine op.raises_apply (fun _ => QueryError.isUnbound_of_isSchema) l r
    fun p header _ hheader hrequire => ?_
  exact Predicate.neverUnbound_where (fits_joinedRows hl hr hheader) hrequire

end Resolved.WellFormed

-- ============================================================= queries

/-- Whether a relation comes to a well-formed one, or to a failure other
than for want of a name in a row. -/
def Outcome.Bound : Outcome → Prop :=
  Concludes Resolved.WellFormed fun e => e.isUnbound = false

/-- Over relations that are bound so, every query is. -/
theorem Query.concludes_bound {ρ : Type} {outcome : ρ → Outcome}
    (houtcome : ∀ i, (outcome i).Bound) (q : Query ρ) :
    Concludes Resolved.WellFormed (fun e => e.isUnbound = false)
      (q.eval outcome) := by
  refine Query.concludes_eval (fun op a ha => ?_) (fun op a b ha hb => ?_)
    (fun h k e he => ?_) fun i _ => houtcome i
  · exact Concludes.iff.2 ⟨ha.unary op, ha.unary_bound op⟩
  · exact Concludes.iff.2 ⟨ha.basic op hb, ha.basic_bound op hb⟩
  · exact QueryError.isUnbound_of_isSchema
      (Header.raises_requireSuperset h k e he)

-- ======================================================= missing names

/-- The names that the operator reads from its input. -/
def UnaryOperator.reads : UnaryOperator → List String
  | .project names => names
  | .select p => p.attributes.toList
  | .rename _ old => [old]
  | .orderBy keys => keys.map SortKey.name

/-- Every operator begins with the check for these names. -/
theorem UnaryOperator.exists_apply_eq (op : UnaryOperator) (r : Resolved) :
    ∃ f, op.apply r = r.header.require op.reads >>= f := by
  cases op <;> exact ⟨_, rfl⟩

/-- A name that the input lacks is reported whatever its rows. -/
theorem UnaryOperator.apply_of_not_mem (op : UnaryOperator) {r : Resolved}
    {name : String} (hname : name ∈ op.reads)
    (hfree : name ∉ r.header.names) :
    op.apply r = .error (.unknownAttributes (r.header.missing op.reads)) := by
  obtain ⟨f, hf⟩ := op.exists_apply_eq r
  rw [hf, Header.require_of_not_mem hname hfree]
  rfl

/-- A name that the joined header lacks is reported whatever the rows. -/
theorem Resolved.thetaJoin_of_not_mem {p : Predicate} {l r : Resolved}
    {header : Header} {name : String}
    (hheader : l.header.join r.header = .ok header)
    (hname : name ∈ p.attributes) (hfree : name ∉ header.names) :
    l.thetaJoin p r
      = .error (.unknownAttributes (header.missing p.attributes.toList)) := by
  unfold thetaJoin
  rw [hheader]
  show (header.require p.attributes.toList >>= _) = _
  rw [Header.require_of_not_mem (NameSet.mem_def.1 hname) hfree]
  rfl

namespace QueryTree

variable {β ρ : Type}

/-- Whether evaluating a tree comes to its subtree `t`: whatever is
evaluated before it succeeds. -/
inductive ComesTo (succeeds : QueryTree β ρ → Prop) (t : QueryTree β ρ) :
    QueryTree β ρ → Prop
  | here : ComesTo succeeds t t
  | unary (op : UnaryOperator) {q : QueryTree β ρ}
    (h : ComesTo succeeds t q) : ComesTo succeeds t (.unary op q)
  | left (op : β) {l : QueryTree β ρ} (r : QueryTree β ρ)
    (h : ComesTo succeeds t l) : ComesTo succeeds t (.binary op l r)
  | right (op : β) {l r : QueryTree β ρ} (hl : succeeds l)
    (h : ComesTo succeeds t r) : ComesTo succeeds t (.binary op l r)

/-- The error of a subtree that an evaluation comes to ends it. -/
theorem ComesTo.evalWith_eq_error
    {apply : β → Resolved → Resolved → Except QueryError Resolved}
    {leaf : ρ → Except QueryError Resolved} {t q : QueryTree β ρ}
    (h : ComesTo (fun l => ∃ r, l.evalWith apply leaf = .ok r) t q)
    {e : QueryError} (he : t.evalWith apply leaf = .error e) :
    q.evalWith apply leaf = .error e := by
  induction h with
  | here => exact he
  | unary op _ ih =>
      rw [evalWith, ih]
      rfl
  | left op r _ ih =>
      rw [evalWith, ih]
      rfl
  | right op hl _ ih =>
      obtain ⟨a, ha⟩ := hl
      rw [evalWith, ha, ih]
      rfl

end QueryTree

end RelAlgebra
