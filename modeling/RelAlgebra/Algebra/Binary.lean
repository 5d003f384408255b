/-
The basic operators on two relations: set operations, product and joins.
The joins unify attributes of one name into one column, and join two rows
if they agree on all of these; a theta join also asks a predicate about
the joined row.
-/
import RelAlgebra.Expression.Evaluation
import RelAlgebra.Resolved
import RelAlgebra.Tuples.Transform

namespace RelAlgebra

-- ============================================================= headers

namespace Header

/-- The attributes of `h` whose names occur in `k`. -/
def overlap (h k : Header) : List Attribute :=
  h.attributes.filter fun a => k.contains a.name

/-- The attributes of `h` whose names do not occur in `k`. -/
def without (h k : Header) : List Attribute :=
  h.attributes.filter fun a => !k.contains a.name

/-- The attributes of one name but of different types, in the order of
`k`. -/
def conflicts (h k : Header) : List (Attribute × Attribute) :=
  k.attributes.filterMap fun a =>
    match h.attribute? a.name with
    | some b => if b.type = a.type then none else some (b, a)
    | none => none

/-- The header of a join: the attributes of `h`, then those of `k` that
`h` lacks. -/
def join (h k : Header) : Except QueryError Header :=
  match h.conflicts k with
  | [] => derive (h.attributes ++ k.without h)
  | pairs => .error (.incompatibleAttributes pairs)

/-- The header of a product, for headers without a common name. -/
def product (h k : Header) : Except QueryError Header :=
  match h.overlap k with
  | [] => derive (h.attributes ++ k.attributes)
  | common => .error (.notDisjoint common (k.overlap h))

/-- Fails unless the headers are the same. -/
def requireSame (h k : Header) : Except QueryError Unit :=
  if h = k then
    .ok ()
  else
    .error (.notUnionCompatible h.attributes k.attributes)

end Header

-- ================================================================ rows

/-- Whether two rows have equal values under all these names. -/
def Tuple.agreeOn (names : List String) (t u : Tuple) : Bool :=
  names.all fun name => t.get? name == u.get? name

namespace Resolved

/-- The rows of `l` merged with the rows of `r` that they agree with on
the common names, left rows outermost. -/
def joinedRows (l r : Resolved) : List Tuple :=
  let common := (r.header.overlap l.header).map Attribute.name
  l.tuples.rows.flatMap fun t =>
    (r.tuples.rows.filter fun u => t.agreeOn common u).map t.merge

/-- A set operation on relations with the same header. -/
def setOperation (op : Tuples → Tuples → Tuples) (l r : Resolved) :
    Except QueryError Resolved := do
  l.header.requireSame r.header
  return ⟨l.header, op l.tuples r.tuples⟩

/-- Pairs every row of `l` with every row of `r`. -/
def product (l r : Resolved) : Except QueryError Resolved := do
  let header ← l.header.product r.header
  return ⟨header,
    .ofList (l.tuples.rows.flatMap fun t => r.tuples.rows.map t.merge)⟩

/-- Joins on the common names. -/
def naturalJoin (l r : Resolved) : Except QueryError Resolved := do
  let header ← l.header.join r.header
  return ⟨header, .ofList (l.joinedRows r)⟩

/-- Joins on the common names and the predicate. -/
def thetaJoin (p : Predicate) (l r : Resolved) :
    Except QueryError Resolved := do
  let header ← l.header.join r.header
  header.require p.attributes.toList
  let tuples ←
    (Tuples.ofListWhereM (fun t => p.eval t.get?) (l.joinedRows r)).mapError
      .predicate
  return ⟨header, tuples⟩

end Resolved

/-- The basic operators on two relations. -/
inductive BasicOperator where
  | intersect
  | union
  | subtract
  | product
  | naturalJoin
  | thetaJoin (p : Predicate)

namespace BasicOperator

/-- The name that the log uses. -/
def name : BasicOperator → String
  | .intersect => "intersection"
  | .union => "union"
  | .subtract => "subtraction"
  | .product => "product"
  | .naturalJoin => "natural join"
  | .thetaJoin _ => "theta join"

def apply : BasicOperator → Resolved → Resolved → Except QueryError Resolved
  | .intersect => Resolved.setOperation Tuples.intersection
  | .union => Resolved.setOperation Tuples.union
  | .subtract => Resolved.setOperation Tuples.difference
  | .product => Resolved.product
  | .naturalJoin => Resolved.naturalJoin
  | .thetaJoin p => Resolved.thetaJoin p

end BasicOperator

end RelAlgebra
