/-
Why a query or a relation has no rows. A query fails on the headers of its
inputs, on a predicate, on a value it sorts by, or because a relation it
reads has failed already; a relation fails on its own header or with its
query. The two kinds contain each other. `RelationError.ofQuery` keeps
relation errors flat: an error that comes from below is handed on as it
is, however many relations it passes through.
-/
import RelAlgebra.Expression.Equality
import RelAlgebra.Expression.Printer
import RelAlgebra.Header

namespace RelAlgebra

mutual

/-- Why a query has no result. -/
inductive QueryError where
  /-- Names that the input does not have. -/
  | unknownAttributes (names : List String)
  /-- Attributes to be joined whose types differ. -/
  | incompatibleAttributes (pairs : List (Attribute × Attribute))
  /-- The headers of a set operation differ. -/
  | notUnionCompatible (left right : List Attribute)
  /-- The headers of a product share names; the attributes that do. -/
  | notDisjoint (left right : List Attribute)
  /-- A divisor has attributes that the dividend lacks. -/
  | notSuperset (left right : List Attribute)
  | predicate (error : EvalError)
  | header (error : HeaderError)
  | value (error : ValueError)
  /-- A relation that the query reads had failed. -/
  | relation (error : RelationError)

/-- Why a relation has no rows. -/
inductive RelationError where
  | header (error : HeaderError)
  | value (error : ValueError)
  | query (error : QueryError)

end

/-- The error of a relation whose query failed. -/
def RelationError.ofQuery : QueryError → RelationError
  | .relation e => e
  | .value e => .value e
  | e => .query e

-- ============================================================ equality

mutual

/-- Equality of errors, their values compared structurally. -/
protected def QueryError.beq : QueryError → QueryError → Bool
  | .unknownAttributes ns, .unknownAttributes ms => ns == ms
  | .incompatibleAttributes ps, .incompatibleAttributes qs => ps == qs
  | .notUnionCompatible l r, .notUnionCompatible l' r' => l == l' && r == r'
  | .notDisjoint l r, .notDisjoint l' r' => l == l' && r == r'
  | .notSuperset l r, .notSuperset l' r' => l == l' && r == r'
  | .predicate e, .predicate f => e == f
  | .header e, .header f => e == f
  | .value e, .value f => e == f
  | .relation e, .relation f => e.beq f
  | _, _ => false

/-- Equality of errors, their values compared structurally. -/
protected def RelationError.beq : RelationError → RelationError → Bool
  | .header e, .header f => e == f
  | .value e, .value f => e == f
  | .query e, .query f => e.beq f
  | _, _ => false

end

instance : BEq QueryError := ⟨QueryError.beq⟩

instance : BEq RelationError := ⟨RelationError.beq⟩

-- ======================================================= printed forms

/-- Two attributes that are at odds. -/
def Attribute.renderPair (p : Attribute × Attribute) : String :=
  p.1.render ++ " vs " ++ p.2.render

/-- Two attributes that are at odds, with their constructors. -/
def Attribute.inspectPair (p : Attribute × Attribute) : String :=
  "(" ++ p.1.inspect ++ ", " ++ p.2.inspect ++ ")"

mutual

def QueryError.message : QueryError → String
  | .unknownAttributes names =>
    "Unknown attributes: " ++ Text.bracketed (names.map Text.quote)
  | .incompatibleAttributes pairs =>
    "Incompatible attributes: "
      ++ ", ".intercalate (pairs.map Attribute.renderPair)
  | .notUnionCompatible left right =>
    "Not union compatible: (" ++ Attribute.renderList left ++ ") vs ("
      ++ Attribute.renderList right ++ ")"
  | .notDisjoint left right =>
    "Attributes are not disjoint: (" ++ Attribute.renderList left
      ++ ") vs (" ++ Attribute.renderList right ++ ")"
  | .notSuperset left right =>
    "Attributes are not a superset: (" ++ Attribute.renderList left
      ++ ") does not contain (" ++ Attribute.renderList right ++ ")"
  | .predicate e => e.message
  | .header e => e.message
  | .value e => e.message
  | .relation e => e.message

def RelationError.message : RelationError → String
  | .header e => e.message
  | .value e => e.message
  | .query e => e.message

end

/-- A constructor with two lists of attributes. -/
def inspectLists (constructor : String) (left right : List Attribute) :
    String :=
  constructor ++ "(" ++ Text.bracketed (left.map Attribute.inspect) ++ ", "
    ++ Text.bracketed (right.map Attribute.inspect) ++ ")"

mutual

def QueryError.inspect : QueryError → String
  | .unknownAttributes names =>
    "UnknownAttributes(" ++ Text.bracketed (names.map Text.quote) ++ ")"
  | .incompatibleAttributes pairs =>
    "IncompatibleAttributes("
      ++ Text.bracketed (pairs.map Attribute.inspectPair) ++ ")"
  | .notUnionCompatible left right =>
    inspectLists "NotUnionCompatible" left right
  | .notDisjoint left right => inspectLists "NotDisjoint" left right
  | .notSuperset left right => inspectLists "NotSuperset" left right
  | .predicate e => "Predicate(" ++ e.inspect ++ ")"
  | .header e => "Header(" ++ e.inspect ++ ")"
  | .value e => "Value(" ++ e.inspect ++ ")"
  | .relation e => "Relation(" ++ e.inspect ++ ")"

def RelationError.inspect : RelationError → String
  | .header e => "Header(" ++ e.inspect ++ ")"
  | .value e => "Value(" ++ e.inspect ++ ")"
  | .query e => "Query(" ++ e.inspect ++ ")"

end

end RelAlgebra
