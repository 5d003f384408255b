/-
Division and semi joins, which are defined by plans: queries of basic
operators over relations that are resolved already. With `U` the names of
`l` that `r` lacks, the quotient is

    πU(l) − πU((πU(l) × r) − l)

and a semi join keeps the rows of one side that occur in the natural join
with the other.
-/
import RelAlgebra.Algebra.Binary
import RelAlgebra.Query.Tree

namespace RelAlgebra

/-- A query of basic operators over resolved relations. -/
abbrev Plan := QueryTree BasicOperator Resolved

namespace Plan

/-- The result of a plan. -/
def eval (plan : Plan) : Except QueryError Resolved :=
  QueryTree.evalWith BasicOperator.apply .ok plan

def project (names : List String) (input : Plan) : Plan :=
  .unary (.project names) input

def subtract (left right : Plan) : Plan := .binary .subtract left right

/-- The rows of `kept` that have a partner in `other`. -/
def partnered (kept other : Resolved) : Plan :=
  project kept.header.names
    (.binary .naturalJoin (.relation kept) (.relation other))

/-- The names of a dividend that its divisor lacks. -/
def quotientNames (l r : Resolved) : List String :=
  l.header.names.filter (!r.header.contains ·)

/-- The rows that a quotient is chosen from. -/
def candidates (l r : Resolved) : Plan :=
  project (quotientNames l r) (.relation l)

/-- The candidates without those that miss a row of the divisor. -/
def quotient (candidates l r : Resolved) : Plan :=
  let pairs := .binary .product (.relation candidates) (.relation r)
  let missing := subtract (project l.header.names pairs) (.relation l)
  subtract (.relation candidates) (project (quotientNames l r) missing)

end Plan

/-- Which rows a semi join keeps. -/
inductive SemiJoinKind where
  /-- Left rows with a partner. -/
  | left
  /-- Right rows with a partner. -/
  | right
  /-- Left rows without a partner. -/
  | anti
  deriving DecidableEq, Repr

/-- The plan of a semi join. -/
def SemiJoinKind.plan (l r : Resolved) : SemiJoinKind → Plan
  | .left => .partnered l r
  | .right => .partnered r l
  | .anti => .subtract (.relation l) (.partnered l r)

/-- Fails unless every attribute of `k` is in `h` with the same type. -/
def Header.requireSuperset (h k : Header) : Except QueryError Unit :=
  if k.attributes.all fun a => h.attribute? a.name = some a then
    .ok ()
  else
    .error (.notSuperset h.attributes k.attributes)

/-- All operators on two relations. -/
inductive BinaryOperator where
  | basic (op : BasicOperator)
  | divide
  | semiJoin (kind : SemiJoinKind)

namespace BinaryOperator

/-- The name that the log uses. -/
def name : BinaryOperator → String
  | .basic op => op.name
  | .divide => "division"
  | .semiJoin _ => "semi join"

def apply (op : BinaryOperator) (l r : Resolved) :
    Except QueryError Resolved :=
  match op with
  | .basic op => op.apply l r
  | .divide => do
    l.header.requireSuperset r.header
    let candidates ← (Plan.candidates l r).eval
    (Plan.quotient candidates l r).eval
  | .semiJoin kind => (kind.plan l r).eval

end BinaryOperator

/-- A query over relations named by `ρ`. -/
abbrev Query (ρ : Type) := QueryTree BinaryOperator ρ

namespace Query

variable {ρ : Type}

/-- The name of the operator at the root. -/
def name : Query ρ → String
  | .relation _ => "relation"
  | .unary op _ => op.name
  | .binary op _ _ => op.name

/-- The result of a query, given the outcome of each relation it reads. -/
def eval (outcome : ρ → Except RelationError Resolved) (q : Query ρ) :
    Except QueryError Resolved :=
  QueryTree.evalWith BinaryOperator.apply
    (fun r => (outcome r).mapError .relation) q

end Query

end RelAlgebra
