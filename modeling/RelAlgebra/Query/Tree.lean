/-
Query trees. The leaves name relations, whatever they are named by; the
inner nodes are operators. The binary operators are a parameter, since the
operators that are defined by plans may use only the basic ones.
-/
import RelAlgebra.Algebra.Unary

namespace RelAlgebra

/-- A query with binary operators `β` over leaves `ρ`. -/
inductive QueryTree (β ρ : Type) where
  | relation (r : ρ)
  | unary (op : UnaryOperator) (input : QueryTree β ρ)
  | binary (op : β) (left right : QueryTree β ρ)

namespace QueryTree

variable {β ρ ρ' : Type}

/-- The leaves, from left to right. -/
def leaves : QueryTree β ρ → List ρ
  | .relation r => [r]
  | .unary _ q => q.leaves
  | .binary _ l r => l.leaves ++ r.leaves

/-- The query with every leaf renamed. -/
def map (f : ρ → ρ') : QueryTree β ρ → QueryTree β ρ'
  | .relation r => .relation (f r)
  | .unary op q => .unary op (q.map f)
  | .binary op l r => .binary op (l.map f) (r.map f)

/-- The query with every leaf looked up, if all of them are found. -/
def mapLeaves? (f : ρ → Option ρ') : QueryTree β ρ → Option (QueryTree β ρ')
  | .relation r => do return .relation (← f r)
  | .unary op q => do return .unary op (← q.mapLeaves? f)
  | .binary op l r => do
    let l ← l.mapLeaves? f
    let r ← r.mapLeaves? f
    return .binary op l r

/-- The result of a query, given what the leaves hold and what the binary
operators mean. The left operand is evaluated first, so its failure wins
over one on the right. -/
def evalWith (apply : β → Resolved → Resolved → Except QueryError Resolved)
    (leaf : ρ → Except QueryError Resolved) :
    QueryTree β ρ → Except QueryError Resolved
  | .relation r => leaf r
  | .unary op q => do op.apply (← q.evalWith apply leaf)
  | .binary op l r => do
    let a ← l.evalWith apply leaf
    let b ← r.evalWith apply leaf
    apply op a b

end QueryTree

end RelAlgebra
