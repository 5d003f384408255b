/-
Queries whose leaves are renamed. What a query comes to depends on what its
leaves stand for and not on what they are called: renaming the leaves is
reading them through the renaming.
-/
import RelAlgebra.Query.Plan

namespace RelAlgebra

namespace QueryTree

variable {β ρ ρ' ρ'' : Type}

@[simp]
theorem map_map (f : ρ → ρ') (g : ρ' → ρ'') (q : QueryTree β ρ) :
    (q.map f).map g = q.map (g ∘ f) := by
  induction q with
  | relation r => rfl
  | unary op q ih => simp [map, ih]
  | binary op l r ihl ihr => simp [map, ihl, ihr]

/-- A renamed query reads what its leaves are renamed to. -/
theorem evalWith_map
    {apply : β → Resolved → Resolved → Except QueryError Resolved}
    (leaf : ρ' → Except QueryError Resolved) (f : ρ → ρ')
    (q : QueryTree β ρ) :
    (q.map f).evalWith apply leaf = q.evalWith apply (leaf ∘ f) := by
  induction q with
  | relation r => rfl
  | unary op q ih => simp [map, evalWith, ih]
  | binary op l r ihl ihr => simp [map, evalWith, ihl, ihr]

/-- Looking leaves up under new names is looking them up and renaming. -/
theorem mapLeaves?_map (f : ρ → Option ρ') (g : ρ' → ρ'')
    (q : QueryTree β ρ) :
    q.mapLeaves? (fun r => (f r).map g) = (q.mapLeaves? f).map (map g) := by
  induction q with
  | relation r =>
      simp only [mapLeaves?]
      cases f r <;> rfl
  | unary op q ih =>
      simp only [mapLeaves?, ih]
      cases q.mapLeaves? f <;> rfl
  | binary op l r ihl ihr =>
      simp only [mapLeaves?, ihl, ihr]
      cases l.mapLeaves? f <;> cases r.mapLeaves? f <;> rfl

end QueryTree

/-- A renamed query comes to what it does over the renamed outcomes. -/
theorem Query.eval_map {ρ ρ' : Type}
    (outcome : ρ' → Except RelationError Resolved) (f : ρ → ρ')
    (q : Query ρ) :
    Query.eval outcome (QueryTree.map f q) = q.eval (outcome ∘ f) :=
  QueryTree.evalWith_map _ f q

end RelAlgebra
