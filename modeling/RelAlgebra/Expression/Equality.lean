/-
Equality of expressions: the same tree, with literals compared
structurally.
-/
import RelAlgebra.Expression.Evaluation
import RelAlgebra.Value.Equality

namespace RelAlgebra

protected def Member.beq : Member → Member → Bool
  | .attribute m, .attribute n => m == n
  | .literal v, .literal w => v == w
  | _, _ => false

instance : BEq Member := ⟨Member.beq⟩

protected def TextExpression.beq : TextExpression → TextExpression → Bool
  | .member m, .member n => m == n
  | .lowercased e, .lowercased f => e.beq f
  | .uppercased e, .uppercased f => e.beq f
  | .concat l r, .concat l' r' => l.beq l' && r.beq r'
  | _, _ => false

instance : BEq TextExpression := ⟨TextExpression.beq⟩

protected def NumericExpression.beq :
    NumericExpression → NumericExpression → Bool
  | .member m, .member n => m == n
  | .arithmetic op l r, .arithmetic op' l' r' =>
    op == op' && l.beq l' && r.beq r'
  | .rounded rule e, .rounded rule' f => rule == rule' && e.beq f
  | .length e, .length f => e == f
  | _, _ => false

instance : BEq NumericExpression := ⟨NumericExpression.beq⟩

mutual

protected def Predicate.beq : Predicate → Predicate → Bool
  | .member m, .member n => m == n
  | .comparison op l r, .comparison op' l' r' =>
    op == op' && l.beq l' && r.beq r'
  | .and l r, .and l' r' => l.beq l' && r.beq r'
  | .or l r, .or l' r' => l.beq l' && r.beq r'
  | .not p, .not q => p.beq q
  | _, _ => false

protected def Expression.beq : Expression → Expression → Bool
  | .member m, .member n => m == n
  | .boolean p, .boolean q => p.beq q
  | .numeric e, .numeric f => e == f
  | .text e, .text f => e == f
  | _, _ => false

end

instance : BEq Predicate := ⟨Predicate.beq⟩

instance : BEq Expression := ⟨Expression.beq⟩

/-- Equality of errors, their values compared structurally. -/
protected def EvalError.beq : EvalError → EvalError → Bool
  | .value e, .value f => e == f
  | .unknownAttribute m, .unknownAttribute n => m == n
  | _, _ => false

instance : BEq EvalError := ⟨EvalError.beq⟩

end RelAlgebra
