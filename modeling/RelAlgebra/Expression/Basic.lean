/-
Expressions over the attributes of a row. There are three families, giving
numbers, texts and truth values; each bottoms out in members, which are
attribute references and literals. A predicate is an expression of the
third family, and compares expressions of any.
-/
import RelAlgebra.Expression.Operator
import RelAlgebra.NameSet

namespace RelAlgebra

/-- A leaf of every expression. -/
inductive Member where
  | attribute (name : String)
  | literal (value : Value)

/-- Expressions that give a string. -/
inductive TextExpression where
  | member (m : Member)
  | lowercased (operand : TextExpression)
  | uppercased (operand : TextExpression)
  | concat (left right : TextExpression)

/-- Expressions that give an integer or a float. -/
inductive NumericExpression where
  | member (m : Member)
  | arithmetic (op : ArithmeticOperator) (left right : NumericExpression)
  | rounded (rule : RoundingRule) (operand : NumericExpression)
  /-- The number of characters of a string. -/
  | length (operand : TextExpression)

mutual

/-- Expressions that give a truth value. -/
inductive Predicate where
  | member (m : Member)
  | comparison (op : ComparisonOperator) (left right : Expression)
  | and (left right : Predicate)
  | or (left right : Predicate)
  | not (operand : Predicate)

/-- Expressions of any family. -/
inductive Expression where
  | member (m : Member)
  | boolean (p : Predicate)
  | numeric (e : NumericExpression)
  | text (e : TextExpression)

end

-- ================================================= the names that are read

/-- The attribute names a member reads. -/
def Member.attributes : Member → NameSet
  | .attribute name => .singleton name
  | .literal _ => .empty

/-- The attribute names a text expression reads. -/
def TextExpression.attributes : TextExpression → NameSet
  | .member m => m.attributes
  | .lowercased e => e.attributes
  | .uppercased e => e.attributes
  | .concat l r => l.attributes.union r.attributes

/-- The attribute names a numeric expression reads. -/
def NumericExpression.attributes : NumericExpression → NameSet
  | .member m => m.attributes
  | .arithmetic _ l r => l.attributes.union r.attributes
  | .rounded _ e => e.attributes
  | .length e => e.attributes

mutual

/-- The attribute names a predicate reads. -/
def Predicate.attributes : Predicate → NameSet
  | .member m => m.attributes
  | .comparison _ l r => l.attributes.union r.attributes
  | .and l r => l.attributes.union r.attributes
  | .or l r => l.attributes.union r.attributes
  | .not p => p.attributes

/-- The attribute names an expression reads. -/
def Expression.attributes : Expression → NameSet
  | .member m => m.attributes
  | .boolean p => p.attributes
  | .numeric e => e.attributes
  | .text e => e.attributes

end

end RelAlgebra
