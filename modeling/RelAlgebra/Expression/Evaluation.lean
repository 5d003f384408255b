/-
Evaluation of expressions against a row. A row is read through a lookup
function: a name that it does not know at all is an error, which is
different from a name that holds the absent value.

Both sides of every operator are evaluated, left before right, also where
the left side already decides; so an error on either side surfaces.
-/
import RelAlgebra.Expression.Basic
import RelAlgebra.Value.Text

namespace RelAlgebra

/-- Why an expression has no value. -/
inductive EvalError where
  | value (error : ValueError)
  | unknownAttribute (name : String)

/-- How an expression finds the values of attributes. -/
abbrev Context := String → Option Value

namespace EvalError

/-- An operation on values as a step of an evaluation. -/
def lift {α : Type} (result : Except ValueError α) : Except EvalError α :=
  result.mapError .value

end EvalError

/-- The value of a member. -/
def Member.eval (ctx : Context) : Member → Except EvalError Value
  | .literal value => .ok value
  | .attribute name =>
    match ctx name with
    | some value => .ok value
    | none => .error (.unknownAttribute name)

/-- The value of a text expression. -/
def TextExpression.eval (ctx : Context) :
    TextExpression → Except EvalError Value
  | .member m => m.eval ctx
  | .lowercased e => do EvalError.lift (← e.eval ctx).lowercased
  | .uppercased e => do EvalError.lift (← e.eval ctx).uppercased
  | .concat l r => do
    let a ← l.eval ctx
    let b ← r.eval ctx
    EvalError.lift (a.concat b)

/-- The value of a numeric expression. -/
def NumericExpression.eval (ctx : Context) :
    NumericExpression → Except EvalError Value
  | .member m => m.eval ctx
  | .arithmetic op l r => do
    let a ← l.eval ctx
    let b ← r.eval ctx
    EvalError.lift (op.apply a b)
  | .rounded rule e => do EvalError.lift ((← e.eval ctx).rounded rule)
  | .length e => do EvalError.lift (← e.eval ctx).length

/-- The truth of a value: the absent value does not hold. -/
def Value.truth : Value → Except EvalError Bool
  | .boolean b => .ok b
  | .null => .ok false
  | v => .error (.value (.mismatch [v] [.boolean]))

mutual

/-- Whether a predicate holds. -/
def Predicate.eval (ctx : Context) : Predicate → Except EvalError Bool
  | .member m => do (← m.eval ctx).truth
  | .comparison op l r => do
    let a ← l.eval ctx
    let b ← r.eval ctx
    EvalError.lift (op.apply a b)
  | .and l r => do
    let a ← l.eval ctx
    let b ← r.eval ctx
    return a && b
  | .or l r => do
    let a ← l.eval ctx
    let b ← r.eval ctx
    return a || b
  | .not p => do return !(← p.eval ctx)

/-- The value of an expression. -/
def Expression.eval (ctx : Context) : Expression → Except EvalError Value
  | .member m => m.eval ctx
  | .boolean p => do return .boolean (← p.eval ctx)
  | .numeric e => e.eval ctx
  | .text e => e.eval ctx

end

end RelAlgebra
