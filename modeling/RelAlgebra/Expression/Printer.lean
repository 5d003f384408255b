/-
The printed forms of expressions and of errors in evaluating them.
-/
import RelAlgebra.Expression.Evaluation
import RelAlgebra.Value.Printer

namespace RelAlgebra

def Member.render : Member → String
  | .attribute name => name
  | .literal value => value.render

def TextExpression.render : TextExpression → String
  | .member m => m.render
  | .lowercased e => "lowercased(" ++ e.render ++ ")"
  | .uppercased e => "uppercased(" ++ e.render ++ ")"
  | .concat l r => "concat(" ++ l.render ++ ", " ++ r.render ++ ")"

def NumericExpression.render : NumericExpression → String
  | .member m => m.render
  | .arithmetic op l r =>
    "(" ++ l.render ++ " " ++ op.symbol ++ " " ++ r.render ++ ")"
  | .rounded rule e => "rounded(" ++ e.render ++ ", " ++ rule.name ++ ")"
  | .length e => "length(" ++ e.render ++ ")"

mutual

def Predicate.render : Predicate → String
  | .member m => m.render
  | .comparison op l r => l.render ++ " " ++ op.symbol ++ " " ++ r.render
  | .and l r => "(" ++ l.render ++ " && " ++ r.render ++ ")"
  | .or l r => "(" ++ l.render ++ " || " ++ r.render ++ ")"
  | .not p => "!" ++ p.render

def Expression.render : Expression → String
  | .member m => m.render
  | .boolean p => "(" ++ p.render ++ ")"
  | .numeric e => e.render
  | .text e => e.render

end

namespace EvalError

def message : EvalError → String
  | .value e => e.message
  | .unknownAttribute name => "Unknown attribute: " ++ name

def inspect : EvalError → String
  | .value e => "Value(" ++ e.inspect ++ ")"
  | .unknownAttribute name =>
    "UnknownAttribute(" ++ Text.quote name ++ ")"

end EvalError

end RelAlgebra
