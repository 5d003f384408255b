/-
The operators of expressions, with their meaning on values and the symbol
they are printed as.
-/
import RelAlgebra.Value.Arithmetic
import RelAlgebra.Value.Order

namespace RelAlgebra

/-- Binary operators that give a number. -/
inductive ArithmeticOperator where
  | add
  | sub
  | mul
  | div
  | rem
  deriving DecidableEq, Repr

namespace ArithmeticOperator

def apply : ArithmeticOperator → Value → Value → Except ValueError Value
  | .add => Value.add
  | .sub => Value.subtract
  | .mul => Value.multiply
  | .div => Value.divide
  | .rem => Value.remainder

def symbol : ArithmeticOperator → String
  | .add => "+"
  | .sub => "-"
  | .mul => "*"
  | .div => "/"
  | .rem => "%"

end ArithmeticOperator

/-- Binary operators that compare two values. -/
inductive ComparisonOperator where
  | eq
  | ne
  | lt
  | le
  | gt
  | ge
  deriving DecidableEq, Repr

namespace ComparisonOperator

/-- Whether operands in this order satisfy the comparison. -/
def accepts : ComparisonOperator → Ordering → Bool
  | .eq, o => o = .eq
  | .ne, o => o ≠ .eq
  | .lt, o => o = .lt
  | .le, o => o ≠ .gt
  | .gt, o => o = .gt
  | .ge, o => o ≠ .lt

def apply (op : ComparisonOperator) (a b : Value) : Except ValueError Bool :=
  (a.compare b).map op.accepts

def symbol : ComparisonOperator → String
  | .eq => "=="
  | .ne => "!="
  | .lt => "<"
  | .le => "<="
  | .gt => ">"
  | .ge => ">="

end ComparisonOperator

end RelAlgebra
