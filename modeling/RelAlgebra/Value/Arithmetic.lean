/-
Arithmetic on values. Two integers give an integer, wrapping around at 64
bits; two floats give a float. If one operand is absent the result is
absent, provided the other is a number or absent too; every other
combination is a mismatch. Only integer division can fail otherwise.
-/
import RelAlgebra.Number.Remainder
import RelAlgebra.Number.Rounding
import RelAlgebra.Value.Basic

namespace RelAlgebra.Value

/-- A binary operation on numbers, lifted to values. -/
def arithmetic (integers : Int64 → Int64 → Except ValueError Int64)
    (floats : Float → Float → Float) (a b : Value) : Except ValueError Value :=
  match a, b with
  | .integer i, .integer j => (integers i j).map .integer
  | .float x, .float y => .ok (.float (floats x y))
  | .null, .null | .null, .integer _ | .null, .float _
  | .integer _, .null | .float _, .null => .ok .null
  | a, b => .error (.mismatch [a, b] [.integer, .float])

/-- An integer operation that a zero divisor has no result for. -/
def guardZero (op : Int64 → Int64 → Int64) (i j : Int64) :
    Except ValueError Int64 :=
  if j = 0 then .error .divisionByZero else .ok (op i j)

def add : Value → Value → Except ValueError Value :=
  arithmetic (fun i j => .ok (i + j)) (· + ·)

def subtract : Value → Value → Except ValueError Value :=
  arithmetic (fun i j => .ok (i - j)) (· - ·)

def multiply : Value → Value → Except ValueError Value :=
  arithmetic (fun i j => .ok (i * j)) (· * ·)

/-- Integer quotients are truncated toward zero. -/
def divide : Value → Value → Except ValueError Value :=
  arithmetic (guardZero (· / ·)) (· / ·)

/-- The remainder has the sign of the dividend. -/
def remainder : Value → Value → Except ValueError Value :=
  arithmetic (guardZero (· % ·)) Binary64.remainder

/-- A float rounded to an integral float. -/
def rounded (rule : RoundingRule) : Value → Except ValueError Value
  | .float x => .ok (.float (rule.apply x))
  | .null => .ok .null
  | v => .error (.mismatch [v] [.float])

end RelAlgebra.Value
