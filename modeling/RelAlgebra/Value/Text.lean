/-
String operations on values. An absent operand gives an absent result; an
operand of any other type is a mismatch.
-/
import RelAlgebra.Text.Casing
import RelAlgebra.Value.Basic

namespace RelAlgebra.Value

/-- An operation on strings, lifted to values. -/
def onString (f : String → Value) : Value → Except ValueError Value
  | .string s => .ok (f s)
  | .null => .ok .null
  | v => .error (.mismatch [v] [.string])

/-- The number of characters. -/
def length : Value → Except ValueError Value :=
  onString fun s => .integer (Int64.ofNat s.length)

def lowercased : Value → Except ValueError Value :=
  onString fun s => .string (Text.lowercase s)

def uppercased : Value → Except ValueError Value :=
  onString fun s => .string (Text.uppercase s)

/-- The second string after the first. -/
def concat (a b : Value) : Except ValueError Value :=
  match a, b with
  | .string s, .string t => .ok (.string (s ++ t))
  | .null, .null | .null, .string _ | .string _, .null => .ok .null
  | a, b => .error (.mismatch [a, b] [.string, .string])

end RelAlgebra.Value
