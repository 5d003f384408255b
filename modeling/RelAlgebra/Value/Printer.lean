/-
The printed forms of values and of errors about them. `render` is the form
in rows and expressions; `inspect` also names the constructor, and appears
where errors list the values they are about.
-/
import RelAlgebra.Number.Printer
import RelAlgebra.Text.Quoted
import RelAlgebra.Value.Basic

namespace RelAlgebra

namespace ValueType

def render : ValueType → String
  | .boolean => "bool"
  | .string => "string"
  | .integer => "int"
  | .float => "float"

def inspect : ValueType → String
  | .boolean => "Boolean"
  | .string => "String"
  | .integer => "Integer"
  | .float => "Float"

end ValueType

namespace AttributeType

/-- The type, with a question mark if it is optional. -/
def render : AttributeType → String
  | .required t => t.render
  | .optional t => t.render ++ "?"

def inspect : AttributeType → String
  | .required t => "Required(" ++ t.inspect ++ ")"
  | .optional t => "Optional(" ++ t.inspect ++ ")"

end AttributeType

namespace Value

def render : Value → String
  | .null => "null"
  | .boolean true => "true"
  | .boolean false => "false"
  | .string s => Text.quote s
  | .integer i => toString i.toInt
  | .float x => NumberFormat.standard.render x

def inspect : Value → String
  | .null => "Null"
  | .boolean b => "Boolean(" ++ render (.boolean b) ++ ")"
  | .string s => "String(" ++ render (.string s) ++ ")"
  | .integer i => "Integer(" ++ render (.integer i) ++ ")"
  | .float x => "Float(" ++ render (.float x) ++ ")"

end Value

namespace ValueError

def message : ValueError → String
  | .mismatch values expected =>
    "Value mismatch: " ++ Text.bracketed (values.map Value.inspect)
      ++ " do not match expected types "
      ++ Text.bracketed (expected.map ValueType.inspect)
  | .incompatible left right =>
    "Incompatible values: cannot compare " ++ left.render ++ " with "
      ++ right.render
  | .divisionByZero => "Division by zero"

def inspect : ValueError → String
  | .mismatch values expected =>
    "Mismatch \x7b values: " ++ Text.bracketed (values.map Value.inspect)
      ++ ", expected: " ++ Text.bracketed (expected.map ValueType.inspect)
      ++ " \x7d"
  | .incompatible left right =>
    "Incompatible(" ++ left.inspect ++ ", " ++ right.inspect ++ ")"
  | .divisionByZero => "DivisionByZero"

end ValueError

end RelAlgebra
