/-
Values and their declared types. A value is absent (`null`) or one of four
scalars; an attribute is declared with a scalar type that may also admit
the absent value. Numbers of the two kinds are never converted into each
other.

Floats are double-precision numbers with a single not-a-number, where the
format has one for every payload. Payloads are lost when a float is made, so
nothing here can tell two of them apart.
-/

namespace RelAlgebra

/-- The scalar types an attribute can be declared with. -/
inductive ValueType where
  | boolean
  | string
  | integer
  | float
  deriving DecidableEq, Repr

/-- What an attribute is declared to hold. -/
inductive AttributeType where
  /-- A value of the type, always present. -/
  | required (type : ValueType)
  /-- A value of the type, or the absent value. -/
  | optional (type : ValueType)
  deriving DecidableEq, Repr

/-- The scalar part of a declaration. -/
def AttributeType.valueType : AttributeType → ValueType
  | .required t => t
  | .optional t => t

/-- Whether the absent value is admitted. -/
def AttributeType.isOptional : AttributeType → Bool
  | .required _ => false
  | .optional _ => true

/-- A single attribute value. -/
inductive Value where
  /-- The absent value. -/
  | null
  | boolean (b : Bool)
  | string (s : String)
  | integer (i : Int64)
  | float (x : Float)

/-- Why an operation on values has no result. -/
inductive ValueError where
  /-- The operands are not of the types the operation works on. -/
  | mismatch (values : List Value) (expected : List ValueType)
  /-- The values have no order. -/
  | incompatible (left right : Value)
  | divisionByZero

namespace Value

/-- The type of a present value. -/
def type? : Value → Option ValueType
  | .null => none
  | .boolean _ => some .boolean
  | .string _ => some .string
  | .integer _ => some .integer
  | .float _ => some .float

/-- Whether the value is absent. -/
def isNull : Value → Bool
  | .null => true
  | _ => false

/-- Whether the value may be stored under the declaration: a present value
under its own type, the absent value under an optional one. -/
def conforms (v : Value) (declared : AttributeType) : Bool :=
  match v.type? with
  | none => declared.isOptional
  | some t => t = declared.valueType

end Value

end RelAlgebra
