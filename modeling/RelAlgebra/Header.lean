/-
Headers, the schemas of relations: a non-empty list of attributes with
pairwise different names. The order of the attributes counts. Building a
header from a list reports what is wrong with the list as a whole: every
repeated name, once, in the order of the second occurrences.
-/
import RelAlgebra.Digest
import RelAlgebra.Value.Printer

namespace RelAlgebra

/-- A named and typed column. -/
structure Attribute where
  name : String
  type : AttributeType
  deriving DecidableEq, Repr

/-- Why a list of attributes is no header. -/
inductive HeaderError where
  | empty
  | duplicates (names : List String)
  deriving DecidableEq, Repr

/-- The schema of a relation. -/
structure Header where
  attributes : List Attribute
  nonempty : attributes ≠ []
  distinct : (attributes.map Attribute.name).Nodup
  deriving DecidableEq

/-- The names listed more than once, each at its second occurrence.
`before` holds the names already passed. -/
def repeatedAfter : List String → List String → List String
  | _, [] => []
  | before, name :: rest =>
    if before.count name = 1 then
      name :: repeatedAfter (name :: before) rest
    else
      repeatedAfter (name :: before) rest

namespace Header

/-- The header with these attributes. -/
def ofAttributes (attributes : List Attribute) : Except HeaderError Header :=
  if nonempty : attributes = [] then
    .error .empty
  else if distinct : (attributes.map Attribute.name).Nodup then
    .ok ⟨attributes, nonempty, distinct⟩
  else
    .error (.duplicates (repeatedAfter [] (attributes.map Attribute.name)))

/-- The attribute names, in order. -/
def names (h : Header) : List String := h.attributes.map Attribute.name

/-- The attribute of that name. -/
def attribute? (h : Header) (name : String) : Option Attribute :=
  h.attributes.find? (·.name = name)

/-- The index of the attribute of that name. -/
def position? (h : Header) (name : String) : Option Nat :=
  h.attributes.findIdx? (·.name = name)

/-- Whether there is an attribute of that name. -/
def contains (h : Header) (name : String) : Bool :=
  h.attributes.any (·.name = name)

/-- The number of attributes. -/
def size (h : Header) : Nat := h.attributes.length

def isEmpty (h : Header) : Bool := h.attributes.isEmpty

/-- The requested names that are not in the header, each once, in the
order of request. -/
def missing (h : Header) (requested : List String) : List String :=
  (requested.filter (!h.contains ·)).eraseDups

end Header

-- ======================================================= printed forms

namespace Attribute

def render (a : Attribute) : String := a.name ++ ": " ++ a.type.render

def inspect (a : Attribute) : String :=
  "Attribute \x7b name: " ++ Text.quote a.name ++ ", attribute_type: "
    ++ a.type.inspect ++ " \x7d"

/-- The attributes one after the other, without brackets. -/
def renderList (attributes : List Attribute) : String :=
  ", ".intercalate (attributes.map render)

end Attribute

def Header.render (h : Header) : String :=
  "(" ++ Attribute.renderList h.attributes ++ ")"

namespace HeaderError

def message : HeaderError → String
  | .empty => "Header is empty: a relation needs at least one attribute"
  | .duplicates names =>
    "Header has duplicate attribute names: "
      ++ Text.bracketed (names.map Text.quote)

def inspect : HeaderError → String
  | .empty => "Empty"
  | .duplicates names =>
    "Duplicates(" ++ Text.bracketed (names.map Text.quote) ++ ")"

end HeaderError

-- =========================================================== hash data

def ValueType.digest : ValueType → Digest
  | .boolean => [.variant 0]
  | .string => [.variant 1]
  | .integer => [.variant 2]
  | .float => [.variant 3]

def AttributeType.digest : AttributeType → Digest
  | .required t => .variant 0 :: t.digest
  | .optional t => .variant 1 :: t.digest

def Attribute.digest (a : Attribute) : Digest :=
  .text a.name :: a.type.digest

def Header.digest (h : Header) : Digest :=
  .count h.attributes.length :: h.attributes.flatMap Attribute.digest

end RelAlgebra
