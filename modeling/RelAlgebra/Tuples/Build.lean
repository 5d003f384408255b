/-
Building collections for a header, from rows that list their values in
header order and from rows that name them. A row that does not fit the
header is dropped; so is a row equal to an earlier one.
-/
import RelAlgebra.Header
import RelAlgebra.Tuples.Basic

namespace RelAlgebra.Tuples

/-- Whether the values fit the attributes one by one. -/
def fitsPositions (header : Header) (row : List Value) : Bool :=
  row.length == header.size &&
    (row.zip header.attributes).all fun p => p.1.conforms p.2.type

/-- Whether every name is in the header and every attribute finds a value
that conforms, a missing one reading as absent. -/
def fitsNames (header : Header) (row : Tuple) : Bool :=
  row.names.all header.contains &&
    header.attributes.all fun a => (row.getD a.name).conforms a.type

/-- The collection of the positional rows that fit. -/
def ofRows (header : Header) (rows : List (List Value)) : Tuples :=
  ofList ((rows.filter (fitsPositions header)).map fun row =>
    Tuple.ofPairs (header.names.zip row))

/-- The collection of the named rows that fit, completed to all names. -/
def ofMaps (header : Header) (rows : List Tuple) : Tuples :=
  ofList ((rows.filter (fitsNames header)).map (·.project header.names))

end RelAlgebra.Tuples
