/-
Resolved relations: a header and the rows under it. Nothing here ties the
rows to the header; that they conform is a property which the operators
keep.
-/
import RelAlgebra.Error
import RelAlgebra.Tuples.Basic

namespace RelAlgebra

/-- A fully evaluated relation. -/
structure Resolved where
  header : Header
  tuples : Tuples

namespace Resolved

/-- Equality: the same header, and the same set of rows. -/
instance : BEq Resolved :=
  ⟨fun a b => a.header == b.header && a.tuples == b.tuples⟩

/-- The hash data of a relation. -/
def digest (finish : Digest.Finish) (r : Resolved) : Digest :=
  r.header.digest ++ r.tuples.digest finish

end Resolved

/-- Fails with all the requested names that are not in the header. -/
def Header.require (h : Header) (requested : List String) :
    Except QueryError Unit :=
  match h.missing requested with
  | [] => .ok ()
  | names => .error (.unknownAttributes names)

/-- The header with these attributes, for an operator that computed
them. -/
def Header.derive (attributes : List Attribute) : Except QueryError Header :=
  (Header.ofAttributes attributes).mapError .header

end RelAlgebra
