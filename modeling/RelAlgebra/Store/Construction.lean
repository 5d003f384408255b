/-
How relations are made: from literal rows, from rows that exist already,
or from a query over earlier relations. Literal relations are evaluated at
once; a query waits until its relation is read.

A history lists how every relation of a store was made. Evaluating a
relation from its history, anew on every use, says what reading it from
the store has to give.
-/
import RelAlgebra.Store.Basic
import RelAlgebra.Tuples.Build

namespace RelAlgebra

/-- How a relation is made from relations named by `ρ`. -/
inductive Construction (ρ : Type) where
  /-- From rows that list their values in order of the attributes. -/
  | ofRows (attributes : List Attribute) (rows : List (List Value))
  /-- From rows that name their values. -/
  | ofMaps (attributes : List Attribute) (rows : List Tuple)
  /-- From rows under a header, taken as they are. -/
  | ofResolved (r : Resolved)
  | ofQuery (q : Query ρ)

namespace Construction

variable {ρ ρ' : Type}

/-- The construction with the relations it is made from renamed. -/
def map (f : ρ → ρ') : Construction ρ → Construction ρ'
  | .ofRows attributes rows => .ofRows attributes rows
  | .ofMaps attributes rows => .ofMaps attributes rows
  | .ofResolved r => .ofResolved r
  | .ofQuery q => .ofQuery (QueryTree.map f q)

/-- A relation of literal rows, `given` of them, which `build` selects and
shapes by the header. -/
def literal (attributes : List Attribute) (given : Nat)
    (build : Header → Tuples) : Cell ρ × List Event :=
  match Header.ofAttributes attributes with
  | .ok header =>
    let tuples := build header
    (.resolved ⟨header, tuples⟩, Event.ofBuild given tuples.size)
  | .error e => (.failed (.header e), [.headerRejected e])

/-- The cell of a new relation, with what making it reports. -/
def cell : Construction ρ → Cell ρ × List Event
  | .ofRows attributes rows =>
    literal attributes rows.length fun header => .ofRows header rows
  | .ofMaps attributes rows =>
    literal attributes rows.length fun header => .ofMaps header rows
  | .ofResolved r => (.resolved r, [])
  | .ofQuery q => (.pending q, [])

/-- The outcome of a relation, given those of the relations it is made
from. -/
def outcome (below : ρ → Outcome) : Construction ρ → Outcome
  | .ofRows attributes rows => do
    let header ← (Header.ofAttributes attributes).mapError .header
    return ⟨header, .ofRows header rows⟩
  | .ofMaps attributes rows => do
    let header ← (Header.ofAttributes attributes).mapError .header
    return ⟨header, .ofMaps header rows⟩
  | .ofResolved r => .ok r
  | .ofQuery q => (Query.eval below q).mapError .ofQuery

end Construction

/-- How each of `n` relations was made from those before it. -/
inductive History : Nat → Type where
  | empty : History 0
  | push {n : Nat} (earlier : History n) (made : Construction (Fin n)) :
    History (n + 1)

namespace History

/-- The outcome of a relation, evaluated from scratch. -/
def outcome : {n : Nat} → History n → Fin n → Outcome
  | n + 1, .push earlier made, i =>
    if h : i.val < n then
      earlier.outcome ⟨i, h⟩
    else
      made.outcome (fun j => earlier.outcome j)

end History

end RelAlgebra
