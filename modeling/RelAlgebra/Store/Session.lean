/-
Sessions: a store whose relations go by names. A name can be given anew,
and one relation can go by several names, which then share its cell.
-/
import RelAlgebra.Store.Construction

namespace RelAlgebra

/-- A store with names for its relations, the latest first. -/
structure Session where
  size : Nat
  store : Store size
  names : List (String × Fin size)

namespace Session

/-- The session without relations. -/
def empty : Session := ⟨0, .empty, []⟩

/-- The relation of that name. -/
def find? (s : Session) (name : String) : Option (Fin s.size) :=
  s.names.lookup name

/-- Gives a relation a further name. -/
def addName (s : Session) (name : String) (i : Fin s.size) : Session :=
  { s with names := (name, i) :: s.names }

/-- Makes a relation and names it. -/
def define (s : Session) (name : String) (made : Construction (Fin s.size)) :
    Ended Session Unit :=
  let (cell, events) := made.cell
  let names := s.names.map fun (other, i) => (other, i.castSucc)
  ⟨(), ⟨s.size + 1, .push s.store cell, (name, Fin.last s.size) :: names⟩,
    events⟩

/-- Reads from the store. -/
def read {α : Type} (s : Session) (run : Run (Store s.size) α) :
    Ended Session α :=
  let r := run s.store
  ⟨r.value, { s with store := r.state }, r.events⟩

/-- Names a query over the named relations; the session stays as it is if
the query names a relation that it does not have. -/
def defineQuery (name : String) (query : Query String) : Run Session Unit :=
  fun s =>
    match query.mapLeaves? s.find? with
    | some q => s.define name (.ofQuery q)
    | none => ⟨(), s, []⟩

/-- The outcome of the relation of that name. -/
def resolve? (name : String) : Run Session (Option Outcome) := fun s =>
  match s.find? name with
  | some i => s.read do return some (← Store.resolve i)
  | none => ⟨none, s, []⟩

end Session

end RelAlgebra
