/-
What evaluation reports while it runs. Most events have a text in the log;
those that mark where the reading of a relation begins and ends, and where
its query starts to run, only make the order of evaluation visible.
-/
import RelAlgebra.Error

namespace RelAlgebra

/-- One report. Relations are named by their number in the store. -/
inductive Event where
  /-- A relation is read; until it is released nothing else may read it. -/
  | acquired (relation : Nat)
  /-- The reading of a relation ends. -/
  | released (relation : Nat)
  /-- The query of a relation starts to run. -/
  | started (relation : Nat)
  /-- A relation that was evaluated before is read again. -/
  | cacheHit
  /-- A relation was given attributes that make no header. -/
  | headerRejected (error : HeaderError)
  /-- A collection kept fewer rows than it was given. -/
  | rowsDropped (kept given : Nat)
  /-- An operator produced rows. -/
  | produced (operator : String) (count : Nat) (header : Header)
  /-- An operator failed. -/
  | failed (operator : String) (error : QueryError)

namespace Event

/-- What is reported of a collection built from `given` rows. -/
def ofBuild (given kept : Nat) : List Event :=
  if kept < given then [.rowsDropped kept given] else []

/-- The line of the log, its level first, for events that have one. -/
def line? : Event → Option String
  | .acquired _ | .released _ | .started _ => none
  | .cacheHit => some "TRACE relation cache hit"
  | .headerRejected e =>
    some ("DEBUG relation header rejected: " ++ e.message)
  | .rowsDropped kept given =>
    some ("DEBUG Built " ++ toString kept ++ " tuples from "
      ++ toString given
      ++ " input rows (non-conforming rows and duplicates dropped)")
  | .produced operator count header =>
    some ("DEBUG " ++ operator ++ " produced " ++ toString count
      ++ " tuples over " ++ header.render)
  | .failed operator error =>
    some ("DEBUG " ++ operator ++ " failed: " ++ error.message)

end Event

end RelAlgebra
