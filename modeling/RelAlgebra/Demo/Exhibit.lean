/-
What a demo shows, one relation after the other. Showing a relation reads
it, and prints its header and its rows under a title.
-/
import RelAlgebra.Expression.Printer
import RelAlgebra.Store.Session

namespace RelAlgebra

/-- A step of a demo. Queries name the relations of a session. -/
inductive Exhibit where
  /-- Names a query for later steps. -/
  | define (name : String) (query : Query String)
  /-- Shows the rows of a query. -/
  | rows (title : String) (query : Query String)
  /-- Shows why a query fails, and nothing if it does not. -/
  | failure (title : String) (query : Query String)

/-- Why a demo stops: the relation of this title should have rows and has
none. -/
structure DemoError where
  title : String
  error : RelationError

namespace DemoError

def message (e : DemoError) : String :=
  "Failed to evaluate " ++ e.title ++ "\n\nCaused by:\n    "
    ++ e.error.message

end DemoError

namespace Exhibit

/-- The header after the title, a line for every row, and a blank line. -/
def page (title : String) (r : Resolved) : String :=
  let row (t : Tuple) : String := "  " ++ t.render ++ "\n"
  title ++ " " ++ r.header.render ++ "\n"
    ++ String.join (r.tuples.rows.map row) ++ "\n"

/-- The outcome of a query: of the relation it names, or of a new relation
under this title. -/
def outcome? (title : String) : Query String → Run Session (Option Outcome)
  | .relation name => Session.resolve? name
  | query => do
    Session.defineQuery title query
    Session.resolve? title

/-- The text of a step. -/
def display : Exhibit → Run Session (Except DemoError String)
  | .define name query => do
    Session.defineQuery name query
    return .ok ""
  | .rows title query => do
    match ← outcome? title query with
    | some (.ok r) => return .ok (page title r)
    | some (.error e) => return .error ⟨title, e⟩
    | none => return .ok ""
  | .failure title query => do
    match ← outcome? title query with
    | some (.error e) =>
      return .ok (title ++ " failed: " ++ e.message ++ "\n\n")
    | _ => return .ok ""

/-- The text of steps in order, up to the first that stops the demo, with
the reason if there is one. -/
def displayAll : List Exhibit → Run Session (String × Option DemoError)
  | [] => return ("", none)
  | step :: rest => do
    match ← step.display with
    | .ok text =>
      let (texts, stop) ← displayAll rest
      return (text ++ texts, stop)
    | .error e => return ("", some e)

end Exhibit

end RelAlgebra
