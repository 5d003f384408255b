/-
The store of relations. A relation is a cell: a query that is still to be
run, or the outcome of one. Cells are numbered in the order in which they
were made, and the query of a cell reads only earlier cells; so the store
is a list that grows at one end, each cell typed by the number of cells
before it.

Reading a cell runs its query if it is pending, reads earlier cells on the
way, and leaves the outcome in the cell, a failure as well as rows. That
it ends needs no argument beyond the type: reading cell `n` only ever
descends into the store of the `n` cells before it.
-/
import RelAlgebra.Execution

namespace RelAlgebra

/-- What a relation resolves to. -/
abbrev Outcome := Except RelationError Resolved

/-- A relation, evaluated or not; its query reads relations named by
`ρ`. -/
inductive Cell (ρ : Type) where
  | pending (query : Query ρ)
  | resolved (r : Resolved)
  | failed (e : RelationError)

namespace Cell

variable {ρ ρ' σ : Type}

/-- The cell that holds an outcome. -/
def ofOutcome : Outcome → Cell ρ
  | .ok r => .resolved r
  | .error e => .failed e

/-- Whether the relation was evaluated, with whatever outcome. -/
def isResolved : Cell ρ → Bool
  | .pending _ => false
  | _ => true

/-- The cell with the relations that its query reads renamed. -/
def map (f : ρ → ρ') : Cell ρ → Cell ρ'
  | .pending q => .pending (QueryTree.map f q)
  | .resolved r => .resolved r
  | .failed e => .failed e

/-- The outcome of cell number `n`, given how to read the cells that its
query names. -/
def read (n : Nat) (below : ρ → Run σ Outcome) : Cell ρ → Run σ Outcome
  | .resolved r => do
    Run.report .cacheHit
    return .ok r
  | .failed e => return .error e
  | .pending q => do
    Run.report (.started n)
    let result ← (Query.run below q).run
    return result.mapError .ofQuery

/-- The cell as it shows itself, without being evaluated. -/
def inspect : Cell ρ → String
  | .pending q =>
    "Relation \x7b pending: " ++ Text.quote (Query.name q) ++ " \x7d"
  | .resolved r =>
    "Relation \x7b header: " ++ Text.quote r.header.render ++ ", tuples: "
      ++ toString r.tuples.size ++ " \x7d"
  | .failed e => "Relation \x7b failed: " ++ e.inspect ++ " \x7d"

end Cell

/-- A store of `n` cells. -/
inductive Store : Nat → Type where
  | empty : Store 0
  | push {n : Nat} (earlier : Store n) (cell : Cell (Fin n)) : Store (n + 1)

namespace Store

/-- The cell of that number. -/
def get : {n : Nat} → Store n → Fin n → Cell (Fin n)
  | n + 1, .push earlier cell, i =>
    if h : i.val < n then
      (earlier.get ⟨i, h⟩).map Fin.castSucc
    else
      cell.map Fin.castSucc

/-- Reads a relation: its outcome, with the cell holding it from now
on. -/
def resolve : {n : Nat} → Fin n → Run (Store n) Outcome
  | n + 1, i => fun
    | .push earlier cell =>
      if h : i.val < n then
        let r := resolve ⟨i, h⟩ earlier
        ⟨r.value, .push r.state cell, r.events⟩
      else
        let r := cell.read n (fun j => resolve j) earlier
        ⟨r.value, .push r.state (.ofOutcome r.value),
          .acquired n :: r.events ++ [.released n]⟩

variable {n : Nat}

/-- Runs a query over the relations of the store. -/
def execute (q : Query (Fin n)) :
    Run (Store n) (Except QueryError Resolved) :=
  (Query.run resolve q).run

/-- Whether two relations are equal: one and the same, or with equal
outcomes. -/
def equal (i j : Fin n) : Run (Store n) Bool := do
  if i = j then
    return true
  else
    let a ← resolve i
    let b ← resolve j
    match a, b with
    | .ok a, .ok b => return a == b
    | .error a, .error b => return a == b
    | _, _ => return false

/-- The hash data of a relation: that of its rows, or the text of its
error. -/
def digest (finish : Digest.Finish) (i : Fin n) : Run (Store n) Digest := do
  match ← resolve i with
  | .ok r => return r.digest finish
  | .error e => return [.text e.message]

end Store

end RelAlgebra
