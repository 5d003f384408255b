/-
Evaluation on a heap with locks. A relation is an address here, any number;
its cell may name any addresses, and nothing says that these have cells or
that following them comes to an end. Every cell has a lock, which is not
reentrant, and reading a relation holds the lock of its cell for as long as
its query runs. The operators that are defined by plans put their operands
into temporary cells and run the plans as queries over these.

Three things can go wrong: an address can have no cell, a lock can be asked
for while it is held, and calls can go deeper than `depth`. Nothing catches
these faults, so a run that answers has met none of them.
-/
import RelAlgebra.Store.Basic

namespace RelAlgebra

/-- The cells by their addresses, and the addresses whose locks are held,
the latest first. -/
structure Heap where
  cells : List (Cell Nat)
  held : List Nat

/-- What must not happen. -/
inductive Fault where
  /-- An address without a cell is used. -/
  | dangling (address : Nat)
  /-- A lock is asked for that is held already, by the only thread there
  is. -/
  | deadlock (address : Nat)
  /-- Calls go too deep. -/
  | overflow

/-- A computation on the heap. -/
abbrev HeapRun (α : Type) := StateT Heap (Except Fault) α

/-- A computation on the heap that may fail as a query does. -/
abbrev HeapExecution (α : Type) := ExceptT QueryError HeapRun α

namespace Heap

-- =============================================================== cells

/-- Takes the lock of a cell. -/
def acquire (a : Nat) : HeapRun Unit := fun h =>
  if a ∈ h.held then
    .error (.deadlock a)
  else
    .ok ((), { h with held := a :: h.held })

/-- Gives back the lock of a cell. -/
def release (a : Nat) : HeapRun Unit := fun h =>
  .ok ((), { h with held := h.held.erase a })

def load (a : Nat) : HeapRun (Cell Nat) := fun h =>
  match h.cells[a]? with
  | some cell => .ok (cell, h)
  | none => .error (.dangling a)

def store (a : Nat) (cell : Cell Nat) : HeapRun Unit := fun h =>
  if a < h.cells.length then
    .ok ((), { h with cells := h.cells.set a cell })
  else
    .error (.dangling a)

/-- Puts a result into a new cell, at the end of the heap. -/
def allocate (r : Resolved) : HeapRun Nat := fun h =>
  .ok (h.cells.length, { h with cells := h.cells ++ [.resolved r] })

/-- Frees the cells that were allocated meanwhile. -/
def freeing {α : Type} (run : HeapRun α) : HeapRun α := fun h => do
  let (a, h') ← run h
  return (a, { h' with cells := h'.cells.take h.cells.length })

/-- A step without effects. -/
def attempt {α : Type} (result : Except QueryError α) : HeapExecution α :=
  ExceptT.mk (pure result)

-- =============================================================== plans

/-- The rows of `kept` that have a partner in `other`, both given by
addresses; `header` is that of `kept`. -/
def partnered (header : Header) (kept other : Nat) : Query Nat :=
  .unary (.project header.names)
    (.binary (.basic .naturalJoin) (.relation kept) (.relation other))

/-- The plan of a semi join of the results `a` and `b`. -/
def semiJoin (kind : SemiJoinKind) (a b : Resolved) : HeapRun (Query Nat) :=
  match kind with
  | .left => do
    let left ← allocate a
    let right ← allocate b
    return partnered a.header left right
  | .right => do
    let right ← allocate b
    let left ← allocate a
    return partnered b.header right left
  | .anti => do
    let left ← allocate a
    let right ← allocate b
    return .binary (.basic .subtract) (.relation left)
      (partnered a.header left right)

/-- The plan of the quotient of the results `a` and `b`, at the addresses
`left` and `right`. -/
def quotient (a b : Resolved) (candidates left right : Nat) : Query Nat :=
  let pairs := .binary (.basic .product) (.relation candidates)
    (.relation right)
  let missing := .binary (.basic .subtract)
    (.unary (.project a.header.names) pairs) (.relation left)
  .binary (.basic .subtract) (.relation candidates)
    (.unary (.project (Plan.quotientNames a b)) missing)

/-- Divides two results that are at the addresses `left` and `right`. The
candidates are used twice, so they get a cell. -/
def divideAt (execute : Query Nat → HeapExecution Resolved) (a b : Resolved)
    (left right : Nat) : HeapExecution Resolved := do
  let c ← execute
    (.unary (.project (Plan.quotientNames a b)) (.relation left))
  let candidates ← (allocate c : HeapRun Nat)
  execute (quotient a b candidates left right)

/-- Combines two results, given how to run a query. -/
def combine (execute : Query Nat → HeapExecution Resolved)
    (op : BinaryOperator) (a b : Resolved) : HeapExecution Resolved :=
  match op with
  | .basic op => attempt (op.apply a b)
  | .divide => do
    attempt (a.header.requireSuperset b.header)
    ExceptT.mk (freeing do
      let left ← allocate a
      let right ← allocate b
      (divideAt execute a b left right).run)
  | .semiJoin kind =>
    ExceptT.mk (freeing do
      let query ← semiJoin kind a b
      (execute query).run)

-- ============================================================== running

/-- What comes of a cell, given how to run a query; the outcome of a query
is left in the cell. -/
def evaluate (execute : Query Nat → HeapExecution Resolved) (a : Nat) :
    Cell Nat → HeapRun Outcome
  | .resolved r => pure (.ok r)
  | .failed e => pure (.error e)
  | .pending q => do
    let result ← (execute q).run
    let outcome := result.mapError .ofQuery
    store a (.ofOutcome outcome)
    return outcome

mutual

/-- Reads the relation at an address. -/
def resolve : Nat → Nat → HeapRun Outcome
  | 0, _ => throw .overflow
  | depth + 1, a => do
    acquire a
    let cell ← load a
    let outcome ← evaluate (execute depth) a cell
    release a
    return outcome

/-- Runs a query over addresses. -/
def execute : Nat → Query Nat → HeapExecution Resolved
  | 0, _ => throw (m := HeapRun) .overflow
  | depth + 1, .relation a =>
    ExceptT.mk do return (← resolve depth a).mapError .relation
  | depth + 1, .unary op q => do attempt (op.apply (← execute depth q))
  | depth + 1, .binary op l r => do
    let a ← execute depth l
    let b ← execute depth r
    combine (execute depth) op a b

end

end Heap

end RelAlgebra
