/-
Sorts that go by comparisons alone, whichever they are. Such a sort is a
tree of comparisons of different elements. It ends with the elements'
places in their order; or it gives up, which it may do when the answers it
gets contradict each other, as those of no order do.

Handed a comparison that may fail, a sort is run with one that notes the
first failure and calls everything equal from then on. The failure is what
such a run comes to, once the sort has come to its end. But what is called
equal may contradict the answers from before the failure: then the sort may
give up, and the failure is lost.
-/
import RelAlgebra.Attempt
import RelAlgebra.Tuples.Sort

namespace RelAlgebra

/-- A computation that learns of `n` elements only by comparing two
different ones of them, and that may give up. -/
inductive Comparing (n : Nat) (α : Type) where
  | done (a : α)
  | giveUp
  | compare (i j : Fin n) (differ : i ≠ j) (next : Ordering → Comparing n α)

namespace Comparing

variable {n : Nat} {ε α β : Type}

/-- Goes on with what the computation comes to. -/
def andThen (c : Comparing n α) (f : α → Comparing n β) : Comparing n β :=
  match c with
  | .done a => f a
  | .giveUp => .giveUp
  | .compare i j differ next =>
    .compare i j differ fun o => (next o).andThen f

instance : Monad (Comparing n) where
  pure := .done
  bind := andThen

/-- The result, if there is one, given how any two elements compare. -/
def result (answer : Fin n → Fin n → Ordering) : Comparing n α → Option α
  | .done a => some a
  | .giveUp => none
  | .compare i j _ next => (next (answer i j)).result answer

/-- Runs the computation with comparisons that have effects. -/
def run {m : Type → Type} [Monad m] (answer : Fin n → Fin n → m Ordering) :
    Comparing n α → m (Option α)
  | .done a => pure (some a)
  | .giveUp => pure none
  | .compare i j _ next => do (next (← answer i j)).run answer

/-- Compares, noting the first failure. From then on everything counts as
equal. -/
def noting {ι : Type} (answer : ι → ι → Except ε Ordering) (i j : ι) :
    StateM (Option ε) Ordering := fun noted =>
  match noted with
  | some e => (.eq, some e)
  | none =>
    match answer i j with
    | .ok o => (o, none)
    | .error e => (.eq, some e)

/-- What counts in the end: that the computation gave up, or else the
failure that was noted, or else the result. -/
def settle : Option α × Option ε → Attempt ε α
  | (none, _) => .gaveUp
  | (some _, some e) => .error e
  | (some a, none) => .ok a

/-- Runs the computation with comparisons that may fail. -/
def attempt (answer : Fin n → Fin n → Except ε Ordering) (c : Comparing n α) :
    Attempt ε α :=
  settle (c.run (noting answer) none)

end Comparing

/-- A way to sort any number of elements: it comes to their places in the
order in which they are to be listed. -/
def Sorter := (n : Nat) → Comparing n (List (Fin n))

/-- Sorts a list by a comparison that may fail. -/
def Sorter.sort {α ε : Type} (s : Sorter)
    (compare : α → α → Except ε Ordering) (xs : List α) : Attempt ε (List α) :=
  do
    let order ← (s xs.length).attempt fun i j => compare (xs.get i) (xs.get j)
    return order.map xs.get

/-- The rows in the order of the keys, by any sort. -/
def Tuples.sortedWith (sort : Sorter) (ts : Tuples) (keys : List SortKey) :
    Attempt ValueError Tuples := do
  return ofList (← sort.sort (fun t u => t.compareBy u keys) ts.rows)

end RelAlgebra
