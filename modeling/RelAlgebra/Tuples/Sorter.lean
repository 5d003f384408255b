/-
Two sorts. One inserts each element into those before it; it never gives
up. The other does so for short lists only. Of a longer list it takes what
is in order already, or else blocks of thirty-two, and merges them.

A block is sorted in two halves, and the halves are merged from both ends
at once: half of the elements are taken in ascending order at the front,
the others in descending order at the back. Under an order the two ends
meet, with no element taken twice and none left out. If they do not, the
answers contradicted each other, and the sort gives up.
-/
import RelAlgebra.Tuples.Comparing

namespace RelAlgebra

namespace Comparing

variable {n : Nat}

-- =========================================================== insertion

/-- Compares two elements, unless they are the same. -/
def ask (i j : Fin n) : Comparing n Ordering :=
  if differ : i = j then .done .eq else .compare i j differ .done

/-- Puts an element into a list whose greatest element comes first. -/
def insertion (i : Fin n) : List (Fin n) → Comparing n (List (Fin n))
  | [] => return [i]
  | j :: js => do
    match ← ask i j with
    | .lt => return j :: (← insertion i js)
    | _ => return i :: j :: js

/-- Puts elements, the last of them first, into a list whose greatest
element comes first. -/
def insertions (sorted : List (Fin n)) :
    List (Fin n) → Comparing n (List (Fin n))
  | [] => return sorted
  | i :: earlier => do insertion i (← insertions sorted earlier)

/-- Sorts all elements by insertion. -/
def insertionSort (n : Nat) : Comparing n (List (Fin n)) := do
  return (← insertions [] (List.finRange n).reverse).reverse

-- ============================================================= merging

/-- Whether the first element is less than the second. -/
def less (i j : Fin n) : Comparing n Bool := do return (← ask i j) = .lt

/-- Puts `a` before what is to come of the list behind it, and before it
those elements of the other list that are to come first. -/
def mergeBehind (second : Fin n → Fin n → Comparing n Bool) (a : Fin n)
    (rest : List (Fin n) → Comparing n (List (Fin n))) :
    List (Fin n) → Comparing n (List (Fin n))
  | [] => return a :: (← rest [])
  | b :: bs => do
    if ← second a b then
      return b :: (← mergeBehind second a rest bs)
    else
      return a :: (← rest (b :: bs))

/-- Merges two lists; `second` says whether the head of the second list is
to come before that of the first. -/
def mergeBy (second : Fin n → Fin n → Comparing n Bool) :
    List (Fin n) → List (Fin n) → Comparing n (List (Fin n))
  | [], bs => return bs
  | a :: as, bs => mergeBehind second a (fun bs => mergeBy second as bs) bs

/-- Merges two ascending lists, the later elements in the second, from the
end where the shorter list runs out first. -/
def merge (as bs : List (Fin n)) : Comparing n (List (Fin n)) :=
  if as.length ≤ bs.length then
    mergeBy (fun a b => less b a) as bs
  else do
    let merged ← mergeBy (fun b a => less b a) bs.reverse as.reverse
    return merged.reverse

/-- One end of a merge: what was taken there, the latest first, and what
is left of the two lists. -/
structure MergeEnd (n : Nat) where
  taken : List (Fin n)
  first : List (Fin n)
  second : List (Fin n)

/-- Takes one element more. It is not asked for when a list is empty. -/
def MergeEnd.take (second : Fin n → Fin n → Comparing n Bool)
    (e : MergeEnd n) : Comparing n (MergeEnd n) :=
  match e.first, e.second with
  | a :: as, b :: bs => do
    if ← second a b then
      return ⟨b :: e.taken, a :: as, bs⟩
    else
      return ⟨a :: e.taken, as, b :: bs⟩
  | _, _ => .giveUp

/-- Takes `k` elements at either end, in turn. -/
def takeBoth : Nat → MergeEnd n → MergeEnd n →
    Comparing n (MergeEnd n × MergeEnd n)
  | 0, front, back => return (front, back)
  | k + 1, front, back => do
    let front ← front.take fun a b => less b a
    let back ← back.take fun b a => less b a
    takeBoth k front back

/-- Joins the two ends of a merge of `as` and `bs`: at most one element is
left between them, and none may have been taken twice. -/
def meet (as bs : List (Fin n)) (front back : MergeEnd n) :
    Comparing n (List (Fin n)) :=
  let left := front.first.length + back.second.length
  let right := front.second.length + back.first.length
  if as.length ≤ left ∧ bs.length ≤ right then
    return front.taken.reverse ++ front.first.take (left - as.length)
      ++ front.second.take (right - bs.length) ++ back.taken
  else
    .giveUp

/-- Merges two ascending lists, the later elements in the second, from
both ends. Neither list may be longer than the other by more than one. -/
def mergeEnds (as bs : List (Fin n)) : Comparing n (List (Fin n)) := do
  let (front, back) ← takeBoth ((as.length + bs.length) / 2) ⟨[], as, bs⟩
    ⟨[], bs.reverse, as.reverse⟩
  meet as bs front back

-- ============================================================== blocks

/-- Two elements in their order. -/
def ordered (i j : Fin n) : Comparing n (Fin n × Fin n) := do
  return if ← less j i then (j, i) else (i, j)

/-- Sorts four elements: two pairs, the least and the greatest of them,
and what is left. -/
def sortFour (i j k l : Fin n) : Comparing n (List (Fin n)) := do
  let (a, b) ← ordered i j
  let (c, d) ← ordered k l
  let low ← less c a
  let high ← less d b
  let least := if low then c else a
  let greatest := if high then b else d
  let (x, y) ← ordered (if low then a else if high then c else b)
    (if high then d else if low then b else c)
  return [least, x, y, greatest]

/-- The first elements of half a block in their order, and the others.
How many elements are sorted at once goes by the size of the block. -/
def sortHead (size : Nat) (is : List (Fin n)) :
    Comparing n (List (Fin n) × List (Fin n)) :=
  if 16 ≤ size then
    match is with
    | a :: b :: c :: d :: e :: f :: g :: h :: rest => do
      let low ← sortFour a b c d
      let high ← sortFour e f g h
      return (← mergeEnds low high, rest)
    | _ => return ([], is)
  else if 8 ≤ size then
    match is with
    | a :: b :: c :: d :: rest => return (← sortFour a b c d, rest)
    | _ => return ([], is)
  else
    return ([], is)

/-- Sorts a block: its halves by insertion behind their sorted heads, and
then the two halves by a merge from both ends. -/
def sortBlock (is : List (Fin n)) : Comparing n (List (Fin n)) := do
  let half := is.length / 2
  let (headLow, low) ← sortHead is.length (is.take half)
  let (headHigh, high) ← sortHead is.length (is.drop half)
  let low ← insertions headLow.reverse low.reverse
  let high ← insertions headHigh.reverse high.reverse
  mergeEnds low.reverse high.reverse

-- ================================================================ runs

/-- How many elements go on descending, or not descending, behind `i`. -/
def runBehind (descending : Bool) (i : Fin n) : List (Fin n) → Comparing n Nat
  | [] => return 0
  | j :: js => do
    if (← less j i) = descending then
      return (← runBehind descending j js) + 1
    else
      return 0

/-- Whether the list starts by descending, and for how many elements it
does as it starts. -/
def existingRun : List (Fin n) → Comparing n (Bool × Nat)
  | i :: j :: js => do
    let descending ← less j i
    return (descending, (← runBehind descending j js) + 2)
  | is => return (false, is.length)

/-- Sorts a block at the front of the list; also gives what is behind
it. -/
def nextBlock (is : List (Fin n)) :
    Comparing n (List (Fin n) × List (Fin n)) := do
  return (← sortBlock (is.take 32), is.drop 32)

/-- Some elements from the front of the list in their order, and what is
behind them: those that are in order already, if they are `good` many, or
else a block. -/
def nextRun (good : Nat) (is : List (Fin n)) :
    Comparing n (List (Fin n) × List (Fin n)) :=
  if good ≤ is.length then do
    let (descending, size) ← existingRun is
    if good ≤ size then
      let run := is.take size
      return (if descending then run.reverse else run, is.drop size)
    else
      nextBlock is
  else
    nextBlock is

/-- Sorts a list run by run. There are no more runs than elements, which
is what bounds the recursion. -/
def sortRuns (good : Nat) : Nat → List (Fin n) → Comparing n (List (Fin n))
  | _, [] => return []
  | 0, _ => .giveUp
  | bound + 1, is => do
    let (run, rest) ← nextRun good is
    merge run (← sortRuns good bound rest)

end Comparing

namespace Sorter

/-- Sorting by insertion. -/
def insertion : Sorter := Comparing.insertionSort

/-- Sorting by insertion up to twenty elements, and by runs above. A run
that the list comes with is used if it is half of the list, or sixty-four
elements long. -/
def adaptive : Sorter := fun n =>
  if n ≤ 20 then
    Comparing.insertionSort n
  else
    Comparing.sortRuns (min (n - n / 2) 64) n (List.finRange n)

end Sorter

end RelAlgebra
