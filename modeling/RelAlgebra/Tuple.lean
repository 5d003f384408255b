/-
Tuples: rows as finite maps from attribute names to values. The pairs are
kept in ascending order of the names, so a row has one representation
whatever order its pairs came in. A tuple carries no schema of its own.
-/
import RelAlgebra.Value.Equality
import RelAlgebra.Value.Printer

namespace RelAlgebra

/-- A row: names with values, ascending by name. -/
structure Tuple where
  pairs : List (String × Value)
  ascending : pairs.Pairwise (fun p q => p.1 < q.1)

namespace Tuple

/-- Puts a pair at its place in an ascending list, in the stead of a pair
of the same name. -/
def place (name : String) (value : Value) :
    List (String × Value) → List (String × Value)
  | [] => [(name, value)]
  | p :: rest =>
    if name < p.1 then (name, value) :: p :: rest
    else if p.1 < name then p :: place name value rest
    else (name, value) :: rest

theorem mem_place_name {name : String} {value : Value}
    {pairs : List (String × Value)} {q : String × Value}
    (h : q ∈ place name value pairs) : q = (name, value) ∨ q ∈ pairs := by
  induction pairs with
  | nil => simpa [place] using h
  | cons p rest ih =>
    unfold place at h
    split at h
    · simpa using h
    · split at h
      · rcases List.mem_cons.1 h with h | h
        · simp [h]
        · rcases ih h with h | h <;> simp [h]
      · rcases List.mem_cons.1 h with h | h <;> simp [h]

theorem pairwise_place {name : String} {value : Value}
    {pairs : List (String × Value)}
    (h : pairs.Pairwise (fun p q => p.1 < q.1)) :
    (place name value pairs).Pairwise (fun p q => p.1 < q.1) := by
  induction pairs with
  | nil => simp [place]
  | cons p rest ih =>
    rw [List.pairwise_cons] at h
    unfold place
    split
    · rename_i hlt
      rw [List.pairwise_cons, List.pairwise_cons]
      refine ⟨fun q hq => ?_, h⟩
      rcases List.mem_cons.1 hq with rfl | hq
      · exact hlt
      · exact String.lt_trans hlt (h.1 q hq)
    · split
      · rename_i hlt
        rw [List.pairwise_cons]
        refine ⟨fun q hq => ?_, ih h.2⟩
        rcases mem_place_name hq with rfl | hq
        · exact hlt
        · exact h.1 q hq
      · rename_i h₁ h₂
        have : name = p.1 :=
          String.le_antisymm (String.not_lt.1 h₂) (String.not_lt.1 h₁)
        subst this
        exact List.pairwise_cons.2 h

/-- The row without pairs. -/
def empty : Tuple := ⟨[], .nil⟩

/-- Stores a value under a name, in the stead of the one there. -/
def insert (t : Tuple) (name : String) (value : Value) : Tuple :=
  ⟨place name value t.pairs, pairwise_place t.ascending⟩

/-- Removes a name with its value. -/
def erase (t : Tuple) (name : String) : Tuple :=
  ⟨t.pairs.filter (·.1 ≠ name), t.ascending.filter _⟩

/-- The row with these pairs; of pairs with one name the last counts. -/
def ofPairs (pairs : List (String × Value)) : Tuple :=
  pairs.foldl (fun t p => t.insert p.1 p.2) empty

/-- The value stored under a name. -/
def get? (t : Tuple) (name : String) : Option Value := t.pairs.lookup name

/-- The value stored under a name, a missing one reading as absent. -/
def getD (t : Tuple) (name : String) : Value := (t.get? name).getD .null

/-- Whether the row has the name. -/
def contains (t : Tuple) (name : String) : Bool := (t.get? name).isSome

/-- The names, ascending. -/
def names (t : Tuple) : List String := t.pairs.map Prod.fst

/-- The number of pairs. -/
def size (t : Tuple) : Nat := t.pairs.length

def isEmpty (t : Tuple) : Bool := t.pairs.isEmpty

/-- Both rows in one; where both have a name the value of `t` counts. -/
def merge (t u : Tuple) : Tuple :=
  t.pairs.foldl (fun acc p => acc.insert p.1 p.2) u

/-- The row on just these names; a name that is missing becomes absent. -/
def project (t : Tuple) (names : List String) : Tuple :=
  ofPairs (names.map fun name => (name, t.getD name))

/-- Moves the value under `old`, if there is one, to `new`. -/
def renamed (t : Tuple) (old new : String) : Tuple :=
  match t.get? old with
  | some value => (t.erase old).insert new value
  | none => t

/-- Structural equality: the same names, with equal values. -/
instance : BEq Tuple := ⟨fun t u => t.pairs == u.pairs⟩

/-- The hash data of a row. -/
def digest (t : Tuple) : Digest :=
  .count t.size :: t.pairs.flatMap fun p => .text p.1 :: p.2.digest

def render (t : Tuple) : String :=
  "(" ++ ", ".intercalate (t.pairs.map fun p => p.1 ++ ": " ++ p.2.render)
    ++ ")"

end Tuple

end RelAlgebra
