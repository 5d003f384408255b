/-
Finite sets of attribute names, listed in ascending order. The order is
by code point, so a set has one listing whatever order its names came in.
-/

namespace RelAlgebra

/-- A set of names. -/
structure NameSet where
  toList : List String
  ascending : toList.Pairwise (· < ·)

namespace NameSet

/-- Puts a name at its place in an ascending list. -/
def place (name : String) : List String → List String
  | [] => [name]
  | n :: rest =>
    if name < n then name :: n :: rest
    else if n < name then n :: place name rest
    else n :: rest

theorem mem_place {name m : String} {names : List String} :
    m ∈ place name names ↔ m = name ∨ m ∈ names := by
  induction names with
  | nil => simp [place]
  | cons n rest ih =>
    unfold place
    split
    · simp
    · split
      · simp only [List.mem_cons, ih]
        exact ⟨fun h => by rcases h with h | h | h <;> simp [h],
          fun h => by rcases h with h | h | h <;> simp [h]⟩
      · rename_i h₁ h₂
        have : name = n :=
          String.le_antisymm (String.not_lt.1 h₂) (String.not_lt.1 h₁)
        subst this
        simp

theorem pairwise_place {name : String} {names : List String}
    (h : names.Pairwise (· < ·)) : (place name names).Pairwise (· < ·) := by
  induction names with
  | nil => simp [place]
  | cons n rest ih =>
    rw [List.pairwise_cons] at h
    unfold place
    split
    · rename_i hlt
      rw [List.pairwise_cons, List.pairwise_cons]
      refine ⟨fun m hm => ?_, h⟩
      rcases List.mem_cons.1 hm with rfl | hm
      · exact hlt
      · exact String.lt_trans hlt (h.1 m hm)
    · split
      · rename_i hlt
        rw [List.pairwise_cons]
        refine ⟨fun m hm => ?_, ih h.2⟩
        rcases mem_place.1 hm with rfl | hm
        · exact hlt
        · exact h.1 m hm
      · exact List.pairwise_cons.2 h

/-- The set without names. -/
def empty : NameSet := ⟨[], .nil⟩

/-- The set with one more name. -/
def insert (s : NameSet) (name : String) : NameSet :=
  ⟨place name s.toList, pairwise_place s.ascending⟩

/-- The set of one name. -/
def singleton (name : String) : NameSet := empty.insert name

/-- The names of either set. -/
def union (s t : NameSet) : NameSet := t.toList.foldl insert s

instance : Membership String NameSet := ⟨fun s name => name ∈ s.toList⟩

theorem mem_def {name : String} {s : NameSet} : name ∈ s ↔ name ∈ s.toList :=
  Iff.rfl

@[simp]
theorem not_mem_empty {name : String} : name ∉ empty := by
  simp [mem_def, empty]

@[simp]
theorem mem_insert {name m : String} {s : NameSet} :
    m ∈ s.insert name ↔ m = name ∨ m ∈ s := mem_place

@[simp]
theorem mem_singleton {name m : String} : m ∈ singleton name ↔ m = name := by
  simp [singleton]

@[simp]
theorem mem_union {m : String} {s t : NameSet} :
    m ∈ s.union t ↔ m ∈ s ∨ m ∈ t := by
  have fold : ∀ (names : List String) (s : NameSet),
      m ∈ names.foldl insert s ↔ m ∈ s ∨ m ∈ names := by
    intro names
    induction names with
    | nil => simp
    | cons n rest ih =>
      intro s
      rw [List.foldl_cons, ih, mem_insert, List.mem_cons]
      exact ⟨fun h => by rcases h with (h | h) | h <;> simp [h],
        fun h => by rcases h with h | h | h <;> simp [h]⟩
  exact fold t.toList s

end NameSet

end RelAlgebra
