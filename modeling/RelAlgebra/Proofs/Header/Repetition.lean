/-
Names listed more than once, which are the report on a list of attributes that
makes no header. They are found in one pass; the induction is on the names
still to come, and its statement counts a name in both parts of the list, the
one passed and the one to come. A list in which one of different names is
replaced by another of them repeats that one only.
-/
import Mathlib.Data.List.Count
import RelAlgebra.Proofs.Header

namespace RelAlgebra

variable {name old new : String} {before names : List String}

-- ==================================================== repeated names

/-- The names found in the rest of a list are those that the whole list has
twice or more, and the part already passed once at most. -/
theorem mem_repeatedAfter :
    name ∈ repeatedAfter before names
      ↔ before.count name ≤ 1
        ∧ 2 ≤ before.count name + names.count name := by
  induction names generalizing before with
  | nil =>
      rw [repeatedAfter, List.count_nil]
      constructor
      · nofun
      · omega
  | cons m rest ih =>
      by_cases hname : m = name
      · subst hname
        rw [List.count_cons_self, repeatedAfter]
        split
        · rename_i honce
          simp only [List.mem_cons_self, true_iff]
          omega
        · rename_i hother
          rw [ih, List.count_cons_self]
          omega
      · have hstep : name ∈ repeatedAfter before (m :: rest)
            ↔ name ∈ repeatedAfter (m :: before) rest := by
          rw [repeatedAfter]
          split
          · simp [Ne.symm hname]
          · rfl
        rw [hstep, ih, List.count_cons_of_ne hname,
          List.count_cons_of_ne hname]

/-- A name that repeats is listed once. -/
theorem nodup_repeatedAfter : (repeatedAfter before names).Nodup := by
  induction names generalizing before with
  | nil => exact List.nodup_nil
  | cons m rest ih =>
      rw [repeatedAfter]
      split
      · rename_i honce
        -- once found, the name has been passed twice
        have hfound : m ∉ repeatedAfter (m :: before) rest := by
          rw [mem_repeatedAfter, List.count_cons_self]
          omega
        exact List.nodup_cons.2 ⟨hfound, ih⟩
      · exact ih

/-- No name is repeated exactly if all names are different. -/
theorem repeatedAfter_eq_nil_iff :
    repeatedAfter [] names = [] ↔ names.Nodup := by
  rw [List.eq_nil_iff_forall_not_mem, List.nodup_iff_count_le_one]
  refine forall_congr' fun name => ?_
  rw [mem_repeatedAfter, List.count_nil]
  omega

/-- One name is repeated, and no other. -/
theorem repeatedAfter_eq_singleton
    (h : ∀ name, 2 ≤ names.count name ↔ name = new) :
    repeatedAfter [] names = [new] := by
  refine List.perm_singleton.1 ((List.perm_ext_iff_of_nodup
    nodup_repeatedAfter (List.nodup_singleton new)).2 fun name => ?_)
  rw [mem_repeatedAfter, List.count_nil, Nat.zero_add, List.mem_singleton, h]
  simp

-- ==================================================== replaced names

/-- If one of different names is replaced by another of them, that one is
repeated, and no other. -/
theorem repeatedAfter_replaced (hdiffer : names.Nodup) (hold : old ∈ names)
    (hnew : new ∈ names) (hne : new ≠ old) :
    repeatedAfter [] (names.map fun name => if name = old then new else name)
      = [new] := by
  have hrest : (names.erase old).Nodup := hdiffer.erase old
  have hkept : (names.erase old).map
        (fun name => if name = old then new else name)
      = names.erase old := by
    refine (List.map_congr_left fun name hname => ?_).trans (List.map_id _)
    exact if_neg (hdiffer.mem_erase_iff.1 hname).1
  have hperm : (names.map fun name => if name = old then new else name).Perm
      (new :: names.erase old) := by
    have hmap := (List.perm_cons_erase hold).map
      fun name => if name = old then new else name
    rwa [List.map_cons, if_pos rfl, hkept] at hmap
  have hmem : new ∈ names.erase old := hdiffer.mem_erase_iff.2 ⟨hne, hnew⟩
  refine repeatedAfter_eq_singleton fun name => ?_
  rw [hperm.count_eq]
  by_cases hname : name = new
  · subst hname
    rw [List.count_cons_self, List.count_eq_one_of_mem hrest hmem]
    simp
  · rw [List.count_cons_of_ne (Ne.symm hname)]
    have honce := List.nodup_iff_count_le_one.1 hrest name
    simp only [hname, iff_false]
    omega

namespace Header

/-- A header whose names repeat is not derived, and the error lists them. -/
theorem derive_of_repeated {attributes : List Attribute}
    (h : ¬(attributes.map Attribute.name).Nodup) :
    derive attributes = .error (.header (.duplicates
      (repeatedAfter [] (attributes.map Attribute.name)))) := by
  unfold derive
  rw [ofAttributes_of_repeated h]
  rfl

/-- An attribute that takes the name of another one. -/
theorem derive_renamed_of_mem {h : Header} (hold : old ∈ h.names)
    (hnew : new ∈ h.names) (hne : new ≠ old) :
    derive (h.attributes.map fun a =>
        if a.name = old then { a with name := new } else a)
      = .error (.header (.duplicates [new])) := by
  have hnames : (h.attributes.map fun a =>
        if a.name = old then { a with name := new } else a).map Attribute.name
      = h.names.map fun name => if name = old then new else name := by
    unfold names
    rw [List.map_map, List.map_map]
    exact List.map_congr_left fun a _ => apply_ite Attribute.name _ _ _
  have hrepeated : repeatedAfter [] (h.names.map fun name =>
      if name = old then new else name) = [new] :=
    repeatedAfter_replaced h.distinct hold hnew hne
  have hrepeats : ¬(h.names.map fun name =>
      if name = old then new else name).Nodup := by
    rw [← repeatedAfter_eq_nil_iff, hrepeated]
    exact List.cons_ne_nil new []
  rw [derive_of_repeated (hnames ▸ hrepeats), hnames, hrepeated]

end Header

end RelAlgebra
