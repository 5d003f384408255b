/-
Lists of names in the order of certain occurrences. A name that is listed
repeatedly stands at several places, which are told apart by how often the name
stands before them. The report on a list of attributes is in the order of second
occurrences, and the names that a header lacks are in the order of first ones;
either list is built name by name, and a list is settled by its order and the
names it has.

All of it comes from what one more name at the end adds to the occurrences, by
inductions from the back.
-/
import Mathlib.Data.List.Induction
import RelAlgebra.Proofs.Header.Repetition

namespace RelAlgebra

variable {k i j : Nat} {names listed listed' : List String}
  {name m n : String} {P : String → Prop}

-- ========================================================= occurrences

/-- The name stands at that place, and `k` times before it. -/
def StandsAt (k : Nat) (names : List String) (name : String) (i : Nat) : Prop :=
  names[i]? = some name ∧ (names.take i).count name = k

theorem StandsAt.lt_length (h : StandsAt k names name i) : i < names.length :=
  (List.getElem?_eq_some_iff.1 h.1).1

/-- One more name adds one occurrence, of itself. -/
theorem standsAt_concat_iff :
    StandsAt k (names ++ [m]) name i
      ↔ StandsAt k names name i
        ∨ m = name ∧ names.count name = k ∧ i = names.length := by
  rcases Nat.lt_trichotomy i names.length with hlt | heq | hgt
  · unfold StandsAt
    rw [List.getElem?_append_left hlt,
      List.take_append_of_le_length (Nat.le_of_lt hlt)]
    have hne : i ≠ names.length := Nat.ne_of_lt hlt
    simp [hne]
  · subst heq
    simp [StandsAt]
  · have hold : ¬StandsAt k names name i :=
      fun h => Nat.lt_asymm h.lt_length hgt
    have hnew : ¬StandsAt k (names ++ [m]) name i := by
      intro h
      have hlength := h.lt_length
      rw [List.length_append, List.length_singleton] at hlength
      omega
    have hne : i ≠ names.length := Nat.ne_of_gt hgt
    simp [hold, hnew, hne]

theorem StandsAt.concat (h : StandsAt k names name i) :
    StandsAt k (names ++ [m]) name i :=
  standsAt_concat_iff.2 (.inl h)

/-- There is an occurrence of that number if the name occurs more often. -/
theorem exists_standsAt_iff :
    (∃ i, StandsAt k names name i) ↔ k < names.count name := by
  induction names using List.reverseRecOn with
  | nil => simp [StandsAt]
  | append_singleton names m ih =>
      simp only [standsAt_concat_iff, exists_or, ih, List.count_append]
      by_cases hname : m = name
      · subst hname
        simp only [true_and, exists_and_left, exists_eq, and_true,
          List.count_singleton_self]
        omega
      · simp [hname]

/-- A name stands at one place after `k` earlier ones. -/
theorem StandsAt.unique (hi : StandsAt k names name i)
    (hj : StandsAt k names name j) : i = j := by
  induction names using List.reverseRecOn with
  | nil => cases hi.1
  | append_singleton names m ih =>
      rw [standsAt_concat_iff] at hi hj
      rcases hi with hi | ⟨-, hcount, hi⟩
      · rcases hj with hj | ⟨-, hcount, -⟩
        · exact ih hi hj
        · have := exists_standsAt_iff.1 ⟨i, hi⟩
          omega
      · rcases hj with hj | ⟨-, -, hj⟩
        · have := exists_standsAt_iff.1 ⟨j, hj⟩
          omega
        · rw [hi, hj]

/-- Among different names each stands at one place only. -/
theorem standsAt_zero_iff (hdiffer : names.Nodup) :
    StandsAt 0 names name i ↔ names[i]? = some name := by
  refine ⟨And.left, fun hi => ?_⟩
  have hmem : 0 < names.count name :=
    List.count_pos_iff.2 (List.mem_of_getElem? hi)
  obtain ⟨j, hj⟩ := exists_standsAt_iff.2 hmem
  have hsame : j = i :=
    (List.getElem?_inj hj.lt_length hdiffer).1 (hj.1.trans hi.symm)
  exact hsame ▸ hj

-- ============================================================== orders

/-- After `k` occurrences of either, `m` stands before `n`. -/
def Earlier (k : Nat) (names : List String) (m n : String) : Prop :=
  ∃ i j, StandsAt k names m i ∧ StandsAt k names n j ∧ i < j

theorem Earlier.concat (h : Earlier k names m n) :
    Earlier k (names ++ [name]) m n :=
  let ⟨i, j, hi, hj, hlt⟩ := h
  ⟨i, j, hi.concat, hj.concat, hlt⟩

/-- Of two names only one comes first. -/
theorem Earlier.asymm (h : Earlier k names m n) : ¬Earlier k names n m := by
  rintro ⟨j', i', hj', hi', hlt'⟩
  obtain ⟨i, j, hi, hj, hlt⟩ := h
  have hsame : i = i' := hi.unique hi'
  have hsame' : j = j' := hj.unique hj'
  omega

/-- A name that is new in the order comes last. -/
theorem pairwise_earlier_concat (hlisted : listed.Pairwise (Earlier k names))
    (hmem : ∀ m ∈ listed, k < names.count m) (hname : names.count name = k) :
    (listed ++ [name]).Pairwise (Earlier k (names ++ [name])) := by
  rw [List.pairwise_append]
  refine ⟨hlisted.imp .concat, List.pairwise_singleton _ _, ?_⟩
  intro m hm n hn
  rw [List.mem_singleton.1 hn]
  obtain ⟨i, hi⟩ := exists_standsAt_iff.2 (hmem m hm)
  exact ⟨i, names.length, hi.concat, standsAt_concat_iff.2 (.inr ⟨rfl, hname, rfl⟩),
    hi.lt_length⟩

/-- The names with that property, each once, in the order of the occurrences
after `k` earlier ones. -/
structure ListedBy (k : Nat) (names : List String) (P : String → Prop)
    (listed : List String) : Prop where
  mem_iff : ∀ name, name ∈ listed ↔ P name
  nodup : listed.Nodup
  ordered : listed.Pairwise (Earlier k names)

/-- There is one such list. -/
theorem ListedBy.unique (h : ListedBy k names P listed)
    (h' : ListedBy k names P listed') : listed = listed' := by
  refine List.Perm.eq_of_pairwise (fun m n _ _ hmn hnm => absurd hnm hmn.asymm)
    h.ordered h'.ordered ?_
  rw [List.perm_ext_iff_of_nodup h.nodup h'.nodup]
  intro name
  rw [h.mem_iff, h'.mem_iff]

-- ====================================================== repeated names

/-- One more name is found if it stands there for the second time. -/
theorem repeatedAfter_concat (before names : List String) (name : String) :
    repeatedAfter before (names ++ [name])
      = repeatedAfter before names
        ++ if before.count name + names.count name = 1 then [name] else [] := by
  induction names generalizing before with
  | nil =>
      rw [List.nil_append, List.count_nil, Nat.add_zero, repeatedAfter]
      rfl
  | cons m rest ih =>
      have hcount : (m :: before).count name + rest.count name
          = before.count name + (m :: rest).count name := by
        rw [List.count_cons, List.count_cons]
        omega
      rw [List.cons_append, repeatedAfter, repeatedAfter, ih, hcount]
      split
      · rfl
      · rfl

/-- The report has the names that are listed twice or more, each once, in the
order of their second occurrences. -/
theorem listedBy_repeatedAfter (names : List String) :
    ListedBy 1 names (fun name => 2 ≤ names.count name)
      (repeatedAfter [] names) where
  mem_iff name := by
    rw [mem_repeatedAfter, List.count_nil]
    omega
  nodup := nodup_repeatedAfter
  ordered := by
    induction names using List.reverseRecOn with
    | nil => exact .nil
    | append_singleton names name ih =>
        rw [repeatedAfter_concat, List.count_nil, Nat.zero_add]
        split
        · rename_i honce
          refine pairwise_earlier_concat ih (fun m hm => ?_) honce
          have := mem_repeatedAfter.1 hm
          rw [List.count_nil] at this
          omega
        · rw [List.append_nil]
          exact ih.imp .concat

-- What is met again first is reported first, though it is listed later.
example : repeatedAfter [] ["id", "name", "age", "name", "id", "name"]
    = ["name", "id"] := by decide

-- ======================================================= missing names

namespace Header

/-- One more name is reported if the header lacks it and it is not reported
yet. -/
theorem missing_concat (h : Header) (requested : List String) (name : String) :
    h.missing (requested ++ [name])
      = if !h.contains name && !(h.missing requested).contains name then
          h.missing requested ++ [name]
        else
          h.missing requested := by
  have hsingle : [name].eraseDups = [name] := rfl
  unfold missing
  rw [List.filter_append, List.eraseDups_append]
  by_cases hlacks : h.contains name = true
  · simp [hlacks, List.removeAll]
  · by_cases hmem : name ∈ requested
    · simp [hlacks, hmem, List.removeAll]
    · simp [hlacks, hmem, List.removeAll, hsingle]

/-- The names of a request that the header lacks, each once, in the order of
request. -/
theorem listedBy_missing (h : Header) (requested : List String) :
    ListedBy 0 requested
      (fun name => name ∈ requested ∧ h.contains name = false)
      (h.missing requested) where
  mem_iff name := by
    rw [mem_missing, ← contains_iff, Bool.not_eq_true]
  nodup := h.nodup_missing requested
  ordered := by
    induction requested using List.reverseRecOn with
    | nil => exact .nil
    | append_singleton requested name ih =>
        rw [missing_concat]
        split
        · rename_i hnew
          rw [Bool.and_eq_true, not_contains_iff] at hnew
          obtain ⟨hlacks, hfree⟩ := hnew
          have hfirst : name ∉ requested := by
            simpa [mem_missing, hlacks] using hfree
          exact pairwise_earlier_concat ih
            (fun m hm => List.count_pos_iff.2 (mem_missing.1 hm).1)
            (List.count_eq_zero.2 hfirst)
        · exact ih.imp .concat

end Header

end RelAlgebra
