/-
Which rows collections hold. A row that is inserted may be dropped, but
only for an equal one that is kept; so collecting rows adds no row that
was not given, and leaves out none but for an equal one. Where equal rows
are the same row, the collection holds just the rows that were given.
-/
import RelAlgebra.Proofs.Tuples.Equality
import RelAlgebra.Tuples.Transform

namespace RelAlgebra.Tuples

variable {ts us : Tuples} {t u : Tuple} {rows : List Tuple}

-- =========================================================== insertion

/-- A row is appended unless it is contained. -/
theorem rows_insert :
    (ts.insert t).rows
      = if ts.contains t = true then ts.rows else ts.rows ++ [t] := by
  unfold insert add
  by_cases h : ts.contains t = false
  · simp [h]
  · simp [h]

/-- After an insertion a row was there or is the one inserted. -/
theorem mem_of_mem_insert (h : u ∈ (ts.insert t).rows) :
    u ∈ ts.rows ∨ u = t := by
  rw [rows_insert] at h
  split at h
  · exact .inl h
  · simpa using h

theorem mem_of_mem_insertAll (h : u ∈ (ts.insertAll rows).rows) :
    u ∈ ts.rows ∨ u ∈ rows := by
  induction rows generalizing ts with
  | nil => exact .inl h
  | cons t rest ih =>
      rcases ih h with hmem | hmem
      · rcases mem_of_mem_insert hmem with hmem | rfl
        · exact .inl hmem
        · exact .inr (List.mem_cons_self ..)
      · exact .inr (List.mem_cons_of_mem _ hmem)

/-- No row is lost by an insertion. -/
theorem mem_insert_of_mem (h : u ∈ ts.rows) : u ∈ (ts.insert t).rows := by
  rw [rows_insert]
  split
  · exact h
  · exact List.mem_append_left _ h

theorem mem_insertAll_of_mem (h : u ∈ ts.rows) :
    u ∈ (ts.insertAll rows).rows := by
  induction rows generalizing ts with
  | nil => exact h
  | cons t rest ih => exact ih (mem_insert_of_mem h)

/-- After its insertion a row is there, or one that is equal. -/
theorem exists_mem_insert (ts : Tuples) (t : Tuple) :
    ∃ u ∈ (ts.insert t).rows, (u == t) = true := by
  rw [rows_insert]
  split
  · rename_i h
    exact contains_iff.1 h
  · exact ⟨t, List.mem_append_right _ (List.mem_singleton.2 rfl), BEq.rfl⟩

/-- Every row given is kept, or an equal one is. -/
theorem exists_mem_insertAll (ts : Tuples) (h : t ∈ rows) :
    ∃ u ∈ (ts.insertAll rows).rows, (u == t) = true := by
  induction rows generalizing ts with
  | nil => cases h
  | cons v rest ih =>
      rcases List.mem_cons.1 h with rfl | h
      · obtain ⟨u, hu, hut⟩ := exists_mem_insert ts t
        have hkept : u ∈ ((ts.insert t).insertAll rest).rows :=
          mem_insertAll_of_mem hu
        exact ⟨u, hkept, hut⟩
      · exact ih (ts.insert v) h

-- ============================================= collections of given rows

/-- Collecting makes no new rows. -/
theorem mem_of_mem_ofList (h : t ∈ (ofList rows).rows) : t ∈ rows := by
  rcases mem_of_mem_insertAll h with h | h
  · cases h
  · exact h

/-- Where equal rows are the same row, inserting rows keeps them all. -/
theorem mem_insertAll_iff
    (h : ∀ t u, t ∈ ts.rows ∨ t ∈ rows → u ∈ ts.rows ∨ u ∈ rows →
      (t == u) = true → t = u) :
    t ∈ (ts.insertAll rows).rows ↔ t ∈ ts.rows ∨ t ∈ rows := by
  refine ⟨mem_of_mem_insertAll, fun ht => ?_⟩
  rcases ht with ht | ht
  · exact mem_insertAll_of_mem ht
  · obtain ⟨u, hu, hut⟩ := exists_mem_insertAll ts ht
    rw [← h u t (mem_of_mem_insertAll hu) (.inr ht) hut]
    exact hu

/-- If equal rows are the same, collecting loses none. -/
theorem mem_ofList_iff
    (h : ∀ t u, t ∈ rows → u ∈ rows → (t == u) = true → t = u) :
    t ∈ (ofList rows).rows ↔ t ∈ rows := by
  have hnone : ∀ t, t ∈ empty.rows ∨ t ∈ rows ↔ t ∈ rows := fun t => by
    simp [empty]
  refine (mem_insertAll_iff fun t u ht hu => ?_).trans (hnone t)
  exact h t u ((hnone t).1 ht) ((hnone u).1 hu)

theorem mem_of_mem_union (h : t ∈ (ts.union us).rows) :
    t ∈ ts.rows ∨ t ∈ us.rows :=
  mem_of_mem_insertAll h

theorem mem_of_mem_filter {p : Tuple → Bool} (h : t ∈ (ts.filter p).rows) :
    t ∈ ts.rows :=
  List.mem_of_mem_filter h

-- ================================================= rows chosen by a test

section Choice

variable {ε : Type} {f : Tuple → Except ε Bool}

/-- Whether the test comes to an end, and holds. -/
def passes (f : Tuple → Except ε Bool) (t : Tuple) : Bool :=
  match f t with
  | .ok b => b
  | .error _ => false

/-- What is done with one row: it is tested, and kept if the test holds. -/
def keepWhere (f : Tuple → Except ε Bool) (ts : Tuples) (t : Tuple) :
    Except ε Tuples := do
  if ← f t then
    return ts.insert t
  else
    return ts

/-- A test that succeeds on all rows keeps those that pass. -/
theorem foldlM_keepWhere_of_ok (h : ∀ t ∈ rows, ∃ b, f t = .ok b) :
    rows.foldlM (keepWhere f) ts
      = .ok (ts.insertAll (rows.filter (passes f))) := by
  induction rows generalizing ts with
  | nil => rfl
  | cons t rest ih =>
      obtain ⟨b, hb⟩ := h t (List.mem_cons_self ..)
      have hrest : ∀ u ∈ rest, ∃ b, f u = .ok b :=
        fun u hu => h u (List.mem_cons_of_mem _ hu)
      have hpass : passes f t = b := by simp [passes, hb]
      rw [List.foldlM_cons, keepWhere, hb, List.filter_cons, hpass]
      cases b with
      | true => exact ih hrest
      | false => exact ih hrest

/-- The first row on which the test fails decides what the failure is. -/
theorem foldlM_keepWhere_of_first_error {before after : List Tuple} {e : ε}
    (hbefore : ∀ u ∈ before, ∃ b, f u = .ok b) (h : f t = .error e) :
    (before ++ t :: after).foldlM (keepWhere f) ts = .error e := by
  rw [List.foldlM_append, foldlM_keepWhere_of_ok hbefore]
  show (t :: after).foldlM (keepWhere f) _ = _
  rw [List.foldlM_cons, keepWhere, h]
  rfl

/-- One that fails on a row fails, there or before. -/
theorem foldlM_keepWhere_of_error (ht : t ∈ rows) {e : ε}
    (h : f t = .error e) :
    ∃ e', rows.foldlM (keepWhere f) ts = .error e' := by
  induction rows generalizing ts with
  | nil => cases ht
  | cons u rest ih =>
      rw [List.foldlM_cons, keepWhere]
      cases hu : f u with
      | error e' => exact ⟨e', rfl⟩
      | ok b =>
          rcases List.mem_cons.1 ht with rfl | ht
          · rw [h] at hu
            cases hu
          · cases b with
            | true => exact ih ht
            | false => exact ih ht

/-- The test is run on every row, so it has to end well on each. -/
theorem ofListWhereM_of_ok (h : ∀ t ∈ rows, ∃ b, f t = .ok b) :
    ofListWhereM f rows = .ok (ofList (rows.filter (passes f))) :=
  foldlM_keepWhere_of_ok h

/-- The test is run on the rows in their order, and the first failure ends
the choice. -/
theorem ofListWhereM_of_first_error {before after : List Tuple} {e : ε}
    (hbefore : ∀ u ∈ before, ∃ b, f u = .ok b) (h : f t = .error e) :
    ofListWhereM f (before ++ t :: after) = .error e :=
  foldlM_keepWhere_of_first_error hbefore h

/-- A row on which the test fails makes the whole choice fail, though not
always with its own failure. -/
theorem ofListWhereM_of_error (ht : t ∈ rows) {e : ε} (h : f t = .error e) :
    ∃ e', ofListWhereM f rows = .error e' :=
  foldlM_keepWhere_of_error ht h

/-- What comes out of a choice, if something does. -/
theorem ofListWhereM_eq_ok_iff :
    ofListWhereM f rows = .ok ts
      ↔ (∀ t ∈ rows, ∃ b, f t = .ok b)
        ∧ ofList (rows.filter (passes f)) = ts := by
  constructor
  · intro h
    have hok : ∀ t ∈ rows, ∃ b, f t = .ok b := by
      intro t ht
      cases hf : f t with
      | ok b => exact ⟨b, rfl⟩
      | error e =>
          obtain ⟨e', he'⟩ := ofListWhereM_of_error ht hf
          rw [h] at he'
          cases he'
    rw [ofListWhereM_of_ok hok] at h
    exact ⟨hok, Except.ok.inj h⟩
  · rintro ⟨hok, rfl⟩
    exact ofListWhereM_of_ok hok

end Choice

end RelAlgebra.Tuples
