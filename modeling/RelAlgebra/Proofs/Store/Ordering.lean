/-
When ordering fails, as it shows when queries are run on a store, and what
it comes to otherwise. Which sort is used counts for one thing only: whether
the sort gives up where it would have to fail. Whether ordering succeeds does
not depend on the order in which the rows arrive either: all that counts is
whether two of them are incomparable. What it comes to does, but only for
rows that are equal on every key. As it says nothing else about them, orders
can be put together, and rows chosen before or after.
-/
import RelAlgebra.Proofs.Store.Attempts
import RelAlgebra.Proofs.Tuples.AdaptiveSort

namespace RelAlgebra.Store

variable {n : Nat}

/-- What is ordered is what the query below comes to. -/
theorem value_execute_orderBy {s : Store n} {p : Query (Fin n)} {r : Resolved}
    (hp : (execute p s).value = .ok r) (keys : List SortKey) :
    (execute (.unary (.orderBy keys) p) s).value = r.orderBy keys := by
  rw [value_execute_unary, hp]
  rfl

/-- The sort of a query orders what comes to it. -/
theorem executeWith_orderBy {s : Store n} {p : Query (Fin n)} {r : Resolved}
    (hp : (execute p s).value = .ok r) (sort : StableSort)
    (keys : List SortKey) :
    s.executeWith sort (.unary (.orderBy keys) p) = r.orderWith sort keys := by
  have hr : s.executeWith sort p = .ok r :=
    (s.follows_executeWith p sort).eq_ok_iff.2 hp
  show (s.executeWith sort p >>= _) = _
  rw [hr]
  rfl

/-- Ordering by keys that are in the header succeeds exactly if no two
different rows are incomparable: their values under some key have no order,
and those under the earlier keys are equal. If two are, it fails for the
values, but for one case: the sort may give up, as what the comparison says
after it has failed may contradict what it said before. A sort that never
gives up on as many elements leaves the failure only, and so it is where
rows are inserted one by one. The rows need not fit the header, and the sort
may be any stable one that goes by comparisons alone. Whether ordering
succeeds does not depend on the order of the rows, and a single row is always
ordered. -/
theorem execute_orderBy_fails_iff (sort : StableSort) (s : Store n)
    (p : Query (Fin n)) (keys : List SortKey) (r : Resolved)
    (hp : (execute p s).value = .ok r)
    (hkeys : ∀ key ∈ keys, key.name ∈ r.header.names) :
    let q : Query (Fin n) := .unary (.orderBy keys) p
    let result := s.executeWith sort q
    let stuck := ∃ t ∈ r.tuples.rows, ∃ u ∈ r.tuples.rows, (t == u) = false
      ∧ t.Incomparable u keys
    ((∃ e, result = .error (.value e)) ↔ stuck ∧ result ≠ .gaveUp)
      ∧ ((∃ x, result = .ok x) ↔ ¬stuck)
      ∧ ((∃ x, result = .ok x) ∨ (∃ e, result = .error (.value e))
        ∨ result = .gaveUp)
      ∧ ((sort.sorter r.tuples.size).Steady → result ≠ .gaveUp)
      ∧ ((∃ e, (execute q s).value = .error (.value e)) ↔ stuck)
      ∧ (∀ (sort' : StableSort) (s' : Store n) (p' : Query (Fin n))
          (r' : Resolved), (execute p' s').value = .ok r' →
          r'.header = r.header → r'.tuples.rows.Perm r.tuples.rows →
          ((∃ x, s'.executeWith sort' (.unary (.orderBy keys) p') = .ok x)
            ↔ ∃ x, result = .ok x))
      ∧ (r.tuples.size ≤ 1 → ∃ x, result = .ok x) := by
  intro q result stuck
  have hresult : result = r.orderWith sort keys :=
    executeWith_orderBy hp sort keys
  have hstuck : stuck
      ↔ ¬r.tuples.rows.Pairwise (Comparable fun t u => t.compareBy u keys) :=
    Tuples.not_pairwise_comparable_iff.symm
  rw [hresult, value_execute_orderBy hp]
  refine ⟨Resolved.orderWith_fails_iff hkeys sort, ?_,
    Resolved.orderWith_cases hkeys sort, Resolved.orderWith_ne_gaveUp, ?_,
    fun sort' s' p' r' hp' hheader hperm => ?_, fun hsize => ?_⟩
  · rw [Resolved.orderWith_isOk_iff hkeys sort, hstuck, not_not]
  · have hfails := Resolved.orderWith_fails_iff hkeys .insertion
    simp only [Resolved.orderBy_eq_error_iff]
    refine hfails.trans (and_iff_left ?_)
    exact Resolved.orderWith_ne_gaveUp (Comparing.steady_insertionSort _)
  · have hkeys' : ∀ key ∈ keys, key.name ∈ r'.header.names :=
      hheader ▸ hkeys
    rw [executeWith_orderBy hp', Resolved.orderWith_isOk_iff hkeys sort,
      Resolved.orderWith_isOk_iff hkeys' sort']
    exact hperm.pairwise_iff fun h =>
      Comparable.symm (Tuple.coherent_compareBy keys) h
  · rw [Resolved.orderWith_isOk_iff hkeys sort]
    unfold Tuples.size at hsize
    match r.tuples.rows, hsize with
    | [], _ => exact .nil
    | [t], _ => exact List.pairwise_singleton _ t

/-- Three numbers of which one is none: they are too few for the sort to give
up, so it fails. -/
theorem execute_orderBy_fails_iff_column :
    let keys : List SortKey := [⟨"x", .descending⟩]
    let q : Query (Fin 1) := .unary (.orderBy keys) (.relation 0)
    let s := Store.push .empty (.resolved (column [1.5, 0.0 / 0.0, 0.5]))
    (∃ e, s.executeWith StableSort.adaptive q = .error (.value e))
      ∧ ∃ e, (execute q s).value = .error (.value e) := by
  intro keys q s
  obtain ⟨hfails, hends, -, hsteady, hexecute, -⟩ :=
    execute_orderBy_fails_iff .adaptive s (.relation 0) keys
      (column [1.5, 0.0 / 0.0, 0.5]) rfl (by decide)
  have hvalue : (execute q s).value.toBool = false := by decide +kernel
  have hstuck := not_not.1 fun hnone => by
    obtain ⟨x, hx⟩ := hends.2 hnone
    rw [(s.follows_executeWith q .adaptive).eq_ok_iff.1 hx] at hvalue
    cases hvalue
  have hsize : (column [1.5, 0.0 / 0.0, 0.5]).tuples.size ≤ 20 := by
    decide +kernel
  exact ⟨hfails.2 ⟨hstuck, hsteady (Sorter.steady_adaptive hsize)⟩,
    hexecute.2 hstuck⟩

/-- A row with two numbers, which may be missing. -/
def rowXY (x y : Value) : Tuple := .ofPairs [("x", x), ("y", y)]

/-- A relation of floats, two in a row. -/
def columnsXY (rows : List (Float × Float)) : Resolved :=
  ⟨⟨[⟨"x", .required .float⟩, ⟨"y", .required .float⟩], by decide, by decide⟩,
    .ofList (rows.map fun (x, y) => rowXY (.float x) (.float y))⟩

/-- Rows of which the second and the sixth are incomparable, for their second
numbers; the others are almost in order. -/
def stuckXY : List (Float × Float) :=
  [(3.0, 0.0), (2.0, 0.0 / 0.0), (4.0, 0.0), (5.0, 0.0), (1.0, 0.0),
    (2.0, 0.0)]
    ++ [6.0, 7.0, 8.0, 9.0, 10.0, 11.0, 12.0, 13.0, 14.0, 15.0, 16.0, 17.0,
      18.0, 19.0, 20.0].map fun x => (x, 0.0)

/-- Whether an attempt has failed for values. -/
def failsOnValues : Attempt QueryError Resolved → Bool
  | .error (.value _) => true
  | _ => false

theorem exists_of_failsOnValues {result : Attempt QueryError Resolved}
    (h : failsOnValues result = true) : ∃ e, result = .error (.value e) := by
  unfold failsOnValues at h
  split at h
  · next e => exact ⟨e, rfl⟩
  · cases h

/-- Two rows are incomparable, and yet ordering does not fail: the sort gives
up. If the rows arrive the other way round, it fails for their values. -/
theorem not_execute_orderBy_fails_iff :
    let keys : List SortKey := [⟨"x", .ascending⟩, ⟨"y", .ascending⟩]
    let q : Query (Fin 1) := .unary (.orderBy keys) (.relation 0)
    let s := Store.push .empty (.resolved (columnsXY stuckXY))
    let s' := Store.push .empty (.resolved (columnsXY stuckXY.reverse))
    let rows := (columnsXY stuckXY).tuples.rows
    (∃ t ∈ rows, ∃ u ∈ rows, (t == u) = false ∧ t.Incomparable u keys)
      ∧ s.executeWith StableSort.adaptive q = .gaveUp
      ∧ ∃ e, s'.executeWith StableSort.adaptive q = .error (.value e) := by
  intro keys q s s' rows
  have hkeys : ∀ key ∈ keys, key.name ∈ (columnsXY stuckXY).header.names := by
    decide +kernel
  have hends : (s.executeWith StableSort.adaptive q).isGaveUp = true := by
    decide +kernel
  have hgaveUp := Attempt.isGaveUp_iff.1 hends
  have hfails : failsOnValues (s'.executeWith StableSort.adaptive q) = true := by
    decide +kernel
  refine ⟨Tuples.not_pairwise_comparable_iff.1 fun hcomparable => ?_,
    hgaveUp, exists_of_failsOnValues hfails⟩
  obtain ⟨x, hx⟩ :=
    (Resolved.orderWith_isOk_iff hkeys .adaptive).2 hcomparable
  rw [executeWith_orderBy rfl, hx] at hgaveUp
  cases hgaveUp

-- ============================================================= success

/-- Where ordering succeeds, the header stays, and the rows are the same
ones in the order of the keys: of two rows, the first compares as no greater
than the second, and rows that are equal on every key are listed as they
were. The rows need not fit the header, and the keys may repeat. Whichever
the sort, as long as it is a stable one that goes by comparisons alone, it
comes to the same relation. -/
theorem execute_orderBy_arranges (s : Store n) (p : Query (Fin n))
    (keys : List SortKey) (r : Resolved) (hp : (execute p s).value = .ok r) :
    Attempt.ofExcept (execute (.unary (.orderBy keys) p) s).value
        = r.orderWith .insertion keys
      ∧ ∀ (sort : StableSort) (x : Resolved),
          r.orderWith sort keys = .ok x →
          x.header = r.header
            ∧ x.tuples.rows.Perm r.tuples.rows
            ∧ x.tuples.rows.Pairwise (fun t u =>
                ∃ o, t.compareBy u keys = .ok o ∧ o ≠ .gt)
            ∧ (∀ t u, [t, u].Sublist r.tuples.rows →
                (∀ key ∈ keys,
                  (t.getD key.name).compare (u.getD key.name) = .ok .eq) →
                [t, u].Sublist x.tuples.rows)
            ∧ ∀ sort' : StableSort, r.orderWith sort' keys = .ok x := by
  constructor
  · rw [value_execute_orderBy hp]
    exact Resolved.orderWith_insertion.symm
  intro sort x hx
  obtain ⟨hkeys, hheader, hrows⟩ := (Resolved.orderWith_eq_ok_iff sort).1 hx
  refine ⟨hheader, hrows.perm, hrows.ascending, fun t u hsub hequal => ?_,
    fun sort' => ?_⟩
  · exact hrows.stable (Tuple.coherent_compareBy keys) r.tuples.nodup_rows hsub
      (Tuple.compareBy_eq_ok_eq_iff.2 hequal)
  · exact (Resolved.orderWith_eq_ok_iff sort').2 ⟨hkeys, hheader, hrows⟩

/-- Rows with zeros of both signs, and one with a greater number. -/
def zerosXY : Resolved :=
  ⟨⟨[⟨"x", .required .float⟩, ⟨"y", .optional .float⟩], nofun, by decide⟩,
    .ofList [rowXY (.float 0.0) .null, rowXY (.float (-0.0)) (.float 0.5),
      rowXY (.float 1.5) (.float 0.5)]⟩

/-- The zeros are equal as keys, so their rows stay as they are listed, in
whichever direction and by whichever sort they are ordered. -/
theorem execute_orderBy_arranges_zeros :
    let keys : List SortKey := [⟨"x", .descending⟩, ⟨"x", .ascending⟩]
    let q : Query (Fin 1) := .unary (.orderBy keys) (.relation 0)
    let s := Store.push .empty (.resolved zerosXY)
    ∃ x, (execute q s).value = .ok x
      ∧ x.tuples.rows.Perm zerosXY.tuples.rows
      ∧ [rowXY (.float 0.0) .null, rowXY (.float (-0.0)) (.float 0.5)].Sublist
          x.tuples.rows
      ∧ ∀ sort : StableSort, zerosXY.orderWith sort keys = .ok x := by
  intro keys q s
  obtain ⟨hrun, hany⟩ :=
    execute_orderBy_arranges s (.relation 0) keys zerosXY rfl
  have hends : (execute q s).value.toBool = true := by decide +kernel
  cases hx : (execute q s).value with
  | error e =>
      rw [hx] at hends
      cases hends
  | ok x =>
      obtain ⟨-, hperm, -, hstable, hsame⟩ :=
        hany .insertion x (hrun.symm.trans (Attempt.ofExcept_eq_ok_iff.2 hx))
      have hrows : zerosXY.tuples.rows
          = [rowXY (.float 0.0) .null, rowXY (.float (-0.0)) (.float 0.5),
              rowXY (.float 1.5) (.float 0.5)] :=
        Tuples.rows_ofList_of_distinct (by decide +kernel)
      have hzeros :
          Value.compare? (.float 0.0) (.float (-0.0)) = some .eq := by
        decide +kernel
      have hequal :
          Value.compare (.float 0.0) (.float (-0.0)) = .ok .eq := by
        rw [Value.compare, hzeros]
      refine ⟨x, rfl, hperm, hstable _ _ ?_ fun key hkey => ?_, hsame⟩
      · rw [hrows]
        exact List.prefix_append _ _ |>.sublist
      · rcases List.mem_pair.1 hkey with rfl | rfl
        · exact hequal
        · exact hequal

-- ========================================================= compositions

/-- Whether a result is a relation with rows equal to these, in this order. -/
def listsRows (rows : List Tuple) : Except QueryError Resolved → Bool
  | .ok r => r.tuples.rows == rows
  | .error _ => false

theorem exists_of_listsRows {rows : List Tuple}
    {result : Except QueryError Resolved} (h : listsRows rows result = true) :
    ∃ r, result = .ok r ∧ (r.tuples.rows == rows) = true := by
  cases result with
  | ok r => exact ⟨r, rfl, h⟩
  | error e => cases h

/-- Ordering by some keys, and the result by others, is ordering by the later
keys followed by the earlier ones, as soon as it succeeds. Then the single
ordering succeeds too, and comes to the same rows in the same order. The keys
may repeat, within a list and from one to the other, and each ordering may be
done by a stable sort of its own. -/
theorem execute_orderBy_orderBy (s : Store n) (p : Query (Fin n))
    (keys keys' : List SortKey) (r : Resolved)
    (hp : (execute p s).value = .ok r) :
    (∀ y, (execute (.unary (.orderBy keys') (.unary (.orderBy keys) p)) s).value
          = .ok y →
        (execute (.unary (.orderBy (keys' ++ keys)) p) s).value = .ok y)
      ∧ ∀ (sort sort' sort'' : StableSort) (x y : Resolved),
          r.orderWith sort keys = .ok x → x.orderWith sort' keys' = .ok y →
          r.orderWith sort'' (keys' ++ keys) = .ok y := by
  constructor
  · intro y hy
    rw [value_execute_unary, value_execute_orderBy hp] at hy
    rw [value_execute_orderBy hp, Resolved.orderBy_eq_ok_iff]
    obtain ⟨x, hx, hy⟩ := exists_of_bind_eq_ok hy
    exact Resolved.orderWith_append (Resolved.orderBy_eq_ok_iff.1 hx)
      (Resolved.orderBy_eq_ok_iff.1 hy) .insertion
  · intro sort sort' sort'' x y hx hy
    exact Resolved.orderWith_append hx hy sort''

/-- The zeros are equal as numbers, so the earlier order by the other
attribute shows in theirs. -/
theorem execute_orderBy_orderBy_zeros :
    let keys : List SortKey := [⟨"y", .descending⟩]
    let keys' : List SortKey := [⟨"x", .ascending⟩]
    let q : Query (Fin 1) :=
      .unary (.orderBy keys') (.unary (.orderBy keys) (.relation 0))
    let s := Store.push .empty (.resolved zerosXY)
    ∃ y, (execute q s).value = .ok y
      ∧ (execute (.unary (.orderBy (keys' ++ keys)) (.relation 0)) s).value
          = .ok y
      ∧ (y.tuples.rows == [rowXY (.float (-0.0)) (.float 0.5),
          rowXY (.float 0.0) .null, rowXY (.float 1.5) (.float 0.5)]) = true := by
  intro keys keys' q s
  have hlists : listsRows [rowXY (.float (-0.0)) (.float 0.5),
      rowXY (.float 0.0) .null, rowXY (.float 1.5) (.float 0.5)]
      (execute q s).value = true := by decide +kernel
  obtain ⟨y, hy, hrows⟩ := exists_of_listsRows hlists
  obtain ⟨hrun, -⟩ :=
    execute_orderBy_orderBy s (.relation 0) keys keys' zerosXY rfl
  exact ⟨y, hy, hrun y hy, hrows⟩

/-- Where ordering succeeds, rows can be chosen before it as well as after.
Choosing from the ordered relation succeeds exactly if choosing from the
relation itself does; then what is chosen can be ordered, and both ways come to
the same header and the same rows in the same order. If the choice fails, both
ways fail. The rows need not fit the header, and the two orderings may be done
by different stable sorts. -/
theorem execute_select_orderBy (s : Store n) (q : Query (Fin n))
    (keys : List SortKey) (p : Predicate) (r x : Resolved)
    (hr : (execute q s).value = .ok r)
    (hx : (execute (.unary (.orderBy keys) q) s).value = .ok x) :
    let result := fun query : Query (Fin n) => (execute query s).value
    let chosen := result (.unary (.select p) q)
    let chosenLast := result (.unary (.select p) (.unary (.orderBy keys) q))
    let chosenFirst := result (.unary (.orderBy keys) (.unary (.select p) q))
    ((∃ a, chosenLast = .ok a) ↔ ∃ b, chosen = .ok b)
      ∧ (∀ b, chosen = .ok b →
          ∃ c, chosenFirst = .ok c ∧ chosenLast = .ok c)
      ∧ (∀ e, chosen = .error e →
          (∃ e', chosenLast = .error e') ∧ ∃ e', chosenFirst = .error e')
      ∧ ∀ (sort : StableSort) (y : Resolved), r.orderWith sort keys = .ok y →
          ((∃ a, y.select p = .ok a) ↔ ∃ b, r.select p = .ok b)
            ∧ ∀ b, r.select p = .ok b → ∀ sort' : StableSort,
                ∃ c, b.orderWith sort' keys = .ok c ∧ y.select p = .ok c := by
  intro result chosen chosenLast chosenFirst
  have hchosen : chosen = r.select p := by
    show (execute _ s).value = _
    rw [value_execute_unary, hr]
    rfl
  have hlast : chosenLast = x.select p := by
    show (execute _ s).value = _
    rw [value_execute_unary, hx]
    rfl
  have hfirst : chosenFirst = (r.select p >>= Resolved.orderBy keys) := by
    rw [← hchosen]
    exact value_execute_unary s (.orderBy keys) (.unary (.select p) q)
  have hordered : r.orderWith StableSort.insertion keys = .ok x := by
    rw [value_execute_orderBy hr] at hx
    exact Resolved.orderBy_eq_ok_iff.1 hx
  obtain ⟨hends, hboth⟩ := Resolved.select_orderWith hordered p
  rw [hchosen, hlast, hfirst]
  refine ⟨hends, fun b hb => ?_, fun e he => ⟨?_, ?_⟩, fun sort y hy =>
    Resolved.select_orderWith hy p⟩
  · obtain ⟨c, hc, hxc⟩ := hboth b hb .insertion
    have hc : b.orderBy keys = .ok c := Resolved.orderBy_eq_ok_iff.2 hc
    exact ⟨c, by rw [hb]; exact hc, hxc⟩
  · cases hselect : x.select p with
    | error e' => exact ⟨e', rfl⟩
    | ok a =>
        obtain ⟨b, hb⟩ := hends.1 ⟨a, hselect⟩
        rw [he] at hb
        cases hb
  · exact ⟨e, by rw [he]; rfl⟩

/-- Of the rows with one half under the other attribute, the order puts the
later one first. -/
theorem execute_select_orderBy_zeros :
    let keys : List SortKey := [⟨"x", .descending⟩]
    let p : Predicate := .comparison .eq (.member (.attribute "y"))
      (.member (.literal (.float 0.5)))
    let q : Query (Fin 1) := .relation 0
    let s := Store.push .empty (.resolved zerosXY)
    ∃ c, (execute (.unary (.orderBy keys) (.unary (.select p) q)) s).value
          = .ok c
      ∧ (execute (.unary (.select p) (.unary (.orderBy keys) q)) s).value
          = .ok c
      ∧ (c.tuples.rows == [rowXY (.float 1.5) (.float 0.5),
          rowXY (.float (-0.0)) (.float 0.5)]) = true := by
  intro keys p q s
  have hordered : listsRows [rowXY (.float 1.5) (.float 0.5),
      rowXY (.float 0.0) .null, rowXY (.float (-0.0)) (.float 0.5)]
      (execute (.unary (.orderBy keys) q) s).value = true := by
    decide +kernel
  have hchosen : listsRows [rowXY (.float (-0.0)) (.float 0.5),
      rowXY (.float 1.5) (.float 0.5)]
      (execute (.unary (.select p) q) s).value = true := by decide +kernel
  have hlast : listsRows [rowXY (.float 1.5) (.float 0.5),
      rowXY (.float (-0.0)) (.float 0.5)]
      (execute (.unary (.select p) (.unary (.orderBy keys) q)) s).value
        = true := by decide +kernel
  obtain ⟨x, hx, -⟩ := exists_of_listsRows hordered
  obtain ⟨b, hb, -⟩ := exists_of_listsRows hchosen
  obtain ⟨c, hc, hrows⟩ := exists_of_listsRows hlast
  obtain ⟨-, hboth, -⟩ := execute_select_orderBy s q keys p zerosXY x rfl hx
  obtain ⟨c', hfirst, hsame⟩ := hboth b hb
  cases hsame.symm.trans hc
  exact ⟨c, hfirst, hc, hrows⟩

end RelAlgebra.Store
