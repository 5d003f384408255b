/-
Collections that are made from one another, step after step. The steps make
collections on a shelf, insert rows into them, combine two, or transform one by
a function, which may fail and which may remember things from call to call.

What the steps do is said twice, by the operations on collections and by
operations on plain lists of rows, which carry no proof that the rows are
distinct. A machine that knows nothing but the operations works with either, and
goes in lockstep with both, since the rows of a collection stand for it in
every operation. So the lists that it comes to are without repetitions.
-/
import RelAlgebra.Proofs.Tuples.SetAlgebra
import RelAlgebra.Proofs.Tuples.Transforms

namespace RelAlgebra.Tuples

-- ========================================================== operations

/-- The ways to make one set of two. -/
inductive Combination where
  | union
  | intersection
  | difference
  deriving DecidableEq, Repr

/-- The operations on sets, whatever represents them. -/
structure SetOperations (m : Type → Type) (γ : Type) where
  empty : γ
  /-- The set of the rows of a list. -/
  collect : List Tuple → γ
  /-- Inserts a row; also says whether it is new. -/
  add : γ → Tuple → Bool × γ
  combine : Combination → γ → γ → γ
  transform : Transform m → γ → m γ

namespace SetOperations

variable {m : Type → Type} [Monad m]

/-- The operations on collections. -/
def onCollections : SetOperations m Tuples where
  empty := Tuples.empty
  collect := ofList
  add := Tuples.add
  combine
    | .union => Tuples.union
    | .intersection => Tuples.intersection
    | .difference => Tuples.difference
  transform := Transform.apply

/-- The operations on lists of rows, with the order of the rows and the choice
between equal ones. -/
def onRows : SetOperations m (List Tuple) where
  empty := []
  collect := List.eraseDups
  add rows t :=
    if rows.any (· == t) then (false, rows) else (true, rows ++ [t])
  combine
    | .union => fun rows rows' =>
      rows ++ rows'.filter fun t => !rows.any (· == t)
    | .intersection => fun rows rows' =>
      rows.filter fun t => rows'.any (· == t)
    | .difference => fun rows rows' =>
      rows.filter fun t => !rows'.any (· == t)
  transform tr rows :=
    (fun outs => outs.flatten.eraseDups) <$> rows.mapM tr.outputs

/-- What represents a set here stands, seen by `view`, for a set there: every
operation gives the same on both sides. -/
structure Represents {γ δ : Type} (ops : SetOperations m γ)
    (ops' : SetOperations m δ) (view : γ → δ) : Prop where
  empty : view ops.empty = ops'.empty
  collect : ∀ rows, view (ops.collect rows) = ops'.collect rows
  add : ∀ c t, ops'.add (view c) t = Prod.map id view (ops.add c t)
  combine : ∀ op c d,
    view (ops.combine op c d) = ops'.combine op (view c) (view d)
  transform : ∀ tr c, ops'.transform tr (view c) = view <$> ops.transform tr c

/-- Collections stand for the lists of their rows. -/
theorem onCollections_represents [LawfulMonad m] :
    Represents (onCollections (m := m)) onRows Tuples.rows where
  empty := rfl
  collect := rows_ofList
  add ts t := by
    by_cases h : ts.contains t = true
    · have hadd : ts.add t = (false, ts) := add_eq_false_iff.2 (contains_iff.1 h)
      show (if ts.contains t then _ else _) = Prod.map id rows (ts.add t)
      rw [if_pos h, hadd]
      rfl
    · obtain ⟨hnew, hrows⟩ := add_appends_iff.2 fun hu => h (contains_iff.2 hu)
      show (if ts.contains t then _ else _) = Prod.map id rows (ts.add t)
      rw [if_neg h]
      exact Prod.ext hnew.symm hrows.symm
  combine op ts us := by
    cases op with
    | union => exact rows_union ts us
    | intersection => rfl
    | difference => rfl
  transform tr ts := by
    show _ = Tuples.rows <$> tr.apply ts
    rw [tr.apply_eq, Functor.map_map]
    simp only [rows_ofList]
    rfl

end SetOperations

-- =============================================================== steps

/-- Calls that may fail, and may remember things from one call to the next. -/
abbrev Calls (σ ε : Type) := ExceptT ε (StateM σ)

/-- One step; sets go by their places on the shelf. -/
inductive SetStep (m : Type → Type) where
  | new
  | collect (rows : List Tuple)
  | insert (i : Nat) (t : Tuple)
  | combine (op : Combination) (i j : Nat)
  | transform (tr : Transform m) (i : Nat)

/-- What a step answers. -/
inductive SetAnswer (ε : Type) where
  /-- A set was made and put behind the others. -/
  | made
  | inserted (isNew : Bool)
  /-- The function of a transform failed, and nothing was made. -/
  | failed (e : ε)

/-- Sets in the order in which they were made, and what the functions
remember. -/
structure Shelf (σ γ : Type) where
  memory : σ
  sets : List γ

namespace Shelf

variable {σ ε γ δ : Type}

def put (shelf : Shelf σ γ) (c : γ) : Shelf σ γ :=
  { shelf with sets := shelf.sets ++ [c] }

/-- The shelf with its sets seen by `view`. -/
def map (view : γ → δ) (shelf : Shelf σ γ) : Shelf σ δ :=
  ⟨shelf.memory, shelf.sets.map view⟩

/-- Puts the result of a transform on the shelf, if it has one. -/
def putResult (sets : List γ) :
    Except ε γ × σ → Option (SetAnswer ε) × Shelf σ γ
  | (.ok c, memory) => (some .made, ⟨memory, sets ++ [c]⟩)
  | (.error e, memory) => (some (.failed e), ⟨memory, sets⟩)

/-- Does one step. A step that uses a place where nothing stands answers
nothing and changes nothing. -/
def act (ops : SetOperations (Calls σ ε) γ) (shelf : Shelf σ γ) :
    SetStep (Calls σ ε) → Option (SetAnswer ε) × Shelf σ γ
  | .new => (some .made, shelf.put ops.empty)
  | .collect rows => (some .made, shelf.put (ops.collect rows))
  | .insert i t =>
    match shelf.sets[i]? with
    | some c =>
      let (isNew, c') := ops.add c t
      (some (.inserted isNew), { shelf with sets := shelf.sets.set i c' })
    | none => (none, shelf)
  | .combine op i j =>
    match shelf.sets[i]?, shelf.sets[j]? with
    | some c, some d => (some .made, shelf.put (ops.combine op c d))
    | _, _ => (none, shelf)
  | .transform tr i =>
    match shelf.sets[i]? with
    | some c => putResult shelf.sets ((ops.transform tr c).run shelf.memory)
    | none => (none, shelf)

/-- Does steps in order, with all their answers. -/
def run (ops : SetOperations (Calls σ ε) γ) (shelf : Shelf σ γ) :
    List (SetStep (Calls σ ε)) → List (Option (SetAnswer ε)) × Shelf σ γ
  | [] => ([], shelf)
  | step :: rest =>
    let (answer, shelf') := act ops shelf step
    let (answers, last) := run ops shelf' rest
    (answer :: answers, last)

-- ============================================================ lockstep

section Lockstep

variable {ops : SetOperations (Calls σ ε) γ}
  {ops' : SetOperations (Calls σ ε) δ} {view : γ → δ}

/-- Viewing a shelf with one more collection is viewing both. -/
theorem map_put (shelf : Shelf σ γ) (c : γ) :
    (shelf.put c).map view = (shelf.map view).put (view c) := by
  unfold map put
  rw [List.map_append]
  rfl

/-- And so it is with what a transform leaves. -/
theorem putResult_map (sets : List γ) (result : Except ε γ × σ) :
    putResult (sets.map view) (Prod.map (Except.map view) id result)
      = Prod.map id (map view) (putResult sets result) := by
  obtain ⟨result, memory⟩ := result
  cases result with
  | error e => rfl
  | ok c =>
      show (_, (⟨memory, sets.map view ++ [view c]⟩ : Shelf σ δ)) = _
      rw [← List.map_singleton, ← List.map_append]
      rfl

/-- What a call gives, seen by `view`, with the memory left as it is. -/
theorem run_map_calls (x : Calls σ ε γ) (memory : σ) :
    (view <$> x).run memory
      = Prod.map (Except.map view) id (x.run memory) := by
  rw [ExceptT.run_map]
  rfl

/-- A step does the same on both sides. -/
theorem act_map (h : ops.Represents ops' view) (shelf : Shelf σ γ)
    (step : SetStep (Calls σ ε)) :
    act ops' (shelf.map view) step
      = Prod.map id (map view) (act ops shelf step) := by
  have hget : ∀ i, (shelf.map view).sets[i]? = shelf.sets[i]?.map view :=
    fun i => List.getElem?_map
  cases step with
  | new =>
      show (_, (shelf.map view).put ops'.empty) = _
      rw [← h.empty, ← map_put]
      rfl
  | collect rows =>
      show (_, (shelf.map view).put (ops'.collect rows)) = _
      rw [← h.collect, ← map_put]
      rfl
  | insert i t =>
      unfold act
      simp only [hget]
      cases shelf.sets[i]? with
      | none => rfl
      | some c =>
          simp only [Option.map_some, h.add]
          show (_, (⟨_, (shelf.sets.map view).set i _⟩ : Shelf σ δ)) = _
          rw [Prod.map_snd, ← List.map_set]
          rfl
  | combine op i j =>
      unfold act
      simp only [hget]
      cases shelf.sets[i]? with
      | none => rfl
      | some c =>
          cases shelf.sets[j]? with
          | none => rfl
          | some d =>
              show (_, (shelf.map view).put (ops'.combine op _ _)) = _
              rw [← h.combine, ← map_put]
              rfl
  | transform tr i =>
      unfold act
      simp only [hget]
      cases shelf.sets[i]? with
      | none => rfl
      | some c =>
          show putResult (shelf.sets.map view)
            ((ops'.transform tr (view c)).run shelf.memory) = _
          rw [h.transform, run_map_calls, putResult_map]

/-- So do the steps of a run, one after the other. -/
theorem run_map (h : ops.Represents ops' view) (shelf : Shelf σ γ)
    (steps : List (SetStep (Calls σ ε))) :
    run ops' (shelf.map view) steps
      = Prod.map id (map view) (run ops shelf steps) := by
  induction steps generalizing shelf with
  | nil => rfl
  | cons step rest ih =>
      simp only [run, act_map h]
      simp only [Prod.map_fst, Prod.map_snd, id, ih]
      rfl

end Lockstep

-- ======================================================== distinct rows

/-- From an empty shelf, what is made of lists of rows is what is made of
collections. -/
theorem run_onRows (memory : σ) (steps : List (SetStep (Calls σ ε))) :
    run .onRows ⟨memory, []⟩ steps
      = Prod.map id (map Tuples.rows)
        (run .onCollections ⟨memory, []⟩ steps) :=
  run_map SetOperations.onCollections_represents ⟨memory, []⟩ steps

/-- So rows are never listed twice, though nothing in the operations on lists
says so. -/
theorem distinct_of_run (memory : σ) (steps : List (SetStep (Calls σ ε))) :
    ∀ rows ∈ (run .onRows ⟨memory, []⟩ steps).2.sets,
      rows.Pairwise fun t u => (t == u) = false := by
  intro rows hrows
  rw [run_onRows] at hrows
  obtain ⟨ts, -, rfl⟩ := List.mem_map.1 hrows
  exact ts.distinct

-- A row that is collected twice is listed once. A test that counts its calls
-- and fails in the second makes nothing, and its count is kept.
example :
    let one : Tuple := .ofPairs [("n", .integer 1)]
    let two : Tuple := .ofPairs [("n", .integer 2)]
    let test : Tuple → Calls Nat String Bool := fun _ => do
      let calls ← getModify (· + 1)
      if calls = 1 then throw "again" else return true
    let last := (run .onRows ⟨0, []⟩ [.collect [one, two, one],
      .transform (.filter test) 0, .insert 0 one]).2
    last.memory = 2 ∧ last.sets.map List.length = [2] := by
  decide

end Shelf

-- ================================================================ laws

/-- Collections are ordered sets. Whatever is made of them step by step is
what the steps say for lists of rows, and lists no row twice; an insertion is
refused exactly if an equal row is there; and the set operations obey the laws
of sets, rows in order. -/
theorem orderedSet_laws :
    (∀ (σ ε : Type) (memory : σ) (steps : List (SetStep (Calls σ ε))),
      Shelf.run .onRows ⟨memory, []⟩ steps
          = Prod.map id (Shelf.map rows)
            (Shelf.run .onCollections ⟨memory, []⟩ steps)
        ∧ ∀ rows ∈ (Shelf.run .onRows ⟨memory, []⟩ steps).2.sets,
          rows.Pairwise fun t u => (t == u) = false)
    ∧ (∀ (ts : Tuples) (t : Tuple),
      (ts.add t = (false, ts) ↔ ∃ u ∈ ts.rows, (u == t) = true)
        ∧ ((ts.add t).1 = true ∧ (ts.add t).2.rows = ts.rows ++ [t]
          ↔ ¬∃ u ∈ ts.rows, (u == t) = true))
    ∧ ∀ ts us : Tuples,
      (ts.union us).rows
          = ts.rows ++ us.rows.filter (fun t => !ts.rows.any (· == t))
        ∧ (ts.intersection us).rows
          = ts.rows.filter (fun t => us.rows.any (· == t))
        ∧ (ts.difference us).rows
          = ts.rows.filter (fun t => !us.rows.any (· == t))
        ∧ ts.size = (ts.difference us).size + (ts.intersection us).size
        ∧ (ts.union us).size = ts.size + (us.difference ts).size
        ∧ ts.intersection us = ts.difference (ts.difference us)
        ∧ ∀ vs : Tuples,
          ts.difference (us.union vs) = (ts.difference us).difference vs := by
  refine ⟨fun σ ε memory steps => ?_, fun ts t => ?_, fun ts us => ?_⟩
  · exact ⟨Shelf.run_onRows memory steps, Shelf.distinct_of_run memory steps⟩
  · exact ⟨add_eq_false_iff, add_appends_iff⟩
  · exact ⟨rows_union ts us, rfl, rfl,
      size_difference_add_size_intersection ts us, size_union ts us,
      intersection_eq_difference ts us, difference_union ts us⟩

end RelAlgebra.Tuples
