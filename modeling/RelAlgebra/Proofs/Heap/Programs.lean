/-
Programs on the heap. A machine runs programs on a heap, with names for
addresses, and knows nothing of stores: it makes a relation by adding a cell
with a query over whatever addresses its names stand for. Yet, given
calls may go deep enough, it meets no fault in any program: it goes in
lockstep with the session of the same program, so the relations of every
heap that it comes to are those of a store.
-/
import RelAlgebra.Proofs.Heap.Refinement
import RelAlgebra.Proofs.Store.Locking

namespace RelAlgebra

-- ============================================================ machines

/-- A heap with names for its relations, the latest first. -/
structure Machine where
  heap : Heap
  names : List (String × Nat)

namespace Machine

/-- The machine without relations. -/
def empty : Machine := ⟨⟨[], []⟩, []⟩

/-- The relation of that name. -/
def find? (m : Machine) (name : String) : Option Nat := m.names.lookup name

/-- Whether two relations are equal: one and the same, or with equal
outcomes. -/
def equal (depth a b : Nat) : HeapRun Bool :=
  if a = b then
    return true
  else do
    let x ← Heap.resolve depth a
    let y ← Heap.resolve depth b
    return Outcome.agree x y

/-- The hash data of a relation. -/
def digest (finish : Digest.Finish) (depth a : Nat) : HeapRun Digest := do
  return Outcome.digest finish (← Heap.resolve depth a)

/-- Answers a read. -/
def read (finish : Digest.Finish) (depth : Nat) : Read Nat → HeapRun Answer
  | .resolve a => do return .outcome (← Heap.resolve depth a)
  | .header a => do
    return .header ((← Heap.resolve depth a).map Resolved.header)
  | .tuples a => do
    return .tuples ((← Heap.resolve depth a).map Resolved.tuples)
  | .equal a b => do return .verdict (← equal depth a b)
  | .digest a => do return .digest (← digest finish depth a)
  | .execute q => do return .result (← (Heap.execute depth q).run)

/-- Does one step of a program. -/
def step (finish : Digest.Finish) (depth : Nat) (m : Machine) :
    Step → Except Fault (Option Answer × Machine)
  | .define name made =>
    match made.mapRelations? m.find? with
    | some made =>
      let heap := { m.heap with cells := m.heap.cells ++ [made.cell.1] }
      .ok (some .named, ⟨heap, (name, m.heap.cells.length) :: m.names⟩)
    | none => .ok (none, m)
  | .clone name source =>
    match m.find? source with
    | some a => .ok (some .named, { m with names := (name, a) :: m.names })
    | none => .ok (none, m)
  | .read r =>
    match r.mapRelations? m.find? with
    | some r => do
      let (answer, heap) ← read finish depth r m.heap
      return (some answer, { m with heap })
    | none => .ok (none, m)

/-- Does the steps of a program in order. -/
def run (finish : Digest.Finish) (depth : Nat) :
    Machine → List Step → Except Fault (List (Option Answer) × Machine)
  | m, [] => .ok ([], m)
  | m, s :: rest => do
    let (answer, m) ← step finish depth m s
    let (answers, m) ← run finish depth m rest
    return (answer :: answers, m)

end Machine

-- =============================================================== names

section Renaming

variable {ρ ρ' ρ'' : Type} (f : ρ → Option ρ') (g : ρ' → ρ'')

/-- Names can be looked up first and renamed then. -/
theorem Construction.mapRelations?_map (made : Construction ρ) :
    made.mapRelations? (fun r => (f r).map g)
      = (made.mapRelations? f).map (Construction.map g) := by
  cases made with
  | ofQuery q =>
      simp only [mapRelations?, QueryTree.mapLeaves?_map]
      cases q.mapLeaves? f <;> rfl
  | _ => rfl

/-- A construction over renamed relations makes the renamed cell. -/
theorem Construction.cell_map (made : Construction ρ') :
    (made.map g).cell.1 = made.cell.1.map g := by
  cases made with
  | ofRows attributes rows =>
      simp only [map, cell, literal]
      cases Header.ofAttributes attributes <;> rfl
  | ofMaps attributes rows =>
      simp only [map, cell, literal]
      cases Header.ofAttributes attributes <;> rfl
  | ofResolved r => rfl
  | ofQuery q => rfl

/-- The read with every relation renamed. -/
def Read.map : Read ρ' → Read ρ''
  | .resolve r => .resolve (g r)
  | .header r => .header (g r)
  | .tuples r => .tuples (g r)
  | .equal a b => .equal (g a) (g b)
  | .digest r => .digest (g r)
  | .execute q => .execute (QueryTree.map g q)

theorem Read.mapRelations?_map (r : Read ρ) :
    r.mapRelations? (fun r => (f r).map g)
      = (r.mapRelations? f).map (Read.map g) := by
  cases r with
  | resolve r => simp only [mapRelations?]; cases f r <;> rfl
  | header r => simp only [mapRelations?]; cases f r <;> rfl
  | tuples r => simp only [mapRelations?]; cases f r <;> rfl
  | equal a b => simp only [mapRelations?]; cases f a <;> cases f b <;> rfl
  | digest r => simp only [mapRelations?]; cases f r <;> rfl
  | execute q =>
      simp only [mapRelations?, QueryTree.mapLeaves?_map]
      cases q.mapLeaves? f <;> rfl

end Renaming

-- =============================================================== reads

variable {n : Nat}

/-- Comparing two cells: the same address is not read, other cells are read
one after the other. -/
theorem Machine.implements_equal (i j : Fin n) :
    Implements (fun depth => equal depth i j) (Store.equal i j) := by
  unfold equal Store.equal
  by_cases h : i = j
  · simp only [h, ↓reduceIte]
    exact .pure true
  · simp only [h, Fin.val_inj, ↓reduceIte]
    refine (Heap.implements_resolve i).bind fun a =>
      (Heap.implements_resolve j).bind fun b => ?_
    cases a <;> cases b <;> exact .pure _

/-- The hash data of a cell are those of what it resolves to. -/
theorem Machine.implements_digest (finish : Digest.Finish) (i : Fin n) :
    Implements (fun depth => digest finish depth i)
      (Store.digest finish i) := by
  refine (Heap.implements_resolve i).bind fun o => ?_
  cases o <;> exact .pure _

/-- The machine reads as the store does. -/
theorem Machine.implements_read (finish : Digest.Finish) (r : Read (Fin n)) :
    Implements (fun depth => read finish depth (r.map Fin.val))
      (r.run finish) := by
  have hresolve := Heap.implements_resolve (n := n)
  cases r with
  | resolve i => exact (hresolve i).bind fun o => .pure _
  | header i => exact (hresolve i).bind fun o => .pure _
  | tuples i => exact (hresolve i).bind fun o => .pure _
  | equal i j => exact (implements_equal i j).bind fun b => .pure _
  | digest i => exact (implements_digest finish i).bind fun d => .pure _
  | execute q =>
      exact (Heap.implements_execute hresolve q).bind fun o => .pure _

-- ============================================================ sessions

namespace Session

/-- The machine that is in the same state, with all locks free. -/
def machine (s : Session) : Machine :=
  ⟨⟨s.store.cells, []⟩, s.names.map fun (name, i) => (name, i.val)⟩

theorem find?_machine (s : Session) :
    s.machine.find? = fun name => (s.find? name).map Fin.val := by
  funext name
  obtain ⟨size, store, names⟩ := s
  show (names.map fun (name, i) => (name, i.val)).lookup name
    = (names.lookup name).map Fin.val
  induction names with
  | nil => rfl
  | cons entry rest ih =>
      obtain ⟨other, i⟩ := entry
      rw [List.map_cons, List.lookup_cons, List.lookup_cons, ih]
      cases name == other <;> rfl

/-- Making a relation adds its cell at the end of the heap. -/
theorem machine_define (s : Session) (name : String)
    (made : Construction (Fin s.size)) :
    (s.define name made).state.machine
      = ⟨⟨s.machine.heap.cells ++ [(made.map Fin.val).cell.1], []⟩,
          (name, s.machine.heap.cells.length) :: s.machine.names⟩ := by
  obtain ⟨size, store, names⟩ := s
  rw [Construction.cell_map]
  simp [machine, define, Store.cells, Function.comp_def]

/-- The machine does a step as the session does. -/
theorem step_machine (finish : Digest.Finish) (s : Session) (step : Step) :
    Deep fun depth => Machine.step finish depth s.machine step
      = .ok ((Session.step finish step s).value,
          (Session.step finish step s).state.machine) := by
  cases step with
  | define name made =>
      have hmade : made.mapRelations? s.machine.find?
          = (made.mapRelations? s.find?).map (Construction.map Fin.val) := by
        rw [find?_machine]
        exact Construction.mapRelations?_map s.find? Fin.val made
      refine .of_forall fun depth => ?_
      cases h : made.mapRelations? s.find? with
      | none => simp [Machine.step, Session.step, hmade, h]
      | some made =>
          simp only [Machine.step, Session.step, hmade, h, Option.map_some,
            machine_define]
          rfl
  | clone name source =>
      have hsource : s.machine.find? source = (s.find? source).map Fin.val :=
        congrFun (find?_machine s) source
      refine .of_forall fun depth => ?_
      cases h : s.find? source with
      | none => simp [Machine.step, Session.step, hsource, h]
      | some i =>
          simp only [Machine.step, Session.step, hsource, h, Option.map_some]
          rfl
  | read r =>
      have hr : r.mapRelations? s.machine.find?
          = (r.mapRelations? s.find?).map (Read.map Fin.val) := by
        rw [find?_machine]
        exact Read.mapRelations?_map s.find? Fin.val r
      cases h : r.mapRelations? s.find? with
      | none =>
          exact .of_forall fun depth => by
            simp [Machine.step, Session.step, ask, hr, h]
      | some r =>
          refine ((Machine.implements_read finish r).alone s.store).mono
            fun depth hread => ?_
          have hread' : Machine.read finish depth (r.map Fin.val) s.machine.heap
              = .ok ((r.run finish s.store).value,
                  ⟨(r.run finish s.store).state.cells, []⟩) := hread
          simp only [Machine.step, Session.step, ask, hr, h, Option.map_some]
          rw [hread']
          rfl

/-- The machine does a program as the session does. -/
theorem run_machine (finish : Digest.Finish) (program : List Step) :
    ∀ s : Session, Deep fun depth => Machine.run finish depth s.machine program
      = .ok ((Session.run finish program s).value,
          (Session.run finish program s).state.machine) := by
  induction program with
  | nil => exact fun s => .of_forall fun _ => rfl
  | cons step rest ih =>
      intro s
      refine ((step_machine finish s step).and
        (ih (Session.step finish step s).state)).mono fun depth hboth => ?_
      show (Machine.step finish depth s.machine step >>= fun r =>
        Machine.run finish depth r.2 rest >>= fun r' =>
          pure (r.1 :: r'.1, r'.2)) = _
      rw [hboth.1]
      show (Machine.run finish depth _ rest >>= fun r' => _) = _
      rw [hboth.2]
      rfl

-- =============================================================== locks

/-- Whether the events give back all locks that they take, and take none
that is held. -/
def Unlocks (_ : Session) (es : List Event) (_ : Session) : Prop :=
  locksAfter? [] es = some []

theorem sequential_unlocks : Sequential Unlocks where
  nothing _ := rfl
  note _ _ he := Balanced.note (n := 0) he [] nofun
  append h h' := (locksAfter?_append h _).trans h'

/-- No step leaves a cell locked. -/
theorem unlocks_step (finish : Digest.Finish) (step : Step) :
    Run.Does Unlocks (Session.step finish step) := by
  intro s
  cases step with
  | define name made =>
      simp only [Session.step]
      cases made.mapRelations? s.find? with
      | none => exact sequential_unlocks.nothing s
      | some made => exact sequential_unlocks.notes s made.isNote_cell
  | clone name source =>
      simp only [Session.step]
      cases s.find? source <;> exact sequential_unlocks.nothing s
  | read r =>
      simp only [Session.step, ask]
      cases r.mapRelations? s.find? with
      | none => exact sequential_unlocks.nothing s
      | some r =>
          have hrun := Run.Does.bind Store.sequential_balances
            (r.does_run Store.sequential_balances Store.balances_resolve finish)
            fun a => Run.Does.pure Store.sequential_balances (some a)
          exact hrun s.store [] nofun

/-- No program does. -/
theorem unlocks_run (finish : Digest.Finish) (program : List Step) :
    Run.Does Unlocks (Session.run finish program) := by
  induction program with
  | nil => exact Run.Does.pure sequential_unlocks _
  | cons step rest ih =>
      exact Run.Does.bind sequential_unlocks (unlocks_step finish step)
        fun _ => Run.Does.bind sequential_unlocks ih
          fun _ => Run.Does.pure sequential_unlocks _

/-- Resolution takes no lock that is held, and ends. The machine, which
would fault, does every program as the session does, if calls may go deep
enough, and after it reads every relation, also one that no name stands for
any more, with all locks free afterwards. Nor does a session report that a
lock is taken that is held. -/
theorem run_without_fault (finish : Digest.Finish) (program : List Step) :
    let s := after finish program
    Deep (fun depth => Machine.run finish depth .empty program
        = .ok ((run finish program empty).value, s.machine))
      ∧ (∀ i : Fin s.size, Deep fun depth =>
          Heap.resolve depth i s.machine.heap
            = .ok ((Store.resolve i s.store).value,
                ⟨(Store.resolve i s.store).state.cells, []⟩))
      ∧ locksAfter? [] (run finish program empty).events = some []
      ∧ ∀ i : Fin s.size,
          locksAfter? [] (Store.resolve i s.store).events = some [] := by
  intro s
  refine ⟨run_machine finish program empty, fun i => ?_, ?_, fun i => ?_⟩
  · exact (Heap.implements_resolve i).alone s.store
  · exact unlocks_run finish program empty
  · exact Store.balances_resolve i s.store [] nofun

end Session

end RelAlgebra
