/-
The heap does what the store says. A store lies on a heap if its cells are
the first ones there; behind them are those of relations that are being
read and of temporaries, and only the locks of such cells are held. On such
a heap, and if calls may go deep enough, reading a relation by its address
meets no fault, answers what reading it from the store answers, leaves the
cells that the store is left with, and gives back every lock.

What carries the proof is that a query reads only relations that were made
before: while the cell of a relation is locked, only the store before it is
read.
-/
import RelAlgebra.Proofs.Heap.Plans
import RelAlgebra.Proofs.Query.Answers
import RelAlgebra.Proofs.Store.Cells

namespace RelAlgebra

variable {n : Nat} {α β : Type}

-- ====================================================== implementation

/-- Whether the computation on the heap does what the run does to the
store, if it may go deep enough, and without a fault. -/
def Implements (M : Nat → HeapRun α) (m : Run (Store n) α) : Prop :=
  ∀ s, Deep fun depth => ∀ (rest : List (Cell Nat)) (held : List Nat),
    (∀ a ∈ held, n ≤ a ∧ a < n + rest.length) →
    M depth ⟨s.cells ++ rest, held⟩
      = .ok ((m s).value, ⟨(m s).state.cells ++ rest, held⟩)

namespace Implements

theorem pure (a : α) :
    Implements (n := n) (fun _ => Pure.pure a) (Pure.pure a) :=
  fun _ => .of_forall fun _ _ _ _ => rfl

/-- Steps are implemented one after the other. -/
theorem bind {M : Nat → HeapRun α} {F : Nat → α → HeapRun β}
    {m : Run (Store n) α} {f : α → Run (Store n) β} (hm : Implements M m)
    (hf : ∀ a, Implements (fun depth => F depth a) (f a)) :
    Implements (fun depth => M depth >>= F depth) (m >>= f) := by
  intro s
  refine ((hm s).and (hf (m s).value (m s).state)).mono
    fun depth hboth rest held hheld => ?_
  exact (HeapRun.bind_of_ok (hboth.1 rest held hheld)).trans
    (hboth.2 rest held hheld)

/-- A call is given one level less. -/
theorem succ {M M' : Nat → HeapRun α} {m : Run (Store n) α}
    (hm : Implements M m) (h : ∀ depth, M' (depth + 1) = M depth) :
    Implements M' m :=
  fun s => (hm s).succ fun depth hrun => by rwa [h]

/-- Reports do not matter. -/
theorem node {M : Nat → HeapExecution Resolved} {operator : String}
    {body : Execution (Store n) Resolved}
    (hbody : Implements (fun depth => (M depth).run) body.run) :
    Implements (fun depth => (M depth).run)
      (Execution.node operator body).run :=
  hbody

/-- A failure ends the execution on either side. -/
theorem bindExecution {M : Nat → HeapExecution α}
    {F : Nat → α → HeapExecution β} {m : Execution (Store n) α}
    {f : α → Execution (Store n) β}
    (hm : Implements (fun depth => (M depth).run) m.run)
    (hf : ∀ a, Implements (fun depth => (F depth a).run) (f a).run) :
    Implements (fun depth => (M depth >>= F depth).run) (m >>= f).run := by
  refine Implements.bind hm fun result => ?_
  cases result with
  | ok a => exact hf a
  | error e => exact Implements.pure (Except.error e)

/-- A store that has the heap to itself. -/
theorem alone {M : Nat → HeapRun α} {m : Run (Store n) α}
    (hm : Implements M m) (s : Store n) :
    Deep fun depth => M depth ⟨s.cells, []⟩
      = .ok ((m s).value, ⟨(m s).state.cells, []⟩) :=
  (hm s).mono fun depth hrun => by
    simpa only [List.append_nil] using hrun [] [] nofun

end Implements

-- ============================================================= queries

namespace Heap

/-- What has no effects is the same on the machine. -/
theorem implements_attempt (result : Except QueryError α) :
    Implements (n := n) (fun _ => (attempt result).run)
      (Execution.attempt result).run :=
  Implements.pure result

/-- Combining two results runs the plan in cells of its own, which are freed
again. -/
theorem implements_combine (op : BinaryOperator) (a b : Resolved) :
    Implements (n := n) (fun depth => (combine (execute depth) op a b).run)
      (op.run a b).run := by
  intro s
  have hvalue : ((op.run a b).run s).value = op.apply a b :=
    (op.answers_run a b (I := fun _ => True) s trivial).1
  have hstate : ((op.run a b).run s).state = s := (op.quiet_run a b s).1
  refine (combine_eq op a b).mono fun depth hcombine rest held hheld => ?_
  rw [hvalue, hstate]
  exact hcombine _ fun x hx => by simpa using (hheld x hx).2

/-- Running a query on the heap does what running it over the store does,
if reading a relation does. -/
theorem implements_execute
    (hresolve : ∀ i : Fin n,
      Implements (fun depth => resolve depth i) (Store.resolve i))
    (q : Query (Fin n)) :
    Implements (fun depth => (execute depth (QueryTree.map Fin.val q)).run)
      (Store.execute q) := by
  induction q with
  | relation i =>
      exact Implements.node ((Implements.bind (hresolve i)
        fun o => Implements.pure (o.mapError QueryError.relation)).succ
          fun depth => rfl)
  | unary op q ih =>
      exact Implements.node ((Implements.bindExecution ih
        fun a => implements_attempt (op.apply a)).succ fun depth => rfl)
  | binary op l r ihl ihr =>
      exact Implements.node ((Implements.bindExecution ihl fun a =>
        Implements.bindExecution ihr fun b => implements_combine op a b).succ
          fun depth => rfl)

-- ============================================================= reading

/-- A cell that holds an outcome is not run. -/
theorem evaluate_ofOutcome {execute : Query Nat → HeapExecution Resolved}
    {h : Heap} (a : Nat) (o : Outcome) :
    evaluate execute a (.ofOutcome o) h = .ok (o, h) := by
  cases o <;> rfl

/-- The outcome of a query is left in the cell that it was run for, which
is not touched before. -/
theorem evaluate_pending {execute : Query Nat → HeapExecution Resolved}
    {q : Query Nat} {result : Except QueryError Resolved}
    {before before' after : List (Cell Nat)} {cell : Cell Nat}
    {held : List Nat}
    (hrun : (execute q).run ⟨before ++ cell :: after, held⟩
      = .ok (result, ⟨before' ++ cell :: after, held⟩)) :
    evaluate execute before'.length (.pending q) ⟨before ++ cell :: after, held⟩
      = .ok (result.mapError .ofQuery,
          ⟨before' ++ .ofOutcome (result.mapError .ofQuery) :: after, held⟩) := by
  exact (HeapRun.bind_of_ok hrun).trans
    (HeapRun.bind_of_ok (store_length before' after cell _))

section Push

variable {earlier : Store n} {cell : Cell (Fin n)} {rest : List (Cell Nat)}

theorem cells_push_append (earlier : Store n) (cell : Cell (Fin n))
    (rest : List (Cell Nat)) :
    (Store.push earlier cell).cells ++ rest
      = earlier.cells ++ cell.map Fin.val :: rest :=
  List.append_assoc _ _ _

theorem getElem?_cells_push_append :
    (earlier.cells ++ cell.map Fin.val :: rest)[n]?
      = some (cell.map Fin.val) := by
  rw [List.getElem?_append_right (by simp)]
  simp

/-- The last cell of a store is one of those behind the store before it. -/
theorem behind_of_behind_push {cell : Cell Nat} {held : List Nat}
    (hheld : ∀ a ∈ held, n + 1 ≤ a ∧ a < n + 1 + rest.length) :
    ∀ a ∈ held, n ≤ a ∧ a < n + (cell :: rest).length := by
  intro a ha
  have hbounds := hheld a ha
  rw [List.length_cons]
  omega

/-- The lock of the last cell is free, as the relations that hold locks were
made later. -/
theorem not_mem_of_behind_push {held : List Nat}
    (hheld : ∀ a ∈ held, n + 1 ≤ a ∧ a < n + 1 + rest.length) : n ∉ held := by
  intro hn
  have hbounds := hheld n hn
  omega

end Push

/-- Reading the last relation if it was evaluated before. -/
theorem implements_resolve_last_ofOutcome (earlier : Store n) (o : Outcome) :
    let s := Store.push earlier (.ofOutcome o)
    let r := Store.resolve (Fin.last n) s
    Deep fun depth => ∀ (rest : List (Cell Nat)) (held : List Nat),
      (∀ a ∈ held, n + 1 ≤ a ∧ a < n + 1 + rest.length) →
      resolve depth n ⟨s.cells ++ rest, held⟩
        = .ok (r.value, ⟨r.state.cells ++ rest, held⟩) := by
  refine .of_succ fun depth rest held hheld => ?_
  obtain ⟨hvalue, hstate⟩ := Store.resolve_push_ofOutcome earlier o
  rw [hvalue, hstate, cells_push_append]
  refine resolve_of_evaluate (not_mem_of_behind_push hheld)
    getElem?_cells_push_append ?_
  rw [Cell.map_ofOutcome, evaluate_ofOutcome]

/-- Reading the last relation if it is pending. While its query is run, its
lock is one of those that are held behind the store before it. -/
theorem implements_resolve_last_pending {q : Query (Fin n)}
    (hexecute : Implements
      (fun depth => (execute depth (QueryTree.map Fin.val q)).run)
      (Store.execute q)) (earlier : Store n) :
    let s := Store.push earlier (.pending q)
    let r := Store.resolve (Fin.last n) s
    Deep fun depth => ∀ (rest : List (Cell Nat)) (held : List Nat),
      (∀ a ∈ held, n + 1 ≤ a ∧ a < n + 1 + rest.length) →
      resolve depth n ⟨s.cells ++ rest, held⟩
        = .ok (r.value, ⟨r.state.cells ++ rest, held⟩) := by
  refine (hexecute earlier).succ fun depth hrun rest held hheld => ?_
  have hunder : ∀ a ∈ n :: held, n ≤ a
      ∧ a < n + ((Cell.pending q).map Fin.val :: rest).length := by
    intro a ha
    rcases List.mem_cons.1 ha with rfl | ha
    · simp
    · exact behind_of_behind_push hheld a ha
  have hevaluate := evaluate_pending (hrun _ (n :: held) hunder)
  rw [Store.length_cells] at hevaluate
  rw [Store.resolve_push_last, Cell.read_pending, cells_push_append,
    cells_push_append, Cell.map_ofOutcome]
  exact resolve_of_evaluate (not_mem_of_behind_push hheld)
    getElem?_cells_push_append hevaluate

/-- Reading a relation on the heap does what reading it from the store
does. The induction is on the number of cells. -/
theorem implements_resolve : ∀ {n : Nat} (i : Fin n),
    Implements (fun depth => resolve depth i) (Store.resolve i) := by
  intro n
  induction n with
  | zero => intro i; exact i.elim0
  | succ n ih =>
      intro i s
      cases s with
      | push earlier cell =>
        induction i using Fin.lastCases with
        | cast i =>
            refine (ih i earlier).mono fun depth hrun rest held hheld => ?_
            rw [Store.resolve_push_castSucc, cells_push_append,
              cells_push_append]
            exact hrun _ held (behind_of_behind_push hheld)
        | last =>
            rcases cell.eq_pending_or_ofOutcome with ⟨q, rfl⟩ | ⟨o, rfl⟩
            · exact implements_resolve_last_pending
                (implements_execute ih q) earlier
            · exact implements_resolve_last_ofOutcome earlier o

-- A heap on which no store lies: reading a relation that reads itself asks
-- for its lock again.
example : resolve 3 0 ⟨[.pending (.relation 0)], []⟩ = .error (.deadlock 0) :=
  rfl

end Heap

end RelAlgebra
