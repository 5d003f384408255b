/-
Plans on the heap. The plan of an operator is a query over temporary cells
that hold results, and nobody else knows their addresses: their locks are
free, so running the plan meets no fault, gives what the plan is worth, and
leaves the heap as it was.
-/
import RelAlgebra.Proofs.Heap.Machine

namespace RelAlgebra

-- =============================================================== depth

/-- Whether `P` holds of all depths from some depth on. -/
def Deep (P : Nat → Prop) : Prop := ∃ bound, ∀ depth, bound ≤ depth → P depth

namespace Deep

variable {P Q S : Nat → Prop}

theorem of_forall (h : ∀ depth, P depth) : Deep P := ⟨0, fun depth _ => h depth⟩

/-- Of two depths the larger one serves both. -/
theorem and (hP : Deep P) (hQ : Deep Q) : Deep fun depth => P depth ∧ Q depth := by
  obtain ⟨bound, hP⟩ := hP
  obtain ⟨bound', hQ⟩ := hQ
  refine ⟨max bound bound', fun depth hdepth => ⟨hP depth ?_, hQ depth ?_⟩⟩
  · omega
  · omega

/-- What follows at each depth follows at all that are large enough. -/
theorem mono (hP : Deep P) (h : ∀ depth, P depth → Q depth) : Deep Q := by
  obtain ⟨bound, hP⟩ := hP
  exact ⟨bound, fun depth hdepth => h depth (hP depth hdepth)⟩

/-- What is called may be given one level less. -/
theorem succ (hP : Deep P) (h : ∀ depth, P depth → Q (depth + 1)) : Deep Q := by
  obtain ⟨bound, hP⟩ := hP
  refine ⟨bound + 1, fun depth hdepth => ?_⟩
  obtain ⟨depth, rfl⟩ := Nat.exists_eq_add_of_le' hdepth
  exact h (depth + bound) (hP (depth + bound) (by omega))

theorem of_succ (h : ∀ depth, P (depth + 1)) : Deep P :=
  (of_forall fun _ => trivial : Deep fun _ => True).succ fun depth _ => h depth

end Deep

-- ======================================================== computations

section Computations

variable {α β : Type} {h h' : Heap} {a : α}

/-- A machine that does not fault goes on. -/
theorem HeapRun.bind_of_ok {x : HeapRun α} {f : α → HeapRun β}
    (hx : x h = .ok (a, h')) : (x >>= f) h = f a h' := by
  show (x h >>= fun r => f r.1 r.2) = _
  rw [hx]
  rfl

theorem HeapExecution.bind_of_ok {x : HeapExecution α}
    {f : α → HeapExecution β} (hx : x.run h = .ok (.ok a, h')) :
    (x >>= f).run h = (f a).run h' :=
  HeapRun.bind_of_ok hx

/-- A query that fails stops, and the machine with it, without a fault. -/
theorem HeapExecution.bind_of_error {x : HeapExecution α}
    {f : α → HeapExecution β} {e : QueryError}
    (hx : x.run h = .ok (.error e, h')) :
    (x >>= f).run h = .ok (.error e, h') :=
  HeapRun.bind_of_ok hx

theorem HeapExecution.lift_of_ok {x : HeapRun α} (hx : x h = .ok (a, h')) :
    (liftM x : HeapExecution α).run h = .ok (.ok a, h') := by
  show (x h >>= fun r => pure (Except.ok r.1, r.2)) = _
  rw [hx]
  rfl

end Computations

namespace Heap

variable {h : Heap} {cells : List (Cell Nat)} {held : List Nat}

/-- A lock that is free can be taken. -/
theorem acquire_of_not_mem {a : Nat} (ha : a ∉ held) :
    acquire a ⟨cells, held⟩ = .ok ((), ⟨cells, a :: held⟩) := by
  simp [acquire, ha]

theorem release_cons (a : Nat) :
    release a ⟨cells, a :: held⟩ = .ok ((), ⟨cells, held⟩) := by
  simp [release]

theorem load_of_getElem? {a : Nat} {cell : Cell Nat}
    (ha : h.cells[a]? = some cell) : load a h = .ok (cell, h) := by
  simp [load, ha]

/-- The cell behind the first ones is replaced, and no other. -/
theorem store_length (before after : List (Cell Nat)) (cell cell' : Cell Nat) :
    store before.length cell' ⟨before ++ cell :: after, held⟩
      = .ok ((), ⟨before ++ cell' :: after, held⟩) := by
  simp [store]

/-- Reading a cell takes its lock, evaluates it under the lock and gives
the lock back. -/
theorem resolve_of_evaluate {depth a : Nat} {cell : Cell Nat} {o : Outcome}
    {cells' : List (Cell Nat)} (ha : a ∉ held)
    (hcell : cells[a]? = some cell)
    (hevaluate : evaluate (execute depth) a cell ⟨cells, a :: held⟩
      = .ok (o, ⟨cells', a :: held⟩)) :
    resolve (depth + 1) a ⟨cells, held⟩ = .ok (o, ⟨cells', held⟩) := by
  have hload : load a ⟨cells, a :: held⟩ = .ok (cell, ⟨cells, a :: held⟩) :=
    load_of_getElem? hcell
  rw [resolve, HeapRun.bind_of_ok (acquire_of_not_mem ha),
    HeapRun.bind_of_ok hload, HeapRun.bind_of_ok hevaluate,
    HeapRun.bind_of_ok (release_cons a)]
  rfl

/-- A result is read from its cell, if the lock is free. -/
theorem resolve_of_resolved (r : Resolved) :
    Deep fun depth => ∀ a h, h.cells[a]? = some (.resolved r) → a ∉ h.held →
      resolve depth a h = .ok (.ok r, h) :=
  Deep.of_succ fun _ _ _ hcell ha => resolve_of_evaluate ha hcell rfl

/-- A leaf of a query resolves its cell. -/
theorem execute_relation_of_resolve {depth a : Nat} {h' : Heap} {o : Outcome}
    (hresolve : resolve depth a h = .ok (o, h')) :
    (execute (depth + 1) (.relation a)).run h
      = .ok (o.mapError .relation, h') := by
  rw [execute]
  exact HeapRun.bind_of_ok hresolve

-- =============================================================== plans

/-- Whether a query over addresses is the plan, each leaf at an address
that holds it and whose lock is free. -/
inductive Realizes (h : Heap) : Query Nat → Plan → Prop
  | relation {a : Nat} {r : Resolved} (hcell : h.cells[a]? = some (.resolved r))
    (ha : a ∉ h.held) : Realizes h (.relation a) (.relation r)
  | unary (op : UnaryOperator) {q : Query Nat} {plan : Plan}
    (hq : Realizes h q plan) : Realizes h (.unary op q) (.unary op plan)
  | binary (op : BasicOperator) {l r : Query Nat} {left right : Plan}
    (hl : Realizes h l left) (hr : Realizes h r right) :
    Realizes h (.binary (.basic op) l r) (.binary op left right)

/-- Running a plan gives what it is worth and leaves the heap as it is. -/
theorem execute_of_realizes (plan : Plan) :
    Deep fun depth => ∀ q h, Realizes h q plan →
      (execute depth q).run h = .ok (Plan.eval plan, h) := by
  induction plan with
  | relation r =>
      refine (resolve_of_resolved r).succ fun depth hresolve q h hq => ?_
      cases hq with
      | relation hcell ha =>
          exact execute_relation_of_resolve (hresolve _ h hcell ha)
  | unary op plan ih =>
      refine ih.succ fun depth ih q h hq => ?_
      cases hq with
      | unary _ hq =>
          have hrun := ih _ h hq
          rw [execute]
          show _ = Except.ok (Plan.eval plan >>= fun a => op.apply a, h)
          cases hplan : Plan.eval plan with
          | ok a => rw [HeapExecution.bind_of_ok (hplan ▸ hrun)]; rfl
          | error e => rw [HeapExecution.bind_of_error (hplan ▸ hrun)]; rfl
  | binary op left right ihl ihr =>
      refine (ihl.and ihr).succ fun depth ih q h hq => ?_
      cases hq with
      | binary _ hl hr =>
          have hleft := ih.1 _ h hl
          have hright := ih.2 _ h hr
          rw [execute]
          show _ = Except.ok (Plan.eval left >>= fun a =>
            Plan.eval right >>= fun b => op.apply a b, h)
          cases hplan : Plan.eval left with
          | error e => rw [HeapExecution.bind_of_error (hplan ▸ hleft)]; rfl
          | ok a =>
              rw [HeapExecution.bind_of_ok (hplan ▸ hleft)]
              cases hplan : Plan.eval right with
              | error e => rw [HeapExecution.bind_of_error (hplan ▸ hright)]; rfl
              | ok b => rw [HeapExecution.bind_of_ok (hplan ▸ hright)]; rfl

-- ========================================================= temporaries

/-- The heap with new cells that hold these results. -/
def extend (h : Heap) (results : List Resolved) : Heap :=
  ⟨h.cells ++ results.map .resolved, h.held⟩

/-- A further result gets the next free address. -/
theorem allocate_extend (h : Heap) (results : List Resolved) (r : Resolved) :
    allocate r (h.extend results)
      = .ok (h.cells.length + results.length, h.extend (results ++ [r])) := by
  simp [allocate, extend]

/-- Two results get the next two addresses. -/
theorem allocate_two {α : Type} (h : Heap) (a b : Resolved)
    (f : Nat → Nat → HeapRun α) :
    (allocate a >>= fun left => allocate b >>= fun right => f left right) h
      = f (h.cells.length + 0) (h.cells.length + 1) (h.extend [a, b]) := by
  have hfirst : allocate a h = .ok (h.cells.length + 0, h.extend [a]) := rfl
  rw [HeapRun.bind_of_ok hfirst, HeapRun.bind_of_ok (allocate_extend h [a] b)]
  rfl

/-- What was allocated on the way is gone in the end. -/
theorem freeing_of_extend {α : Type} {run : HeapRun α} {a : α}
    {results : List Resolved} (hrun : run h = .ok (a, h.extend results)) :
    freeing run h = .ok (a, h) := by
  show (run h >>= fun r => pure (r.1, Heap.mk _ _)) = _
  rw [hrun]
  show Except.ok (a, Heap.mk ((h.cells ++ _).take h.cells.length) h.held) = _
  rw [List.take_left' rfl]

section Operators

variable (hheld : ∀ a ∈ h.held, a < h.cells.length)

include hheld

/-- Nobody holds the lock of a new cell. -/
theorem realizes_relation {results : List Resolved} {k : Nat} {r : Resolved}
    (hcell : results[k]? = some r) :
    Realizes (h.extend results) (.relation (h.cells.length + k))
      (.relation r) := by
  refine .relation ?_ fun ha => ?_
  · show (h.cells ++ results.map Cell.resolved)[h.cells.length + k]? = _
    rw [List.getElem?_append_right (by omega), Nat.add_sub_cancel_left,
      List.getElem?_map, hcell]
    rfl
  · exact absurd (hheld _ ha) (by omega)

/-- The plan of a semi join is over two new cells. -/
theorem exists_semiJoin (kind : SemiJoinKind) (a b : Resolved) :
    ∃ q results, semiJoin kind a b h = .ok (q, h.extend results)
      ∧ Realizes (h.extend results) q (kind.plan a b) := by
  have hfirst {r r' : Resolved} : Realizes (h.extend [r, r'])
      (.relation (h.cells.length + 0)) (.relation r) :=
    realizes_relation hheld rfl
  have hsecond {r r' : Resolved} : Realizes (h.extend [r, r'])
      (.relation (h.cells.length + 1)) (.relation r') :=
    realizes_relation hheld rfl
  cases kind with
  | left =>
      refine ⟨_, [a, b], allocate_two h a b _, ?_⟩
      exact .unary _ (.binary _ hfirst hsecond)
  | right =>
      refine ⟨_, [b, a], allocate_two h b a _, ?_⟩
      exact .unary _ (.binary _ hfirst hsecond)
  | anti =>
      refine ⟨_, [a, b], allocate_two h a b _, ?_⟩
      exact .binary _ hfirst (.unary _ (.binary _ hfirst hsecond))

/-- A division runs the plan of the candidates over the new cells, puts
what comes of it into a third one, and runs the plan of the quotient. -/
theorem exists_divideAt {depth : Nat} {a b : Resolved}
    (hcandidates : ∀ q h, Realizes h q (Plan.candidates a b) →
      (execute depth q).run h = .ok (Plan.eval (Plan.candidates a b), h))
    (hquotient : ∀ c, Plan.eval (Plan.candidates a b) = .ok c →
      ∀ q h, Realizes h q (Plan.quotient c a b) →
        (execute depth q).run h = .ok (Plan.eval (Plan.quotient c a b), h)) :
    ∃ results,
      (divideAt (execute depth) a b (h.cells.length + 0)
          (h.cells.length + 1)).run (h.extend [a, b])
        = .ok (do
            let c ← Plan.eval (Plan.candidates a b)
            Plan.eval (Plan.quotient c a b), h.extend results) := by
  have hleft : Realizes (h.extend [a, b])
      (.relation (h.cells.length + 0)) (.relation a) :=
    realizes_relation hheld rfl
  have hrun := hcandidates _ _ (.unary (.project (Plan.quotientNames a b)) hleft)
  unfold divideAt
  cases hc : Plan.eval (Plan.candidates a b) with
  | error e =>
      rw [hc] at hrun
      exact ⟨_, HeapExecution.bind_of_error hrun⟩
  | ok c =>
      rw [hc] at hrun
      have hleft : Realizes (h.extend [a, b, c])
          (.relation (h.cells.length + 0)) (.relation a) :=
        realizes_relation hheld rfl
      have hright : Realizes (h.extend [a, b, c])
          (.relation (h.cells.length + 1)) (.relation b) :=
        realizes_relation hheld rfl
      have hthird : Realizes (h.extend [a, b, c])
          (.relation (h.cells.length + 2)) (.relation c) :=
        realizes_relation hheld rfl
      refine ⟨[a, b, c], ?_⟩
      rw [HeapExecution.bind_of_ok hrun, HeapExecution.bind_of_ok
        (HeapExecution.lift_of_ok (allocate_extend h [a, b] c))]
      exact hquotient c hc _ _ (.binary _ hthird (.unary _ (.binary _
        (.unary _ (.binary _ hthird hright)) hleft)))

end Operators

/-- Combining two results gives what the operator makes of them, and leaves
the heap as it is: the temporary cells are freed. -/
theorem combine_eq (op : BinaryOperator) (a b : Resolved) :
    Deep fun depth => ∀ h : Heap, (∀ x ∈ h.held, x < h.cells.length) →
      (combine (execute depth) op a b).run h = .ok (op.apply a b, h) := by
  cases op with
  | basic op => exact .of_forall fun depth h _ => rfl
  | divide =>
      have hquotient : Deep fun depth => ∀ c,
          Plan.eval (Plan.candidates a b) = .ok c →
          ∀ q h, Realizes h q (Plan.quotient c a b) →
            (execute depth q).run h = .ok (Plan.eval (Plan.quotient c a b), h) := by
        cases hc : Plan.eval (Plan.candidates a b) with
        | error e => exact .of_forall fun depth c hc => by cases hc
        | ok c =>
            refine (execute_of_realizes (Plan.quotient c a b)).mono ?_
            rintro depth hplan _ ⟨⟩
            exact hplan
      refine ((execute_of_realizes (Plan.candidates a b)).and hquotient).mono
        fun depth hplans h hheld => ?_
      unfold combine BinaryOperator.apply
      cases a.header.requireSuperset b.header with
      | error e => rfl
      | ok u =>
          obtain ⟨results, hrun⟩ := exists_divideAt hheld hplans.1 hplans.2
          exact freeing_of_extend ((allocate_two h a b _).trans hrun)
  | semiJoin kind =>
      refine (execute_of_realizes (kind.plan a b)).mono fun depth hplan h hheld => ?_
      obtain ⟨q, results, hquery, hrealizes⟩ := exists_semiJoin hheld kind a b
      have hrun : (semiJoin kind a b >>= fun q => (execute depth q).run) h
          = .ok (Plan.eval (kind.plan a b), h.extend results) := by
        rw [HeapRun.bind_of_ok hquery]
        exact hplan q _ hrealizes
      exact freeing_of_extend hrun

end Heap

end RelAlgebra
