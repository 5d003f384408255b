/-
Runs in which everything is done once. `RunsOnce` relates a query to a
result and to reports in which every leaf is read once, every operator ends
once, with rows, and the plan of an operator is run once between its
operands and its end, on their results. A query that comes to rows has been
run so: there is no second run of an operand, also where a plan uses it
more than once.
-/
import RelAlgebra.Proofs.Query.Conduct

namespace RelAlgebra

open Execution (ending exists_of_run_bind_eq_ok run_node)

-- =============================================================== trees

/-- The reports of a tree that came to a result, each node run once, given
what operators report on their operands and what reading a leaf reports. -/
inductive QueryTree.RunsOnce {β ρ : Type} (name : β → String)
    (inside : β → Resolved → Resolved → Resolved → List Event → Prop)
    (reading : ρ → Resolved → List Event → Prop) :
    QueryTree β ρ → Resolved → List Event → Prop
  | relation {i : ρ} {r : Resolved} {es : List Event} (h : reading i r es) :
    RunsOnce name inside reading (.relation i) r
      (es ++ [ending "relation" (.ok r)])
  | unary {op : UnaryOperator} {q : QueryTree β ρ} {a r : Resolved}
    {es : List Event} (h : RunsOnce name inside reading q a es)
    (hop : op.apply a = .ok r) :
    RunsOnce name inside reading (.unary op q) r
      (es ++ [ending op.name (.ok r)])
  | binary {op : β} {left right : QueryTree β ρ} {a b r : Resolved}
    {es es' es'' : List Event} (hl : RunsOnce name inside reading left a es)
    (hr : RunsOnce name inside reading right b es')
    (hop : inside op a b r es'') :
    RunsOnce name inside reading (.binary op left right) r
      (es ++ (es' ++ es'') ++ [ending (name op) (.ok r)])

/-- Running once does not depend on how the leaves are named. -/
theorem QueryTree.RunsOnce.map {β ρ ρ' : Type} {name : β → String}
    {inside : β → Resolved → Resolved → Resolved → List Event → Prop}
    {reading : ρ' → Resolved → List Event → Prop} {f : ρ → ρ'}
    {q : QueryTree β ρ} {r : Resolved} {es : List Event}
    (h : RunsOnce name inside (fun i => reading (f i)) q r es) :
    RunsOnce name inside reading (q.map f) r es := by
  induction h with
  | relation h => exact .relation h
  | unary _ hop ih => exact .unary ih hop
  | binary _ _ hop ihl ihr => exact .binary ihl ihr hop

/-- The property is kept. -/
def Keeps {σ : Type} (I : σ → Prop) (s : σ) (_ : List Event) (s' : σ) : Prop :=
  I s → I s'

theorem sequential_keeps {σ : Type} (I : σ → Prop) : Sequential (Keeps I) where
  nothing _ := id
  note _ _ _ := id
  append h h' hs := h' (h hs)

section Trees

variable {β ρ σ : Type} {I : σ → Prop} {name : β → String}
  {run : β → Resolved → Resolved → Execution σ Resolved}
  {read : ρ → Execution σ Resolved}
  {inside : β → Resolved → Resolved → Resolved → List Event → Prop}
  {reading : ρ → Resolved → List Event → Prop}

/-- A tree that comes to rows has run once, if its leaves have been read
once and its operators have run once where they came to rows. -/
theorem QueryTree.runsOnce_runWith
    (hquiet : ∀ op l r, Run.Does Quiet (run op l r).run)
    (hop : ∀ op l r s a, ((run op l r).run s).value = .ok a →
      inside op l r a ((run op l r).run s).events)
    {q : QueryTree β ρ}
    (hkeeps : ∀ i ∈ q.leaves, Run.Does (Keeps I) (read i).run)
    (hread : ∀ i ∈ q.leaves, ∀ s a, I s → ((read i).run s).value = .ok a →
      reading i a ((read i).run s).events) :
    ∀ {s a}, I s → ((q.runWith name run read).run s).value = .ok a →
      RunsOnce name inside reading q a
        ((q.runWith name run read).run s).events := by
  induction q with
  | relation i =>
      intro s a hs h
      have hvalue : ((read i).run s).value = .ok a := h
      rw [runWith, run_node, hvalue]
      exact .relation (hread i (List.mem_singleton.2 rfl) s a hs hvalue)
  | unary op q ih =>
      intro s a hs h
      obtain ⟨b, hq, hop, hrun⟩ := exists_of_run_bind_eq_ok h
      have hb := ih hkeeps hread hs hq
      rw [runWith, run_node, hrun]
      show RunsOnce _ _ _ _ _ ((_ ++ []) ++ _)
      rw [List.append_nil]
      exact .unary hb hop
  | binary op l r ihl ihr =>
      intro s a hs h
      have hkeepsl : Run.Does (Keeps I) (l.runWith name run read).run :=
        QueryTree.does_runWith (sequential_keeps I)
          (fun op l r => (hquiet op l r).of_quiet (sequential_keeps I))
          fun i hi => hkeeps i (List.mem_append_left _ hi)
      obtain ⟨b, hl, h, hrun⟩ := exists_of_run_bind_eq_ok h
      obtain ⟨c, hr, h, hrun'⟩ := exists_of_run_bind_eq_ok h
      have hb := ihl (fun i hi => hkeeps i (List.mem_append_left _ hi))
        (fun i hi => hread i (List.mem_append_left _ hi)) hs hl
      have hc := ihr (fun i hi => hkeeps i (List.mem_append_right _ hi))
        (fun i hi => hread i (List.mem_append_right _ hi)) (hkeepsl s hs) hr
      rw [runWith, run_node, hrun, hrun']
      exact .binary hb hc (hop op b c _ a h)

end Trees

-- ============================================================= queries

/-- The reports of a plan that ran once. -/
def Plan.RunsOnce (plan : Plan) (r : Resolved) (es : List Event) : Prop :=
  QueryTree.RunsOnce BasicOperator.name
    (fun op a b r es => op.apply a b = .ok r ∧ es = [])
    (fun a r es => a = r ∧ es = [.cacheHit]) plan r es

/-- What an operator reports on two results between running its operands
and its end: nothing but the plans that define it, each run once. -/
def BinaryOperator.RunsOnce (op : BinaryOperator) (a b r : Resolved)
    (es : List Event) : Prop :=
  match op with
  | .basic op => op.apply a b = .ok r ∧ es = []
  | .divide => ∃ candidates es₁ es₂,
    (Plan.candidates a b).RunsOnce candidates es₁
      ∧ (Plan.quotient candidates a b).RunsOnce r es₂ ∧ es = es₁ ++ es₂
  | .semiJoin kind => (kind.plan a b).RunsOnce r es

variable {ρ σ : Type}

/-- A plan that succeeds has run each of its operators once. -/
theorem Plan.runsOnce_run {plan : Plan} {s : σ} {r : Resolved}
    (h : ((plan.run : Execution σ Resolved).run s).value = .ok r) :
    plan.RunsOnce r ((plan.run : Execution σ Resolved).run s).events := by
  refine QueryTree.runsOnce_runWith (I := fun _ => True) ?_ ?_ ?_ ?_ trivial h
  · exact fun _ _ _ => Execution.does_attempt sequential_quiet _
  · exact fun op l r s a ha => ⟨ha, rfl⟩
  · exact fun _ _ _ => id
  · exact fun l _ s a _ ha => ⟨Except.ok.inj ha, rfl⟩

/-- And so has an operator that runs plans. -/
theorem BinaryOperator.runsOnce_run {op : BinaryOperator} {a b r : Resolved}
    {s : σ} (h : ((op.run a b : Execution σ Resolved).run s).value = .ok r) :
    op.RunsOnce a b r ((op.run a b : Execution σ Resolved).run s).events := by
  cases op with
  | basic op => exact ⟨h, rfl⟩
  | divide =>
      obtain ⟨_, -, h, hcheck⟩ := exists_of_run_bind_eq_ok h
      obtain ⟨candidates, hcandidates, h, hrun⟩ := exists_of_run_bind_eq_ok h
      have hfirst := Plan.runsOnce_run hcandidates
      have hsecond := Plan.runsOnce_run h
      refine ⟨candidates, _, _, hfirst, hsecond, ?_⟩
      exact (congrArg Ended.events hcheck).trans (congrArg Ended.events hrun)
  | semiJoin kind => exact Plan.runsOnce_run h

/-- The reports of a query that ran once, given what reading a leaf
reports. -/
abbrev Query.RunsOnce (reading : ρ → Resolved → List Event → Prop)
    (q : Query ρ) (r : Resolved) (es : List Event) : Prop :=
  QueryTree.RunsOnce BinaryOperator.name BinaryOperator.RunsOnce reading q r es

/-- A query that comes to rows has run once, if the leaves that it read
have been read once. -/
theorem Query.runsOnce_run {I : σ → Prop}
    {read : ρ → Run σ (Except RelationError Resolved)}
    {reading : ρ → Resolved → List Event → Prop} {q : Query ρ}
    (hkeeps : ∀ i ∈ q.leaves, Run.Does (Keeps I) (read i))
    (hread : ∀ i ∈ q.leaves, ∀ s a, I s → (read i s).value = .ok a →
      reading i a (read i s).events)
    {s : σ} {r : Resolved} (hs : I s)
    (h : ((Query.run read q).run s).value = .ok r) :
    Query.RunsOnce reading q r ((Query.run read q).run s).events := by
  refine QueryTree.runsOnce_runWith (fun op l r => op.quiet_run l r)
    (fun op l r s a => BinaryOperator.runsOnce_run) ?_ ?_ hs h
  · intro i hi
    exact Run.Does.bind (sequential_keeps I) (hkeeps i hi)
      fun _ => Run.Does.pure (sequential_keeps I) _
  · intro i hi s a hs ha
    show reading i a ((read i s).events ++ [])
    rw [List.append_nil]
    exact hread i hi s a hs (eq_ok_of_mapError_eq_ok ha)

end RelAlgebra
