/-
What runs do to the state and report on the way. A relation between the
state before a run, its events and the state after is sequential if it
allows a run to do nothing, to note how an operator ended, and to do one
allowed thing after another. Running a query does what such a relation
allows as soon as reading its leaves does, as operators only make notes.
-/
import RelAlgebra.Execution

namespace RelAlgebra

-- ============================================================== events

/-- Whether the event tells how an operator or the building of rows ended,
and not that something is read or run. -/
def Event.IsNote : Event → Prop
  | .acquired _ => False
  | .released _ => False
  | .started _ => False
  | _ => True

-- ================================================================ runs

section Runs

variable {σ α β : Type} {R : σ → List Event → σ → Prop}

/-- Whether the relation allows to do nothing, to make notes, and to do
one thing after another. -/
structure Sequential (R : σ → List Event → σ → Prop) : Prop where
  nothing : ∀ s, R s [] s
  note : ∀ s e, e.IsNote → R s [e] s
  append : ∀ {s s' s'' : σ} {es es' : List Event},
    R s es s' → R s' es' s'' → R s (es ++ es') s''

namespace Sequential

/-- Nothing but notes is like doing nothing, note by note. -/
theorem notes (hR : Sequential R) (s : σ) {es : List Event}
    (hes : ∀ e ∈ es, e.IsNote) : R s es s := by
  induction es with
  | nil => exact hR.nothing s
  | cons e rest ih =>
      have hrest : R s rest s := ih fun e he => hes e (List.mem_cons_of_mem _ he)
      exact hR.append (hR.note s e (hes e (List.mem_cons_self ..))) hrest

end Sequential

/-- The state stays as it is, and only notes are made. -/
def Quiet (s : σ) (es : List Event) (s' : σ) : Prop :=
  s' = s ∧ ∀ e ∈ es, e.IsNote

theorem sequential_quiet : Sequential (Quiet : σ → List Event → σ → Prop) where
  nothing _ := ⟨rfl, nofun⟩
  note _ _ he := ⟨rfl, fun _ hmem => List.mem_singleton.1 hmem ▸ he⟩
  append h h' := by
    refine ⟨h'.1.trans h.1, fun e he => ?_⟩
    rcases List.mem_append.1 he with he | he
    · exact h.2 e he
    · exact h'.2 e he

/-- From every state, the run does what the relation allows. -/
def Run.Does (R : σ → List Event → σ → Prop) (m : Run σ α) : Prop :=
  ∀ s, R s (m s).events (m s).state

namespace Run.Does

/-- What is quiet does whatever can be put together. -/
theorem of_quiet (hR : Sequential R) {m : Run σ α} (h : Run.Does Quiet m) :
    Run.Does R m := by
  intro s
  obtain ⟨hstate, hnotes⟩ := h s
  rw [hstate]
  exact hR.notes s hnotes

theorem pure (hR : Sequential R) (a : α) :
    Run.Does R (Pure.pure a : Run σ α) :=
  hR.nothing

/-- Two steps do what each of them does, one after the other. -/
theorem bind (hR : Sequential R) {m : Run σ α} {f : α → Run σ β}
    (hm : Run.Does R m) (hf : ∀ a, Run.Does R (f a)) :
    Run.Does R (m >>= f) :=
  fun s => hR.append (hm s) (hf _ _)

end Run.Does

end Runs

-- ========================================================== executions

section Results

variable {ε ε' α β : Type} {x : Except ε α}

theorem eq_ok_of_mapError_eq_ok {f : ε → ε'} {a : α}
    (h : x.mapError f = .ok a) : x = .ok a := by
  cases x with
  | ok b => cases h; rfl
  | error e => cases h

theorem exists_of_bind_eq_ok {f : α → Except ε β} {b : β}
    (h : x >>= f = .ok b) : ∃ a, x = .ok a ∧ f a = .ok b := by
  cases x with
  | ok a => exact ⟨a, rfl, h⟩
  | error e => cases h

end Results

namespace Execution

variable {σ α β : Type} {R : σ → List Event → σ → Prop}

/-- What follows a step with this result. -/
def afterwards (f : α → Execution σ β) (result : Except QueryError α) :
    Run σ (Except QueryError β) :=
  ExceptT.bindCont f result

/-- The second step starts where the first one stopped, and reports
behind it. -/
theorem run_bind (x : Execution σ α) (f : α → Execution σ β) (s : σ) :
    (x >>= f).run s
      = ⟨(afterwards f (x.run s).value (x.run s).state).value,
          (afterwards f (x.run s).value (x.run s).state).state,
          (x.run s).events
            ++ (afterwards f (x.run s).value (x.run s).state).events⟩ :=
  rfl

/-- A step that succeeds is followed by the next. -/
theorem run_bind_of_ok {x : Execution σ α} {f : α → Execution σ β} {s : σ}
    {a : α} (h : (x.run s).value = .ok a) :
    (x >>= f).run s
      = let next := (f a).run (x.run s).state
        ⟨next.value, next.state, (x.run s).events ++ next.events⟩ := by
  rw [run_bind, h]
  rfl

/-- A step that fails is the last one. -/
theorem run_bind_of_error {x : Execution σ α} {f : α → Execution σ β} {s : σ}
    {e : QueryError} (h : (x.run s).value = .error e) :
    (x >>= f).run s = ⟨.error e, (x.run s).state, (x.run s).events⟩ := by
  rw [run_bind, h]
  show Ended.mk _ _ (_ ++ []) = _
  rw [List.append_nil]
  rfl

/-- Two steps that succeed together each succeed. -/
theorem exists_of_run_bind_eq_ok {x : Execution σ α} {f : α → Execution σ β}
    {s : σ} {b : β} (h : ((x >>= f).run s).value = .ok b) :
    ∃ a, (x.run s).value = .ok a
      ∧ ((f a).run (x.run s).state).value = .ok b
      ∧ (x >>= f).run s = ⟨.ok b, ((f a).run (x.run s).state).state,
          (x.run s).events ++ ((f a).run (x.run s).state).events⟩ := by
  cases hx : (x.run s).value with
  | ok a =>
      rw [run_bind_of_ok hx] at h ⊢
      exact ⟨a, rfl, h, congrArg (fun v => Ended.mk v _ _) h⟩
  | error e =>
      rw [run_bind_of_error hx] at h
      cases h

/-- A node reports how it ended, behind whatever happened inside. -/
theorem run_node (operator : String) (body : Execution σ Resolved) (s : σ) :
    (node operator body).run s
      = ⟨(body.run s).value, (body.run s).state,
          (body.run s).events ++ [ending operator (body.run s).value]⟩ :=
  rfl

theorem isNote_ending (operator : String)
    (result : Except QueryError Resolved) :
    (ending operator result).IsNote := by
  cases result <;> exact trivial

theorem does_attempt (hR : Sequential R) (result : Except QueryError α) :
    Run.Does R (attempt result : Execution σ α).run :=
  Run.Does.pure hR result

theorem does_bind (hR : Sequential R) {x : Execution σ α}
    {f : α → Execution σ β} (hx : Run.Does R x.run)
    (hf : ∀ a, Run.Does R (f a).run) : Run.Does R (x >>= f).run := by
  intro s
  cases h : (x.run s).value with
  | ok a =>
      rw [run_bind_of_ok h]
      exact hR.append (hx s) (hf a _)
  | error e =>
      rw [run_bind_of_error h]
      exact hx s

/-- A node adds its note. -/
theorem does_node (hR : Sequential R) (operator : String)
    {body : Execution σ Resolved} (hbody : Run.Does R body.run) :
    Run.Does R (node operator body).run := by
  intro s
  rw [run_node]
  exact hR.append (hbody s) (hR.note _ _ (isNote_ending _ _))

end Execution

open Execution

-- ============================================================= queries

section Trees

variable {β ρ σ : Type} {R : σ → List Event → σ → Prop} {name : β → String}
  {run : β → Resolved → Resolved → Execution σ Resolved}
  {read : ρ → Execution σ Resolved}

/-- Running a tree does what is allowed, if reading its leaves and running
its operators does. -/
theorem QueryTree.does_runWith (hR : Sequential R)
    (hop : ∀ op l r, Run.Does R (run op l r).run) {q : QueryTree β ρ}
    (hread : ∀ i ∈ q.leaves, Run.Does R (read i).run) :
    Run.Does R (q.runWith name run read).run := by
  induction q with
  | relation i =>
      exact does_node hR _ (hread i (List.mem_singleton.2 rfl))
  | unary op q ih =>
      exact does_node hR _ (does_bind hR (ih hread) fun _ => does_attempt hR _)
  | binary op l r ihl ihr =>
      have hl := ihl fun i hi => hread i (List.mem_append_left _ hi)
      have hr := ihr fun i hi => hread i (List.mem_append_right _ hi)
      exact does_node hR _ (does_bind hR hl fun a =>
        does_bind hR hr fun b => hop op a b)

end Trees

variable {ρ σ : Type} {R : σ → List Event → σ → Prop}

/-- A plan reports its operators and reads nothing. -/
theorem Plan.quiet_run (plan : Plan) :
    Run.Does Quiet (plan.run : Execution σ Resolved).run := by
  refine QueryTree.does_runWith sequential_quiet
    (fun _ _ _ => does_attempt sequential_quiet _) fun r _ s => ⟨rfl, ?_⟩
  intro e he
  rw [List.mem_singleton.1 he]
  exact trivial

/-- Operators only make notes: their plans read nothing from the state. -/
theorem BinaryOperator.quiet_run (op : BinaryOperator) (l r : Resolved) :
    Run.Does Quiet (op.run l r : Execution σ Resolved).run := by
  cases op with
  | basic op => exact does_attempt sequential_quiet _
  | divide =>
      exact does_bind sequential_quiet (does_attempt sequential_quiet _)
        fun _ => does_bind sequential_quiet (Plan.quiet_run _)
          fun _ => Plan.quiet_run _
  | semiJoin kind => exact Plan.quiet_run _

/-- A query does what reading its leaves does. -/
theorem Query.does_run (hR : Sequential R)
    {read : ρ → Run σ (Except RelationError Resolved)} {q : Query ρ}
    (hread : ∀ i ∈ q.leaves, Run.Does R (read i)) :
    Run.Does R (Query.run read q).run :=
  QueryTree.does_runWith hR
    (fun op l r => (op.quiet_run l r).of_quiet hR)
    fun i hi => Run.Does.bind hR (hread i hi) fun _ => Run.Does.pure hR _

end RelAlgebra
