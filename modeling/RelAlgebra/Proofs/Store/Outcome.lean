/-
The outcomes that a store stands for: what each relation comes to when its
cell is evaluated anew, with the relations below it evaluated anew in
their turn. Reading a relation answers its outcome, and leaves a store
that stands for the same outcomes. So whatever is read from a store, and
in whatever order, answers depend on the outcomes alone.
-/
import RelAlgebra.Proofs.Error.Equality
import RelAlgebra.Proofs.Query.Answers
import RelAlgebra.Proofs.Query.Conduct
import RelAlgebra.Proofs.Query.Renaming
import RelAlgebra.Proofs.Tuples.Equality
import RelAlgebra.Store.Program

namespace RelAlgebra

-- ============================================================ outcomes

/-- The outcome of a cell, given those of the relations below it. -/
def Cell.outcome {ρ : Type} (below : ρ → Outcome) : Cell ρ → Outcome
  | .pending q => (Query.eval below q).mapError .ofQuery
  | .resolved r => .ok r
  | .failed e => .error e

/-- The outcome of every relation of a store, evaluated anew. -/
def Store.outcome : {n : Nat} → Store n → Fin n → Outcome
  | n + 1, .push earlier cell, i =>
    if h : i.val < n then
      earlier.outcome ⟨i, h⟩
    else
      cell.outcome earlier.outcome

namespace Outcome

/-- Whether two outcomes are equal. -/
def agree : Outcome → Outcome → Bool
  | .ok a, .ok b => a == b
  | .error a, .error b => a == b
  | _, _ => false

/-- The hash data of an outcome. -/
def digest (finish : Digest.Finish) : Outcome → Digest
  | .ok r => r.digest finish
  | .error e => [.text e.message]

@[simp]
theorem agree_self (o : Outcome) : agree o o = true := by
  cases o <;> simp [agree]

end Outcome

-- =============================================================== cells

namespace Cell

variable {ρ σ : Type}

/-- A cell that holds an outcome has it. -/
@[simp]
theorem outcome_ofOutcome (below : ρ → Outcome) (o : Outcome) :
    (ofOutcome o).outcome below = o := by
  cases o <;> rfl

theorem map_map {ρ' ρ'' : Type} (f : ρ → ρ') (g : ρ' → ρ'') (cell : Cell ρ) :
    (cell.map f).map g = cell.map (g ∘ f) := by
  cases cell with
  | pending q => exact congrArg Cell.pending (QueryTree.map_map f g q)
  | resolved r => rfl
  | failed e => rfl

@[simp]
theorem map_ofOutcome {ρ' : Type} (f : ρ → ρ') (o : Outcome) :
    (ofOutcome o).map f = ofOutcome o := by
  cases o <;> rfl

@[simp]
theorem isResolved_map {ρ' : Type} (f : ρ → ρ') (cell : Cell ρ) :
    (cell.map f).isResolved = cell.isResolved := by
  cases cell <;> rfl

@[simp]
theorem isResolved_ofOutcome (o : Outcome) :
    (ofOutcome o : Cell ρ).isResolved = true := by
  cases o <;> rfl

/-- A cell is pending or holds an outcome. -/
theorem eq_pending_or_ofOutcome (cell : Cell ρ) :
    (∃ q, cell = pending q) ∨ ∃ o, cell = ofOutcome o := by
  cases cell with
  | pending q => exact .inl ⟨q, rfl⟩
  | resolved r => exact .inr ⟨.ok r, rfl⟩
  | failed e => exact .inr ⟨.error e, rfl⟩

/-- A cell that is not pending holds its outcome. -/
theorem eq_ofOutcome (below : ρ → Outcome) {cell : Cell ρ}
    (h : cell.isResolved = true) : cell = ofOutcome (cell.outcome below) := by
  cases cell with
  | pending q => cases h
  | resolved r => rfl
  | failed e => rfl

theorem outcome_map {ρ' : Type} (below : ρ' → Outcome) (f : ρ → ρ')
    (cell : Cell ρ) :
    (cell.map f).outcome below = cell.outcome (below ∘ f) := by
  cases cell with
  | pending q => exact congrArg (Except.mapError _) (Query.eval_map below f q)
  | resolved r => rfl
  | failed e => rfl

/-- Reading a pending cell runs its query. -/
theorem read_pending (n : Nat) (below : ρ → Run σ Outcome) (q : Query ρ)
    (s : σ) :
    (pending q).read n below s
      = let r := (Query.run below q).run s
        ⟨r.value.mapError .ofQuery, r.state, .started n :: r.events⟩ := by
  show Ended.mk _ _ ([.started n] ++ (_ ++ [])) = _
  rw [List.append_nil]
  rfl

/-- Reading a cell answers its outcome, if reading the relations below it
does. -/
theorem answers_read {I : σ → Prop} {below : ρ → Run σ Outcome}
    {outcome : ρ → Outcome} (hbelow : ∀ r, Run.Answers I (below r) (outcome r))
    (n : Nat) (cell : Cell ρ) :
    Run.Answers I (cell.read n below) (cell.outcome outcome) := by
  cases cell with
  | resolved r => exact (Run.Answers.report _).bind (Run.Answers.pure _)
  | failed e => exact Run.Answers.pure _
  | pending q =>
      exact (Run.Answers.report _).bind
        ((Query.answers_run hbelow q).bind (Run.Answers.pure _))

end Cell

-- ============================================================== stores

namespace Store

variable {n : Nat}

/-- That the store stands for these outcomes, which every read keeps. -/
def StandsFor (outcome : Fin n → Outcome) (s : Store n) : Prop :=
  s.outcome = outcome

/-- An earlier relation is read from the earlier store. -/
theorem resolve_push_of_lt {earlier : Store n} {cell : Cell (Fin n)}
    {i : Fin (n + 1)} (h : i.val < n) :
    resolve i (push earlier cell)
      = let r := resolve ⟨i, h⟩ earlier
        ⟨r.value, push r.state cell, r.events⟩ := by
  show dite (i.val < n) _ _ = _
  rw [dif_pos h]

/-- The last relation is read from its cell, which then holds what came
of it. -/
theorem resolve_push_of_not_lt {earlier : Store n} {cell : Cell (Fin n)}
    {i : Fin (n + 1)} (h : ¬i.val < n) :
    resolve i (push earlier cell)
      = let r := cell.read n resolve earlier
        ⟨r.value, push r.state (.ofOutcome r.value),
          .acquired n :: r.events ++ [.released n]⟩ := by
  show dite (i.val < n) _ _ = _
  rw [dif_neg h]

@[simp]
theorem get_push_castSucc (earlier : Store n) (cell : Cell (Fin n))
    (i : Fin n) :
    (push earlier cell).get i.castSucc = (earlier.get i).map Fin.castSucc := by
  simp [get]

@[simp]
theorem get_push_last (earlier : Store n) (cell : Cell (Fin n)) :
    (push earlier cell).get (Fin.last n) = cell.map Fin.castSucc := by
  simp [get]

/-- Reading an earlier cell leaves the last one alone. -/
theorem resolve_push_castSucc (earlier : Store n) (cell : Cell (Fin n))
    (i : Fin n) :
    resolve i.castSucc (push earlier cell)
      = let r := resolve i earlier
        ⟨r.value, push r.state cell, r.events⟩ :=
  resolve_push_of_lt i.isLt

/-- Reading the last cell reads the store before it, and leaves
the outcome. -/
theorem resolve_push_last (earlier : Store n) (cell : Cell (Fin n)) :
    resolve (Fin.last n) (push earlier cell)
      = let r := cell.read n resolve earlier
        ⟨r.value, push r.state (.ofOutcome r.value),
          .acquired n :: r.events ++ [.released n]⟩ :=
  resolve_push_of_not_lt (Nat.lt_irrefl n)

/-- Reading a relation that was evaluated before changes nothing. -/
theorem resolve_push_ofOutcome (earlier : Store n) (o : Outcome) :
    (resolve (Fin.last n) (push earlier (.ofOutcome o))).value = o
      ∧ (resolve (Fin.last n) (push earlier (.ofOutcome o))).state
        = push earlier (.ofOutcome o) := by
  rw [resolve_push_last]
  cases o <;> exact ⟨rfl, rfl⟩

theorem outcome_push_of_lt {earlier : Store n} {cell : Cell (Fin n)}
    {i : Fin (n + 1)} (h : i.val < n) :
    (push earlier cell).outcome i = earlier.outcome ⟨i, h⟩ := by
  simp [outcome, h]

theorem outcome_push_of_not_lt {earlier : Store n} {cell : Cell (Fin n)}
    {i : Fin (n + 1)} (h : ¬i.val < n) :
    (push earlier cell).outcome i = cell.outcome earlier.outcome := by
  simp [outcome, h]

/-- The earlier relations have the outcomes they had. -/
theorem outcome_push_castSucc (earlier : Store n) (cell : Cell (Fin n)) :
    (push earlier cell).outcome ∘ Fin.castSucc = earlier.outcome := by
  funext i
  exact outcome_push_of_lt i.isLt

/-- A relation has the outcome of its cell. -/
theorem outcome_get (s : Store n) (i : Fin n) :
    s.outcome i = (s.get i).outcome s.outcome := by
  induction s with
  | empty => exact i.elim0
  | @push n earlier cell ih =>
      by_cases hi : i.val < n
      · simp only [get, hi, ↓reduceDIte]
        rw [outcome_push_of_lt hi, Cell.outcome_map, outcome_push_castSucc,
          ih]
      · simp only [get, hi, ↓reduceDIte]
        rw [outcome_push_of_not_lt hi, Cell.outcome_map,
          outcome_push_castSucc]

/-- Two stores stand for the same outcomes if their earlier cells do, and
if so do their last cells over these. -/
theorem outcome_push_congr {earlier earlier' : Store n}
    {cell cell' : Cell (Fin n)} (hearlier : earlier'.outcome = earlier.outcome)
    (hcell : cell'.outcome earlier.outcome = cell.outcome earlier.outcome) :
    (push earlier' cell').outcome = (push earlier cell).outcome := by
  funext i
  by_cases h : i.val < n
  · rw [outcome_push_of_lt h, outcome_push_of_lt h, hearlier]
  · rw [outcome_push_of_not_lt h, outcome_push_of_not_lt h, hearlier, hcell]

/-- Reading a relation answers its outcome. The induction is on the number
of cells: reading the last one reads only from the store before it. -/
theorem answers_resolve : ∀ {n : Nat} (outcome : Fin n → Outcome) (i : Fin n),
    Run.Answers (StandsFor outcome) (resolve i) (outcome i) := by
  intro n
  induction n with
  | zero => intro _ i; exact i.elim0
  | succ n ih =>
      intro outcome i s hs
      cases s with
      | push earlier cell =>
        subst hs
        by_cases h : i.val < n
        · obtain ⟨hvalue, hstate⟩ := ih earlier.outcome ⟨i, h⟩ earlier rfl
          rw [outcome_push_of_lt h, resolve_push_of_lt h]
          exact ⟨hvalue, outcome_push_congr hstate rfl⟩
        · obtain ⟨hvalue, hstate⟩ :=
            cell.answers_read (ih earlier.outcome) n earlier rfl
          rw [outcome_push_of_not_lt h, resolve_push_of_not_lt h]
          refine ⟨hvalue, outcome_push_congr hstate ?_⟩
          rw [Cell.outcome_ofOutcome, hvalue]

variable {outcome : Fin n → Outcome}

/-- Running a query answers what it evaluates to over the outcomes. -/
theorem answers_execute (q : Query (Fin n)) :
    Run.Answers (StandsFor outcome) (execute q) (Query.eval outcome q) :=
  Query.answers_run (answers_resolve outcome) q

theorem value_resolve (s : Store n) (i : Fin n) :
    (resolve i s).value = s.outcome i :=
  (answers_resolve s.outcome i s rfl).1

/-- Running a query has as its value what the query evaluates to. -/
theorem value_execute (s : Store n) (q : Query (Fin n)) :
    (execute q s).value = q.eval s.outcome :=
  (answers_execute q s rfl).1

/-- An operator on one relation is applied to what the query below it comes
to. -/
theorem value_execute_unary (s : Store n) (op : UnaryOperator)
    (p : Query (Fin n)) :
    (execute (.unary op p) s).value = (do op.apply (← (execute p s).value)) := by
  rw [value_execute, value_execute]
  rfl

/-- One on two relations is applied to what both come to, the left
one first. -/
theorem value_execute_binary (s : Store n) (op : BinaryOperator)
    (p q : Query (Fin n)) :
    (execute (.binary op p q) s).value = (do
      let l ← (execute p s).value
      let r ← (execute q s).value
      op.apply l r) := by
  rw [value_execute, value_execute, value_execute]
  rfl

/-- Comparing the cells first does not change what comparing the outcomes
gives, since every outcome is equal to itself. -/
theorem answers_equal (i j : Fin n) :
    Run.Answers (StandsFor outcome) (equal i j)
      (Outcome.agree (outcome i) (outcome j)) := by
  unfold equal
  split
  · rename_i h
    rw [h, Outcome.agree_self]
    exact Run.Answers.pure _
  · refine (answers_resolve outcome i).bind
      ((answers_resolve outcome j).bind ?_)
    cases outcome i <;> cases outcome j <;> exact Run.Answers.pure _

theorem answers_digest (finish : Digest.Finish) (i : Fin n) :
    Run.Answers (StandsFor outcome) (digest finish i)
      (Outcome.digest finish (outcome i)) := by
  refine (answers_resolve outcome i).bind ?_
  cases outcome i <;> exact Run.Answers.pure _

end Store

-- =============================================================== reads

/-- What a read answers if relations are evaluated anew. -/
def Read.answer {ρ : Type} (finish : Digest.Finish) (outcome : ρ → Outcome) :
    Read ρ → Answer
  | .resolve r => .outcome (outcome r)
  | .header r => .header ((outcome r).map Resolved.header)
  | .tuples r => .tuples ((outcome r).map Resolved.tuples)
  | .equal a b => .verdict (Outcome.agree (outcome a) (outcome b))
  | .digest r => .digest (Outcome.digest finish (outcome r))
  | .execute q => .result (Query.eval outcome q)

/-- Every read answers from the outcomes alone. -/
theorem Read.answers_run {n : Nat} {outcome : Fin n → Outcome}
    (finish : Digest.Finish) (r : Read (Fin n)) :
    Run.Answers (Store.StandsFor outcome) (r.run finish)
      (r.answer finish outcome) := by
  cases r with
  | resolve i =>
      exact (Store.answers_resolve outcome i).bind (Run.Answers.pure _)
  | header i =>
      exact (Store.answers_resolve outcome i).bind (Run.Answers.pure _)
  | tuples i =>
      exact (Store.answers_resolve outcome i).bind (Run.Answers.pure _)
  | equal i j => exact (Store.answers_equal i j).bind (Run.Answers.pure _)
  | digest i =>
      exact (Store.answers_digest finish i).bind (Run.Answers.pure _)
  | execute q => exact (Store.answers_execute q).bind (Run.Answers.pure _)

/-- Making a relation reads nothing: it reports notes. -/
theorem Construction.isNote_cell {ρ : Type} (made : Construction ρ) :
    ∀ e ∈ made.cell.2, e.IsNote := by
  have hliteral (attributes given) (build : Header → Tuples) :
      ∀ e ∈ (literal (ρ := ρ) attributes given build).2, e.IsNote := by
    intro e he
    unfold literal at he
    cases hheader : Header.ofAttributes attributes with
    | ok header =>
        simp only [hheader, Event.ofBuild] at he
        split at he
        · rw [List.mem_singleton.1 he]
          exact trivial
        · cases he
    | error error =>
        simp only [hheader] at he
        rw [List.mem_singleton.1 he]
        exact trivial
  cases made with
  | ofRows attributes rows => exact hliteral _ _ _
  | ofMaps attributes rows => exact hliteral _ _ _
  | ofResolved r => exact nofun
  | ofQuery q => exact nofun

/-- A read does what is allowed, if reading a relation does. -/
theorem Read.does_run {n : Nat} {R : Store n → List Event → Store n → Prop}
    (hR : Sequential R) (hresolve : ∀ i, Run.Does R (Store.resolve i))
    (finish : Digest.Finish) (r : Read (Fin n)) :
    Run.Does R (r.run finish) := by
  have hpure {α : Type} (a : α) : Run.Does R (pure a : Run (Store n) α) :=
    Run.Does.pure hR a
  cases r with
  | resolve i => exact Run.Does.bind hR (hresolve i) fun _ => hpure _
  | header i => exact Run.Does.bind hR (hresolve i) fun _ => hpure _
  | tuples i => exact Run.Does.bind hR (hresolve i) fun _ => hpure _
  | equal i j =>
      refine Run.Does.bind hR ?_ fun _ => hpure _
      unfold Store.equal
      split
      · exact hpure _
      · refine Run.Does.bind hR (hresolve i) fun a =>
          Run.Does.bind hR (hresolve j) fun b => ?_
        cases a <;> cases b <;> exact hpure _
  | digest i =>
      refine Run.Does.bind hR ?_ fun _ => hpure _
      refine Run.Does.bind hR (hresolve i) fun o => ?_
      cases o <;> exact hpure _
  | execute q =>
      refine Run.Does.bind hR ?_ fun _ => hpure _
      exact Query.does_run hR fun j _ => hresolve j

end RelAlgebra
