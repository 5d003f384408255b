/-
Which relations reading one of them evaluates. The query of a pending
relation tries some of the relations that it reads, and those that are
pending try relations in their turn. Reading a relation evaluates all that
can be come to in this way, and no others.

The proof compares every store that comes about on the way with the one at
the start. That store fixes which relations try which; a store continues it
if each of its cells is still the same, or is settled: it was pending and
holds its outcome, and all relations that its query tries have been
evaluated.
-/
import Mathlib.Logic.Relation
import RelAlgebra.Proofs.Query.Demand
import RelAlgebra.Proofs.Store.Outcome

namespace RelAlgebra

open Relation (ReflTransGen)

-- =============================================================== cells

namespace Cell

variable {ρ ρ' : Type} {outcome : ρ → Outcome}

/-- The relations that the query of a pending cell reads. -/
def leaves : Cell ρ → List ρ
  | .pending q => q.leaves
  | _ => []

/-- The relations that running the query of a pending cell tries. -/
def tried (outcome : ρ → Outcome) : Cell ρ → List ρ
  | .pending q => q.tried outcome
  | _ => []

theorem tried_map (outcome : ρ' → Outcome) (f : ρ → ρ') (cell : Cell ρ) :
    (cell.map f).tried outcome = (cell.tried (outcome ∘ f)).map f := by
  cases cell with
  | pending q => exact Query.tried_map outcome f q
  | resolved r => rfl
  | failed e => rfl

/-- A cell that was evaluated tries nothing. -/
theorem tried_of_isResolved {cell : Cell ρ} (h : cell.isResolved = true) :
    cell.tried outcome = [] := by
  cases cell with
  | pending q => cases h
  | resolved r => rfl
  | failed e => rfl

/-- A cell tries only relations that its query names. -/
theorem tried_subset_leaves (cell : Cell ρ) :
    cell.tried outcome ⊆ cell.leaves := by
  cases cell with
  | pending q => exact Query.tried_subset_leaves q
  | resolved r => exact List.Subset.refl _
  | failed e => exact List.Subset.refl _

/-- A relation with rows tries all that its query reads, and all of that
has rows. -/
theorem of_outcome_eq_ok {cell : Cell ρ} {r : Resolved}
    (h : cell.outcome outcome = .ok r) :
    cell.tried outcome = cell.leaves
      ∧ ∀ i ∈ cell.leaves, ∃ a, outcome i = .ok a := by
  cases cell with
  | resolved r => exact ⟨rfl, nofun⟩
  | failed e => exact ⟨rfl, nofun⟩
  | pending q => exact Query.of_eval_eq_ok (eq_ok_of_mapError_eq_ok h)

end Cell

namespace Store

variable {n : Nat}

-- ============================================================= forcing

/-- Whether the query of relation `i`, if it is pending, reads `j`. -/
def Reads (s : Store n) (i j : Fin n) : Prop := j ∈ (s.get i).leaves

/-- Whether relation `j` can be come to from `i`. -/
def Reaches (s : Store n) : Fin n → Fin n → Prop := ReflTransGen s.Reads

/-- Whether the query of relation `i`, if it is pending, tries `j` when it
is run. -/
def Tries (s : Store n) (i j : Fin n) : Prop :=
  j ∈ (s.get i).tried s.outcome

/-- Whether reading relation `i` comes to read `j`. -/
def Forces (s : Store n) : Fin n → Fin n → Prop := ReflTransGen s.Tries

/-- What is forced can be reached. -/
theorem Forces.reaches {s : Store n} {i j : Fin n} (h : s.Forces i j) :
    s.Reaches i j :=
  ReflTransGen.mono (fun i _ hj => (s.get i).tried_subset_leaves hj) _ _ h

section Push

variable {earlier : Store n} {cell : Cell (Fin n)}

/-- An earlier cell tries what it did before the last one was made. -/
theorem tries_push_castSucc {i : Fin n} {k : Fin (n + 1)} :
    (push earlier cell).Tries i.castSucc k
      ↔ ∃ j, earlier.Tries i j ∧ j.castSucc = k := by
  unfold Tries
  rw [get_push_castSucc, Cell.tried_map, outcome_push_castSucc, List.mem_map]

/-- The last cell tries relations before it. -/
theorem tries_push_last {k : Fin (n + 1)} :
    (push earlier cell).Tries (Fin.last n) k
      ↔ ∃ j ∈ cell.tried earlier.outcome, j.castSucc = k := by
  unfold Tries
  rw [get_push_last, Cell.tried_map, outcome_push_castSucc, List.mem_map]

/-- An earlier relation forces what it forces in the earlier store. -/
theorem forces_push_castSucc {i : Fin n} {k : Fin (n + 1)} :
    (push earlier cell).Forces i.castSucc k
      ↔ ∃ j, earlier.Forces i j ∧ j.castSucc = k := by
  constructor
  · intro h
    induction h with
    | refl => exact ⟨i, .refl, rfl⟩
    | tail _ hstep ih =>
        obtain ⟨j, hj, rfl⟩ := ih
        obtain ⟨l, hl, rfl⟩ := tries_push_castSucc.1 hstep
        exact ⟨l, hj.tail hl, rfl⟩
  · rintro ⟨j, hj, rfl⟩
    induction hj with
    | refl => exact .refl
    | tail _ hstep ih => exact ih.tail (tries_push_castSucc.2 ⟨_, hstep, rfl⟩)

/-- What an earlier cell forces does not depend on the last one. -/
theorem forces_push_castSucc_castSucc {i k : Fin n} :
    (push earlier cell).Forces i.castSucc k.castSucc ↔ earlier.Forces i k := by
  simp [forces_push_castSucc, Fin.castSucc_inj]

/-- No earlier cell forces the last one. -/
theorem not_forces_push_castSucc_last {i : Fin n} :
    ¬(push earlier cell).Forces i.castSucc (Fin.last n) := by
  rw [forces_push_castSucc]
  rintro ⟨j, -, hj⟩
  exact Fin.ne_of_lt (Fin.castSucc_lt_last j) hj

/-- The last relation forces itself, and what those force that it
tries. -/
theorem forces_push_last {k : Fin (n + 1)} :
    (push earlier cell).Forces (Fin.last n) k
      ↔ Fin.last n = k ∨ ∃ j ∈ cell.tried earlier.outcome,
          (push earlier cell).Forces j.castSucc k := by
  refine ReflTransGen.cases_head_iff.trans (or_congr_right ⟨?_, ?_⟩)
  · rintro ⟨_, hstep, h⟩
    obtain ⟨j, hj, rfl⟩ := tries_push_last.1 hstep
    exact ⟨j, hj, h⟩
  · rintro ⟨j, hj, h⟩
    exact ⟨j.castSucc, tries_push_last.2 ⟨j, hj, rfl⟩, h⟩

end Push

-- ======================================================== continuation

/-- Whether the second store comes from the first by settling cells, each
after the relations that its query tries. -/
inductive Continues : {n : Nat} → Store n → Store n → Prop
  | empty : Continues .empty .empty
  | kept {n : Nat} {start s : Store n} (h : Continues start s)
    (cell : Cell (Fin n)) : Continues (push start cell) (push s cell)
  | settled {n : Nat} {start s : Store n} (h : Continues start s)
    {q : Query (Fin n)}
    (htried : ∀ j ∈ q.tried start.outcome, (s.get j).isResolved = true) :
    Continues (push start (.pending q))
      (push s (.ofOutcome ((Cell.pending q).outcome start.outcome)))

theorem Continues.refl (s : Store n) : Continues s s := by
  induction s with
  | empty => exact .empty
  | push earlier cell ih => exact .kept ih cell

variable {start s : Store n}

/-- Evaluated further, a store stands for the same outcomes. -/
theorem Continues.outcome_eq (h : Continues start s) :
    s.outcome = start.outcome := by
  induction h with
  | empty => rfl
  | kept _ cell ih => exact outcome_push_congr ih rfl
  | settled _ _ ih =>
      exact outcome_push_congr ih (Cell.outcome_ofOutcome _ _)

/-- Every cell is the same as before, or was pending and holds its
outcome. -/
theorem Continues.get_eq (h : Continues start s) (i : Fin n) :
    s.get i = start.get i
      ∨ (start.get i).isResolved = false
        ∧ s.get i = .ofOutcome (start.outcome i) := by
  induction h with
  | empty => exact i.elim0
  | @kept n start s _ cell ih =>
      refine Fin.lastCases (.inl ?_) (fun i => ?_) i
      · rw [get_push_last, get_push_last]
      · rw [get_push_castSucc, get_push_castSucc, Cell.isResolved_map]
        refine (ih i).imp (congrArg _) (And.imp_right fun h => ?_)
        rw [h, Cell.map_ofOutcome, ← outcome_push_castSucc start cell]
        rfl
  | @settled n start s _ q _ ih =>
      refine Fin.lastCases (.inr ⟨?_, ?_⟩) (fun i => ?_) i
      · rw [get_push_last, Cell.isResolved_map]
        rfl
      · rw [get_push_last, Cell.map_ofOutcome]
        exact congrArg _ (outcome_push_of_not_lt (Nat.lt_irrefl n)).symm
      · rw [get_push_castSucc, get_push_castSucc, Cell.isResolved_map]
        refine (ih i).imp (congrArg _) (And.imp_right fun h => ?_)
        rw [h, Cell.map_ofOutcome, ← outcome_push_castSucc start]
        rfl

/-- What a relation tries that has been settled has been evaluated. -/
theorem Continues.isResolved_of_tries (h : Continues start s) {i j : Fin n}
    (hi : (s.get i).isResolved = true) (hj : start.Tries i j) :
    (s.get j).isResolved = true := by
  induction h with
  | empty => exact i.elim0
  | kept _ cell ih =>
      induction i using Fin.lastCases with
      | last =>
          -- A cell that was evaluated at the start tries nothing.
          rw [get_push_last, Cell.isResolved_map] at hi
          obtain ⟨k, hk, -⟩ := tries_push_last.1 hj
          rw [Cell.tried_of_isResolved hi] at hk
          cases hk
      | cast i =>
          rw [get_push_castSucc, Cell.isResolved_map] at hi
          obtain ⟨k, hk, rfl⟩ := tries_push_castSucc.1 hj
          rw [get_push_castSucc, Cell.isResolved_map]
          exact ih hi hk
  | settled _ htried ih =>
      induction i using Fin.lastCases with
      | last =>
          obtain ⟨k, hk, rfl⟩ := tries_push_last.1 hj
          rw [get_push_castSucc, Cell.isResolved_map]
          exact htried k hk
      | cast i =>
          rw [get_push_castSucc, Cell.isResolved_map] at hi
          obtain ⟨k, hk, rfl⟩ := tries_push_castSucc.1 hj
          rw [get_push_castSucc, Cell.isResolved_map]
          exact ih hi hk

/-- A relation that is evaluated further on has had evaluated what
it forces. -/
theorem Continues.isResolved_of_forces (h : Continues start s) {i j : Fin n}
    (hi : (s.get i).isResolved = true) (hj : start.Forces i j) :
    (s.get j).isResolved = true := by
  induction hj with
  | refl => exact hi
  | tail _ hstep ih => exact h.isResolved_of_tries ih hstep

-- ============================================================= reading

/-- Reading the last relation if it was evaluated before. -/
theorem adds_resolve_last_ofOutcome {start earlier : Store n}
    {cell : Cell (Fin n)} {o : Outcome}
    (h : Continues (push start cell) (push earlier (.ofOutcome o))) :
    let r := resolve (Fin.last n) (push earlier (.ofOutcome o))
    Continues (push start cell) r.state
      ∧ ∀ k, (r.state.get k).isResolved = true
          ↔ ((push earlier (.ofOutcome o)).get k).isResolved = true
            ∨ (push start cell).Forces (Fin.last n) k := by
  have hlast : ((push earlier (.ofOutcome o)).get (Fin.last n)).isResolved
      = true := by
    rw [get_push_last, Cell.isResolved_map, Cell.isResolved_ofOutcome]
  intro r
  rw [show r.state = push earlier (.ofOutcome o) from
    (resolve_push_ofOutcome earlier o).2]
  refine ⟨h, fun k => ⟨.inl, ?_⟩⟩
  rintro (hk | hk)
  · exact hk
  · exact h.isResolved_of_forces hlast hk

/-- What reading an earlier relation adds to the earlier store, it adds to
the store. -/
theorem isResolved_push_iff {start earlier earlier' : Store n}
    {cell cell' : Cell (Fin n)} {i : Fin n}
    (h : ∀ k, (earlier'.get k).isResolved = true
      ↔ (earlier.get k).isResolved = true ∨ start.Forces i k)
    (k : Fin (n + 1)) :
    ((push earlier' cell').get k).isResolved = true
      ↔ ((push earlier cell').get k).isResolved = true
        ∨ (push start cell).Forces i.castSucc k := by
  induction k using Fin.lastCases with
  | last => simp [not_forces_push_castSucc_last]
  | cast k => simp [forces_push_castSucc_castSucc, h k]

/-- Reading the last relation if it is pending, where reading an earlier
one evaluates those that it forces. -/
theorem adds_resolve_last_pending {start earlier : Store n}
    {q : Query (Fin n)}
    (hread : ∀ j, Run.Adds (Continues start)
      (fun s k => (s.get k).isResolved = true) (start.Forces j) (resolve j))
    (h : Continues start earlier) :
    let r := resolve (Fin.last n) (push earlier (.pending q))
    Continues (push start (.pending q)) r.state
      ∧ ∀ k, (r.state.get k).isResolved = true
          ↔ ((push earlier (.pending q)).get k).isResolved = true
            ∨ (push start (.pending q)).Forces (Fin.last n) k := by
  have hvalue : ∀ j, Run.Answers (Continues start) (resolve j)
      (start.outcome j) := fun j s hs =>
    ⟨(answers_resolve start.outcome j s hs.outcome_eq).1, (hread j s hs).1⟩
  obtain ⟨hcontinues, hadds⟩ := Query.adds_run hvalue
    (fun j (_ : j ∈ q.leaves) => hread j) earlier h
  have houtcome : ((Query.run resolve q).run earlier).value
      = Query.eval start.outcome q :=
    (Query.answers_run hvalue q earlier h).1
  have htried : ∀ j ∈ q.tried start.outcome,
      (((Query.run resolve q).run earlier).state.get j).isResolved = true :=
    fun j hj => (hadds j).2 (.inr ⟨j, hj, .refl⟩)
  intro r
  subst r
  rw [resolve_push_last, Cell.read_pending]
  simp only [houtcome]
  refine ⟨.settled hcontinues htried, fun k => ?_⟩
  rw [forces_push_last]
  induction k using Fin.lastCases with
  | last => simp
  | cast k =>
      have hne : Fin.last n ≠ k.castSucc :=
        (Fin.ne_of_lt (Fin.castSucc_lt_last k)).symm
      simp only [get_push_castSucc, Cell.isResolved_map, hadds k,
        Cell.tried, hne, false_or, forces_push_castSucc_castSucc]

/-- Reading a relation evaluates those that it forces, and no others. The
induction is on the number of cells. -/
theorem adds_resolve : ∀ {n : Nat} (start : Store n) (i : Fin n),
    Run.Adds (Continues start) (fun s k => (s.get k).isResolved = true)
      (start.Forces i) (resolve i) := by
  intro n
  induction n with
  | zero => intro _ i; exact i.elim0
  | succ n ih =>
      intro start i s hs
      induction i using Fin.lastCases with
      | cast i =>
          cases hs with
          | @kept _ start earlier h cell =>
              obtain ⟨hcontinues, hadds⟩ := ih start i earlier h
              rw [resolve_push_castSucc]
              exact ⟨.kept hcontinues cell, isResolved_push_iff hadds⟩
          | @settled _ start earlier h q htried =>
              obtain ⟨hcontinues, hadds⟩ := ih start i earlier h
              have htried' : ∀ j ∈ q.tried start.outcome,
                  ((resolve i earlier).state.get j).isResolved = true :=
                fun j hj => (hadds j).2 (.inl (htried j hj))
              rw [resolve_push_castSucc]
              exact ⟨.settled hcontinues htried', isResolved_push_iff hadds⟩
      | last =>
          cases hs with
          | @settled _ start earlier h q htried =>
              exact adds_resolve_last_ofOutcome (.settled h htried)
          | @kept _ start earlier h cell =>
              rcases cell.eq_pending_or_ofOutcome with ⟨q, rfl⟩ | ⟨o, rfl⟩
              · exact adds_resolve_last_pending (ih start) h
              · exact adds_resolve_last_ofOutcome (.kept h _)

/-- Reading a relation evaluates the store further. -/
theorem continues_resolve (s : Store n) (i : Fin n) :
    Continues s (resolve i s).state :=
  (adds_resolve s i s (.refl s)).1

/-- After a read those are evaluated that were before, and those that it
forces. -/
theorem isResolved_resolve_iff {s : Store n} {i k : Fin n} :
    ((resolve i s).state.get k).isResolved = true
      ↔ (s.get k).isResolved = true ∨ s.Forces i k :=
  (adds_resolve s i s (.refl s)).2 k

/-- What a reading forces holds its outcome afterwards. -/
theorem get_resolve_of_forces {s : Store n} {i k : Fin n}
    (h : s.Forces i k) :
    (resolve i s).state.get k = .ofOutcome (s.outcome k) := by
  have hresolved : ((resolve i s).state.get k).isResolved = true :=
    isResolved_resolve_iff.2 (.inr h)
  rcases (continues_resolve s i).get_eq k with hsame | ⟨-, hsettled⟩
  · rw [hsame] at hresolved ⊢
    rw [outcome_get]
    exact Cell.eq_ofOutcome s.outcome hresolved
  · exact hsettled

/-- What a reading does not force stays as it is. -/
theorem get_resolve_of_not_forces {s : Store n} {i k : Fin n}
    (h : ¬s.Forces i k) : (resolve i s).state.get k = s.get k := by
  rcases (continues_resolve s i).get_eq k with hsame | ⟨hpending, hsettled⟩
  · exact hsame
  · have hresolved : ((resolve i s).state.get k).isResolved = true := by
      rw [hsettled, Cell.isResolved_ofOutcome]
    rcases isResolved_resolve_iff.1 hresolved with hk | hk
    · rw [hpending] at hk
      cases hk
    · exact absurd hk h

/-- A relation with rows forces all that can be come to from it, and all of
that has rows. -/
theorem forces_of_reaches {s : Store n} {i k : Fin n} {r : Resolved}
    (hi : s.outcome i = .ok r) (h : s.Reaches i k) :
    s.Forces i k ∧ ∃ a, s.outcome k = .ok a := by
  induction h with
  | refl => exact ⟨.refl, r, hi⟩
  | @tail j k _ hstep ih =>
      obtain ⟨hforces, a, hj⟩ := ih
      rw [outcome_get] at hj
      obtain ⟨htried, hleaves⟩ := Cell.of_outcome_eq_ok hj
      have htries : s.Tries j k := by
        unfold Tries
        rw [htried]
        exact hstep
      exact ⟨hforces.tail htries, hleaves k hstep⟩

/-- Where the left operand of an operator fails, the right one forces
nothing: what is forced can be come to without it. -/
theorem Forces.reaches_left {s : Store n} {i k m : Fin n}
    {q l r : Query (Fin n)} {op : BinaryOperator} {before : List (Fin n)}
    {e : QueryError} (h : s.Forces i k) (hm : s.get m = .pending q)
    (hstands : QueryTree.Stands (.binary op l r) before q)
    (hl : Query.eval s.outcome l = .error e) :
    ReflTransGen (fun a b => s.Reads a b ∧ (a = m → b ∈ before ++ l.leaves))
      i k := by
  refine ReflTransGen.mono (fun a b htries => ⟨?_, ?_⟩) _ _ h
  · exact (s.get a).tried_subset_leaves htries
  · rintro rfl
    unfold Tries at htries
    rw [hm] at htries
    exact Query.tried_subset_of_left_error hstands hl htries

end Store

end RelAlgebra
