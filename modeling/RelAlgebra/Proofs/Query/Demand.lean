/-
Which leaves of a query are read. Running it tries them from left to right
and stops at the first failure, so the right operand of an operator is left
alone if the left one fails. `Query.tried` lists the leaves that are tried:
all of them if the query comes to rows, and none to the right of a subtree
that fails.

What a run adds to the state can be told in the same way: a query adds what
reading the leaves that it tries adds.
-/
import RelAlgebra.Proofs.Query.Answers
import RelAlgebra.Proofs.Query.Conduct
import RelAlgebra.Proofs.Query.Renaming

namespace RelAlgebra

-- ============================================================== leaves

namespace QueryTree

variable {β ρ : Type}

/-- Whether the subtree `t` stands in a tree, with the leaves `before` to
its left. -/
inductive Stands (t : QueryTree β ρ) : List ρ → QueryTree β ρ → Prop
  | here : Stands t [] t
  | unary (op : UnaryOperator) {before : List ρ} {q : QueryTree β ρ}
    (h : Stands t before q) : Stands t before (.unary op q)
  | left (op : β) {before : List ρ} {l r : QueryTree β ρ}
    (h : Stands t before l) : Stands t before (.binary op l r)
  | right (op : β) {before : List ρ} {l r : QueryTree β ρ}
    (h : Stands t before r) : Stands t (l.leaves ++ before) (.binary op l r)

end QueryTree

namespace Query

open QueryTree (Stands)

variable {ρ ρ' : Type} {outcome : ρ → Except RelationError Resolved}

/-- The leaves that running the query tries to read, given the outcome of
each. -/
def tried (outcome : ρ → Except RelationError Resolved) : Query ρ → List ρ
  | .relation r => [r]
  | .unary _ q => tried outcome q
  | .binary _ l r =>
    match Query.eval outcome l with
    | .ok _ => tried outcome l ++ tried outcome r
    | .error _ => tried outcome l

theorem eval_binary (op : BinaryOperator) (l r : Query ρ) :
    Query.eval outcome (.binary op l r)
      = (do
          let a ← l.eval outcome
          let b ← r.eval outcome
          op.apply a b) :=
  rfl

/-- If it succeeds, both operands are tried. -/
theorem tried_binary_of_ok {op : BinaryOperator} {l r : Query ρ}
    {a : Resolved} (h : l.eval outcome = .ok a) :
    tried outcome (.binary op l r) = tried outcome l ++ tried outcome r := by
  simp [tried, h]

/-- If it fails, the right one is not. -/
theorem tried_binary_of_error {op : BinaryOperator} {l r : Query ρ}
    {e : QueryError} (h : l.eval outcome = .error e) :
    tried outcome (.binary op l r) = tried outcome l := by
  simp [tried, h]

theorem tried_map (outcome : ρ' → Except RelationError Resolved)
    (f : ρ → ρ') (q : Query ρ) :
    tried outcome (QueryTree.map f q) = (tried (outcome ∘ f) q).map f := by
  induction q with
  | relation r => rfl
  | unary op q ih => exact ih
  | binary op l r ihl ihr =>
      have heval := Query.eval_map outcome f l
      cases h : Query.eval (outcome ∘ f) l with
      | ok a =>
          rw [QueryTree.map, tried_binary_of_ok (heval.trans h),
            tried_binary_of_ok h, ihl, ihr, List.map_append]
      | error e =>
          rw [QueryTree.map, tried_binary_of_error (heval.trans h),
            tried_binary_of_error h, ihl]

/-- Nothing is tried but leaves. -/
theorem tried_subset_leaves (q : Query ρ) : tried outcome q ⊆ q.leaves := by
  induction q with
  | relation r => exact List.Subset.refl _
  | unary op q ih => exact ih
  | binary op l r ihl ihr =>
      have hleft := List.subset_append_of_subset_left r.leaves ihl
      cases h : Query.eval outcome l with
      | ok a =>
          rw [tried_binary_of_ok h]
          exact List.append_subset.2
            ⟨hleft, List.subset_append_of_subset_right l.leaves ihr⟩
      | error e =>
          rw [tried_binary_of_error h]
          exact hleft

/-- A query that comes to rows has tried all its leaves, and with
success. -/
theorem of_eval_eq_ok {q : Query ρ} {a : Resolved}
    (h : q.eval outcome = .ok a) :
    tried outcome q = q.leaves ∧ ∀ i ∈ q.leaves, ∃ b, outcome i = .ok b := by
  induction q generalizing a with
  | relation i =>
      refine ⟨rfl, fun j hj => ?_⟩
      rw [List.mem_singleton.1 hj]
      exact ⟨a, eq_ok_of_mapError_eq_ok h⟩
  | unary op q ih =>
      obtain ⟨b, hq, -⟩ := exists_of_bind_eq_ok h
      exact ih hq
  | binary op l r ihl ihr =>
      obtain ⟨b, hl, h⟩ := exists_of_bind_eq_ok h
      obtain ⟨c, hr, -⟩ := exists_of_bind_eq_ok h
      obtain ⟨htriedl, hokl⟩ := ihl hl
      obtain ⟨htriedr, hokr⟩ := ihr hr
      refine ⟨?_, fun i hi => ?_⟩
      · rw [tried_binary_of_ok hl, htriedl, htriedr]
        rfl
      · exact (List.mem_append.1 hi).elim (hokl i) (hokr i)

/-- A query with a subtree that fails has failed there or before, so it has
tried no leaf to the right of the subtree. -/
theorem of_stands_of_error {t q : Query ρ} {before : List ρ} {e : QueryError}
    (h : Stands t before q) (ht : t.eval outcome = .error e) :
    (∃ e', q.eval outcome = .error e')
      ∧ tried outcome q ⊆ before ++ t.leaves := by
  induction h with
  | here => exact ⟨⟨e, ht⟩, tried_subset_leaves t⟩
  | unary op _ ih =>
      obtain ⟨⟨e', hq⟩, htried⟩ := ih
      exact ⟨⟨e', congrArg (· >>= fun b => op.apply b) hq⟩, htried⟩
  | left op _ ih =>
      obtain ⟨⟨e', hl⟩, htried⟩ := ih
      refine ⟨⟨e', ?_⟩, ?_⟩
      · rw [eval_binary, hl]
        rfl
      · rwa [tried_binary_of_error hl]
  | @right op before l r _ ih =>
      obtain ⟨⟨e', hr⟩, htried⟩ := ih
      rw [List.append_assoc]
      have htriedl : tried outcome l ⊆ l.leaves := tried_subset_leaves l
      have hleft := List.subset_append_of_subset_left (before ++ t.leaves)
        htriedl
      cases hl : Query.eval outcome l with
      | error e =>
          refine ⟨⟨e, ?_⟩, ?_⟩
          · rw [eval_binary, hl]
            rfl
          · rwa [tried_binary_of_error hl]
      | ok a =>
          refine ⟨⟨e', ?_⟩, ?_⟩
          · rw [eval_binary, hl]
            exact congrArg (· >>= fun b => op.apply a b) hr
          · rw [tried_binary_of_ok hl]
            exact List.append_subset.2
              ⟨hleft, List.subset_append_of_subset_right l.leaves htried⟩

/-- If the left operand of an operator fails, nothing is tried on the
right. -/
theorem tried_subset_of_left_error {op : BinaryOperator} {l r q : Query ρ}
    {before : List ρ} {e : QueryError}
    (h : Stands (.binary op l r) before q) (hl : l.eval outcome = .error e) :
    tried outcome q ⊆ before ++ l.leaves := by
  have hleft : Stands l before q := by
    induction h with
    | here => exact .left op .here
    | unary op' _ ih => exact .unary op' ih
    | left op' _ ih => exact .left op' ih
    | right op' _ ih => exact .right op' ih
  exact (of_stands_of_error hleft hl).2

end Query

-- ============================================================= effects

section Effects

variable {σ α β κ : Type} {I : σ → Prop} {D : σ → κ → Prop}

/-- From every state with the property `I`, the run leads to one with the
property in which `D` holds of all that it held of before, and of `X`. -/
def Run.Adds (I : σ → Prop) (D : σ → κ → Prop) (X : κ → Prop) (m : Run σ α) :
    Prop :=
  ∀ s, I s → I (m s).state ∧ ∀ k, D (m s).state k ↔ D s k ∨ X k

/-- What follows changes nothing if it only makes notes. -/
theorem Execution.state_bind_of_quiet {x : Execution σ α}
    {f : α → Execution σ β} (hf : ∀ a, Run.Does Quiet (f a).run) (s : σ) :
    ((x >>= f).run s).state = (x.run s).state := by
  cases h : (x.run s).value with
  | ok a =>
      rw [run_bind_of_ok h]
      exact (hf a _).1
  | error e => rw [run_bind_of_error h]

variable {ρ : Type} {read : ρ → Run σ (Except RelationError Resolved)}
  {outcome : ρ → Except RelationError Resolved} {X : ρ → κ → Prop}

/-- A query adds what reading the leaves that it tries adds. -/
theorem Query.adds_run (hvalue : ∀ i, Run.Answers I (read i) (outcome i))
    {q : Query ρ} (hread : ∀ i ∈ q.leaves, Run.Adds I D (X i) (read i)) :
    Run.Adds I D (fun k => ∃ i ∈ Query.tried outcome q, X i k)
      (Query.run read q).run := by
  induction q with
  | relation i =>
      intro s hs
      obtain ⟨hI, hD⟩ := hread i (List.mem_singleton.2 rfl) s hs
      exact ⟨hI, fun k => (hD k).trans (by simp [tried])⟩
  | unary op q ih =>
      intro s hs
      have hstate : ((Query.run read (.unary op q)).run s).state
          = ((Query.run read q).run s).state :=
        Execution.state_bind_of_quiet
          (fun _ => Execution.does_attempt sequential_quiet _) s
      rw [hstate]
      exact ih hread s hs
  | binary op l r ihl ihr =>
      intro s hs
      have hl := ihl (fun i hi => hread i (List.mem_append_left _ hi)) s hs
      have hvaluel : ((Query.run read l).run s).value = Query.eval outcome l :=
        (Query.answers_run hvalue l s hs).1
      cases h : Query.eval outcome l with
      | error e =>
          have hstate : ((Query.run read (.binary op l r)).run s).state
              = ((Query.run read l).run s).state := by
            show ((Query.run read l >>= fun a =>
              Query.run read r >>= fun b => op.run a b).run s).state = _
            rw [Execution.run_bind_of_error (hvaluel.trans h)]
          rw [hstate, tried_binary_of_error h]
          exact hl
      | ok a =>
          -- The right operand runs in the state that the left one leaves,
          -- and the operator changes nothing.
          have hr := ihr (fun i hi => hread i (List.mem_append_right _ hi))
            _ hl.1
          have hstate : ((Query.run read (.binary op l r)).run s).state
              = ((Query.run read r).run ((Query.run read l).run s).state).state :=
            (congrArg Ended.state
              (Execution.run_bind_of_ok (hvaluel.trans h))).trans
              (Execution.state_bind_of_quiet (op.quiet_run a) _)
          rw [hstate, tried_binary_of_ok h]
          refine ⟨hr.1, fun k => ?_⟩
          rw [hr.2, hl.2]
          simp only [List.mem_append, or_and_right, exists_or, or_assoc]

end Effects

end RelAlgebra
