/-
Cutting queries into relations. A subtree of a query can be made a
relation of its own, which the rest of the query then reads. Where the
subtree fails, its error is wrapped twice on the way up and unwrapped
twice, so it arrives as the error that the whole query fails with; where
it succeeds, its rows are read as they are. So a relation made of a query
and one made of any cut of it come to the same.

The errors that relations hold and answer are flat, since the only wrapped
ones that operators meet are those of relations.
-/
import RelAlgebra.Proofs.Query.Failures
import RelAlgebra.Proofs.Store.Transparency

namespace RelAlgebra

-- ============================================================== errors

/-- Whether the error wraps neither that of another relation nor that of a
value in one of a query. -/
def RelationError.Flat : RelationError → Prop
  | .query (.relation _) => False
  | .query (.value _) => False
  | _ => True

/-- The error of a relation is flat if those of the relations below are. -/
theorem RelationError.flat_ofQuery {error : QueryError}
    (h : ∀ e, error = .relation e → e.Flat) : (ofQuery error).Flat := by
  cases error with
  | relation e => exact h e rfl
  | _ => exact trivial

/-- A query that reads relations with flat errors makes a relation with a
flat error, if it fails. -/
theorem Query.raises_flat {ρ : Type} {outcome : ρ → Outcome}
    (houtcome : ∀ i, Raises RelationError.Flat (outcome i)) (q : Query ρ) :
    Raises RelationError.Flat ((q.eval outcome).mapError .ofQuery) := by
  refine Raises.mapError fun error herror => ?_
  refine RelationError.flat_ofQuery fun e he => ?_
  subst he
  obtain ⟨i, -, hi⟩ := Query.exists_leaf_of_eval_eq_relation herror
  exact houtcome i e hi

-- =========================================================== histories

namespace Construction

variable {ρ ρ' : Type}

theorem outcome_map (below : ρ' → Outcome) (f : ρ → ρ')
    (made : Construction ρ) :
    (made.map f).outcome below = made.outcome (below ∘ f) := by
  cases made with
  | ofQuery q => exact congrArg (Except.mapError _) (Query.eval_map below f q)
  | _ => rfl

/-- A relation hands on a flat error as it is, so its own is flat. -/
theorem raises_flat {below : ρ → Outcome}
    (hbelow : ∀ i, Raises RelationError.Flat (below i))
    (made : Construction ρ) : Raises RelationError.Flat (made.outcome below) := by
  cases made with
  | ofRows attributes rows =>
      exact Raises.bind (Raises.mapError fun _ _ => trivial)
        fun _ _ => Raises.ok
  | ofMaps attributes rows =>
      exact Raises.bind (Raises.mapError fun _ _ => trivial)
        fun _ _ => Raises.ok
  | ofResolved r => exact Raises.ok
  | ofQuery q => exact Query.raises_flat hbelow q

end Construction

namespace History

variable {n : Nat}

/-- How the relation of that number was made. -/
def made : {n : Nat} → History n → Fin n → Construction (Fin n)
  | n + 1, .push earlier made, i =>
    if h : i.val < n then
      (earlier.made ⟨i, h⟩).map Fin.castSucc
    else
      made.map Fin.castSucc

theorem outcome_push_castSucc (earlier : History n)
    (made : Construction (Fin n)) :
    (earlier.push made).outcome ∘ Fin.castSucc = earlier.outcome := by
  funext i
  exact outcome_push_of_lt i.isLt

/-- The outcome of a relation is that of how it was made. -/
theorem outcome_made (history : History n) (i : Fin n) :
    history.outcome i = (history.made i).outcome history.outcome := by
  induction history with
  | empty => exact i.elim0
  | @push n earlier last ih =>
      by_cases hi : i.val < n
      · simp only [made, hi, ↓reduceDIte]
        rw [outcome_push_of_lt hi, Construction.outcome_map,
          outcome_push_castSucc, ih]
      · simp only [made, hi, ↓reduceDIte]
        rw [outcome_push_of_not_lt hi, Construction.outcome_map,
          outcome_push_castSucc]

/-- All errors of a history are flat, by induction on it. -/
theorem raises_flat (history : History n) (i : Fin n) :
    Raises RelationError.Flat (history.outcome i) := by
  induction history with
  | empty => exact i.elim0
  | @push n earlier last ih =>
      by_cases hi : i.val < n
      · rw [outcome_push_of_lt hi]
        exact ih ⟨i, hi⟩
      · rw [outcome_push_of_not_lt hi]
        exact Construction.raises_flat ih last

/-- Whether `c` is `q` with subtrees cut off: each of them is replaced by
a relation that was made of it, or of a cut of it in turn. -/
inductive Cut (history : History n) :
    Query (Fin n) → Query (Fin n) → Prop
  | relation (i : Fin n) : Cut history (.relation i) (.relation i)
  | unary (op : UnaryOperator) {q c : Query (Fin n)} (h : Cut history q c) :
    Cut history (.unary op q) (.unary op c)
  | binary (op : BinaryOperator) {l l' r r' : Query (Fin n)}
    (hl : Cut history l l') (hr : Cut history r r') :
    Cut history (.binary op l r) (.binary op l' r')
  | off {i : Fin n} {q c : Query (Fin n)} (hi : history.made i = .ofQuery c)
    (h : Cut history q c) : Cut history q (.relation i)

end History

-- ================================================================ cuts

/-- Wrapped as the error of a relation, and made that of a relation again,
an error stays the same. -/
theorem mapError_ofQuery_relation {α : Type} (x : Except QueryError α) :
    ((x.mapError .ofQuery).mapError .relation).mapError RelationError.ofQuery
      = x.mapError .ofQuery := by
  cases x <;> rfl

/-- A relation comes to the same whether it is made of a query or of a cut
of it. -/
theorem History.Cut.outcome_eq {n : Nat} {history : History n}
    {q c : Query (Fin n)} (h : history.Cut q c) :
    (q.eval history.outcome).mapError RelationError.ofQuery
      = (c.eval history.outcome).mapError RelationError.ofQuery := by
  induction h with
  | relation i => rfl
  | @unary op q c h ih =>
      show (q.eval history.outcome >>= op.apply).mapError _
        = (c.eval history.outcome >>= op.apply).mapError _
      rw [mapError_bind, mapError_bind, ih]
  | @binary op l l' r r' hl hr ihl ihr =>
      show (l.eval history.outcome >>= fun a =>
          r.eval history.outcome >>= op.apply a).mapError _
        = (l'.eval history.outcome >>= fun a =>
          r'.eval history.outcome >>= op.apply a).mapError _
      simp only [mapError_bind, ihl, ihr]
  | @off i q c hi h ih =>
      show _ = ((history.outcome i).mapError QueryError.relation).mapError _
      rw [ih, history.outcome_made, hi]
      exact (mapError_ofQuery_relation _).symm

-- ============================================================= answers

/-- The error of a result that is one. -/
def failure? {ε α : Type} : Except ε α → Option ε
  | .ok _ => none
  | .error e => some e

/-- A failure that shows is one that is raised. -/
theorem Raises.of_failure? {ε α : Type} {E : ε → Prop} {x : Except ε α}
    (hx : Raises E x) {e : ε} (h : failure? x = some e) : E e := by
  cases x with
  | ok a => cases h
  | error e' =>
      cases h
      exact hx e rfl

theorem Raises.map {ε α β : Type} {E : ε → Prop} {x : Except ε α}
    (hx : Raises E x) (f : α → β) : Raises E (x.map f) := by
  cases x with
  | ok a => exact Raises.ok
  | error e => exact Raises.error (hx e rfl)

/-- The error of a relation that an answer shows. -/
def Answer.failure? : Answer → Option RelationError
  | .outcome o => RelAlgebra.failure? o
  | .header h => RelAlgebra.failure? h
  | .tuples ts => RelAlgebra.failure? ts
  | .result (.error (.relation e)) => some e
  | _ => none

/-- Reads of relations with flat errors show flat errors. -/
theorem Read.flat_answer {ρ : Type} (finish : Digest.Finish)
    {outcome : ρ → Outcome}
    (houtcome : ∀ i, Raises RelationError.Flat (outcome i)) (r : Read ρ)
    {e : RelationError} (h : (r.answer finish outcome).failure? = some e) :
    e.Flat := by
  cases r with
  | resolve i => exact (houtcome i).of_failure? h
  | header i => exact ((houtcome i).map _).of_failure? h
  | tuples i => exact ((houtcome i).map _).of_failure? h
  | equal i j => cases h
  | digest i => cases h
  | execute q =>
      simp only [answer] at h
      cases hresult : Query.eval outcome q with
      | ok a => rw [hresult] at h; cases h
      | error error =>
          rw [hresult] at h
          cases error with
          | relation e' =>
              cases h
              obtain ⟨i, -, hi⟩ :=
                Query.exists_leaf_of_eval_eq_relation hresult
              exact houtcome i e hi
          | _ => cases h

/-- Every answer to a program shows a flat error, if it shows one. -/
theorem Archive.flat_answers (finish : Digest.Finish) (program : List Step)
    (a : Archive) {x : Answer} (hx : some x ∈ a.answers finish program)
    {e : RelationError} (he : x.failure? = some e) : e.Flat := by
  induction program generalizing a with
  | nil => cases hx
  | cons step rest ih =>
      rcases List.mem_cons.1 hx with hx | hx
      · cases step with
        | define name made =>
            obtain ⟨_, -, rfl⟩ := Option.map_eq_some_iff.1 hx.symm
            cases he
        | clone name source =>
            obtain ⟨_, -, rfl⟩ := Option.map_eq_some_iff.1 hx.symm
            cases he
        | read r =>
            obtain ⟨r, -, rfl⟩ := Option.map_eq_some_iff.1 hx.symm
            exact r.flat_answer finish a.history.raises_flat he
      · exact ih (a.note step) hx

-- ============================================================ programs

namespace Session

/-- Every relation of an archive is answered with its outcome. -/
theorem ask_resolve_after (finish : Digest.Finish) (program : List Step)
    {name : String} {i : Fin (Archive.ofProgram program).size}
    (h : (Archive.ofProgram program).find? name = some i) :
    (ask finish (.resolve name) (after finish program)).value
      = some (.outcome ((Archive.ofProgram program).history.outcome i)) := by
  rw [ask_after]
  simp [Archive.ask, Read.mapRelations?, h, Read.answer]

/-- Cutting a query into relations changes nothing: after any program, a
relation that was made of a query and one that was made of a cut of it have
the same outcome. And the errors that relations hold, that reading any of
them gives, and that answers show are flat. -/
theorem resolve_cut (finish : Digest.Finish) (program : List Step) :
    let archive := Archive.ofProgram program
    let session := after finish program
    (∀ (a b : String) (i j : Fin archive.size) (q c : Query (Fin archive.size)),
        archive.find? a = some i → archive.find? b = some j →
        archive.history.made i = .ofQuery q →
        archive.history.made j = .ofQuery c → archive.history.Cut q c →
        ∃ o, (ask finish (.resolve a) session).value = some (.outcome o)
          ∧ (ask finish (.resolve b) session).value = some (.outcome o))
      ∧ (∀ i e, session.store.get i = .failed e → e.Flat)
      ∧ (∀ i e, (Store.resolve i session.store).value = .error e → e.Flat)
      ∧ ∀ x e, some x ∈ (run finish program empty).value →
          Answer.failure? x = some e → e.Flat := by
  intro archive session
  have hflat : ∀ i, Raises RelationError.Flat (session.store.outcome i) :=
    (reflects_after finish program).outcome archive.history.raises_flat
  refine ⟨?_, fun i e h => ?_, fun i e h => ?_, fun x e hx he => ?_⟩
  · intro a b i j q c ha hb hi hj hcut
    have hsame : archive.history.outcome i = archive.history.outcome j := by
      rw [History.outcome_made, hi, History.outcome_made, hj]
      exact hcut.outcome_eq
    refine ⟨_, ask_resolve_after finish program ha, ?_⟩
    rw [ask_resolve_after finish program hb, hsame]
  · refine hflat i e ?_
    rw [Store.outcome_get, h]
    rfl
  · refine hflat i e ?_
    rw [← h, Store.value_resolve]
  · rw [(Reflects.run finish program reflects_empty).1] at hx
    exact Archive.flat_answers finish program _ hx he

/-- Steps that make a relation of a query, and one of the query with a
subtree cut off, of which a part has been cut off before. That part fails,
as it sorts a number that is none. -/
def cutSorting : List Step :=
  let rows := [[.float (0.0 / 0.0)], [.float 0.5]]
  let sorted := .unary (.orderBy [⟨"x", .ascending⟩]) (.relation "r")
  [.define "r" (.ofRows [⟨"x", .required .float⟩] rows),
    .define "whole" (.ofQuery
      (.unary (.project ["y"]) (.unary (.rename "y" "x") sorted))),
    .define "sorted" (.ofQuery sorted),
    .define "renamed" (.ofQuery (.unary (.rename "y" "x") (.relation "sorted"))),
    .define "cut" (.ofQuery (.unary (.project ["y"]) (.relation "renamed")))]

/-- The number that is none stops the sort below as it does in one query. -/
theorem resolve_cut_cutSorting :
    ∃ e, (ask (fun _ => 0) (.resolve "whole")
          (after (fun _ => 0) cutSorting)).value
        = some (.outcome (.error (.value e)))
      ∧ (ask (fun _ => 0) (.resolve "cut")
          (after (fun _ => 0) cutSorting)).value
        = some (.outcome (.error (.value e))) := by
  have hsecond : (Archive.ofProgram cutSorting).history.Cut _ _ :=
    .unary (.rename "y" "x") (.off (i := (2 : Fin 5)) rfl
      (.unary (.orderBy [⟨"x", .ascending⟩]) (.relation (0 : Fin 5))))
  obtain ⟨o, hwhole, hcut⟩ := (resolve_cut (fun _ => 0) cutSorting).1
    "whole" "cut" (1 : Fin 5) (4 : Fin 5) _ _ rfl rfl rfl rfl
    (.unary (.project ["y"]) (.off (i := (3 : Fin 5)) rfl hsecond))
  have hvalue : (ask (fun _ => 0) (.resolve "whole")
        (after (fun _ => 0) cutSorting)).value
      = some (.outcome (.error
          (.value (.incompatible (.float 0.5) (.float (0.0 / 0.0)))))) := rfl
  cases hwhole.symm.trans hvalue
  exact ⟨_, hvalue, hcut⟩

end Session

end RelAlgebra
