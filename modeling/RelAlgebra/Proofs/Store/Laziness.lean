/-
Resolution is lazy, exact and once-only. In a run of any program a cell
only goes from pending to an outcome, which it holds for good, and no query
is started twice; making relations, naming them and looking at them changes
no cell. And reading a relation evaluates just what its query has to try:
everything that can be come to if it succeeds, each query and each operator
once, and nothing to the right of an operand that fails.
-/
import RelAlgebra.Proofs.Query.Once
import RelAlgebra.Proofs.Store.Cells
import RelAlgebra.Proofs.Store.Forcing
import RelAlgebra.Store.Program

namespace RelAlgebra

open Relation (ReflTransGen)

-- ============================================================= reading

/-- The reports of reading relation `k` with success: it was evaluated
before, or its query is run once, by the cells that there were before. -/
inductive ReadsOnce (cells : List (Cell Nat)) :
    Nat → Resolved → List Event → Prop
  | kept {k : Nat} {r : Resolved} :
    ReadsOnce cells k r [.acquired k, .cacheHit, .released k]
  | run {k : Nat} {q : Query Nat} {a : Resolved} {es : List Event}
    (hk : cells[k]? = some (.pending q))
    (h : QueryTree.RunsOnce BinaryOperator.name BinaryOperator.RunsOnce
      (ReadsOnce cells) q a es) :
    ReadsOnce cells k a (.acquired k :: .started k :: es ++ [.released k])

namespace Store

variable {n : Nat}

/-- Reading keeps a store one that is evaluated further than the start. -/
theorem keeps_continues (start : Store n) (i : Fin n) :
    Run.Does (Keeps (Continues start)) (resolve i) :=
  fun s hs => (adds_resolve start i s hs).1

/-- Whether the pending cells of the store are pending in `cells`, with the
same queries. -/
def PendingIn (cells : List (Cell Nat)) (s : Store n) : Prop :=
  ∀ i q, s.get i = .pending q →
    cells[i.val]? = some (.pending (QueryTree.map Fin.val q))

/-- A store has its own pending cells. -/
theorem pendingIn_cells (s : Store n) : PendingIn s.cells s := by
  intro i q hi
  rw [getElem?_cells, hi]
  rfl

section Push

variable {cells : List (Cell Nat)} {earlier : Store n} {cell : Cell (Fin n)}

/-- What holds of all cells holds of the earlier ones. -/
theorem PendingIn.of_push (h : PendingIn cells (push earlier cell)) :
    PendingIn cells earlier := by
  intro i q hi
  have hcell := h i.castSucc (QueryTree.map Fin.castSucc q)
    (by rw [get_push_castSucc, hi]; rfl)
  rwa [QueryTree.map_map] at hcell

theorem PendingIn.last {q : Query (Fin n)}
    (h : PendingIn cells (push earlier (.pending q))) :
    cells[n]? = some (.pending (QueryTree.map Fin.val q)) := by
  have hcell := h (Fin.last n) (QueryTree.map Fin.castSucc q)
    (by rw [get_push_last]; rfl)
  rwa [QueryTree.map_map] at hcell

end Push

/-- A relation that was evaluated before is reported to be kept. -/
theorem readsOnce_read_ofOutcome {cells : List (Cell Nat)} {o : Outcome}
    {s : Store n} {r : Resolved}
    (h : ((Cell.ofOutcome o).read n resolve s).value = .ok r) :
    ReadsOnce cells n r
      (.acquired n :: ((Cell.ofOutcome o).read n resolve s).events
        ++ [.released n]) := by
  cases o with
  | ok r => exact .kept
  | error e => cases h

/-- Reading a relation with success reads it once. The induction is on the
number of cells; `start` is the store before the reading, which may be part
of a longer one. -/
theorem readsOnce_resolve {cells : List (Cell Nat)} : ∀ {n : Nat}
    {start s : Store n} {i : Fin n} {r : Resolved}, PendingIn cells start →
    Continues start s → (resolve i s).value = .ok r →
    ReadsOnce cells i r (resolve i s).events := by
  intro n
  induction n with
  | zero => intro _ _ i; exact i.elim0
  | succ n ih =>
      intro start s i r hcells hs h
      induction i using Fin.lastCases with
      | cast i =>
          cases hs with
          | kept hs cell =>
              rw [resolve_push_castSucc] at h ⊢
              exact ih hcells.of_push hs h
          | settled hs htried =>
              rw [resolve_push_castSucc] at h ⊢
              exact ih hcells.of_push hs h
      | last =>
          rw [Fin.val_last]
          cases hs with
          | settled hs htried =>
              rw [resolve_push_last] at h ⊢
              exact readsOnce_read_ofOutcome h
          | @kept _ start earlier hs cell =>
              rw [resolve_push_last] at h ⊢
              rcases cell.eq_pending_or_ofOutcome with ⟨q, rfl⟩ | ⟨o, rfl⟩
              · rw [Cell.read_pending] at h ⊢
                have hrows : ((Query.run resolve q).run earlier).value
                    = .ok r := eq_ok_of_mapError_eq_ok h
                have hquery := Query.runsOnce_run
                  (fun j (_ : j ∈ q.leaves) => keeps_continues start j)
                  (fun j _ s a hs ha => ih hcells.of_push hs ha) hs hrows
                exact .run hcells.last hquery.map
              · exact readsOnce_read_ofOutcome h

-- ============================================================ laziness

/-- What reading relation `i` does to the cells and reports. -/
structure ResolvesLazily (s : Store n) (i : Fin n) : Prop where
  progress : Progress s.cells (resolve i s).events (resolve i s).state.cells
  /-- Cells that can not be come to from the relation stay as they are. -/
  confined : ∀ k, (resolve i s).state.get k ≠ s.get k → s.Reaches i k
  /-- The cells that change are exactly those that have to be tried. -/
  forced : ∀ k, (s.Forces i k →
      (resolve i s).state.get k = .ofOutcome (s.outcome k))
    ∧ (¬s.Forces i k → (resolve i s).state.get k = s.get k)
  /-- With success, all that can be come to has rows. -/
  complete : ∀ r, (resolve i s).value = .ok r → ∀ k, s.Reaches i k →
    ∃ a, (resolve i s).state.get k = .resolved a
  /-- With success, every node of the queries is run once. -/
  once : ∀ r, (resolve i s).value = .ok r →
    ReadsOnce s.cells i r (resolve i s).events
  /-- Where the left operand of an operator fails, in the query of any
  relation, what can be come to only by the right operand stays as it is. -/
  leftFirst : ∀ (m : Fin n) (q l r : Query (Fin n)) (op : BinaryOperator)
    (before : List (Fin n)) (e : QueryError), s.get m = .pending q →
    QueryTree.Stands (.binary op l r) before q →
    (execute l s).value = .error e →
    ∀ k, (resolve i s).state.get k ≠ s.get k →
      ReflTransGen (fun a b => s.Reads a b ∧ (a = m → b ∈ before ++ l.leaves))
        i k

/-- Only cells that are forced change. -/
theorem forces_of_get_resolve_ne {s : Store n} {i k : Fin n}
    (h : (resolve i s).state.get k ≠ s.get k) : s.Forces i k := by
  by_contra hforces
  exact h (get_resolve_of_not_forces hforces)

/-- Every read is lazy. -/
theorem resolvesLazily (s : Store n) (i : Fin n) : s.ResolvesLazily i where
  progress := progresses_resolve i s
  confined k hk := (forces_of_get_resolve_ne hk).reaches
  forced k := ⟨get_resolve_of_forces, get_resolve_of_not_forces⟩
  complete r hr k hk := by
    rw [value_resolve] at hr
    obtain ⟨hforces, a, ha⟩ := forces_of_reaches hr hk
    refine ⟨a, ?_⟩
    rw [get_resolve_of_forces hforces, ha]
    rfl
  once r hr := readsOnce_resolve (pendingIn_cells s) (.refl s) hr
  leftFirst m q l r op before e hm hstands hl k hk := by
    rw [value_execute] at hl
    exact (forces_of_get_resolve_ne hk).reaches_left hm hstands hl

end Store

-- ============================================================ programs

/-- What a program can do: a step, or a look at a relation as it is. -/
inductive Action where
  | step (step : Step)
  /-- Whether the relation has been evaluated. -/
  | isResolved (name : String)
  /-- The relation as it shows itself. -/
  | inspect (name : String)

/-- Whether the action asks for a result, for which relations may have to
be evaluated. -/
def Action.isRead : Action → Bool
  | .step (.read _) => true
  | _ => false

/-- What an action answers. -/
inductive Reply where
  | step (answer : Option Answer)
  | isResolved (evaluated : Option Bool)
  | inspect (text : Option String)

namespace Session

/-- Does one action. -/
def act (finish : Digest.Finish) : Action → Run Session Reply
  | .step step => do return .step (← Session.step finish step)
  | .isResolved name => fun s =>
    ⟨.isResolved ((s.find? name).map fun i => (s.store.get i).isResolved), s, []⟩
  | .inspect name => fun s =>
    ⟨.inspect ((s.find? name).map fun i => (s.store.get i).inspect), s, []⟩

/-- Does actions in order, with all their replies. -/
def perform (finish : Digest.Finish) : List Action → Run Session (List Reply)
  | [] => return []
  | action :: rest => do
    let reply ← act finish action
    return reply :: (← perform finish rest)

/-- Progress in the cells of sessions. -/
def Progresses (s : Session) (es : List Event) (s' : Session) : Prop :=
  Progress s.store.cells es s'.store.cells

theorem sequential_progresses : Sequential Progresses where
  nothing s := Progress.nil s.store.cells
  note s _ he := Progress.note s.store.cells he
  append h h' := Progress.append h h'

theorem events_act_step (finish : Digest.Finish) (step : Step) (s : Session) :
    (act finish (.step step) s).events = (Session.step finish step s).events :=
  List.append_nil _

/-- What is not a read leaves all cells as they are, and starts no
query. -/
theorem act_of_not_isRead (finish : Digest.Finish) {action : Action}
    (h : action.isRead = false) (s : Session) :
    s.store.cells <+: (act finish action s).state.store.cells
      ∧ startedIn (act finish action s).events = [] := by
  cases action with
  | isResolved name => exact ⟨List.prefix_rfl, rfl⟩
  | inspect name => exact ⟨List.prefix_rfl, rfl⟩
  | step step =>
      rw [events_act_step]
      change _ <+: (Session.step finish step s).state.store.cells ∧ _
      cases step with
      | read r => cases h
      | clone name source =>
          simp only [Session.step]
          cases s.find? source <;> exact ⟨List.prefix_rfl, rfl⟩
      | define name made =>
          simp only [Session.step]
          cases made.mapRelations? s.find? with
          | none => exact ⟨List.prefix_rfl, rfl⟩
          | some made =>
              exact ⟨List.prefix_append _ _, startedIn_eq_nil made.isNote_cell⟩

theorem progresses_ask (finish : Digest.Finish) (r : Read String) :
    Run.Does Progresses (ask finish r) := by
  intro s
  unfold ask
  cases r.mapRelations? s.find? with
  | none => exact Progress.nil s.store.cells
  | some r =>
      have hrun := Run.Does.bind Store.sequential_progresses
        (r.does_run Store.sequential_progresses Store.progresses_resolve finish)
        fun a => Run.Does.pure Store.sequential_progresses (some a)
      exact hrun s.store

theorem progresses_act (finish : Digest.Finish) (action : Action) :
    Run.Does Progresses (act finish action) := by
  intro s
  cases hread : action.isRead with
  | false =>
      obtain ⟨hcells, hstarted⟩ := act_of_not_isRead finish hread s
      exact Progress.of_isPrefix hcells hstarted
  | true =>
      match action, hread with
      | .step (.read r), _ =>
          exact Run.Does.bind sequential_progresses (progresses_ask finish r)
            (fun _ => Run.Does.pure sequential_progresses _) s

/-- Any number of actions makes progress. -/
theorem progresses_perform (finish : Digest.Finish) (actions : List Action) :
    Run.Does Progresses (perform finish actions) := by
  induction actions with
  | nil => exact Run.Does.pure sequential_progresses _
  | cons action rest ih =>
      exact Run.Does.bind sequential_progresses (progresses_act finish action)
        fun _ => Run.Does.bind sequential_progresses ih
          fun _ => Run.Does.pure sequential_progresses _

/-- Resolution is lazy, exact and once-only. At any point of a run, and
however it goes on, cells make progress, which says that they go from
pending to an outcome and stay there, and that no query is started twice;
what is not a read changes no cell; and reading any relation does what its
result needs, once, and no more. -/
theorem perform_lazy (finish : Digest.Finish) (before after : List Action) :
    let s := (perform finish before empty).state
    Progress s.store.cells (perform finish after s).events
        (perform finish after s).state.store.cells
      ∧ (∀ action : Action, action.isRead = false →
          s.store.cells <+: (act finish action s).state.store.cells)
      ∧ ∀ i : Fin s.size, s.store.ResolvesLazily i := by
  intro s
  refine ⟨progresses_perform finish after s, fun action haction => ?_, ?_⟩
  · exact (act_of_not_isRead finish haction s).1
  · exact s.store.resolvesLazily

/-- Actions that make a right semi join whose left operand fails. -/
def failingLeft : List Action :=
  [.step (.define "r" (.ofRows [⟨"x", .required .integer⟩] [[.integer 1]])),
    .step (.define "left" (.ofQuery (.unary (.project ["y"]) (.relation "r")))),
    .step (.define "right"
      (.ofQuery (.unary (.rename "y" "x") (.relation "r")))),
    .step (.define "joined" (.ofQuery
      (.binary (.semiJoin .right) (.relation "left") (.relation "right"))))]

theorem perform_lazy_failingLeft :
    let s := (perform (fun _ => 0) failingLeft empty).state
    (s.store.get (2 : Fin 4)).isResolved = false
      ∧ ((Store.resolve (3 : Fin 4) s.store).state.get 2).isResolved = false := by
  intro s
  have hleft := ((perform_lazy (fun _ => 0) failingLeft []).2.2
    (3 : Fin 4)).leftFirst (3 : Fin 4) _ _ _ _ [] _ rfl .here rfl
  refine ⟨rfl, ?_⟩
  by_cases hsame : (Store.resolve (3 : Fin 4) s.store).state.get 2
      = s.store.get (2 : Fin 4)
  · rw [hsame]
    rfl
  · -- From the join there is a way to its left operand, from there one to
    -- the rows, and none any further.
    rcases (hleft (2 : Fin 4) hsame).cases_head with h | ⟨c, ⟨-, hc⟩, h⟩
    · cases h
    rw [show c = (1 : Fin 4) from List.mem_singleton.1 (hc rfl)] at h
    rcases h.cases_head with h | ⟨c, ⟨hc, -⟩, h⟩
    · cases h
    rw [show c = (0 : Fin 4) from List.mem_singleton.1 hc] at h
    rcases h.cases_head with h | ⟨c, ⟨hc, -⟩, h⟩
    · cases h
    · cases hc

end Session

end RelAlgebra
