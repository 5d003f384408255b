/-
Memoisation is transparent. An archive keeps how each relation was made
and evaluates it anew for every read; a session keeps cells, and reads
them. The two give the same answers to every program: a session always
stands for the outcomes that the archive of the same steps has, as making
and naming relations keeps this, and reads change neither the archive nor
what the session stands for. As an archive takes no notice of reads, the
reads that come before one have no influence on what it answers.
-/
import RelAlgebra.Proofs.Store.Outcome

namespace RelAlgebra

-- =========================================================== histories

/-- The cell of a new relation stands for the outcome of making it. -/
theorem Construction.outcome_cell {ρ : Type} (below : ρ → Outcome)
    (made : Construction ρ) :
    made.cell.1.outcome below = made.outcome below := by
  cases made with
  | ofRows attributes rows =>
      simp only [cell, literal, outcome]
      cases Header.ofAttributes attributes <;> rfl
  | ofMaps attributes rows =>
      simp only [cell, literal, outcome]
      cases Header.ofAttributes attributes <;> rfl
  | ofResolved r => rfl
  | ofQuery q => rfl

namespace History

variable {n : Nat} {history : History n} {made : Construction (Fin n)}

theorem outcome_push_of_lt {i : Fin (n + 1)} (h : i.val < n) :
    (history.push made).outcome i = history.outcome ⟨i, h⟩ := by
  simp [outcome, h]

theorem outcome_push_of_not_lt {i : Fin (n + 1)} (h : ¬i.val < n) :
    (history.push made).outcome i = made.outcome history.outcome := by
  simp [outcome, h]

/-- A store in which nothing has been read stands for the outcomes of the
history of its relations. -/
theorem outcome_store_push {earlier : Store n}
    (h : earlier.outcome = history.outcome) :
    (Store.push earlier made.cell.1).outcome
      = (history.push made).outcome := by
  funext i
  by_cases hi : i.val < n
  · rw [Store.outcome_push_of_lt hi, outcome_push_of_lt hi, h]
  · rw [Store.outcome_push_of_not_lt hi, outcome_push_of_not_lt hi,
      Construction.outcome_cell, h]

end History

-- ============================================================ archives

/-- How the relations of a session were made, with their names. -/
structure Archive where
  size : Nat
  history : History size
  names : List (String × Fin size)

namespace Archive

/-- The archive without relations. -/
def empty : Archive := ⟨0, .empty, []⟩

/-- The relation of that name. -/
def find? (a : Archive) (name : String) : Option (Fin a.size) :=
  a.names.lookup name

/-- Notes down a step; reads are not noted. -/
def note (a : Archive) : Step → Archive
  | .define name made =>
    match made.mapRelations? a.find? with
    | some made =>
      let names := a.names.map fun (other, i) => (other, i.castSucc)
      ⟨a.size + 1, .push a.history made, (name, Fin.last a.size) :: names⟩
    | none => a
  | .clone name source =>
    match a.find? source with
    | some i => { a with names := (name, i) :: a.names }
    | none => a
  | .read _ => a

/-- What a read answers, every relation being evaluated from its
history. -/
def ask (finish : Digest.Finish) (a : Archive) (r : Read String) :
    Option Answer :=
  (r.mapRelations? a.find?).map (·.answer finish a.history.outcome)

/-- What a step answers. -/
def answer (finish : Digest.Finish) (a : Archive) : Step → Option Answer
  | .define _ made => (made.mapRelations? a.find?).map fun _ => .named
  | .clone _ source => (a.find? source).map fun _ => .named
  | .read r => a.ask finish r

/-- All answers to the steps of a program. -/
def answers (finish : Digest.Finish) :
    Archive → List Step → List (Option Answer)
  | _, [] => []
  | a, step :: rest => a.answer finish step :: answers finish (a.note step) rest

/-- The archive of a program. -/
def ofProgram (program : List Step) : Archive := program.foldl note empty

end Archive

-- A property that every construction of a program keeps is one of all
-- relations that the program makes.

/-- Whether the construction makes a `P` of relations that are all `P`,
whichever they are. -/
def Construction.Keeps (P : Outcome → Prop) (made : Construction String) :
    Prop :=
  ∀ {ρ : Type} (find? : String → Option ρ) (below : ρ → Outcome)
    (made' : Construction ρ), made.mapRelations? find? = some made' →
      (∀ i, P (below i)) → P (made'.outcome below)

/-- Whether the step makes a `P`, if it makes a relation. -/
def Step.Keeps (P : Outcome → Prop) : Step → Prop
  | .define _ made => made.Keeps P
  | _ => True

namespace Archive

variable {P : Outcome → Prop}

/-- A step that keeps a property of outcomes keeps it of all. -/
theorem outcome_note {a : Archive} (h : ∀ i, P (a.history.outcome i))
    {step : Step} (hstep : step.Keeps P) :
    ∀ i, P ((a.note step).history.outcome i) := by
  unfold note
  cases step with
  | define name made =>
      dsimp only
      cases hmade : made.mapRelations? a.find? with
      | none => exact h
      | some made' =>
          intro i
          by_cases hi : i.val < a.size
          · rw [History.outcome_push_of_lt hi]
            exact h ⟨i, hi⟩
          · rw [History.outcome_push_of_not_lt hi]
            exact hstep a.find? a.history.outcome made' hmade h
  | clone name source =>
      dsimp only
      cases a.find? source <;> exact h
  | read r => exact h

/-- So it holds of all relations of a program, by induction on it. -/
theorem outcome_ofProgram {program : List Step}
    (hprogram : ∀ step ∈ program, step.Keeps P) :
    ∀ i, P ((ofProgram program).history.outcome i) := by
  have hfold : ∀ a : Archive, (∀ i, P (a.history.outcome i)) →
      ∀ i, P ((program.foldl note a).history.outcome i) := by
    induction program with
    | nil => exact fun _ h => h
    | cons step rest ih =>
        intro a h
        refine ih (fun step hmem => ?_) (a.note step) ?_
        · exact hprogram step (List.mem_cons_of_mem _ hmem)
        · exact outcome_note h (hprogram step (List.mem_cons_self ..))
  exact hfold empty fun i => i.elim0

end Archive

/-- Whether the step makes a relation or names one, and so does not just
read. -/
def Step.isConstruction : Step → Bool
  | .read _ => false
  | _ => true

/-- Only constructions are noted. -/
theorem Archive.foldl_note_filter (a : Archive) (program : List Step) :
    (program.filter Step.isConstruction).foldl Archive.note a
      = program.foldl Archive.note a := by
  induction program generalizing a with
  | nil => rfl
  | cons step rest ih =>
      cases step with
      | define name made => exact ih _
      | clone name source => exact ih _
      | read r => exact ih a

-- ============================================================ sessions

/-- The session has the relations of the archive, under the same names,
and its cells stand for their outcomes. -/
inductive Session.Reflects : Session → Archive → Prop where
  | intro {n : Nat} {store : Store n} {history : History n}
    {names : List (String × Fin n)} (h : store.outcome = history.outcome) :
    Reflects ⟨n, store, names⟩ ⟨n, history, names⟩

namespace Session

variable {s : Session} {a : Archive}

theorem reflects_empty : Reflects .empty .empty := by
  refine .intro ?_
  funext i
  exact i.elim0

/-- A read is answered as from the archive, and the session goes on to
reflect it. -/
theorem Reflects.ask (finish : Digest.Finish) (h : Reflects s a)
    (r : Read String) :
    (Session.ask finish r s).value = a.ask finish r
      ∧ Reflects (Session.ask finish r s).state a := by
  cases h with
  | @intro n store history names h =>
      have hfind : find? ⟨n, store, names⟩
          = Archive.find? ⟨n, history, names⟩ := rfl
      unfold Session.ask Archive.ask
      rw [hfind]
      cases r.mapRelations? (Archive.find? ⟨n, history, names⟩) with
      | none => exact ⟨rfl, .intro h⟩
      | some r =>
          obtain ⟨hvalue, hstate⟩ := Read.answers_run finish r store h
          exact ⟨congrArg some hvalue, .intro hstate⟩

/-- Every step is answered as from the archive, and the session goes on to
reflect it. -/
theorem Reflects.step (finish : Digest.Finish) (h : Reflects s a)
    (step : Step) :
    (Session.step finish step s).value = a.answer finish step
      ∧ Reflects (Session.step finish step s).state (a.note step) := by
  cases step with
  | define name made =>
      cases h with
      | @intro n store history names h =>
          have hfind : find? ⟨n, store, names⟩
              = Archive.find? ⟨n, history, names⟩ := rfl
          unfold Session.step Archive.answer Archive.note
          dsimp only
          rw [hfind]
          cases made.mapRelations? (Archive.find? ⟨n, history, names⟩) with
          | none => exact ⟨rfl, .intro h⟩
          | some made => exact ⟨rfl, .intro (History.outcome_store_push h)⟩
  | clone name source =>
      cases h with
      | @intro n store history names h =>
          have hfind : find? ⟨n, store, names⟩
              = Archive.find? ⟨n, history, names⟩ := rfl
          unfold Session.step Archive.answer Archive.note
          dsimp only
          rw [hfind]
          cases Archive.find? ⟨n, history, names⟩ source with
          | none => exact ⟨rfl, .intro h⟩
          | some i => exact ⟨rfl, .intro h⟩
  | read r => exact h.ask finish r

/-- A whole program is answered as from the archive. -/
theorem Reflects.run (finish : Digest.Finish) (program : List Step) :
    ∀ {s : Session} {a : Archive}, Reflects s a →
      (Session.run finish program s).value = a.answers finish program
        ∧ Reflects (Session.run finish program s).state
            (program.foldl Archive.note a) := by
  induction program with
  | nil => exact fun h => ⟨rfl, h⟩
  | cons step rest ih =>
      intro s a h
      obtain ⟨hvalue, hstate⟩ := h.step finish step
      obtain ⟨hvalues, hstates⟩ := ih hstate
      refine ⟨?_, hstates⟩
      show (Session.step finish step s).value
          :: (Session.run finish rest (Session.step finish step s).state).value
        = _
      rw [hvalue, hvalues]
      rfl

/-- After any program the archive reflects the session. -/
theorem reflects_after (finish : Digest.Finish) (program : List Step) :
    Reflects (after finish program) (Archive.ofProgram program) :=
  (Reflects.run finish program reflects_empty).2

/-- What the relations of an archive have in common, the cells of the
session stand for. -/
theorem Reflects.outcome {P : Outcome → Prop} (h : Reflects s a)
    (ha : ∀ i, P (a.history.outcome i)) : ∀ i, P (s.store.outcome i) := by
  cases h with
  | @intro n store history names h =>
      show ∀ i, P (store.outcome i)
      rw [h]
      exact ha

/-- What is asked after a program is answered from its archive. -/
theorem ask_after (finish : Digest.Finish) (program : List Step)
    (r : Read String) :
    (ask finish r (after finish program)).value
      = (Archive.ofProgram program).ask finish r :=
  ((reflects_after finish program).ask finish r).1

/-- Memoisation is transparent: every answer to every program is the one
that evaluation from scratch gives; so it depends on how relations were
made and named, and not on which were read before. -/
theorem run_eq_answers (finish : Digest.Finish) (program : List Step) :
    (run finish program empty).value = Archive.empty.answers finish program
      ∧ ∀ program' : List Step,
          program'.filter Step.isConstruction
            = program.filter Step.isConstruction →
          ∀ r : Read String,
            (ask finish r (after finish program')).value
              = (ask finish r (after finish program)).value := by
  refine ⟨(Reflects.run finish program reflects_empty).1, ?_⟩
  intro program' hsame r
  rw [ask_after, ask_after]
  unfold Archive.ofProgram
  rw [← Archive.foldl_note_filter, hsame, Archive.foldl_note_filter]

/-- Steps that make a relation and that of its pairs, with `reads` in
between. -/
def pairing (reads : List Step) : List Step :=
  [.define "r"
    (.ofRows [⟨"x", .required .integer⟩] [[.integer 1], [.integer 2]]),
    .define "s" (.ofQuery (.unary (.rename "y" "x") (.relation "r")))]
  ++ reads
  ++ [.define "p"
    (.ofQuery (.binary (.basic .product) (.relation "r") (.relation "s")))]

/-- Reads between the steps of a program do not change what it answers. -/
theorem run_eq_answers_pairing :
    let reads := [.read (.resolve "s"), .read (.equal "r" "s")]
    (pairing reads).filter Step.isConstruction
        = (pairing []).filter Step.isConstruction
      ∧ (ask (fun _ => 0) (.resolve "p")
          (after (fun _ => 0) (pairing reads))).value
        = (ask (fun _ => 0) (.resolve "p")
          (after (fun _ => 0) (pairing []))).value :=
  ⟨rfl, (run_eq_answers (fun _ => 0) (pairing [])).2 _ rfl (.resolve "p")⟩

end Session

end RelAlgebra
