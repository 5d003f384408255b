/-
The calls that a transform makes of its function. The function may fail, and may
remember things from call to call. It is called on the rows in order, until it
fails or there is no row left, so a collection with a function and what the
function remembers settles all of it: either the function answers on every row,
or there is a first row on which it fails.

To see the calls, the function is made to note the rows it is called on. That
changes nothing else, and whatever is known of runs with any function is known of
runs with this one; so the calls come from the same lemmas as the results. Since
a transform depends on its function only through what the rows are turned into,
transforms that turn each row into the same rows go through the same calls.
-/
import RelAlgebra.Proofs.Tuples.Shelf

namespace RelAlgebra.Tuples

variable {σ ε α β : Type}

-- ====================================================== runs of calls

section Run

variable {x : Calls σ ε α} {k : α → Calls σ ε β} {memory next : σ}

/-- After an error nothing is called, and what is remembered stays. -/
theorem run_bind (x : Calls σ ε α) (k : α → Calls σ ε β) (memory : σ) :
    (x >>= k).run memory = match x.run memory with
      | (.ok a, next) => (k a).run next
      | (.error e, next) => (.error e, next) := by
  rw [ExceptT.run_bind]
  show StateT.bind x.run _ memory = _
  unfold StateT.bind
  rcases x.run memory with ⟨e | a, next⟩
  · rfl
  · rfl

theorem run_bind_of_ok {a : α} (h : x.run memory = (.ok a, next)) :
    (x >>= k).run memory = (k a).run next := by
  rw [run_bind, h]

theorem run_bind_of_error {e : ε} (h : x.run memory = (.error e, next)) :
    (x >>= k).run memory = (.error e, next) := by
  rw [run_bind, h]

end Run

/-- The function answers on all the rows, one after the other, from one memory
to another. -/
inductive Answers (g : Tuple → Calls σ ε α) :
    σ → List Tuple → List α → σ → Prop where
  | nil {memory : σ} : Answers g memory [] [] memory
  | cons {memory next last : σ} {t : Tuple} {rest : List Tuple} {a : α}
      {answers : List α} (hcall : (g t).run memory = (.ok a, next))
      (hrest : Answers g next rest answers last) :
      Answers g memory (t :: rest) (a :: answers) last

/-- The function answers on the rows before `t` and fails on `t`. -/
def FailsAt (g : Tuple → Calls σ ε α) (memory : σ) (before : List Tuple)
    (t : Tuple) (e : ε) (last : σ) : Prop :=
  ∃ answers next, Answers g memory before answers next
    ∧ (g t).run next = (.error e, last)

section Traversal

variable {g : Tuple → Calls σ ε α} {memory last : σ} {rows : List Tuple}
  {answers : List α}

/-- One of the two happens. -/
theorem answers_or_failsAt (g : Tuple → Calls σ ε α) (memory : σ)
    (rows : List Tuple) :
    (∃ answers last, Answers g memory rows answers last)
      ∨ ∃ before t after e last, rows = before ++ t :: after
        ∧ FailsAt g memory before t e last := by
  induction rows generalizing memory with
  | nil => exact .inl ⟨[], memory, .nil⟩
  | cons t rest ih =>
      cases hcall : (g t).run memory with
      | mk answer next =>
          cases answer with
          | error e =>
              exact .inr ⟨[], t, rest, e, next, rfl, [], memory, .nil, hcall⟩
          | ok a =>
              rcases ih next with ⟨answers, last, hrest⟩
                | ⟨before, u, after, e, last, rfl, answers, memory', hbefore, hfail⟩
              · exact .inl ⟨a :: answers, last, .cons hcall hrest⟩
              · exact .inr ⟨t :: before, u, after, e, last, rfl, a :: answers,
                  memory', .cons hcall hbefore, hfail⟩

/-- Calls that all answer give the list of the answers. -/
theorem run_mapM_of_answers (h : Answers g memory rows answers last) :
    (rows.mapM g).run memory = (.ok answers, last) := by
  induction h with
  | nil => rfl
  | cons hcall _ ih =>
      rw [List.mapM_cons, run_bind_of_ok hcall, run_bind_of_ok ih]
      rfl

/-- What stands behind the failing row is not looked at. -/
theorem run_mapM_of_failsAt {before after : List Tuple} {t : Tuple} {e : ε}
    (h : FailsAt g memory before t e last) :
    ((before ++ t :: after).mapM g).run memory = (.error e, last) := by
  obtain ⟨answers, next, hbefore, hfail⟩ := h
  have hrest : ((t :: after).mapM g).run next = (.error e, last) := by
    rw [List.mapM_cons, run_bind_of_error hfail]
  rw [List.mapM_append, run_bind_of_ok (run_mapM_of_answers hbefore),
    run_bind_of_error hrest]

end Traversal

-- ========================================================= noted calls

/-- The function, noting the rows it is called on behind those noted before. -/
def recording (g : Tuple → Calls σ ε α) (t : Tuple) :
    Calls (List Tuple × σ) ε α :=
  fun (called, memory) =>
    let (answer, memory') := (g t).run memory
    (answer, called ++ [t], memory')

section Noting

variable {g : Tuple → Calls σ ε α} {memory last : σ} {rows : List Tuple}
  {answers : List α}

/-- Recording a call changes nothing but the record. -/
theorem run_recording (g : Tuple → Calls σ ε α) (t : Tuple) (called : List Tuple)
    (memory : σ) :
    (recording g t).run (called, memory)
      = Prod.map id (called ++ [t], ·) ((g t).run memory) :=
  rfl

theorem recording_map (f : α → β) (g : Tuple → Calls σ ε α) (t : Tuple) :
    recording (fun t => f <$> g t) t = f <$> recording g t := by
  funext ⟨called, memory⟩
  show Prod.map id _ ((f <$> g t).run memory)
    = (f <$> recording g t).run (called, memory)
  rw [Shelf.run_map_calls, Shelf.run_map_calls]
  rfl

/-- Recorded calls answer as before, and the record lists the rows. -/
theorem Answers.recording (h : Answers g memory rows answers last)
    (called : List Tuple) :
    Answers (recording g) (called, memory) rows answers (called ++ rows, last) := by
  induction h generalizing called with
  | nil =>
      rw [List.append_nil]
      exact .nil
  | @cons memory next last t rest a answers hcall _ ih =>
      have hnoted : (Tuples.recording g t).run (called, memory)
          = (.ok a, called ++ [t], next) := by
        rw [run_recording, hcall]
        rfl
      have hrest := ih (called ++ [t])
      rw [List.append_assoc] at hrest
      exact .cons hnoted hrest

/-- Recorded calls fail where they did, and the record ends with the failing
row. -/
theorem FailsAt.recording {before : List Tuple} {t : Tuple} {e : ε}
    (h : FailsAt g memory before t e last) (called : List Tuple) :
    FailsAt (recording g) (called, memory) before t e
      (called ++ before ++ [t], last) := by
  obtain ⟨answers, next, hbefore, hfail⟩ := h
  refine ⟨answers, (called ++ before, next), hbefore.recording called, ?_⟩
  rw [run_recording, hfail]
  rfl

end Noting

namespace Transform

/-- The transform with its calls noted. -/
def recording : Transform (Calls σ ε) → Transform (Calls (List Tuple × σ) ε)
  | .map f => .map (Tuples.recording f)
  | .filter f => .filter (Tuples.recording f)
  | .flatMap f => .flatMap (Tuples.recording f)
  | .compactMap f => .compactMap (Tuples.recording f)

/-- The rows that the function is called on, in the order of the calls. -/
def called (tr : Transform (Calls σ ε)) (ts : Tuples) (memory : σ) :
    List Tuple :=
  ((tr.recording.apply ts).run ([], memory)).2.1

variable {tr tr' : Transform (Calls σ ε)} {ts : Tuples} {memory last : σ}

/-- The outputs of a recorded transform are recorded. -/
theorem outputs_recording (tr : Transform (Calls σ ε)) :
    tr.recording.outputs = Tuples.recording tr.outputs := by
  funext t
  cases tr with
  | map f => exact (recording_map List.singleton f t).symm
  | filter f => exact (recording_map _ f t).symm
  | flatMap f => rfl
  | compactMap f => exact (recording_map Option.toList f t).symm

-- ============================================================= results

/-- If all calls answer, the outputs are collected in order. -/
theorem run_apply_of_answers {outs : List (List Tuple)}
    (h : Answers tr.outputs memory ts.rows outs last) :
    (tr.apply ts).run memory = (.ok (ofList outs.flatten), last) := by
  rw [apply_eq, Shelf.run_map_calls, run_mapM_of_answers h]
  rfl

/-- If one fails, its error is what the transform comes to. -/
theorem run_apply_of_failsAt {before after : List Tuple} {t : Tuple} {e : ε}
    (hrows : ts.rows = before ++ t :: after)
    (h : FailsAt tr.outputs memory before t e last) :
    (tr.apply ts).run memory = (.error e, last) := by
  rw [apply_eq, Shelf.run_map_calls, hrows, run_mapM_of_failsAt h]
  rfl

theorem called_of_answers {outs : List (List Tuple)}
    (h : Answers tr.outputs memory ts.rows outs last) :
    tr.called ts memory = ts.rows := by
  have hnoted := h.recording []
  rw [← outputs_recording] at hnoted
  unfold called
  rw [run_apply_of_answers hnoted, List.nil_append]

/-- If a call fails, the rows up to the failing one were called. -/
theorem called_of_failsAt {before after : List Tuple} {t : Tuple} {e : ε}
    (hrows : ts.rows = before ++ t :: after)
    (h : FailsAt tr.outputs memory before t e last) :
    tr.called ts memory = before ++ [t] := by
  have hnoted := h.recording []
  rw [← outputs_recording] at hnoted
  unfold called
  rw [run_apply_of_failsAt hrows hnoted, List.nil_append]

-- =========================================================== agreement

/-- The transforms do the same with every collection: they give the same, fail
the same, leave the same memory, and make the same calls. -/
def Agrees (tr tr' : Transform (Calls σ ε)) : Prop :=
  ∀ ts memory, (tr.apply ts).run memory = (tr'.apply ts).run memory
    ∧ tr.called ts memory = tr'.called ts memory

/-- Transforms with the same outputs agree in everything. -/
theorem agrees_of_outputs (h : tr.outputs = tr'.outputs) : tr.Agrees tr' := by
  intro ts memory
  have happly : tr.apply ts = tr'.apply ts := by rw [apply_eq, apply_eq, h]
  have hnoted : tr.recording.apply ts = tr'.recording.apply ts := by
    rw [apply_eq, apply_eq, outputs_recording, outputs_recording, h]
  exact ⟨by rw [happly], by unfold called; rw [hnoted]⟩

/-- A filter is a compact map that keeps the row or nothing. -/
theorem filter_agrees_compactMap (p : Tuple → Calls σ ε Bool) :
    (filter p).Agrees
      (compactMap fun t => (fun keep => if keep then some t else none) <$> p t) := by
  refine agrees_of_outputs (funext fun t => ?_)
  rw [outputs, outputs, Functor.map_map]
  refine congrArg (· <$> p t) (funext fun keep => ?_)
  cases keep <;> rfl

/-- A map is a compact map that drops nothing. -/
theorem map_agrees_compactMap (f : Tuple → Calls σ ε Tuple) :
    (map f).Agrees (compactMap fun t => some <$> f t) := by
  refine agrees_of_outputs (funext fun t => ?_)
  rw [outputs, outputs, Functor.map_map]
  rfl

theorem map_agrees_flatMap (f : Tuple → Calls σ ε Tuple) :
    (map f).Agrees (flatMap fun t => (fun u => [u]) <$> f t) :=
  agrees_of_outputs rfl

end Transform

/-- Transforms stop at the first failure. If the function answers on all rows, it
has been called on each of them, in order, and the result lists the first
occurrences of all that came out; otherwise it has been called on the rows up to
the first on which it fails, and that failure is the result. A filter is a map
that keeps or drops each row, and a map to rows is a map to rows that may be
absent, and one to lists of one row. -/
theorem transforms_stop_and_agree (σ ε : Type) :
    (∀ (tr : Transform (Calls σ ε)) (ts : Tuples) (memory : σ),
      (∃ outs last us, Answers tr.outputs memory ts.rows outs last
          ∧ (tr.apply ts).run memory = (.ok us, last)
          ∧ us.rows = outs.flatten.eraseDups
          ∧ tr.called ts memory = ts.rows)
        ∨ ∃ before t after e last, ts.rows = before ++ t :: after
          ∧ FailsAt tr.outputs memory before t e last
          ∧ (tr.apply ts).run memory = (.error e, last)
          ∧ tr.called ts memory = before ++ [t])
    ∧ (∀ p : Tuple → Calls σ ε Bool,
      (Transform.filter p).Agrees (.compactMap fun t =>
        (fun keep => if keep then some t else none) <$> p t))
    ∧ ∀ f : Tuple → Calls σ ε Tuple,
      (Transform.map f).Agrees (.compactMap fun t => some <$> f t)
        ∧ (Transform.map f).Agrees (.flatMap fun t => (fun u => [u]) <$> f t) := by
  refine ⟨fun tr ts memory => ?_, Transform.filter_agrees_compactMap,
    fun f => ⟨Transform.map_agrees_compactMap f, Transform.map_agrees_flatMap f⟩⟩
  rcases answers_or_failsAt tr.outputs memory ts.rows with
    ⟨outs, last, h⟩ | ⟨before, t, after, e, last, hrows, h⟩
  · exact .inl ⟨outs, last, ofList outs.flatten, h,
      Transform.run_apply_of_answers h, rows_ofList _,
      Transform.called_of_answers h⟩
  · exact .inr ⟨before, t, after, e, last, hrows, h,
      Transform.run_apply_of_failsAt hrows h,
      Transform.called_of_failsAt hrows h⟩

end RelAlgebra.Tuples
