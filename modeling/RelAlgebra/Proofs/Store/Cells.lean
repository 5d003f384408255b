/-
The cells of a store as a list, and how they change. Relations go by their
numbers here, which stay the same when the store grows.

`Progress` says what may happen to cells and what is reported of it: a cell
stays as it is, or it was pending, its query is started and it comes to
hold an outcome; and a query that is started belonged to a pending cell and
is not started again, since its cell holds an outcome from then on. Doing
nothing is progress, one progress after another is one, and reading a
relation is progress in the cells of its store.
-/
import RelAlgebra.Proofs.Store.Outcome

namespace RelAlgebra

/-- An element of a list with one more is one of the list, or the last. -/
theorem getElem?_concat_eq_some_iff {α : Type} {l : List α} {a b : α}
    {k : Nat} :
    (l ++ [a])[k]? = some b ↔ l[k]? = some b ∨ k = l.length ∧ a = b := by
  rcases Nat.lt_trichotomy k l.length with h | h | h
  · simp [List.getElem?_append_left h, Nat.ne_of_lt h]
  · simp [h]
  · have hout : (l ++ [a]).length ≤ k := by
      rw [List.length_append]
      exact h
    rw [List.getElem?_eq_none hout, List.getElem?_eq_none (Nat.le_of_lt h)]
    simp [Nat.ne_of_gt h]

/-- What a list has, its extensions have at the same place. -/
theorem getElem?_of_isPrefix {α : Type} {l l' : List α} {a : α} {k : Nat}
    (h : l <+: l') (hk : l[k]? = some a) : l'[k]? = some a := by
  obtain ⟨new, rfl⟩ := h
  obtain ⟨hlt, -⟩ := List.getElem?_eq_some_iff.1 hk
  rwa [List.getElem?_append_left hlt]

-- =============================================================== cells

namespace Cell

variable {ρ : Type}

/-- Whether the cell stays as it is, or is pending and comes to hold an
outcome. -/
def SettlesTo (cell cell' : Cell ρ) : Prop :=
  cell' = cell ∨ cell.isResolved = false ∧ ∃ o, cell' = .ofOutcome o

/-- A cell that settles in two steps settles. -/
theorem SettlesTo.trans {cell cell' cell'' : Cell ρ}
    (h : cell.SettlesTo cell') (h' : cell'.SettlesTo cell'') :
    cell.SettlesTo cell'' := by
  rcases h with rfl | ⟨hpending, o, rfl⟩
  · exact h'
  · rcases h' with rfl | ⟨hpending', -⟩
    · exact .inr ⟨hpending, o, rfl⟩
    · simp at hpending'

/-- A cell that is pending has been pending all the time. -/
theorem SettlesTo.eq_of_pending {cell cell' : Cell ρ}
    (h : cell.SettlesTo cell') (hpending : cell'.isResolved = false) :
    cell' = cell := by
  rcases h with h | ⟨-, o, rfl⟩
  · exact h
  · simp at hpending

/-- A cell that holds an outcome holds it for good. -/
theorem SettlesTo.eq_of_ofOutcome {o : Outcome} {cell' : Cell ρ}
    (h : (ofOutcome o).SettlesTo cell') : cell' = .ofOutcome o := by
  rcases h with h | ⟨hpending, -⟩
  · exact h
  · simp at hpending

end Cell

namespace Store

variable {n : Nat}

/-- The cells in the order of their numbers. -/
def cells : {n : Nat} → Store n → List (Cell Nat)
  | _, .empty => []
  | _, .push earlier cell => earlier.cells ++ [cell.map Fin.val]

@[simp]
theorem length_cells (s : Store n) : s.cells.length = n := by
  induction s with
  | empty => rfl
  | push earlier cell ih => simp [cells, ih]

/-- They are listed by their numbers. -/
theorem getElem?_cells (s : Store n) (i : Fin n) :
    s.cells[i.val]? = some ((s.get i).map Fin.val) := by
  induction s with
  | empty => exact i.elim0
  | @push n earlier cell ih =>
      induction i using Fin.lastCases with
      | last =>
          rw [get_push_last, Cell.map_map]
          exact getElem?_concat_eq_some_iff.2 (.inr ⟨by simp, rfl⟩)
      | cast i =>
          rw [get_push_castSucc, Cell.map_map]
          exact getElem?_concat_eq_some_iff.2 (.inl (ih i))

end Store

-- ============================================================= reports

/-- The relation whose query the event says is started. -/
def Event.started? : Event → Option Nat
  | .started k => some k
  | _ => none

/-- The relations whose queries are started, in order. -/
def startedIn (es : List Event) : List Nat := es.filterMap Event.started?

@[simp]
theorem startedIn_append (es es' : List Event) :
    startedIn (es ++ es') = startedIn es ++ startedIn es' :=
  List.filterMap_append

/-- Notes start no query. -/
theorem startedIn_eq_nil {es : List Event} (h : ∀ e ∈ es, e.IsNote) :
    startedIn es = [] := by
  refine List.filterMap_eq_nil_iff.2 fun e he => ?_
  have hnote : e.IsNote := h e he
  cases e with
  | started k => exact hnote.elim
  | _ => rfl

-- ============================================================ progress

/-- What may happen to cells, and be reported of it. -/
structure Progress (cells : List (Cell Nat)) (es : List Event)
    (cells' : List (Cell Nat)) : Prop where
  settles : ∀ {k : Nat} {cell : Cell Nat}, cells[k]? = some cell →
    ∃ cell', cells'[k]? = some cell' ∧ cell.SettlesTo cell'
  starts : ∀ {k : Nat} {cell cell' : Cell Nat}, cells[k]? = some cell →
    cells'[k]? = some cell' → cell' ≠ cell → k ∈ startedIn es
  once : (startedIn es).Nodup
  pending : ∀ {k : Nat} {cell : Cell Nat}, k ∈ startedIn es →
    cells[k]? = some cell → cell.isResolved = false
  settled : ∀ {k : Nat}, k ∈ startedIn es →
    ∃ o, cells'[k]? = some (.ofOutcome o)

namespace Progress

variable {cells cells' cells'' : List (Cell Nat)} {es es' : List Event}

/-- Without a query being started, cells may be added. -/
theorem of_isPrefix (hcells : cells <+: cells') (h : startedIn es = []) :
    Progress cells es cells' where
  settles hcell := ⟨_, getElem?_of_isPrefix hcells hcell, .inl rfl⟩
  starts hcell hcell' hne := by
    rw [getElem?_of_isPrefix hcells hcell] at hcell'
    exact absurd (Option.some.inj hcell').symm hne
  once := h ▸ List.nodup_nil
  pending hk := by rw [h] at hk; cases hk
  settled hk := by rw [h] at hk; cases hk

/-- Without a query being started, nothing has to happen. -/
theorem of_startedIn_eq_nil (cells : List (Cell Nat)) (h : startedIn es = []) :
    Progress cells es cells :=
  of_isPrefix List.prefix_rfl h

theorem nil (cells : List (Cell Nat)) : Progress cells [] cells :=
  of_startedIn_eq_nil cells rfl

theorem note (cells : List (Cell Nat)) {e : Event} (he : e.IsNote) :
    Progress cells [e] cells :=
  of_startedIn_eq_nil cells
    (startedIn_eq_nil fun _ hmem => List.mem_singleton.1 hmem ▸ he)

/-- What was started before was settled then, so it is not started again. -/
theorem append (h : Progress cells es cells')
    (h' : Progress cells' es' cells'') :
    Progress cells (es ++ es') cells'' where
  settles hcell := by
    obtain ⟨cell', hcell', hsettles⟩ := h.settles hcell
    obtain ⟨cell'', hcell'', hsettles'⟩ := h'.settles hcell'
    exact ⟨cell'', hcell'', hsettles.trans hsettles'⟩
  starts {k cell cell''} hcell hcell'' hne := by
    obtain ⟨cell', hcell', -⟩ := h.settles hcell
    rw [startedIn_append, List.mem_append]
    by_cases hsame : cell' = cell
    · exact .inr (h'.starts hcell' hcell'' (hsame ▸ hne))
    · exact .inl (h.starts hcell hcell' hsame)
  once := by
    rw [startedIn_append, List.nodup_append]
    refine ⟨h.once, h'.once, ?_⟩
    -- A relation that was started before holds an outcome by now.
    rintro k hk _ hk' rfl
    obtain ⟨o, ho⟩ := h.settled hk
    simpa using h'.pending hk' ho
  pending hk hcell := by
    rw [startedIn_append, List.mem_append] at hk
    rcases hk with hk | hk
    · exact h.pending hk hcell
    · obtain ⟨cell', hcell', hsettles⟩ := h.settles hcell
      have hpending := h'.pending hk hcell'
      rwa [hsettles.eq_of_pending hpending] at hpending
  settled {k} hk := by
    rw [startedIn_append, List.mem_append] at hk
    rcases hk with hk | hk
    · obtain ⟨o, ho⟩ := h.settled hk
      obtain ⟨cell'', hcell'', hsettles⟩ := h'.settles ho
      refine ⟨o, ?_⟩
      rw [hcell'', hsettles.eq_of_ofOutcome]
    · exact h'.settled hk

/-- A cell at the end that is not touched. -/
theorem push (h : Progress cells es cells')
    (hlength : cells'.length = cells.length) (cell : Cell Nat) :
    Progress (cells ++ [cell]) es (cells' ++ [cell]) where
  settles hk := by
    rcases getElem?_concat_eq_some_iff.1 hk with hk | ⟨rfl, rfl⟩
    · obtain ⟨cell', hcell', hsettles⟩ := h.settles hk
      exact ⟨cell', getElem?_concat_eq_some_iff.2 (.inl hcell'), hsettles⟩
    · exact ⟨cell, getElem?_concat_eq_some_iff.2 (.inr ⟨hlength.symm, rfl⟩),
        .inl rfl⟩
  starts {k last last'} hk hk' hne := by
    rcases getElem?_concat_eq_some_iff.1 hk with hk | ⟨rfl, rfl⟩
    · obtain ⟨cell', hcell', -⟩ := h.settles hk
      rw [getElem?_concat_eq_some_iff.2 (.inl hcell')] at hk'
      exact h.starts hk hcell' (Option.some.inj hk' ▸ hne)
    · rw [← hlength, List.getElem?_concat_length] at hk'
      exact absurd (Option.some.inj hk').symm hne
  once := h.once
  pending hk hcell := by
    rcases getElem?_concat_eq_some_iff.1 hcell with hcell | ⟨rfl, -⟩
    · exact h.pending hk hcell
    · obtain ⟨o, ho⟩ := h.settled hk
      simp [← hlength] at ho
  settled hk := by
    obtain ⟨o, ho⟩ := h.settled hk
    exact ⟨o, getElem?_concat_eq_some_iff.2 (.inl ho)⟩

/-- The cell at the end is read: its query is started, and what happens to
the cells before it is what happens while the query runs. -/
theorem concat_pending (h : Progress cells es cells')
    (hlength : cells'.length = cells.length) (q : Query Nat) (o : Outcome) :
    Progress (cells ++ [.pending q])
      (.acquired cells.length :: (.started cells.length :: es)
        ++ [.released cells.length])
      (cells' ++ [.ofOutcome o]) := by
  have hstarted : startedIn (.acquired cells.length
        :: (.started cells.length :: es) ++ [.released cells.length])
      = cells.length :: startedIn es :=
    (startedIn_append _ _).trans (List.append_nil _)
  have hlast : (cells' ++ [Cell.ofOutcome o])[cells.length]?
      = some (.ofOutcome o) := by
    rw [← hlength, List.getElem?_concat_length]
  have hfresh : ¬cells.length ∈ startedIn es := by
    intro hk
    obtain ⟨o, ho⟩ := h.settled hk
    simp [← hlength] at ho
  constructor
  · intro k cell hk
    rcases getElem?_concat_eq_some_iff.1 hk with hk | ⟨rfl, rfl⟩
    · obtain ⟨cell', hcell', hsettles⟩ := h.settles hk
      exact ⟨cell', getElem?_concat_eq_some_iff.2 (.inl hcell'), hsettles⟩
    · exact ⟨.ofOutcome o, hlast, .inr ⟨rfl, o, rfl⟩⟩
  · intro k cell cell' hk hk' hne
    rw [hstarted, List.mem_cons]
    rcases getElem?_concat_eq_some_iff.1 hk with hk | ⟨hlast, -⟩
    · obtain ⟨between, hbetween, -⟩ := h.settles hk
      rw [getElem?_concat_eq_some_iff.2 (.inl hbetween)] at hk'
      exact .inr (h.starts hk hbetween (Option.some.inj hk' ▸ hne))
    · exact .inl hlast
  · rw [hstarted, List.nodup_cons]
    exact ⟨hfresh, h.once⟩
  · intro k cell hk hcell
    rcases getElem?_concat_eq_some_iff.1 hcell with hcell | ⟨-, rfl⟩
    · rw [hstarted, List.mem_cons] at hk
      rcases hk with rfl | hk
      · simp at hcell
      · exact h.pending hk hcell
    · rfl
  · intro k hk
    rw [hstarted, List.mem_cons] at hk
    rcases hk with rfl | hk
    · exact ⟨o, hlast⟩
    · obtain ⟨o', ho'⟩ := h.settled hk
      exact ⟨o', getElem?_concat_eq_some_iff.2 (.inl ho')⟩

end Progress

-- ============================================================= reading

namespace Store

variable {n : Nat}

/-- Progress in the cells of stores. -/
def Progresses (s : Store n) (es : List Event) (s' : Store n) : Prop :=
  Progress s.cells es s'.cells

theorem sequential_progresses : Sequential (Progresses (n := n)) where
  nothing s := Progress.nil s.cells
  note s _ he := Progress.note s.cells he
  append h h' := Progress.append h h'

/-- Reading a relation is progress. The induction is on the number of
cells: the query of the last one reads only from the store before it. -/
theorem progresses_resolve : ∀ {n : Nat} (i : Fin n),
    Run.Does Progresses (resolve i) := by
  intro n
  induction n with
  | zero => intro i; exact i.elim0
  | succ n ih =>
      intro i s
      cases s with
      | push earlier cell =>
        by_cases hi : i.val < n
        · rw [resolve_push_of_lt hi]
          exact (ih ⟨i, hi⟩ earlier).push (by simp) _
        · rw [resolve_push_of_not_lt hi]
          rcases cell.eq_pending_or_ofOutcome with ⟨q, rfl⟩ | ⟨o, rfl⟩
          · have hrun : Run.Does Progresses (Query.run resolve q).run :=
              Query.does_run sequential_progresses fun j _ => ih j
            have hlast := (hrun earlier).concat_pending (by simp)
              (QueryTree.map Fin.val q)
              (((Query.run resolve q).run earlier).value.mapError .ofQuery)
            rw [length_cells, ← Cell.map_ofOutcome Fin.val] at hlast
            rw [Cell.read_pending]
            exact hlast
          · cases o <;> exact Progress.of_startedIn_eq_nil _ rfl

end Store

end RelAlgebra
