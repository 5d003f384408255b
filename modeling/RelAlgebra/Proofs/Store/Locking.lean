/-
Locks as the reports show them. Reading a relation reports that its lock is
taken and, at the end, that it is given back. `locksAfter?` follows these
reports and gives up where a lock is taken that is held, or one is given
back that was not taken last. The reports of a reading can be followed to
the end, whatever locks of later relations are held: the locks that it
takes are those of the relation itself and of earlier ones.
-/
import RelAlgebra.Proofs.Store.Outcome

namespace RelAlgebra

-- ============================================================= reports

/-- The locks that are held after the event, the latest first, if the event
can happen. -/
def Event.locks? (held : List Nat) : Event → Option (List Nat)
  | .acquired k => if k ∈ held then none else some (k :: held)
  | .released k => if held.head? = some k then some held.tail else none
  | _ => some held

/-- The locks that are held after all of these events. -/
def locksAfter? (held : List Nat) (es : List Event) : Option (List Nat) :=
  es.foldlM Event.locks? held

/-- Reports are followed one after the other. -/
theorem locksAfter?_append {held held' : List Nat} {es : List Event}
    (h : locksAfter? held es = some held') (es' : List Event) :
    locksAfter? held (es ++ es') = locksAfter? held' es' := by
  unfold locksAfter? at h ⊢
  rw [List.foldlM_append, h]
  rfl

/-- Whether the events give back all locks that they take, and take none
that is held as long as only locks of relations from `n` on are. -/
def Balanced (n : Nat) (es : List Event) : Prop :=
  ∀ held : List Nat, (∀ k ∈ held, n ≤ k) → locksAfter? held es = some held

namespace Balanced

variable {n : Nat} {es es' : List Event}

theorem nil : Balanced n [] := fun _ _ => rfl

theorem note {e : Event} (he : e.IsNote) : Balanced n [e] := by
  intro held _
  cases e with
  | acquired k => exact he.elim
  | released k => exact he.elim
  | started k => exact he.elim
  | _ => rfl

/-- Balanced reports can be put together. -/
theorem append (h : Balanced n es) (h' : Balanced n es') :
    Balanced n (es ++ es') := by
  intro held hheld
  rw [locksAfter?_append (h held hheld)]
  exact h' held hheld

theorem mono {n' : Nat} (h : Balanced n es) (hn : n ≤ n') :
    Balanced n' es :=
  fun held hheld => h held fun k hk => Nat.le_trans hn (hheld k hk)

/-- Events between taking a lock and giving it back may find it held. -/
theorem enclose (h : Balanced n es) :
    Balanced (n + 1) (.acquired n :: es ++ [.released n]) := by
  intro held hheld
  have hfree : n ∉ held := fun hn => Nat.not_succ_le_self n (hheld n hn)
  have hunder : ∀ k ∈ n :: held, n ≤ k := by
    intro k hk
    rcases List.mem_cons.1 hk with rfl | hk
    · exact Nat.le_refl k
    · exact Nat.le_of_succ_le (hheld k hk)
  have htaken : locksAfter? held (.acquired n :: es) = some (n :: held) := by
    show (if n ∈ held then none else some (n :: held)) >>= _ = _
    rw [if_neg hfree]
    exact h (n :: held) hunder
  rw [locksAfter?_append htaken]
  simp [locksAfter?, Event.locks?]

end Balanced

-- ============================================================== stores

namespace Store

variable {n : Nat}

/-- Whether a run on a store reports balanced events. -/
def Balances (_ : Store n) (es : List Event) (_ : Store n) : Prop :=
  Balanced n es

theorem sequential_balances : Sequential (Balances (n := n)) where
  nothing _ := Balanced.nil
  note _ _ he := Balanced.note he
  append h h' := Balanced.append h h'

/-- Reading a relation reports balanced events. The induction is on the
number of cells: under the lock of the last one only the store before it is
read. -/
theorem balances_resolve : ∀ {n : Nat} (i : Fin n),
    Run.Does Balances (resolve i) := by
  intro n
  induction n with
  | zero => intro i; exact i.elim0
  | succ n ih =>
      intro i s
      cases s with
      | push earlier cell =>
        induction i using Fin.lastCases with
        | cast i =>
            rw [resolve_push_castSucc]
            exact Balanced.mono (ih i earlier) (Nat.le_succ n)
        | last =>
            rw [resolve_push_last]
            rcases cell.eq_pending_or_ofOutcome with ⟨q, rfl⟩ | ⟨o, rfl⟩
            · have hrun : Run.Does Balances (Query.run resolve q).run :=
                Query.does_run sequential_balances fun j _ => ih j
              rw [Cell.read_pending]
              exact Balanced.enclose (hrun earlier)
            · refine Balanced.enclose ?_
              cases o with
              | ok r => exact Balanced.note trivial
              | error e => exact Balanced.nil

end Store

end RelAlgebra
