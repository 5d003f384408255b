/-
The names that expressions read. The name set of an expression is exact: a
context matters through these names only, each of them has to be bound for
the evaluation to succeed, and it fails for want of a name only if one of
them is not bound. The last two hold because every operator evaluates all
of its operands; so exactness is kept by running one evaluation after
another, and the families of expressions follow by recursion.
-/
import RelAlgebra.Proofs.Query.Failures

namespace RelAlgebra

/-- Whether an expression read a name that its row does not have. -/
def EvalError.isUnbound : EvalError → Bool
  | .value _ => false
  | .unknownAttribute _ => true

/-- Whether the row has all these names. -/
def Context.Binds (ctx : Context) (names : NameSet) : Prop :=
  ∀ name ∈ names, ∃ value, ctx name = some value

/-- Whether two contexts are the same on all these names. -/
def Context.AgreesOn (ctx ctx' : Context) (names : NameSet) : Prop :=
  ∀ name ∈ names, ctx name = ctx' name

namespace Context

variable {ctx ctx' : Context} {ms ns : NameSet}

/-- A context binds two sets of names if it binds each. -/
theorem binds_union :
    ctx.Binds (ms.union ns) ↔ ctx.Binds ms ∧ ctx.Binds ns := by
  simp only [Binds, NameSet.mem_union, or_imp, forall_and]

theorem agreesOn_union : ctx.AgreesOn ctx' (ms.union ns)
    ↔ ctx.AgreesOn ctx' ms ∧ ctx.AgreesOn ctx' ns := by
  simp only [AgreesOn, NameSet.mem_union, or_imp, forall_and]

end Context

/-- Whether an evaluation never misses a name. -/
abbrev NeverUnbound {α : Type} : Except EvalError α → Prop :=
  Raises fun e => e.isUnbound = false

namespace NeverUnbound

/-- An operation on values does not look up names. -/
theorem lift {α : Type} (x : Except ValueError α) :
    NeverUnbound (EvalError.lift x) :=
  Raises.mapError fun _ _ => rfl

theorem truth (v : Value) : NeverUnbound v.truth := by
  cases v with
  | boolean b => exact Raises.ok
  | null => exact Raises.ok
  | _ => exact Raises.error rfl

end NeverUnbound

-- ======================================================= exact name sets

/-- Whether these are exactly the names that an evaluation reads. -/
structure ReadsExactly {α : Type} (names : NameSet)
    (eval : Context → Except EvalError α) : Prop where
  /-- Contexts that agree on the names give the same result. -/
  congr : ∀ ctx ctx', ctx.AgreesOn ctx' names → eval ctx = eval ctx'
  /-- Where all names are bound, none is missed. -/
  neverUnbound : ∀ ctx, ctx.Binds names → NeverUnbound (eval ctx)
  /-- An evaluation that succeeds has all names bound. -/
  binds : ∀ ctx a, eval ctx = .ok a → ctx.Binds names
  /-- A name that is missed is one of them, and not bound. -/
  unbound : ∀ ctx name, eval ctx = .error (.unknownAttribute name) →
    name ∈ names ∧ ctx name = none

namespace ReadsExactly

variable {α β γ : Type} {ms ns : NameSet} {f : Context → Except EvalError α}
  {g : Context → Except EvalError β}

/-- A literal reads no name. -/
theorem literal (value : Value) :
    ReadsExactly .empty fun ctx => Member.eval ctx (.literal value) where
  congr _ _ _ := rfl
  neverUnbound _ _ := Raises.ok
  binds _ _ _ _ hname := absurd hname NameSet.not_mem_empty
  unbound _ _ h := nomatch h

theorem reference (name : String) :
    ReadsExactly (.singleton name)
      fun ctx => Member.eval ctx (.attribute name) where
  congr ctx ctx' h := by
    have hname : ctx name = ctx' name := h name (NameSet.mem_singleton.2 rfl)
    simp only [Member.eval, hname]
  neverUnbound ctx h := by
    obtain ⟨value, hvalue⟩ := h name (NameSet.mem_singleton.2 rfl)
    simp only [Member.eval, hvalue]
    exact Raises.ok
  binds ctx a h m hm := by
    rw [NameSet.mem_singleton] at hm
    subst hm
    cases hvalue : ctx m with
    | some value => exact ⟨value, rfl⟩
    | none => simp only [Member.eval, hvalue, reduceCtorEq] at h
  unbound ctx m h := by
    cases hvalue : ctx name with
    | some value => simp only [Member.eval, hvalue, reduceCtorEq] at h
    | none =>
        simp only [Member.eval, hvalue] at h
        cases h
        exact ⟨NameSet.mem_singleton.2 rfl, hvalue⟩

/-- An operation on values reads no further names. -/
theorem bind (hf : ReadsExactly ns f) {k : α → Except EvalError β}
    (hk : ∀ a, NeverUnbound (k a)) : ReadsExactly ns fun ctx => f ctx >>= k where
  congr ctx ctx' h := by rw [hf.congr ctx ctx' h]
  neverUnbound ctx h := (hf.neverUnbound ctx h).bind fun a _ => hk a
  binds ctx b h := by
    cases hctx : f ctx with
    | ok a => exact hf.binds ctx a hctx
    | error e => rw [hctx] at h; cases h
  unbound ctx name h := by
    cases hctx : f ctx with
    | ok a =>
        rw [hctx] at h
        exact nomatch hk a _ h
    | error e =>
        rw [hctx] at h
        cases h
        exact hf.unbound ctx name hctx

/-- Two evaluations, both of which are run, read the names of both. -/
theorem both (hf : ReadsExactly ms f) (hg : ReadsExactly ns g) :
    ReadsExactly (ms.union ns)
      fun ctx => do return (← f ctx, ← g ctx) where
  congr ctx ctx' h := by
    rw [Context.agreesOn_union] at h
    rw [hf.congr ctx ctx' h.1, hg.congr ctx ctx' h.2]
  neverUnbound ctx h := by
    rw [Context.binds_union] at h
    exact (hf.neverUnbound ctx h.1).bind fun _ _ =>
      (hg.neverUnbound ctx h.2).bind fun _ _ => Raises.ok
  binds ctx p h := by
    rw [Context.binds_union]
    cases hl : f ctx with
    | error e => rw [hl] at h; cases h
    | ok a =>
        cases hr : g ctx with
        | error e => rw [hl, hr] at h; cases h
        | ok b => exact ⟨hf.binds ctx a hl, hg.binds ctx b hr⟩
  unbound ctx name h := by
    rw [NameSet.mem_union]
    cases hl : f ctx with
    | error e =>
        rw [hl] at h
        cases h
        exact (hf.unbound ctx name hl).imp_left .inl
    | ok a =>
        cases hr : g ctx with
        | error e =>
            rw [hl, hr] at h
            cases h
            exact (hg.unbound ctx name hr).imp_left .inr
        | ok b => rw [hl, hr] at h; cases h

/-- A binary operation on the results of two evaluations. -/
theorem bind₂ (hf : ReadsExactly ms f) (hg : ReadsExactly ns g)
    {k : α → β → Except EvalError γ} (hk : ∀ a b, NeverUnbound (k a b)) :
    ReadsExactly (ms.union ns)
      fun ctx => f ctx >>= fun a => g ctx >>= fun b => k a b := by
  simpa only [bind_assoc, pure_bind] using
    (hf.both hg).bind fun p => hk p.1 p.2

end ReadsExactly

-- ============================================ the families of expressions

theorem Member.readsExactly (m : Member) :
    ReadsExactly m.attributes fun ctx => m.eval ctx := by
  match m with
  | .attribute name => exact .reference name
  | .literal value => exact .literal value

/-- A text reads the names that occur in it, by recursion on
the expression. -/
theorem TextExpression.readsExactly (e : TextExpression) :
    ReadsExactly e.attributes fun ctx => e.eval ctx := by
  induction e with
  | member m => exact m.readsExactly
  | lowercased e ih => exact ih.bind fun _ => NeverUnbound.lift _
  | uppercased e ih => exact ih.bind fun _ => NeverUnbound.lift _
  | concat l r ihl ihr => exact ihl.bind₂ ihr fun _ _ => NeverUnbound.lift _

theorem NumericExpression.readsExactly (e : NumericExpression) :
    ReadsExactly e.attributes fun ctx => e.eval ctx := by
  induction e with
  | member m => exact m.readsExactly
  | arithmetic op l r ihl ihr =>
      exact ihl.bind₂ ihr fun _ _ => NeverUnbound.lift _
  | rounded rule e ih => exact ih.bind fun _ => NeverUnbound.lift _
  | length e => exact e.readsExactly.bind fun _ => NeverUnbound.lift _

mutual

/-- A predicate reads the names of both sides, as both are evaluated. -/
theorem Predicate.readsExactly (p : Predicate) :
    ReadsExactly p.attributes fun ctx => p.eval ctx := by
  cases p with
  | member m => exact m.readsExactly.bind NeverUnbound.truth
  | comparison op l r =>
      exact l.readsExactly.bind₂ r.readsExactly fun _ _ => NeverUnbound.lift _
  | and l r => exact l.readsExactly.bind₂ r.readsExactly fun _ _ => Raises.ok
  | or l r => exact l.readsExactly.bind₂ r.readsExactly fun _ _ => Raises.ok
  | not p => exact p.readsExactly.bind fun _ => Raises.ok

theorem Expression.readsExactly (e : Expression) :
    ReadsExactly e.attributes fun ctx => e.eval ctx := by
  cases e with
  | member m => exact m.readsExactly
  | boolean p => exact p.readsExactly.bind fun _ => Raises.ok
  | numeric e => exact e.readsExactly
  | text e => exact e.readsExactly

end

/-- The name set of an expression of any family is exactly what evaluating
it reads. -/
theorem readsExactly_attributes :
    (∀ e : NumericExpression,
      ReadsExactly e.attributes fun ctx => e.eval ctx)
    ∧ (∀ e : TextExpression, ReadsExactly e.attributes fun ctx => e.eval ctx)
    ∧ (∀ p : Predicate, ReadsExactly p.attributes fun ctx => p.eval ctx)
    ∧ ∀ e : Expression, ReadsExactly e.attributes fun ctx => e.eval ctx :=
  ⟨NumericExpression.readsExactly, TextExpression.readsExactly,
    Predicate.readsExactly, Expression.readsExactly⟩

/-- A predicate misses no name on a row that has the names it reads. -/
theorem Predicate.neverUnbound_eval {ctx : Context} (p : Predicate)
    (h : ctx.Binds p.attributes) : NeverUnbound (p.eval ctx) :=
  p.readsExactly.neverUnbound ctx h

end RelAlgebra
