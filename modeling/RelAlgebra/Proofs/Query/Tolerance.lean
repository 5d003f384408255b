/-
Two evaluations side by side. A tolerance says how they may fail: with
which failures the left one, whatever the right one does, with which the
right one, and with which pairs both. Two evaluations are related within a
tolerance if they fail so, or come to related values. A failure ends an
evaluation, so this is kept by sequencing; hence it holds of two queries of
one shape as soon as it holds of their leaves and of the basic operators.
The operators that are defined by plans follow: their plans have one shape
as well, if the names that these project on correspond.
-/
import RelAlgebra.Query.Plan

namespace RelAlgebra

section Results

variable {ε ε' ε₁ ε₁' α α' β β' : Type}

/-- How two evaluations may fail. -/
structure Tolerance (ε ε' : Type) where
  /-- Failures of the left one, whatever the right one does. -/
  left : ε → Prop
  /-- Failures of the right one, whatever the left one does. -/
  right : ε' → Prop
  /-- Failures of both. -/
  both : ε → ε' → Prop

namespace Tolerance

/-- Both evaluations come to values, which are related, or they fail as is
tolerated. -/
inductive Relates (T : Tolerance ε ε') (R : α → β → Prop) :
    Except ε α → Except ε' β → Prop
  | ok {a : α} {b : β} (h : R a b) : Relates T R (.ok a) (.ok b)
  | left {e : ε} {y : Except ε' β} (h : T.left e) : Relates T R (.error e) y
  | right {x : Except ε α} {e : ε'} (h : T.right e) : Relates T R x (.error e)
  | both {e : ε} {e' : ε'} (h : T.both e e') :
    Relates T R (.error e) (.error e')

namespace Relates

variable {T : Tolerance ε ε'} {R : α → β → Prop} {S : α' → β' → Prop}

/-- Once one of them fails, what follows does not change that. -/
theorem bind {x : Except ε α} {y : Except ε' β} {f : α → Except ε α'}
    {g : β → Except ε' β'} (h : T.Relates R x y)
    (hfg : ∀ a b, R a b → T.Relates S (f a) (g b)) :
    T.Relates S (x >>= f) (y >>= g) := by
  cases h with
  | ok h => exact hfg _ _ h
  | left h => exact left h
  | right h => exact right h
  | both h => exact both h

theorem mono {R' : α → β → Prop} {x : Except ε α} {y : Except ε' β}
    (h : T.Relates R x y) (hR : ∀ a b, R a b → R' a b) : T.Relates R' x y := by
  cases h with
  | ok h => exact ok (hR _ _ h)
  | left h => exact left h
  | right h => exact right h
  | both h => exact both h

/-- An evaluation that both have in common. -/
theorem same {T : Tolerance ε ε} (hT : ∀ e, T.right e ∨ T.both e e)
    (x : Except ε α) : T.Relates (fun a b => a = b) x x := by
  cases x with
  | ok a => exact ok rfl
  | error e => exact (hT e).elim right both

end Relates

/-- The tolerance for failures that are wrapped up. -/
def wrapped (T : Tolerance ε ε') (g : ε₁ → ε) (g' : ε₁' → ε') :
    Tolerance ε₁ ε₁' :=
  ⟨fun e => T.left (g e), fun e => T.right (g' e),
    fun e e' => T.both (g e) (g' e')⟩

theorem Relates.mapError {T : Tolerance ε ε'} {R : α → β → Prop} {g : ε₁ → ε}
    {g' : ε₁' → ε'} {x : Except ε₁ α} {y : Except ε₁' β}
    (h : (T.wrapped g g').Relates R x y) :
    T.Relates R (x.mapError g) (y.mapError g') := by
  cases h with
  | ok h => exact ok h
  | left h => exact left h
  | right h => exact right h
  | both h => exact both h

end Tolerance

end Results

-- =============================================================== trees

namespace QueryTree

variable {β ρ ρ' : Type}

/-- Two trees of one shape, with operators and leaves that correspond. -/
inductive Corresponds (U : UnaryOperator → UnaryOperator → Prop)
    (B : β → β → Prop) (S : ρ → ρ' → Prop) :
    QueryTree β ρ → QueryTree β ρ' → Prop
  | relation {i : ρ} {j : ρ'} (h : S i j) :
    Corresponds U B S (.relation i) (.relation j)
  | unary {op op' : UnaryOperator} {q : QueryTree β ρ} {q' : QueryTree β ρ'}
    (hop : U op op') (h : Corresponds U B S q q') :
    Corresponds U B S (.unary op q) (.unary op' q')
  | binary {op op' : β} {l r : QueryTree β ρ} {l' r' : QueryTree β ρ'}
    (hop : B op op') (hl : Corresponds U B S l l')
    (hr : Corresponds U B S r r') :
    Corresponds U B S (.binary op l r) (.binary op' l' r')

variable {U : UnaryOperator → UnaryOperator → Prop} {B : β → β → Prop}

/-- A tree has its own shape. -/
theorem Corresponds.refl {S : ρ → ρ → Prop} (hU : ∀ op, U op op)
    (hB : ∀ op, B op op) {q : QueryTree β ρ} (hS : ∀ i ∈ q.leaves, S i i) :
    Corresponds U B S q q := by
  induction q with
  | relation i => exact .relation (hS i (List.mem_singleton.2 rfl))
  | unary op q ih => exact .unary (hU op) (ih hS)
  | binary op l r ihl ihr =>
      refine .binary (hB op) (ihl fun i hi => hS i ?_)
        (ihr fun i hi => hS i ?_)
      · exact List.mem_append_left _ hi
      · exact List.mem_append_right _ hi

/-- Trees of one shape are related if their operators and their leaves are.
The induction is on the correspondence, which has a case for every
constructor. -/
theorem relates_evalWith {T : Tolerance QueryError QueryError}
    {R : Resolved → Resolved → Prop} {S : ρ → ρ' → Prop}
    {apply : β → Resolved → Resolved → Except QueryError Resolved}
    {leaf : ρ → Except QueryError Resolved}
    {leaf' : ρ' → Except QueryError Resolved}
    (hunary : ∀ op op' a a', U op op' → R a a' →
      T.Relates R (UnaryOperator.apply op a) (UnaryOperator.apply op' a'))
    (hbinary : ∀ op op' l l' r r', B op op' → R l l' → R r r' →
      T.Relates R (apply op l r) (apply op' l' r'))
    (hleaf : ∀ i j, S i j → T.Relates R (leaf i) (leaf' j))
    {q : QueryTree β ρ} {q' : QueryTree β ρ'} (h : Corresponds U B S q q') :
    T.Relates R (q.evalWith apply leaf) (q'.evalWith apply leaf') := by
  induction h with
  | relation h => exact hleaf _ _ h
  | unary hop _ ih => exact ih.bind fun a a' ha => hunary _ _ a a' hop ha
  | binary hop _ _ ihl ihr =>
      exact ihl.bind fun l l' hl => ihr.bind fun r r' hr =>
        hbinary _ _ l l' r r' hop hl hr

end QueryTree

-- ============================================================= queries

/-- Operators on two relations that correspond as the basic ones do. Those
that are defined by plans correspond to themselves, if the basic operators
in their plans do. -/
inductive BinaryOperator.Corresponds
    (B : BasicOperator → BasicOperator → Prop) :
    BinaryOperator → BinaryOperator → Prop
  | basic {op op' : BasicOperator} (h : B op op') :
    Corresponds B (.basic op) (.basic op')
  | divide (hproduct : B .product .product)
    (hsubtract : B .subtract .subtract) : Corresponds B .divide .divide
  | semiJoin {kind : SemiJoinKind} (hjoin : B .naturalJoin .naturalJoin)
    (hsubtract : kind = .anti → B .subtract .subtract) :
    Corresponds B (.semiJoin kind) (.semiJoin kind)

/-- Corresponding operators on related relations end within the tolerance,
and related relations make plans project on corresponding names. -/
structure Tolerance.KeptBy (T : Tolerance QueryError QueryError)
    (R : Resolved → Resolved → Prop)
    (U : UnaryOperator → UnaryOperator → Prop)
    (B : BasicOperator → BasicOperator → Prop) : Prop where
  unary : ∀ op op' a a', U op op' → R a a' →
    T.Relates R (UnaryOperator.apply op a) (UnaryOperator.apply op' a')
  basic : ∀ op op' l l' r r', B op op' → R l l' → R r r' →
    T.Relates R (BasicOperator.apply op l r) (BasicOperator.apply op' l' r')
  superset : ∀ l l' r r', R l l' → R r r' →
    T.Relates (fun _ _ => True) (l.header.requireSuperset r.header)
      (l'.header.requireSuperset r'.header)
  names : ∀ a a', R a a' →
    U (.project a.header.names) (.project a'.header.names)
  quotientNames : ∀ l l' r r', R l l' → R r r' →
    U (.project (Plan.quotientNames l r)) (.project (Plan.quotientNames l' r'))

/-- Every operator corresponds to itself, if every basic one does. -/
theorem BinaryOperator.Corresponds.refl (op : BinaryOperator) :
    Corresponds (fun op op' => op = op') op op := by
  cases op with
  | basic op => exact .basic rfl
  | divide => exact .divide rfl rfl
  | semiJoin kind => exact .semiJoin rfl fun _ => rfl

namespace Tolerance.KeptBy

variable {T : Tolerance QueryError QueryError}
  {R : Resolved → Resolved → Prop} {U : UnaryOperator → UnaryOperator → Prop}
  {B : BasicOperator → BasicOperator → Prop} {l l' r r' c c' : Resolved}

/-- Where related relations have the same header, the checks on headers are
the same, and so are the names in plans. -/
theorem of_header (hT : ∀ e, T.right e ∨ T.both e e)
    (hheader : ∀ a a', R a a' → a.header = a'.header)
    (hB : ∀ op op', B op op' → op = op')
    (hunary : ∀ op a a', R a a' →
      T.Relates R (UnaryOperator.apply op a) (UnaryOperator.apply op a'))
    (hbasic : ∀ op l l' r r', B op op → R l l' → R r r' →
      T.Relates R (BasicOperator.apply op l r) (BasicOperator.apply op l' r')) :
    T.KeptBy R (fun op op' => op = op') B where
  unary op _ a a' hop ha := hop ▸ hunary op a a' ha
  basic op op' l l' r r' hop hl hr := by
    obtain rfl := hB op op' hop
    exact hbasic op l l' r r' hop hl hr
  superset l l' r r' hl hr := by
    rw [hheader l l' hl, hheader r r' hr]
    exact (Relates.same hT _).mono fun _ _ _ => trivial
  names a a' ha := by rw [hheader a a' ha]
  quotientNames l l' r r' hl hr := by
    unfold Plan.quotientNames
    rw [hheader l l' hl, hheader r r' hr]

theorem plan (h : T.KeptBy R U B) {p p' : Plan}
    (hp : QueryTree.Corresponds U B R p p') : T.Relates R p.eval p'.eval :=
  QueryTree.relates_evalWith h.unary h.basic (fun _ _ => Relates.ok) hp

/-- The plan of a semi join projects on the names of the side it keeps. -/
theorem partnered (h : T.KeptBy R U B) (hjoin : B .naturalJoin .naturalJoin)
    (hl : R l l') (hr : R r r') :
    QueryTree.Corresponds U B R (Plan.partnered l r) (Plan.partnered l' r') :=
  .unary (h.names _ _ hl) (.binary hjoin (.relation hl) (.relation hr))

/-- The first plan of division projects on the names that the
divisor lacks. -/
theorem candidates (h : T.KeptBy R U B) (hl : R l l') (hr : R r r') :
    QueryTree.Corresponds U B R (Plan.candidates l r) (Plan.candidates l' r') :=
  .unary (h.quotientNames _ _ _ _ hl hr) (.relation hl)

/-- The second one pairs the candidates with the divisor and takes two
differences. -/
theorem quotient (h : T.KeptBy R U B) (hproduct : B .product .product)
    (hsubtract : B .subtract .subtract) (hc : R c c') (hl : R l l')
    (hr : R r r') :
    QueryTree.Corresponds U B R (Plan.quotient c l r)
      (Plan.quotient c' l' r') := by
  have hpairs := QueryTree.Corresponds.binary hproduct
    (.relation hc : QueryTree.Corresponds U B R _ _) (.relation hr)
  have hmissing := QueryTree.Corresponds.binary hsubtract
    (.unary (h.names _ _ hl) hpairs) (.relation hl)
  exact .binary hsubtract (.relation hc)
    (.unary (h.quotientNames _ _ _ _ hl hr) hmissing)

/-- What the basic operators keep is kept by all operators that correspond
as they do. -/
theorem binary (h : T.KeptBy R U B) {op op' : BinaryOperator}
    (hop : BinaryOperator.Corresponds B op op') (hl : R l l') (hr : R r r') :
    T.Relates R (op.apply l r) (op'.apply l' r') := by
  cases hop with
  | basic hop => exact h.basic _ _ l l' r r' hop hl hr
  | divide hproduct hsubtract =>
      refine (h.superset l l' r r' hl hr).bind fun _ _ _ => ?_
      refine (h.plan (h.candidates hl hr)).bind fun c c' hc => ?_
      exact h.plan (h.quotient hproduct hsubtract hc hl hr)
  | @semiJoin kind hjoin hsubtract =>
      refine h.plan ?_
      cases kind with
      | left => exact h.partnered hjoin hl hr
      | right => exact h.partnered hjoin hr hl
      | anti =>
          exact .binary (hsubtract rfl) (.relation hl)
            (h.partnered hjoin hl hr)

/-- What the operators keep, queries of one shape keep, if it holds of
their leaves. -/
theorem query {ρ ρ' : Type} (h : T.KeptBy R U B)
    {outcome : ρ → Except RelationError Resolved}
    {outcome' : ρ' → Except RelationError Resolved} {q : Query ρ}
    {q' : Query ρ'}
    (hq : QueryTree.Corresponds U (BinaryOperator.Corresponds B)
      (fun i j => (T.wrapped .relation .relation).Relates R (outcome i)
        (outcome' j)) q q') :
    T.Relates R (q.eval outcome) (q'.eval outcome') := by
  refine QueryTree.relates_evalWith h.unary ?_ ?_ hq
  · exact fun _ _ _ _ _ _ hop hl hr => h.binary hop hl hr
  · exact fun _ _ hij => hij.mapError

end Tolerance.KeptBy

end RelAlgebra
