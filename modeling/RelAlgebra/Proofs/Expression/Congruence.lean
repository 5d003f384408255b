/-
Evaluation of equal expressions in equal contexts. Equality takes the two
zeros for one number, and so does every operation but division by a zero.
Hence two such evaluations run in step: at each operator both have failed,
with equal errors, or both have equal operands. They come to equal results
unless they part at some division, where one number has been divided by zeros
of opposite sign. The divisions that an evaluation makes are listed in order;
what carries the induction is that two lists without a parting pair are of
one length, so that later divisions are compared with their counterparts.
-/
import RelAlgebra.Proofs.Value.Congruence

namespace RelAlgebra

-- ==================================================== lists of divisions

/-- The divisions of a later step, which is reached if this one succeeds. -/
def divisionsAfter {α : Type} (x : Except EvalError α)
    (next : α → List (Value × Value)) : List (Value × Value) :=
  match x with
  | .ok a => next a
  | .error _ => []

/-- The operands of the divisions that an evaluation makes, in order. -/
def NumericExpression.divisions (ctx : Context) :
    NumericExpression → List (Value × Value)
  | .member _ => []
  | .arithmetic op l r =>
    l.divisions ctx ++ divisionsAfter (l.eval ctx) fun a =>
      r.divisions ctx ++ divisionsAfter (r.eval ctx) fun b =>
        if op = .div then [(a, b)] else []
  | .rounded _ e => e.divisions ctx
  | .length _ => []

mutual

/-- The divisions that evaluating a predicate makes. Both sides are evaluated,
the right one unless the left one fails. -/
def Predicate.divisions (ctx : Context) : Predicate → List (Value × Value)
  | .member _ => []
  | .comparison _ l r =>
    l.divisions ctx ++ divisionsAfter (l.eval ctx) fun _ => r.divisions ctx
  | .and l r =>
    l.divisions ctx ++ divisionsAfter (l.eval ctx) fun _ => r.divisions ctx
  | .or l r =>
    l.divisions ctx ++ divisionsAfter (l.eval ctx) fun _ => r.divisions ctx
  | .not p => p.divisions ctx

/-- The divisions that evaluating an expression makes. -/
def Expression.divisions (ctx : Context) : Expression → List (Value × Value)
  | .member _ => []
  | .boolean p => p.divisions ctx
  | .numeric e => e.divisions ctx
  | .text _ => []

end

/-- Whether no division parts from its counterpart, the one at the same place
in the other list. -/
def DivideAlike (ds ds' : List (Value × Value)) : Prop :=
  ∀ d ∈ ds.zip ds', d.1.1.quotientsPart d.1.2 d.2.2 = false

instance (ds ds' : List (Value × Value)) : Decidable (DivideAlike ds ds') :=
  inferInstanceAs (Decidable (∀ d ∈ ds.zip ds', _ = false))

/-- What is paired stays paired when more is appended to both lists. -/
theorem mem_zip_append {α β : Type} {l m : List α} {l' m' : List β}
    {p : α × β} (h : p ∈ l.zip l') : p ∈ (l ++ m).zip (l' ++ m') := by
  induction l generalizing l' with
  | nil => cases h
  | cons a l ih =>
      cases l' with
      | nil => cases h
      | cons b l' =>
          rcases List.mem_cons.1 h with rfl | h
          · exact List.mem_cons_self ..
          · exact List.mem_cons_of_mem _ (ih h)

-- ============================================================ in step

/-- Two evaluations with their divisions: if these do not part, there are as
many on both sides, and the results are alike. -/
def InStep {α : Type} [BEq α] (ds ds' : List (Value × Value))
    (x x' : Except EvalError α) : Prop :=
  DivideAlike ds ds' → ds.length = ds'.length ∧ Alike x x'

namespace InStep

variable {α β : Type} [BEq α] [BEq β] {ds ds' : List (Value × Value)}
  {x x' : Except EvalError α} {f f' : α → Except EvalError β}

theorem of_alike (h : Alike x x') : InStep [] [] x x' := fun _ => ⟨rfl, h⟩

/-- Evaluations that are in step stay so if what follows is, from equal values
on. -/
theorem bind {next next' : α → List (Value × Value)} (h : InStep ds ds' x x')
    (hf : ∀ a a', (a == a') = true →
      InStep (next a) (next' a') (f a) (f' a')) :
    InStep (ds ++ divisionsAfter x next) (ds' ++ divisionsAfter x' next')
      (x >>= f) (x' >>= f') := by
  intro hall
  -- The first steps make as many divisions, so the divisions that come after
  -- them are compared among themselves.
  obtain ⟨hlength, halike⟩ := h fun d hd => hall d (mem_zip_append hd)
  rw [DivideAlike, List.zip_append hlength] at hall
  rw [List.length_append, List.length_append, hlength]
  cases halike with
  | ok heq =>
      obtain ⟨hnext, hlast⟩ :=
        hf _ _ heq fun d hd => hall d (List.mem_append_right _ hd)
      exact ⟨congrArg _ hnext, hlast⟩
  | both he => exact ⟨rfl, Alike.error he⟩
  | left he => exact he.elim
  | right he => exact he.elim

/-- A step without divisions. -/
theorem operation (h : InStep ds ds' x x')
    (hf : ∀ a a', (a == a') = true → Alike (f a) (f' a')) :
    InStep ds ds' (x >>= f) (x' >>= f') := by
  intro hall
  obtain ⟨hlength, halike⟩ := h hall
  exact ⟨hlength, halike.bind hf⟩

/-- An operation on equal operands is in step: only a division may part, and
it is listed. -/
theorem arithmetic (op : ArithmeticOperator) {a a' b b' : Value}
    (ha : (a == a') = true) (hb : (b == b') = true) :
    InStep (if op = .div then [(a, b)] else [])
      (if op = .div then [(a', b')] else [])
      (EvalError.lift (op.apply a b)) (EvalError.lift (op.apply a' b')) := by
  intro hall
  constructor
  · split <;> rfl
  · refine (op.alike_apply ha hb fun hdiv => ?_).lift
    rw [if_pos hdiv, if_pos hdiv] at hall
    exact hall _ (List.mem_singleton.2 rfl)

end InStep

/-- Equal truth values are connected alike. -/
theorem Alike.connective (f : Bool → Bool → Bool) {a a' b b' : Bool}
    (ha : (a == a') = true) (hb : (b == b') = true) :
    Alike (.ok (f a b) : Except EvalError Bool) (.ok (f a' b')) := by
  rw [eq_of_beq ha, eq_of_beq hb]
  exact Alike.refl _

-- ============================================ the families of expressions

section Evaluation

variable {ctx ctx' : Context}
  (hctx : ∀ name, (ctx name == ctx' name) = true)

include hctx

/-- Equal members have equal values in equal contexts. -/
theorem Member.alike_eval {m m' : Member} (h : (m == m') = true) :
    Alike (m.eval ctx) (m'.eval ctx') := by
  match m, m', h with
  | .literal _, .literal _, h => exact .ok h
  | .attribute name, .attribute name', h =>
      have hsame : name = name' := eq_of_beq h
      subst hsame
      have hname := hctx name
      simp only [Member.eval]
      revert hname
      cases ctx name with
      | none =>
          cases ctx' name with
          | none => exact fun _ => Alike.refl _
          | some w => exact nofun
      | some v =>
          cases ctx' name with
          | none => exact nofun
          | some w =>
              intro hname
              have hvalues : (v == w) = true := hname
              exact Alike.ok hvalues

/-- Texts are made without divisions. -/
theorem TextExpression.alike_eval : ∀ e e' : TextExpression,
    (e == e') = true → Alike (e.eval ctx) (e'.eval ctx')
  | .member _, .member _, h => Member.alike_eval hctx h
  | .lowercased e, .lowercased e', h =>
    (alike_eval e e' h).bind fun _ _ ha => (Value.alike_onString _ ha).lift
  | .uppercased e, .uppercased e', h =>
    (alike_eval e e' h).bind fun _ _ ha => (Value.alike_onString _ ha).lift
  | .concat l r, .concat l' r', h => by
    obtain ⟨hl, hr⟩ := (Bool.and_eq_true ..).mp h
    exact (alike_eval l l' hl).bind fun _ _ ha =>
      (alike_eval r r' hr).bind fun _ _ hb => (Value.alike_concat ha hb).lift

/-- Equal numeric expressions are in step, by recursion on both. -/
theorem NumericExpression.inStep : ∀ e e' : NumericExpression,
    (e == e') = true →
    InStep (e.divisions ctx) (e'.divisions ctx') (e.eval ctx) (e'.eval ctx')
  | .member _, .member _, h => .of_alike (Member.alike_eval hctx h)
  | .arithmetic op l r, .arithmetic _ l' r', h => by
    obtain ⟨hop, hr⟩ := (Bool.and_eq_true ..).mp h
    obtain ⟨hop, hl⟩ := (Bool.and_eq_true ..).mp hop
    cases eq_of_beq hop
    exact (inStep l l' hl).bind fun _ _ ha =>
      (inStep r r' hr).bind fun _ _ hb => .arithmetic op ha hb
  | .rounded rule e, .rounded _ e', h => by
    obtain ⟨hrule, he⟩ := (Bool.and_eq_true ..).mp h
    cases eq_of_beq hrule
    exact (inStep e e' he).operation fun _ _ ha =>
      (Value.alike_rounded rule ha).lift
  | .length e, .length e', h =>
    (InStep.of_alike (e.alike_eval hctx e' h)).operation
      fun _ _ ha => (Value.alike_onString _ ha).lift

mutual

theorem Predicate.inStep : ∀ p p' : Predicate, (p == p') = true →
    InStep (p.divisions ctx) (p'.divisions ctx') (p.eval ctx) (p'.eval ctx')
  | .member _, .member _, h =>
    (InStep.of_alike (Member.alike_eval hctx h)).operation
      fun _ _ => Value.alike_truth
  | .comparison op l r, .comparison _ l' r', h => by
    obtain ⟨hop, hr⟩ := (Bool.and_eq_true ..).mp h
    obtain ⟨hop, hl⟩ := (Bool.and_eq_true ..).mp hop
    cases eq_of_beq hop
    exact (l.inStep l' hl).bind fun _ _ ha =>
      (r.inStep r' hr).operation fun _ _ hb => (op.alike_apply ha hb).lift
  | .and l r, .and l' r', h => by
    obtain ⟨hl, hr⟩ := (Bool.and_eq_true ..).mp h
    exact (l.inStep l' hl).bind fun _ _ ha =>
      (r.inStep r' hr).operation fun _ _ => Alike.connective and ha
  | .or l r, .or l' r', h => by
    obtain ⟨hl, hr⟩ := (Bool.and_eq_true ..).mp h
    exact (l.inStep l' hl).bind fun _ _ ha =>
      (r.inStep r' hr).operation fun _ _ => Alike.connective or ha
  | .not p, .not p', h =>
    (p.inStep p' h).operation fun _ _ ha =>
      Alike.connective (fun b _ => !b) ha ha

theorem Expression.inStep : ∀ e e' : Expression, (e == e') = true →
    InStep (e.divisions ctx) (e'.divisions ctx') (e.eval ctx) (e'.eval ctx')
  | .member _, .member _, h => .of_alike (Member.alike_eval hctx h)
  | .boolean p, .boolean p', h =>
    (p.inStep p' h).operation fun _ _ ha => .ok ha
  | .numeric e, .numeric e', h => e.inStep hctx e' h
  | .text e, .text e', h => .of_alike (e.alike_eval hctx e' h)

end

end Evaluation

-- ========================================================== congruence

/-- Equal expressions, evaluated in contexts that bind the same names to
equal values, come to equal results or fail with equal errors, unless they
part at a division. A division and its counterpart have equal operands; their
quotients are alike exactly if they do not part. -/
theorem eval_congruence (ctx ctx' : Context)
    (hctx : ∀ name, (ctx name == ctx' name) = true) :
    (∀ e e' : TextExpression, (e == e') = true →
        Alike (e.eval ctx) (e'.eval ctx'))
      ∧ (∀ e e' : NumericExpression, (e == e') = true →
        DivideAlike (e.divisions ctx) (e'.divisions ctx') →
        Alike (e.eval ctx) (e'.eval ctx'))
      ∧ (∀ p p' : Predicate, (p == p') = true →
        DivideAlike (p.divisions ctx) (p'.divisions ctx') →
        Alike (p.eval ctx) (p'.eval ctx'))
      ∧ (∀ e e' : Expression, (e == e') = true →
        DivideAlike (e.divisions ctx) (e'.divisions ctx') →
        Alike (e.eval ctx) (e'.eval ctx'))
      ∧ ∀ a a' b b' : Value, (a == a') = true → (b == b') = true →
        (Alike (a.divide b) (a'.divide b') ↔ a.quotientsPart b b' = false) :=
  ⟨TextExpression.alike_eval hctx,
    fun e e' h hall => (e.inStep hctx e' h hall).2,
    fun p p' h hall => (p.inStep hctx p' h hall).2,
    fun e e' h hall => (e.inStep hctx e' h hall).2,
    fun _ _ _ _ => Value.alike_divide_iff⟩

/-- A row with one column. -/
def Context.single (name : String) (value : Value) : Context :=
  fun m => if m = name then some value else none

/-- Contexts of one name are equal if its values are. -/
theorem Context.single_beq {v w : Value} (h : (v == w) = true)
    (name m : String) :
    (Context.single name v m == Context.single name w m) = true := by
  unfold Context.single
  split
  · exact h
  · rfl

/-- Whether a quotient is above a bound. -/
def quotientAbove (dividend divisor : Member) (bound : Value) : Predicate :=
  .comparison .gt
    (.numeric (.arithmetic .div (.member dividend) (.member divisor)))
    (.numeric (.member (.literal bound)))

/-- Half of either zero is not above either zero. -/
theorem eval_congruence_half :
    let above := quotientAbove (.attribute "x") (.literal (.float 2.0))
    let row := fun x => Context.single "x" (.float x)
    (above (.float 0.0)).eval (row 0.0) = .ok false
      ∧ (above (.float (-0.0))).eval (row (-0.0)) = .ok false := by
  intro above row
  have halike : Alike ((above (.float 0.0)).eval (row 0.0))
      ((above (.float (-0.0))).eval (row (-0.0))) :=
    (eval_congruence (row 0.0) (row (-0.0))
      (Context.single_beq (by decide) "x")).2.2.1 _ _ (by decide) (by decide)
  have hfirst : (above (.float 0.0)).eval (row 0.0) = .ok false := rfl
  refine ⟨hfirst, ?_⟩
  rw [hfirst] at halike
  generalize (above (.float (-0.0))).eval (row (-0.0)) = second at halike ⊢
  cases halike with
  | ok heq => rw [← eq_of_beq heq]
  | right h => exact h.elim

/-- It takes a division to part them: one divided by zero is above zero, and
divided by negative zero it is not. -/
theorem not_eval_congruence :
    ¬∀ (ctx ctx' : Context) (p p' : Predicate),
      (∀ name, (ctx name == ctx' name) = true) → (p == p') = true →
      Alike (p.eval ctx) (p'.eval ctx') := by
  intro h
  let p := quotientAbove (.literal (.float 1.0)) (.attribute "x") (.float 0.0)
  have halike : Alike (p.eval (.single "x" (.float 0.0)))
      (p.eval (.single "x" (.float (-0.0)))) :=
    h _ _ p p (Context.single_beq (by decide) "x") (by decide)
  have hfirst : p.eval (.single "x" (.float 0.0)) = .ok true := rfl
  have hsecond : p.eval (.single "x" (.float (-0.0))) = .ok false := rfl
  rw [hfirst, hsecond, Alike.ok_iff] at halike
  cases halike

end RelAlgebra
