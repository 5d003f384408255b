/-
Names replaced by others, one to one, in expressions. An expression with
replaced names, read on a row whose names are replaced alike, comes to what
it came to before; it fails as it did, on the same values, or for want of
the replaced name. The names that it reads are the replaced ones.
-/
import Mathlib.Logic.Embedding.Basic
import RelAlgebra.Proofs.Query.Conclusions

namespace RelAlgebra

section Definitions

variable (f : String ↪ String)

/-- The member with its name changed; a literal has none. -/
def Member.relabel : Member → Member
  | .attribute name => .attribute (f name)
  | .literal value => .literal value

/-- The expression with every name changed. -/
def TextExpression.relabel : TextExpression → TextExpression
  | .member m => .member (m.relabel f)
  | .lowercased e => .lowercased e.relabel
  | .uppercased e => .uppercased e.relabel
  | .concat l r => .concat l.relabel r.relabel

def NumericExpression.relabel : NumericExpression → NumericExpression
  | .member m => .member (m.relabel f)
  | .arithmetic op l r => .arithmetic op l.relabel r.relabel
  | .rounded rule e => .rounded rule e.relabel
  | .length e => .length (e.relabel f)

mutual

/-- The predicate with every name changed. -/
def Predicate.relabel : Predicate → Predicate
  | .member m => .member (m.relabel f)
  | .comparison op l r => .comparison op l.relabel r.relabel
  | .and l r => .and l.relabel r.relabel
  | .or l r => .or l.relabel r.relabel
  | .not p => .not p.relabel

def Expression.relabel : Expression → Expression
  | .member m => .member (m.relabel f)
  | .boolean p => .boolean p.relabel
  | .numeric e => .numeric (e.relabel f)
  | .text e => .text (e.relabel f)

end

/-- The error with the unbound name changed; values stay as they are. -/
def EvalError.relabel : EvalError → EvalError
  | .value e => .value e
  | .unknownAttribute name => .unknownAttribute (f name)

end Definitions

variable {f : String ↪ String}

-- ========================================================== evaluation

section Evaluation

variable {ctx ctx' : Context}

/-- An operation on values does not see names. -/
theorem EvalError.mapError_lift {α : Type} (x : Except ValueError α) :
    (EvalError.lift x).mapError (EvalError.relabel f) = EvalError.lift x := by
  cases x <;> rfl

/-- Asking for the truth of a value does not name attributes. -/
theorem Value.mapError_truth (v : Value) :
    v.truth.mapError (EvalError.relabel f) = v.truth := by
  cases v <;> rfl

variable (hctx : ∀ name, ctx' (f name) = ctx name)

include hctx

/-- A member has the value in the one context that its image has in
the other. -/
theorem Member.eval_relabel (m : Member) :
    (m.relabel f).eval ctx' = (m.eval ctx).mapError (EvalError.relabel f) := by
  match m with
  | .literal value => rfl
  | .attribute name =>
      simp only [relabel, eval, hctx]
      cases ctx name <;> rfl

/-- And so does a text, by recursion on it; failures are relabelled. -/
theorem TextExpression.eval_relabel (e : TextExpression) :
    (e.relabel f).eval ctx' = (e.eval ctx).mapError (EvalError.relabel f) := by
  induction e with
  | member m => exact m.eval_relabel hctx
  | lowercased e ih =>
      simp only [relabel, eval, ih, mapError_bind, EvalError.mapError_lift]
  | uppercased e ih =>
      simp only [relabel, eval, ih, mapError_bind, EvalError.mapError_lift]
  | concat l r ihl ihr =>
      simp only [relabel, eval, ihl, ihr, mapError_bind,
        EvalError.mapError_lift]

/-- And so does a numeric expression. -/
theorem NumericExpression.eval_relabel (e : NumericExpression) :
    (e.relabel f).eval ctx' = (e.eval ctx).mapError (EvalError.relabel f) := by
  induction e with
  | member m => exact m.eval_relabel hctx
  | arithmetic op l r ihl ihr =>
      simp only [relabel, eval, ihl, ihr, mapError_bind,
        EvalError.mapError_lift]
  | rounded rule e ih =>
      simp only [relabel, eval, ih, mapError_bind, EvalError.mapError_lift]
  | length e =>
      simp only [relabel, eval, e.eval_relabel hctx, mapError_bind,
        EvalError.mapError_lift]

mutual

/-- A predicate and its image have the same truth value. -/
theorem Predicate.eval_relabel (p : Predicate) :
    (p.relabel f).eval ctx' = (p.eval ctx).mapError (EvalError.relabel f) := by
  cases p with
  | member m =>
      simp only [Predicate.relabel, Predicate.eval, m.eval_relabel hctx,
        mapError_bind, Value.mapError_truth]
  | comparison op l r =>
      simp only [Predicate.relabel, Predicate.eval, l.eval_relabel,
        r.eval_relabel, mapError_bind, EvalError.mapError_lift]
  | and l r =>
      simp only [Predicate.relabel, Predicate.eval, l.eval_relabel,
        r.eval_relabel, mapError_bind]
      rfl
  | or l r =>
      simp only [Predicate.relabel, Predicate.eval, l.eval_relabel,
        r.eval_relabel, mapError_bind]
      rfl
  | not p =>
      simp only [Predicate.relabel, Predicate.eval, p.eval_relabel,
        mapError_bind]
      rfl

/-- An expression and its image have the same value. -/
theorem Expression.eval_relabel (e : Expression) :
    (e.relabel f).eval ctx' = (e.eval ctx).mapError (EvalError.relabel f) := by
  cases e with
  | member m => exact m.eval_relabel hctx
  | boolean p =>
      simp only [Expression.relabel, Expression.eval, p.eval_relabel,
        mapError_bind]
      rfl
  | numeric e => exact e.eval_relabel hctx
  | text e => exact e.eval_relabel hctx

end

end Evaluation

-- ================================================= the names that are read

/-- The one set has the images of the names in the other. -/
def NameSet.Images (f : String ↪ String) (ns ms : NameSet) : Prop :=
  ∀ name, name ∈ ms ↔ ∃ n ∈ ns, f n = name

/-- The names of both sides have the images of both. -/
theorem NameSet.Images.union {ns ns' ms ms' : NameSet}
    (h : ns.Images f ms) (h' : ns'.Images f ms') :
    (ns.union ns').Images f (ms.union ms') := by
  intro name
  simp only [mem_union, h name, h' name, or_and_right, exists_or]

/-- The names that a member reads are mapped to those that its image reads. -/
theorem Member.images_attributes (m : Member) :
    m.attributes.Images f (m.relabel f).attributes := by
  intro name
  match m with
  | .literal value => simp [relabel, attributes]
  | .attribute n => simp [relabel, attributes, eq_comm]

/-- And so are those of a text, by recursion on it. -/
theorem TextExpression.images_attributes (e : TextExpression) :
    e.attributes.Images f (e.relabel f).attributes := by
  induction e with
  | member m => exact m.images_attributes
  | lowercased e ih => exact ih
  | uppercased e ih => exact ih
  | concat l r ihl ihr => exact ihl.union ihr

theorem NumericExpression.images_attributes (e : NumericExpression) :
    e.attributes.Images f (e.relabel f).attributes := by
  induction e with
  | member m => exact m.images_attributes
  | arithmetic op l r ihl ihr => exact ihl.union ihr
  | rounded rule e ih => exact ih
  | length e => exact e.images_attributes

mutual

/-- The names that a predicate reads are mapped to those that its
image reads. -/
theorem Predicate.images_attributes (p : Predicate) :
    p.attributes.Images f (p.relabel f).attributes := by
  cases p with
  | member m => exact m.images_attributes
  | comparison op l r => exact l.images_attributes.union r.images_attributes
  | and l r => exact l.images_attributes.union r.images_attributes
  | or l r => exact l.images_attributes.union r.images_attributes
  | not p => exact p.images_attributes

theorem Expression.images_attributes (e : Expression) :
    e.attributes.Images f (e.relabel f).attributes := by
  cases e with
  | member m => exact m.images_attributes
  | boolean p => exact p.images_attributes
  | numeric e => exact e.images_attributes
  | text e => exact e.images_attributes

end

end RelAlgebra
