/-
Transforms of collections, told by what one row is turned into. Each of them
calls its function on the rows in order and collects the rows that come out;
they differ in how many rows one call gives. So there is one equation for all
of them: the rows are traversed once, and the outputs are collected one after
the other. What carries the induction is a collection to which the outputs of
the rows already passed have been added.
-/
import RelAlgebra.Proofs.Tuples.Repetition
import RelAlgebra.Tuples.Transform

namespace RelAlgebra.Tuples

/-- A transform with the function that it calls on every row. -/
inductive Transform (m : Type → Type) where
  | map (f : Tuple → m Tuple)
  | filter (f : Tuple → m Bool)
  | flatMap (f : Tuple → m (List Tuple))
  | compactMap (f : Tuple → m (Option Tuple))

variable {m : Type → Type} [Monad m]

namespace Transform

def apply : Transform m → Tuples → m Tuples
  | .map f => mapM f
  | .filter f => filterM f
  | .flatMap f => flatMapM f
  | .compactMap f => compactMapM f

/-- The rows that one row is turned into. -/
def outputs : Transform m → Tuple → m (List Tuple)
  | .map f, t => List.singleton <$> f t
  | .filter f, t => (fun keep => if keep then [t] else []) <$> f t
  | .flatMap f, t => f t
  | .compactMap f, t => Option.toList <$> f t

end Transform

variable [LawfulMonad m]

/-- A fold that adds to a collection what comes out of each row. -/
theorem foldlM_insertAll {step : Tuples → Tuple → m Tuples}
    {g : Tuple → m (List Tuple)}
    (hstep : ∀ acc t, step acc t = acc.insertAll <$> g t) (rows : List Tuple)
    (ts : Tuples) :
    rows.foldlM step ts
      = (fun outs => ts.insertAll outs.flatten) <$> rows.mapM g := by
  induction rows generalizing ts with
  | nil => simp [insertAll]
  | cons t rest ih =>
      simp only [List.foldlM_cons, List.mapM_cons, hstep, bind_map_left,
        map_bind, ih, bind_pure_comp, Functor.map_map, List.flatten_cons,
        insertAll_append]

/-- Changing the results of all calls alike. -/
theorem mapM_map_result {α β γ : Type} (f : α → m β) (g : β → γ)
    (xs : List α) :
    xs.mapM (fun x => g <$> f x) = List.map g <$> xs.mapM f := by
  induction xs with
  | nil => simp
  | cons x rest ih =>
      simp only [List.mapM_cons, bind_map_left, map_bind, ih, bind_pure_comp,
        Functor.map_map, List.map_cons]

namespace Transform

/-- A transform traverses the rows once and collects all that comes out. -/
theorem apply_eq (tr : Transform m) (ts : Tuples) :
    tr.apply ts
      = (fun outs => ofList outs.flatten) <$> ts.rows.mapM tr.outputs := by
  cases tr with
  | map f =>
      have houtputs : ts.rows.mapM (map f).outputs
          = List.map List.singleton <$> ts.rows.mapM f :=
        mapM_map_result f List.singleton ts.rows
      have hflatten : ∀ us : List Tuple, (us.map List.singleton).flatten = us :=
        List.flatMap_singleton'
      rw [houtputs, Functor.map_map]
      simp only [hflatten]
      exact bind_pure_comp ..
  | filter f =>
      refine foldlM_insertAll (fun acc t => ?_) ts.rows empty
      rw [outputs, Functor.map_map, ← bind_pure_comp]
      refine bind_congr fun keep => ?_
      cases keep <;> rfl
  | flatMap f =>
      exact foldlM_insertAll (fun _ _ => bind_pure_comp ..) ts.rows empty
  | compactMap f =>
      refine foldlM_insertAll (fun acc t => ?_) ts.rows empty
      rw [outputs, Functor.map_map, ← bind_pure_comp]
      refine bind_congr fun u => ?_
      cases u <;> rfl

end Transform

end RelAlgebra.Tuples
