/-
Programs: steps that make relations under names, name them again, or read
them, and what each step answers. A read may evaluate relations, and only
leaves outcomes behind in their cells.

A step that uses a name which the session does not have answers nothing
and changes nothing.
-/
import RelAlgebra.Store.Session

namespace RelAlgebra

-- =============================================================== reads

/-- What can be asked of relations named by `ρ`. -/
inductive Read (ρ : Type) where
  /-- The outcome of a relation. -/
  | resolve (r : ρ)
  | header (r : ρ)
  | tuples (r : ρ)
  /-- Whether two relations are equal. -/
  | equal (a b : ρ)
  /-- The hash data of a relation. -/
  | digest (r : ρ)
  /-- The result of a query that is not made a relation. -/
  | execute (q : Query ρ)

/-- What a step answers. -/
inductive Answer where
  /-- A relation was made or named. -/
  | named
  | outcome (o : Outcome)
  | header (h : Except RelationError Header)
  | tuples (ts : Except RelationError Tuples)
  | verdict (equal : Bool)
  | digest (d : Digest)
  | result (r : Except QueryError Resolved)

namespace Read

variable {ρ ρ' : Type}

/-- The read with every relation looked up, if all of them are found. -/
def mapRelations? (f : ρ → Option ρ') : Read ρ → Option (Read ρ')
  | .resolve r => do return .resolve (← f r)
  | .header r => do return .header (← f r)
  | .tuples r => do return .tuples (← f r)
  | .equal a b => do
    let a ← f a
    let b ← f b
    return .equal a b
  | .digest r => do return .digest (← f r)
  | .execute q => do return .execute (← q.mapLeaves? f)

/-- Reads from a store. -/
def run {n : Nat} (finish : Digest.Finish) :
    Read (Fin n) → Run (Store n) Answer
  | .resolve i => do return .outcome (← Store.resolve i)
  | .header i => do return .header ((← Store.resolve i).map Resolved.header)
  | .tuples i => do return .tuples ((← Store.resolve i).map Resolved.tuples)
  | .equal i j => do return .verdict (← Store.equal i j)
  | .digest i => do return .digest (← Store.digest finish i)
  | .execute q => do return .result (← Store.execute q)

end Read

-- =============================================================== steps

/-- The construction with every relation looked up, if all of them are
found. -/
def Construction.mapRelations? {ρ ρ' : Type} (f : ρ → Option ρ') :
    Construction ρ → Option (Construction ρ')
  | .ofRows attributes rows => some (.ofRows attributes rows)
  | .ofMaps attributes rows => some (.ofMaps attributes rows)
  | .ofResolved r => some (.ofResolved r)
  | .ofQuery q => do return .ofQuery (← q.mapLeaves? f)

/-- One step of a program; relations go by names. -/
inductive Step where
  /-- Makes a relation and names it. -/
  | define (name : String) (made : Construction String)
  /-- Gives the relation `source` a further name. -/
  | clone (name source : String)
  | read (r : Read String)

namespace Session

/-- Asks the named relations. -/
def ask (finish : Digest.Finish) (r : Read String) :
    Run Session (Option Answer) := fun s =>
  match r.mapRelations? s.find? with
  | some r => s.read do return some (← r.run finish)
  | none => ⟨none, s, []⟩

/-- Does one step. -/
def step (finish : Digest.Finish) : Step → Run Session (Option Answer)
  | .define name made => fun s =>
    match made.mapRelations? s.find? with
    | some made =>
      let r := s.define name made
      ⟨some .named, r.state, r.events⟩
    | none => ⟨none, s, []⟩
  | .clone name source => fun s =>
    match s.find? source with
    | some i => ⟨some .named, s.addName name i, []⟩
    | none => ⟨none, s, []⟩
  | .read r => ask finish r

/-- Does the steps of a program in order, with all their answers. -/
def run (finish : Digest.Finish) :
    List Step → Run Session (List (Option Answer))
  | [] => return []
  | step :: rest => do
    let answer ← Session.step finish step
    return answer :: (← run finish rest)

/-- The session that a program leaves behind. -/
def after (finish : Digest.Finish) (program : List Step) : Session :=
  (run finish program empty).state

end Session

end RelAlgebra
