/-
Equality at every level, and the hash data with it. Values, rows, collections
and relations with rows have an equality that is an equivalence, under which
equal things have the same hash data; collections are equal if each contains
the rows of the other, and their rows can be visited in any order to hash
them.

Relations are compared by their outcomes. Outcomes agree as equivalences do,
errors included, so it makes no difference that a relation is found equal to
itself without being read. And since reads leave the outcomes of a session as
they are, the verdict on two names is the same whatever was read before, and
verdicts given at different times fit together.
-/
import RelAlgebra.Proofs.Store.Transparency
import RelAlgebra.Proofs.Tuples.Repetition

namespace RelAlgebra

/-- Equality is an equivalence, and equal things have the same hash data. -/
structure HashesAlike {α : Type} [BEq α] (digest : α → Digest) : Prop where
  equivalence : EquivBEq α
  digest_eq : ∀ {a b : α}, (a == b) = true → digest a = digest b

-- ============================================================ outcomes

namespace Outcome

/-- Outcomes that agree with one agree with each other. -/
theorem agree_euclidean {o o' o'' : Outcome} (h : agree o o' = true)
    (h' : agree o o'' = true) : agree o' o'' = true := by
  cases o <;> cases o' <;> try cases h
  all_goals cases o'' <;> try cases h'
  case ok.ok.ok => exact euclidean h h'
  case error.error.error => exact euclidean h h'

/-- Agreeing goes both ways. -/
theorem agree_comm (o o' : Outcome) : agree o o' = agree o' o :=
  Bool.eq_iff_iff.2 ⟨fun h => agree_euclidean h (agree_self o),
    fun h => agree_euclidean h (agree_self o')⟩

theorem agree_trans {o o' o'' : Outcome} (h : agree o o' = true)
    (h' : agree o' o'' = true) : agree o o'' = true :=
  agree_euclidean (agree_comm o o' ▸ h) h'

end Outcome

-- ============================================================== stores

/-- Whether two relations are equal, both being read even if they are one
and the same. -/
def Store.equalInFull {n : Nat} (i j : Fin n) : Run (Store n) Bool := do
  let a ← resolve i
  let b ← resolve j
  return Outcome.agree a b

/-- The comparison without a shortcut answers whether the outcomes agree. -/
theorem Store.answers_equalInFull {n : Nat} {outcome : Fin n → Outcome}
    (i j : Fin n) :
    Run.Answers (StandsFor outcome) (equalInFull i j)
      (Outcome.agree (outcome i) (outcome j)) :=
  (answers_resolve outcome i).bind
    ((answers_resolve outcome j).bind (Run.Answers.pure _))

/-- One and the same relation is found equal as it would be in full. -/
theorem Store.value_equal {n : Nat} (s : Store n) (i j : Fin n) :
    (equal i j s).value = (equalInFull i j s).value :=
  (answers_equal i j s rfl).1.trans (answers_equalInFull i j s rfl).1.symm

-- ============================================================ verdicts

/-- How relations that go by names are compared, each time after some
reads. -/
structure EquatesNames
    (answered : List (Read String) → Read String → Option Answer) : Prop where
  /-- The verdict is whether the outcomes agree. -/
  full : ∀ {x y : String} {o o' : Outcome} {reads reads' reads''},
    answered reads (.resolve x) = some (.outcome o) →
    answered reads' (.resolve y) = some (.outcome o') →
    answered reads'' (.equal x y) = some (.verdict (Outcome.agree o o'))
  /-- A relation is equal to itself. -/
  refl : ∀ {x : String} {o : Outcome} {reads reads'},
    answered reads (.resolve x) = some (.outcome o) →
    answered reads' (.equal x x) = some (.verdict true)
  /-- Sides can be changed. -/
  symm : ∀ {x y : String} {reads reads'},
    answered reads (.equal x y) = answered reads' (.equal y x)
  /-- Relations with an equal one between them are equal. -/
  trans : ∀ {x y z : String} {reads reads' reads''},
    answered reads (.equal x y) = some (.verdict true) →
    answered reads' (.equal y z) = some (.verdict true) →
    answered reads'' (.equal x z) = some (.verdict true)

namespace Archive

variable {a : Archive} {x y : String}

/-- The archive answers with the outcome of the relation of that name, if
there is one. -/
theorem ask_resolve_eq_some_iff (finish : Digest.Finish) {o : Outcome} :
    a.ask finish (.resolve x) = some (.outcome o)
      ↔ ∃ i, a.find? x = some i ∧ a.history.outcome i = o := by
  cases hx : a.find? x <;> simp [ask, Read.mapRelations?, hx, Read.answer]

/-- It answers whether two outcomes agree, if both names are known. -/
theorem ask_equal_eq_some_iff (finish : Digest.Finish) {verdict : Bool} :
    a.ask finish (.equal x y) = some (.verdict verdict)
      ↔ ∃ i j, a.find? x = some i ∧ a.find? y = some j
        ∧ Outcome.agree (a.history.outcome i) (a.history.outcome j)
          = verdict := by
  cases hx : a.find? x <;> cases hy : a.find? y <;>
    simp [ask, Read.mapRelations?, hx, hy, Read.answer]

/-- The order of the two names does not count. -/
theorem ask_equal_comm (finish : Digest.Finish) :
    a.ask finish (.equal x y) = a.ask finish (.equal y x) := by
  cases hx : a.find? x <;> cases hy : a.find? y <;>
    simp [ask, Read.mapRelations?, hx, hy, Read.answer, Outcome.agree_comm]

theorem equatesNames (finish : Digest.Finish) (a : Archive) :
    EquatesNames fun _ r => a.ask finish r where
  full hx hy := by
    obtain ⟨i, hi, rfl⟩ := (ask_resolve_eq_some_iff finish).1 hx
    obtain ⟨j, hj, rfl⟩ := (ask_resolve_eq_some_iff finish).1 hy
    exact (ask_equal_eq_some_iff finish).2 ⟨i, j, hi, hj, rfl⟩
  refl hx := by
    obtain ⟨i, hi, -⟩ := (ask_resolve_eq_some_iff finish).1 hx
    exact (ask_equal_eq_some_iff finish).2
      ⟨i, i, hi, hi, Outcome.agree_self _⟩
  symm := ask_equal_comm finish
  trans hxy hyz := by
    obtain ⟨i, j, hi, hj, hij⟩ := (ask_equal_eq_some_iff finish).1 hxy
    obtain ⟨j', k, hj', hk, hjk⟩ := (ask_equal_eq_some_iff finish).1 hyz
    cases hj.symm.trans hj'
    exact (ask_equal_eq_some_iff finish).2
      ⟨i, k, hi, hk, Outcome.agree_trans hij hjk⟩

/-- Reads are not noted. -/
theorem ofProgram_reads (program : List Step) (reads : List (Read String)) :
    ofProgram (program ++ reads.map .read) = ofProgram program := by
  have hreads : (reads.map Step.read).filter Step.isConstruction = [] := by
    simp [Step.isConstruction]
  unfold ofProgram
  rw [← foldl_note_filter, List.filter_append, hreads, List.append_nil,
    foldl_note_filter]

end Archive

namespace Session

/-- What a read answers after a program and some more reads. -/
def answered (finish : Digest.Finish) (program : List Step)
    (reads : List (Read String)) (r : Read String) : Option Answer :=
  (ask finish r (after finish (program ++ reads.map .read))).value

/-- The session answers what the archive does. -/
theorem answered_eq (finish : Digest.Finish) (program : List Step) :
    answered finish program
      = fun _ r => (Archive.ofProgram program).ask finish r := by
  funext reads r
  rw [answered, ask_after, Archive.ofProgram_reads]

/-- Equality is an equivalence at every level: of values, rows, collections
and relations with rows, where equal things have the same hash data, and of
the named relations of a session at any time. -/
theorem equality_equivalence (finish : Digest.Finish) :
    HashesAlike Value.digest
      ∧ HashesAlike Tuple.digest
      ∧ HashesAlike (Tuples.digest finish)
      ∧ HashesAlike Header.digest
      ∧ HashesAlike (Resolved.digest finish)
      ∧ (∀ ts us : Tuples, (ts == us) = true
          ↔ (∀ t ∈ ts.rows, us.contains t = true)
            ∧ ∀ u ∈ us.rows, ts.contains u = true)
      ∧ (∀ (ts : Tuples) (rows : List Tuple), rows.Perm ts.rows →
          ts.digest finish = [.count rows.length,
            .word (rows.foldl (fun sum t => sum + finish t.digest) 0)])
      ∧ (∀ (n : Nat) (s : Store n) (i j : Fin n),
          (Store.equal i j s).value = (Store.equalInFull i j s).value)
      ∧ ∀ program, EquatesNames (answered finish program) := by
  refine ⟨⟨inferInstance, fun h => (Value.beq_iff_digest _ _).1 h⟩,
    ⟨inferInstance, fun {t u} h => ?_⟩,
    ⟨inferInstance, Tuples.digest_eq_of_beq finish⟩,
    ⟨inferInstance, fun h => congrArg Header.digest (eq_of_beq h)⟩,
    ⟨inferInstance, Resolved.digest_eq_of_beq finish⟩,
    fun ts us => Tuples.beq_iff_contains_rows,
    fun ts rows => Tuples.digest_eq_of_perm finish,
    fun n => Store.value_equal, fun program => ?_⟩
  · rw [← Tuple.digestOf_fingerprint, (Tuple.beq_iff_fingerprint t u).1 h,
      Tuple.digestOf_fingerprint]
  · rw [answered_eq]
    exact Archive.equatesNames finish _

/-- Steps that make two relations of a zero and a one, in both orders and
with zeros of either sign, and name the second again. -/
def zerosAndOnes : List Step :=
  [.define "r" (.ofRows [⟨"x", .required .float⟩] [[.float 0.0], [.float 1.0]]),
    .define "s"
      (.ofRows [⟨"x", .required .float⟩] [[.float 1.0], [.float (-0.0)]]),
    .clone "t" "s"]

/-- The two relations are equal from either side, also after one of them has
been read, and so the first is equal to the second under its other name. -/
theorem equality_equivalence_zerosAndOnes :
    let verdicts := answered (fun _ => 0) zerosAndOnes
    verdicts [] (.equal "r" "s") = some (.verdict true)
      ∧ verdicts [.resolve "s"] (.equal "s" "r") = some (.verdict true)
      ∧ verdicts [.equal "s" "r"] (.equal "s" "s") = some (.verdict true)
      ∧ verdicts [] (.equal "s" "t") = some (.verdict true)
      ∧ verdicts [] (.equal "r" "t") = some (.verdict true)
      ∧ (Value.float 0.0).digest = (Value.float (-0.0)).digest := by
  obtain ⟨hvalues, -, -, -, -, -, -, -, hnames⟩ :=
    equality_equivalence fun _ => 0
  have hverdicts := hnames zerosAndOnes
  have hrs : answered (fun _ => 0) zerosAndOnes [] (.equal "r" "s")
      = some (.verdict true) := rfl
  have hst : answered (fun _ => 0) zerosAndOnes [] (.equal "s" "t")
      = some (.verdict true) := rfl
  have hs : ∃ o, answered (fun _ => 0) zerosAndOnes [] (.resolve "s")
      = some (.outcome o) := ⟨_, rfl⟩
  obtain ⟨o, ho⟩ := hs
  exact ⟨hrs, hverdicts.symm.trans hrs, hverdicts.refl ho, hst,
    hverdicts.trans hrs hst, hvalues.digest_eq (by decide)⟩

end Session

end RelAlgebra
