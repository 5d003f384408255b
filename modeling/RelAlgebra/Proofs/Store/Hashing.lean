/-
Hash data of equal relations. Relations with rows have the same hash data
if they are equal. The hash data of a failed relation are the text of its
error, and the text keeps the sign of a zero, which equality of errors
does not look at; so two equal failures have the same hash data exactly if
their errors show negative zeros at the same places.
-/
import RelAlgebra.Proofs.Error.Message
import RelAlgebra.Proofs.Store.Transparency

namespace RelAlgebra

namespace Outcome

/-- Which of the values that the outcome's error shows are negative zeros;
rows show none. -/
def zeroSigns : Outcome → List Bool
  | .ok _ => []
  | .error e => Value.zeroSigns e.values

/-- What agreement of hash data comes to, for outcomes that are equal. -/
theorem digest_iff_zeroSigns (finish : Digest.Finish) {o o' : Outcome}
    (h : agree o o' = true) :
    digest finish o = digest finish o' ↔ zeroSigns o = zeroSigns o' := by
  cases o with
  | ok a =>
      cases o' with
      | ok b =>
          have hdigest : a.digest finish = b.digest finish :=
            Resolved.digest_eq_of_beq finish h
          simp [digest, zeroSigns, hdigest]
      | error f => cases h
  | error e =>
      cases o' with
      | ok b => cases h
      | error f =>
          have hbeq : (e == f) = true := h
          rw [zeroSigns, zeroSigns, ← RelationError.message_eq_iff hbeq]
          simp [digest]

end Outcome

namespace Session

/-- After any program, equal relations have the same hash data exactly if
their failures show negative zeros at the same places. -/
theorem digest_eq_iff (finish : Digest.Finish) (program : List Step)
    (a b : String)
    (h : (ask finish (.equal a b) (after finish program)).value
      = some (.verdict true)) :
    ∃ o o', (ask finish (.resolve a) (after finish program)).value
          = some (.outcome o)
      ∧ (ask finish (.resolve b) (after finish program)).value
          = some (.outcome o')
      ∧ ((ask finish (.digest a) (after finish program)).value
            = (ask finish (.digest b) (after finish program)).value
          ↔ o.zeroSigns = o'.zeroSigns) := by
  simp only [ask_after] at h ⊢
  obtain ⟨r, hr, hanswer⟩ := Option.map_eq_some_iff.1 h
  obtain ⟨i, hi, hr⟩ := Option.bind_eq_some_iff.1 hr
  obtain ⟨j, hj, hr⟩ := Option.bind_eq_some_iff.1 hr
  cases hr
  injection hanswer with hagree
  let outcome := (Archive.ofProgram program).history.outcome
  refine ⟨outcome i, outcome j, ?_, ?_, ?_⟩
  · simp [Archive.ask, Read.mapRelations?, hi, Read.answer, outcome]
  · simp [Archive.ask, Read.mapRelations?, hj, Read.answer, outcome]
  · rw [← Outcome.digest_iff_zeroSigns finish hagree]
    simp [Archive.ask, Read.mapRelations?, hi, hj, Read.answer]

/-- Steps that make two relations of one zero, positive and negative, and
two failed selections that show them. -/
def signedZeros : List Step :=
  [.define "r" (.ofRows [⟨"x", .required .float⟩] [[.float 0.0]]),
    .define "s" (.ofRows [⟨"x", .required .float⟩] [[.float (-0.0)]]),
    .define "a" (.ofQuery
      (.unary (.select (.member (.attribute "x"))) (.relation "r"))),
    .define "b" (.ofQuery
      (.unary (.select (.member (.attribute "x"))) (.relation "s")))]

/-- The error of a selection by a value that is no truth value. -/
def notBoolean (value : Value) : RelationError :=
  .query (.predicate (.value (.mismatch [value] [.boolean])))

/-- The failures of both selections are equal, and their hash data are
not. -/
theorem digest_eq_iff_signedZeros :
    (ask (fun _ => 0) (.equal "a" "b") (after (fun _ => 0) signedZeros)).value
        = some (.verdict true)
      ∧ (ask (fun _ => 0) (.digest "a")
            (after (fun _ => 0) signedZeros)).value
          ≠ (ask (fun _ => 0) (.digest "b")
            (after (fun _ => 0) signedZeros)).value := by
  have hequal : (ask (fun _ => 0) (.equal "a" "b")
      (after (fun _ => 0) signedZeros)).value = some (.verdict true) := rfl
  have ha : (ask (fun _ => 0) (.resolve "a")
      (after (fun _ => 0) signedZeros)).value
        = some (.outcome (.error (notBoolean (.float 0.0)))) := rfl
  have hb : (ask (fun _ => 0) (.resolve "b")
      (after (fun _ => 0) signedZeros)).value
        = some (.outcome (.error (notBoolean (.float (-0.0))))) := rfl
  refine ⟨hequal, fun hdigest => ?_⟩
  obtain ⟨o, o', ho, ho', hiff⟩ :=
    digest_eq_iff (fun _ => 0) signedZeros "a" "b" hequal
  cases ha.symm.trans ho
  cases hb.symm.trans ho'
  have hsigns : [false] = [true] := hiff.1 hdigest
  cases hsigns

end Session

end RelAlgebra
