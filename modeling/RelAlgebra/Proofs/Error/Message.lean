/-
What the messages of equal errors tell apart. Equal errors are the same
but for the signs of zeros among the values that they show. A message
writes these values out with their signs, so equal errors have one message
exactly if they agree on which of the values are negative zeros, and then
they are the same error.
-/
import RelAlgebra.Error
import RelAlgebra.Proofs.Value.Equality

namespace RelAlgebra

-- ============================================================== values

namespace Value

variable {v w : Value}

/-- There is one negative zero. -/
theorem eq_of_isNegativeZero (h : v.isNegativeZero = true) :
    v = .float (-0.0) := by
  cases v with
  | float x =>
      have hx : x.toBits = Binary64.signBit := by
        simpa [isNegativeZero] using h
      have hneg : Binary64.signBit = (-0.0 : Float).toBits := by decide
      rw [Binary64.eq_of_toBits_eq (hx.trans hneg)]
  | _ => cases h

/-- What is equal to negative zero, and not negative zero, is zero. -/
theorem eq_zero_of_beq (h : (v == w) = true)
    (hv : v.isNegativeZero = true) (hw : w.isNegativeZero = false) :
    w = .float 0.0 := by
  have hzeros : (w == .float 0.0) = true := by
    rw [eq_of_isNegativeZero hv] at h
    exact BEq.trans (BEq.symm h) (by decide)
  exact eq_of_beq hzeros (hw.trans (by decide))

/-- Which of the values are negative zeros. -/
def zeroSigns (values : List Value) : List Bool := values.map isNegativeZero

/-- Equal lists whose negative zeros are at the same places are the same. -/
theorem eq_of_list_beq {vs ws : List Value} (h : (vs == ws) = true)
    (hsigns : zeroSigns vs = zeroSigns ws) : vs = ws := by
  induction vs generalizing ws with
  | nil =>
      cases ws with
      | nil => rfl
      | cons w ws => cases h
  | cons v vs ih =>
      cases ws with
      | nil => cases h
      | cons w ws =>
          rw [List.cons_beq_cons, Bool.and_eq_true] at h
          simp only [zeroSigns, List.map_cons, List.cons.injEq] at hsigns
          rw [eq_of_beq h.1 hsigns.1, ih h.2 hsigns.2]

-- =============================================================== texts

/-- A way to write values in which no continuation makes up for the sign
of a zero. -/
def TellsZeros (form : Value → String) : Prop :=
  ∀ s s', form (.float (-0.0)) ++ s ≠ form (.float 0.0) ++ s'

/-- The printed form of a value shows the sign of a zero. -/
theorem tellsZeros_render : TellsZeros render := by
  intro s s' h
  have hneg : render (.float (-0.0)) = "-0.0" := by decide +kernel
  have hpos : render (.float 0.0) = "0.0" := by decide +kernel
  rw [hneg, hpos, String.ext_iff] at h
  simp at h

theorem tellsZeros_inspect : TellsZeros inspect := by
  intro s s' h
  have hneg : inspect (.float (-0.0)) = "Float(-0.0)" := by decide +kernel
  have hpos : inspect (.float 0.0) = "Float(0.0)" := by decide +kernel
  rw [hneg, hpos, String.ext_iff] at h
  simp at h

/-- Of texts that begin with equal values, the values can be told. -/
theorem append_inj {form : Value → String} (hform : TellsZeros form)
    (h : (v == w) = true) {s s' : String}
    (happend : form v ++ s = form w ++ s') : v = w ∧ s = s' := by
  have hvw : v = w := by
    cases hv : v.isNegativeZero <;> cases hw : w.isNegativeZero
    · exact eq_of_beq h (hv.trans hw.symm)
    · rw [eq_of_isNegativeZero hw,
        eq_zero_of_beq (BEq.symm h) hw hv] at happend
      exact absurd happend.symm (hform s' s)
    · rw [eq_of_isNegativeZero hv, eq_zero_of_beq h hv hw] at happend
      exact absurd happend (hform s s')
    · exact eq_of_beq h (hv.trans hw.symm)
  subst hvw
  exact ⟨rfl, (String.append_right_inj _).1 happend⟩

/-- So it is with lists of values. -/
theorem list_append_inj {vs ws : List Value} (h : (vs == ws) = true)
    {s s' : String}
    (happend : ", ".intercalate (vs.map inspect) ++ s
      = ", ".intercalate (ws.map inspect) ++ s') : vs = ws := by
  induction vs generalizing ws with
  | nil =>
      cases ws with
      | nil => rfl
      | cons w ws => cases h
  | cons v vs ih =>
      cases ws with
      | nil => cases h
      | cons w ws =>
          rw [List.cons_beq_cons, Bool.and_eq_true] at h
          obtain ⟨hvw, hrest⟩ := h
          cases vs with
          | nil =>
              cases ws with
              | nil =>
                  simp only [List.map_cons, List.map_nil,
                    String.intercalate_singleton] at happend
                  rw [(append_inj tellsZeros_inspect hvw happend).1]
              | cons w' ws => cases hrest
          | cons v' vs =>
              cases ws with
              | nil => cases hrest
              | cons w' ws =>
                  simp only [List.map_cons, String.intercalate_cons_cons,
                    String.append_assoc] at happend ih
                  obtain ⟨rfl, hcomma⟩ :=
                    append_inj tellsZeros_inspect hvw happend
                  rw [ih hrest ((String.append_right_inj _).1 hcomma)]

end Value

-- ============================================================== errors

namespace ValueError

/-- The values that the error shows. -/
def values : ValueError → List Value
  | .mismatch values _ => values
  | .incompatible left right => [left, right]
  | .divisionByZero => []

variable {e f : ValueError}

/-- Equal errors whose values have the same signs are the same. -/
theorem eq_of_beq (h : (e == f) = true)
    (hsigns : Value.zeroSigns e.values = Value.zeroSigns f.values) :
    e = f := by
  cases e <;> cases f <;> try cases h
  case mismatch.mismatch vs ts ws us =>
    obtain ⟨hvalues, hexpected⟩ := (Bool.and_eq_true _ _).mp h
    rw [Value.eq_of_list_beq hvalues hsigns, LawfulBEq.eq_of_beq hexpected]
  case incompatible.incompatible a b c d =>
    obtain ⟨hleft, hright⟩ := (Bool.and_eq_true _ _).mp h
    simp only [values, Value.zeroSigns, List.map_cons, List.map_nil,
      List.cons.injEq, and_true] at hsigns
    rw [Value.eq_of_beq hleft hsigns.1, Value.eq_of_beq hright hsigns.2]
  case divisionByZero.divisionByZero => rfl

/-- Equal errors with one message are the same: the message shows
the signs. -/
theorem eq_of_message_eq (h : (e == f) = true)
    (hmessage : e.message = f.message) : e = f := by
  cases e <;> cases f <;> try cases h
  case mismatch.mismatch vs ts ws us =>
    obtain ⟨hvalues, hexpected⟩ := (Bool.and_eq_true _ _).mp h
    unfold message Text.bracketed at hmessage
    simp only [String.append_assoc] at hmessage
    rw [String.append_right_inj, String.append_right_inj] at hmessage
    rw [Value.list_append_inj hvalues hmessage,
      LawfulBEq.eq_of_beq hexpected]
  case incompatible.incompatible a b c d =>
    obtain ⟨hleft, hright⟩ := (Bool.and_eq_true _ _).mp h
    unfold message at hmessage
    simp only [String.append_assoc] at hmessage
    rw [String.append_right_inj] at hmessage
    obtain ⟨rfl, hrest⟩ :=
      Value.append_inj Value.tellsZeros_render hleft hmessage
    rw [String.append_right_inj] at hrest
    have hlast : b.render ++ "" = d.render ++ "" := by
      rw [String.append_empty, String.append_empty, hrest]
    rw [(Value.append_inj Value.tellsZeros_render hright hlast).1]
  case divisionByZero.divisionByZero => rfl

end ValueError

-- ============================================================== causes

/-- The failed operation on values that is behind the error. -/
def EvalError.cause? : EvalError → Option ValueError
  | .value e => some e
  | .unknownAttribute _ => none

mutual

/-- The failed operation on values that is behind the error. -/
def QueryError.cause? : QueryError → Option ValueError
  | .predicate e => e.cause?
  | .value e => some e
  | .relation e => e.cause?
  | _ => none

/-- The failed operation on values that is behind the error. -/
def RelationError.cause? : RelationError → Option ValueError
  | .header _ => none
  | .value e => some e
  | .query e => e.cause?

end

/-- Errors with equal causes, which are what their messages tell; they are
the same error if their causes are. -/
structure Caused {E : Type} (cause? : E → Option ValueError)
    (message : E → String) (e f : E) : Prop where
  causes : ∃ c d, cause? e = some c ∧ cause? f = some d ∧ (c == d) = true
    ∧ message e = c.message ∧ message f = d.message
  same : cause? e = cause? f → e = f

/-- Equal errors are the same, or have equal causes. -/
theorem EvalError.same_or_caused {e f : EvalError} (h : e.beq f = true) :
    e = f ∨ Caused EvalError.cause? EvalError.message e f := by
  cases e with
  | value e =>
      cases f with
      | value f =>
          refine .inr ⟨⟨e, f, rfl, rfl, h, rfl, rfl⟩, fun hcause => ?_⟩
          rw [Option.some.inj hcause]
      | unknownAttribute n => cases h
  | unknownAttribute m =>
      cases f with
      | value f => cases h
      | unknownAttribute n => exact .inl (by simpa [EvalError.beq] using h)

mutual

/-- Equal errors of queries are the same, or they have equal causes, and these
are all that their messages can differ in. -/
theorem QueryError.same_or_caused : ∀ {e f : QueryError},
    e.beq f = true →
      e = f ∨ Caused QueryError.cause? QueryError.message e f := by
  intro e f h
  cases e <;> cases f <;> try cases h
  case predicate.predicate e f =>
    rcases EvalError.same_or_caused h with rfl | ⟨hcauses, hsame⟩
    · exact .inl rfl
    · exact .inr ⟨hcauses, fun hcause => by rw [hsame hcause]⟩
  case value.value e f =>
    refine .inr ⟨⟨e, f, rfl, rfl, h, rfl, rfl⟩, fun hcause => ?_⟩
    rw [Option.some.inj hcause]
  case relation.relation e f =>
    rcases RelationError.same_or_caused h with rfl | ⟨hcauses, hsame⟩
    · exact .inl rfl
    · exact .inr ⟨hcauses, fun hcause => by rw [hsame hcause]⟩
  all_goals exact .inl (by simpa [QueryError.beq] using h)

theorem RelationError.same_or_caused : ∀ {e f : RelationError},
    e.beq f = true →
      e = f ∨ Caused RelationError.cause? RelationError.message e f := by
  intro e f h
  cases e <;> cases f <;> try cases h
  case header.header e f =>
    exact .inl (by simpa [RelationError.beq] using h)
  case value.value e f =>
    refine .inr ⟨⟨e, f, rfl, rfl, h, rfl, rfl⟩, fun hcause => ?_⟩
    rw [Option.some.inj hcause]
  case query.query e f =>
    rcases QueryError.same_or_caused h with rfl | ⟨hcauses, hsame⟩
    · exact .inl rfl
    · exact .inr ⟨hcauses, fun hcause => by rw [hsame hcause]⟩

end

namespace RelationError

/-- The values that the error shows. -/
def values (e : RelationError) : List Value :=
  match e.cause? with
  | some c => c.values
  | none => []

/-- Equal errors have one message exactly if they agree on which of the
values they show are negative zeros. -/
theorem message_eq_iff {e f : RelationError} (h : (e == f) = true) :
    e.message = f.message
      ↔ Value.zeroSigns e.values = Value.zeroSigns f.values := by
  rcases same_or_caused h with rfl | ⟨⟨c, d, hc, hd, hcd, hmc, hmd⟩, hsame⟩
  · exact ⟨fun _ => rfl, fun _ => rfl⟩
  · rw [hc, hd] at hsame
    unfold values
    rw [hc, hd]
    constructor
    · intro hmessage
      rw [hmc, hmd] at hmessage
      rw [ValueError.eq_of_message_eq hcd hmessage]
    · intro hsigns
      rw [hsame (congrArg some (ValueError.eq_of_beq hcd hsigns))]

end RelationError

end RelAlgebra
