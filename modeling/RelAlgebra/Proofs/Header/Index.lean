/-
Headers with an index of their names. One pass over a list of attributes finds
the place of each name and the names to report, with three collections that it
keeps side by side: the places of the names it has met, the set of those that it
has reported, and the report, in the order in which names were met again. The
invariant says what each of them holds of the names passed; one visit keeps it,
and so does the pass.

A header that is built by such a pass is the header of the attributes, with the
places of its names. Lookups that go through the index find what a search of the
attributes finds, and never look behind the last attribute.
-/
import RelAlgebra.NameSet
import RelAlgebra.Proofs.Header.Occurrence
import RelAlgebra.Proofs.Tuple.Lookup

namespace RelAlgebra

-- ============================================================ the pass

/-- What a pass over names keeps. -/
structure NamePass where
  /-- The names met, with the places where they were met first. -/
  positions : List (String × Nat)
  reported : NameSet
  /-- The names met again, in that order. -/
  duplicates : List String

namespace NamePass

/-- Before the first name nothing was met. -/
def start : NamePass := ⟨[], .empty, []⟩

/-- Visits a name at its place. -/
def visit (pass : NamePass) (name : String) (i : Nat) : NamePass :=
  if (pass.positions.lookup name).isSome then
    if name ∈ pass.reported.toList then
      pass
    else
      { pass with
        reported := pass.reported.insert name
        duplicates := pass.duplicates ++ [name] }
  else
    { pass with positions := (name, i) :: pass.positions }

/-- The pass over a list of names. -/
def ofNames (names : List String) : NamePass :=
  names.zipIdx.foldl (fun pass p => pass.visit p.1 p.2) start

/-- What the pass keeps when these names have been visited. -/
structure Records (pass : NamePass) (names : List String) : Prop where
  positions : ∀ name i,
    pass.positions.lookup name = some i ↔ StandsAt 0 names name i
  reported : ∀ name, name ∈ pass.reported ↔ name ∈ pass.duplicates
  duplicates : pass.duplicates = repeatedAfter [] names

variable {pass : NamePass} {names : List String} {name : String}

/-- A name has a position once it was met. -/
theorem Records.met_iff (h : pass.Records names) (name : String) :
    (pass.positions.lookup name).isSome = true ↔ 0 < names.count name := by
  simp only [Option.isSome_iff_exists, h.positions, exists_standsAt_iff]

/-- A name is reported once it was met twice. -/
theorem Records.mem_duplicates_iff (h : pass.Records names) :
    name ∈ pass.duplicates ↔ 2 ≤ names.count name := by
  rw [h.duplicates]
  exact (listedBy_repeatedAfter names).mem_iff name

/-- A visit to a name that has been met leaves the places as they are. -/
theorem standsAt_zero_concat_of_met {m : String} {i : Nat}
    (hmet : 0 < names.count name) :
    StandsAt 0 (names ++ [name]) m i ↔ StandsAt 0 names m i := by
  rw [standsAt_concat_iff]
  constructor
  · rintro (h | ⟨rfl, hnone, -⟩)
    · exact h
    · omega
  · exact .inl

/-- One name more: it is met for the first time, for the second, or again.
This is the step of the induction. -/
theorem Records.visit (h : pass.Records names) (name : String) :
    (pass.visit name names.length).Records (names ++ [name]) := by
  unfold NamePass.visit
  split
  · rename_i hlookup
    have hmet := (h.met_iff name).1 hlookup
    split
    -- met and reported: the name has been listed twice or more
    · rename_i hreported
      have htwice : 2 ≤ names.count name :=
        h.mem_duplicates_iff.1 ((h.reported name).1 hreported)
      refine ⟨fun m i => ?_, h.reported, ?_⟩
      · rw [h.positions, standsAt_zero_concat_of_met hmet]
      · rw [h.duplicates, repeatedAfter_concat, List.count_nil,
          if_neg (by omega), List.append_nil]
    -- met and not reported: it has been listed once
    · rename_i hfresh
      have honce : ¬2 ≤ names.count name := fun htwice =>
        hfresh ((h.reported name).2 (h.mem_duplicates_iff.2 htwice))
      refine ⟨fun m i => ?_, fun m => ?_, ?_⟩
      · rw [h.positions, standsAt_zero_concat_of_met hmet]
      · rw [NameSet.mem_insert, h.reported, List.mem_append,
          List.mem_singleton, or_comm]
      · rw [h.duplicates, repeatedAfter_concat, List.count_nil,
          if_pos (by omega)]
  -- not met: it is listed for the first time
  · rename_i hlookup
    have hnone : names.count name = 0 :=
      Nat.eq_zero_of_not_pos fun hmet => hlookup ((h.met_iff name).2 hmet)
    refine ⟨fun m i => ?_, h.reported, ?_⟩
    · rw [lookup_cons_eq, standsAt_concat_iff]
      by_cases hname : m = name
      · subst hname
        have hold : ¬StandsAt 0 names m i := fun hi => by
          have := exists_standsAt_iff.1 ⟨i, hi⟩
          omega
        rw [if_pos rfl]
        simp [hold, hnone, eq_comm]
      · rw [if_neg hname, h.positions]
        simp [Ne.symm hname]
    · rw [h.duplicates, repeatedAfter_concat, hnone, List.count_nil,
        if_neg (by omega), List.append_nil]

/-- After all names the pass has recorded them all. -/
theorem records_ofNames (names : List String) : (ofNames names).Records names := by
  induction names using List.reverseRecOn with
  | nil =>
      refine ⟨fun name i => ?_, fun name => ?_, rfl⟩
      · simp [ofNames, start, StandsAt]
      · simp [ofNames, start]
  | append_singleton names name ih =>
      have hlast : ofNames (names ++ [name])
          = (ofNames names).visit name names.length := by
        unfold ofNames
        rw [List.zipIdx_append, List.foldl_append, Nat.zero_add]
        rfl
      exact hlast ▸ ih.visit name

end NamePass

namespace Header

variable {h : Header} {attributes : List Attribute} {name : String} {i : Nat}

-- ============================================================= lookups

/-- The place where a name stands is its position. -/
theorem position?_eq_some_iff :
    h.position? name = some i ↔ h.names[i]? = some name := by
  have hsearch : h.position? name
      = h.names.findIdx? fun m => decide (m = name) := by
    unfold position? names
    rw [List.findIdx?_map]
    rfl
  rw [hsearch, List.findIdx?_eq_some_iff_getElem, List.getElem?_eq_some_iff]
  refine exists_congr fun hi => ?_
  rw [decide_eq_true_iff]
  refine ⟨And.left, fun hname => ⟨hname, fun j hj => ?_⟩⟩
  have hdiffers : h.names[j] ≠ h.names[i] := fun hsame =>
    Nat.ne_of_lt hj (h.distinct.getElem_inj_iff.1 hsame)
  simpa [hname] using hdiffers

/-- No other place has that name. -/
theorem position?_eq_some_iff_forall :
    h.position? name = some i ↔ ∀ j, h.names[j]? = some name ↔ j = i := by
  constructor
  · intro hi j
    rw [← position?_eq_some_iff, hi, Option.some.injEq, eq_comm]
  · intro h
    exact position?_eq_some_iff.2 ((h i).2 rfl)

theorem contains_eq_isSome_position? (h : Header) (name : String) :
    h.contains name = (h.position? name).isSome := by
  unfold contains position?
  rw [List.findIdx?_isSome]

/-- At the position of a name there is an attribute, of that name. -/
theorem exists_attribute_of_position? (hi : h.position? name = some i) :
    ∃ a, h.attributes[i]? = some a ∧ a.name = name := by
  rw [position?_eq_some_iff] at hi
  unfold names at hi
  rwa [List.getElem?_map, Option.map_eq_some_iff] at hi

/-- The attribute of a name is the one at its position. -/
theorem attribute?_eq_bind_position? (h : Header) (name : String) :
    h.attribute? name = (h.position? name).bind (h.attributes[·]?) := by
  cases hposition : h.position? name with
  | none =>
      have hlacks : h.contains name = false := by
        rw [contains_eq_isSome_position?, hposition]
        rfl
      rw [Option.bind_none, Option.eq_none_iff_forall_ne_some]
      intro a ha
      obtain ⟨hmem, rfl⟩ := attribute?_eq_some_iff.1 ha
      rw [contains_iff.2 (mem_names_of_mem hmem)] at hlacks
      cases hlacks
  | some i =>
      obtain ⟨a, ha, hname⟩ := exists_attribute_of_position? hposition
      rw [Option.bind_some, ha, attribute?_eq_some_iff]
      exact ⟨List.mem_of_getElem? ha, hname⟩

-- ===================================================== indexed headers

/-- A list of attributes with the places of their names. -/
structure Indexed where
  attributes : List Attribute
  positions : List (String × Nat)

namespace Indexed

/-- The header with these attributes, built in one pass. -/
def ofAttributes (attributes : List Attribute) : Except HeaderError Indexed :=
  if attributes.isEmpty then
    .error .empty
  else
    let pass := NamePass.ofNames (attributes.map Attribute.name)
    if pass.duplicates.isEmpty then
      .ok ⟨attributes, pass.positions⟩
    else
      .error (.duplicates pass.duplicates)

def position? (x : Indexed) (name : String) : Option Nat :=
  x.positions.lookup name

def contains (x : Indexed) (name : String) : Bool :=
  (x.positions.lookup name).isSome

/-- The attribute at the place of the name. It is an error if that place is
behind the last attribute. -/
def attribute? (x : Indexed) (name : String) : Except Nat (Option Attribute) :=
  match x.position? name with
  | none => .ok none
  | some i =>
    match x.attributes[i]? with
    | some a => .ok (some a)
    | none => .error i

/-- The requested names that have no place, taken up one by one. -/
def missing (x : Indexed) (requested : List String) : List String :=
  requested.foldl
    (fun missing name =>
      if !x.contains name && !missing.contains name then
        missing ++ [name]
      else
        missing)
    []

end Indexed

/-- The header with the places of its names. -/
def indexed (h : Header) : Indexed :=
  ⟨h.attributes, (NamePass.ofNames h.names).positions⟩

theorem position?_indexed (h : Header) (name : String) :
    h.indexed.position? name = h.position? name := by
  have hdiffer : h.names.Nodup := h.distinct
  refine Option.ext fun i => ?_
  show (NamePass.ofNames h.names).positions.lookup name = some i ↔ _
  rw [(NamePass.records_ofNames h.names).positions, standsAt_zero_iff hdiffer,
    position?_eq_some_iff]

theorem contains_indexed (h : Header) (name : String) :
    h.indexed.contains name = h.contains name := by
  rw [contains_eq_isSome_position?, ← position?_indexed]
  rfl

/-- No place is behind the last attribute. -/
theorem attribute?_indexed (h : Header) (name : String) :
    h.indexed.attribute? name = .ok (h.attribute? name) := by
  unfold Indexed.attribute?
  rw [position?_indexed, attribute?_eq_bind_position?]
  cases hposition : h.position? name with
  | none => rfl
  | some i =>
      obtain ⟨a, ha, -⟩ := exists_attribute_of_position? hposition
      have hplace : h.indexed.attributes[i]? = some a := ha
      simp only [hplace, Option.bind_some, ha]

/-- The index finds the same names missing. -/
theorem missing_indexed (h : Header) (requested : List String) :
    h.indexed.missing requested = h.missing requested := by
  induction requested using List.reverseRecOn with
  | nil => rfl
  | append_singleton requested name ih =>
      unfold Indexed.missing at ih ⊢
      rw [List.foldl_concat, ih, missing_concat, contains_indexed]

/-- The pass reports what the check of the names reports, and otherwise finds
the places of the names. -/
theorem ofAttributes_indexed (attributes : List Attribute) :
    Indexed.ofAttributes attributes
      = (ofAttributes attributes).map indexed := by
  have hreport :=
    (NamePass.records_ofNames (attributes.map Attribute.name)).duplicates
  rcases ofAttributes_cases attributes with rfl | ⟨h, rfl⟩ | hrepeats
  · rfl
  · have hsome : h.attributes.isEmpty = false := by simpa using h.nonempty
    have hnone : (NamePass.ofNames (h.attributes.map Attribute.name)).duplicates
        = [] := hreport.trans (repeatedAfter_eq_nil_iff.2 h.distinct)
    simp only [Indexed.ofAttributes, hsome, hnone, ofAttributes_attributes]
    rfl
  · have hsome : attributes.isEmpty = false := by
      rw [List.isEmpty_eq_false_iff]
      exact fun hnil => hrepeats (hnil ▸ List.nodup_nil)
    have hreported : (repeatedAfter [] (attributes.map Attribute.name)).isEmpty
        = false :=
      List.isEmpty_eq_false_iff.2 (mt repeatedAfter_eq_nil_iff.1 hrepeats)
    simp only [Indexed.ofAttributes, hsome, hreport, hreported,
      ofAttributes_of_repeated hrepeats]
    rfl

-- ======================================================== construction

/-- Whether several attributes have that name. -/
def Repeats (attributes : List Attribute) (name : String) : Prop :=
  2 ≤ (attributes.map Attribute.name).count name

/-- Names are distinct if none is at two positions. -/
theorem nodup_iff_not_repeats :
    (attributes.map Attribute.name).Nodup ↔ ∀ name, ¬Repeats attributes name := by
  unfold Repeats
  rw [List.nodup_iff_count_le_one]
  exact forall_congr' fun name => by omega

/-- Only a header without attributes is refused as empty. -/
theorem ofAttributes_eq_empty_iff :
    ofAttributes attributes = .error .empty ↔ attributes = [] := by
  constructor
  · intro hempty
    rcases ofAttributes_cases attributes with hnil | ⟨h, rfl⟩ | hrepeats
    · exact hnil
    · rw [ofAttributes_attributes] at hempty
      cases hempty
    · rw [ofAttributes_of_repeated hrepeats] at hempty
      cases hempty
  · rintro rfl
    rfl

/-- Names that repeat are refused, each reported once, in the order of their
second occurrences. -/
theorem ofAttributes_eq_duplicates_iff {report : List String} :
    ofAttributes attributes = .error (.duplicates report)
      ↔ (∃ name, Repeats attributes name)
        ∧ ListedBy 1 (attributes.map Attribute.name) (Repeats attributes)
          report := by
  have hlisted := listedBy_repeatedAfter (attributes.map Attribute.name)
  constructor
  · intro hreport
    rcases ofAttributes_cases attributes with rfl | ⟨h, rfl⟩ | hrepeats
    · cases hreport
    · rw [ofAttributes_attributes] at hreport
      cases hreport
    · rw [ofAttributes_of_repeated hrepeats] at hreport
      cases hreport
      rw [nodup_iff_not_repeats, not_forall_not] at hrepeats
      exact ⟨hrepeats, hlisted⟩
  · rintro ⟨⟨name, hname⟩, hreport⟩
    have hrepeats : ¬(attributes.map Attribute.name).Nodup := fun hdiffer =>
      nodup_iff_not_repeats.1 hdiffer name hname
    rw [ofAttributes_of_repeated hrepeats, hlisted.unique hreport]

/-- All other attributes make a header, which has them as they are. -/
theorem exists_ofAttributes_eq_ok_iff :
    (∃ h, ofAttributes attributes = .ok h ∧ h.attributes = attributes)
      ↔ attributes ≠ [] ∧ ∀ name, ¬Repeats attributes name := by
  rw [← nodup_iff_not_repeats]
  constructor
  · rintro ⟨h, -, rfl⟩
    exact ⟨h.nonempty, h.distinct⟩
  · rintro ⟨hsome, hdiffer⟩
    exact ⟨⟨attributes, hsome, hdiffer⟩,
      ofAttributes_attributes ⟨attributes, hsome, hdiffer⟩, rfl⟩

/-- What a list of attributes makes, and how names are looked up in it. The
empty list makes no header, and neither does a list that repeats names; they are
reported each once, in the order of the second occurrences, and no other list of
names is such a report. Every other list is the list of a header. The position
of a name is the one place where it stands, at which its attribute is found; and
the names that are missing from a request are listed in the order of request.
All of this is done as well by one pass over the attributes and by lookups in the
places that it found, none of which is behind the last attribute. -/
theorem construction_and_lookup :
    (∀ attributes : List Attribute,
      (ofAttributes attributes = .error .empty ↔ attributes = [])
        ∧ ((∃ report, ofAttributes attributes = .error (.duplicates report))
          ↔ ∃ name, Repeats attributes name)
        ∧ (∀ report, ofAttributes attributes = .error (.duplicates report)
          ↔ (∃ name, Repeats attributes name)
            ∧ ListedBy 1 (attributes.map Attribute.name) (Repeats attributes)
              report)
        ∧ ((∃ h, ofAttributes attributes = .ok h ∧ h.attributes = attributes)
          ↔ attributes ≠ [] ∧ ∀ name, ¬Repeats attributes name)
        ∧ Indexed.ofAttributes attributes
          = (ofAttributes attributes).map indexed)
    ∧ ∀ h : Header,
      (∀ name,
        (∀ i, h.position? name = some i ↔ ∀ j, h.names[j]? = some name ↔ j = i)
          ∧ (h.contains name = true ↔ name ∈ h.names)
          ∧ h.contains name = (h.position? name).isSome
          ∧ h.attribute? name = (h.position? name).bind (h.attributes[·]?)
          ∧ h.indexed.position? name = h.position? name
          ∧ h.indexed.contains name = h.contains name
          ∧ h.indexed.attribute? name = .ok (h.attribute? name))
      ∧ ∀ requested,
        ListedBy 0 requested
            (fun name => name ∈ requested ∧ h.contains name = false)
            (h.missing requested)
          ∧ h.indexed.missing requested = h.missing requested := by
  refine ⟨fun attributes => ?_, fun h => ⟨fun name => ?_, fun requested => ?_⟩⟩
  · have hreport := listedBy_repeatedAfter (attributes.map Attribute.name)
    refine ⟨ofAttributes_eq_empty_iff, ?_, fun _ => ofAttributes_eq_duplicates_iff,
      exists_ofAttributes_eq_ok_iff, ofAttributes_indexed attributes⟩
    simp only [ofAttributes_eq_duplicates_iff]
    exact ⟨fun ⟨_, hrepeats, _⟩ => hrepeats,
      fun hrepeats => ⟨_, hrepeats, hreport⟩⟩
  · exact ⟨fun i => position?_eq_some_iff_forall, contains_iff,
      contains_eq_isSome_position? h name, attribute?_eq_bind_position? h name,
      position?_indexed h name, contains_indexed h name,
      attribute?_indexed h name⟩
  · exact ⟨h.listedBy_missing requested, h.missing_indexed requested⟩

end Header

end RelAlgebra
