/-
Literal rows, listed by position or keyed by name. A keyed row can be spelled
out, value by value in order of the attributes, and a positional row of the
right length is what its keyed form spells out. A keyed row that has no other
names than the header is checked and completed as the positional row that it
spells out, so the two ways to build a collection are one: it has the rows that
conform to the header, each at its first occurrence.
-/
import Mathlib.Data.List.Forall2
import RelAlgebra.Proofs.Header
import RelAlgebra.Proofs.Tuples.Repetition
import RelAlgebra.Tuples.Build

namespace RelAlgebra

/-- In two lists of one length, the first without repetitions, each name of the
first finds what is listed at its place in the second. -/
theorem map_lookup_zip {β : Type} {names : List String} {row : List β}
    (hdiffer : names.Nodup) (hlength : row.length = names.length) :
    names.map (fun name => (names.zip row).lookup name) = row.map some := by
  induction names generalizing row with
  | nil =>
      rw [List.length_nil, List.length_eq_zero_iff] at hlength
      rw [hlength]
      rfl
  | cons name rest ih =>
      cases row with
      | nil => cases hlength
      | cons v row =>
          obtain ⟨hname, hrest⟩ := List.nodup_cons.1 hdiffer
          have hlater : rest.map (fun m => ((name, v) :: rest.zip row).lookup m)
              = rest.map fun m => (rest.zip row).lookup m := by
            refine List.map_congr_left fun m hm => ?_
            rw [lookup_cons_eq, if_neg (ne_of_mem_of_not_mem hm hname)]
          rw [List.zip_cons_cons, List.map_cons, hlater,
            ih hrest (Nat.succ.inj hlength), lookup_cons_eq, if_pos rfl,
            List.map_cons]

namespace Header

variable {h : Header} {t : Tuple} {row : List Value}

-- ===================================================== one row, two forms

/-- The row that names the values of a positional row. -/
def keyed (h : Header) (row : List Value) : Tuple :=
  Tuple.ofPairs (h.names.zip row)

/-- The values of a row in order of the attributes, a missing one reading as
absent. -/
def spelled (h : Header) (t : Tuple) : List Value := h.names.map t.getD

/-- Whether the row has no other names than the header. -/
def Covers (h : Header) (t : Tuple) : Prop := ∀ name ∈ t.names, name ∈ h.names

/-- Whether a positional row has a value for each attribute and no more, all
of the declared types. -/
def Admits (h : Header) (row : List Value) : Prop :=
  List.Forall₂ (fun value a => value.conforms a.type = true) row h.attributes

instance : DecidablePred h.Covers :=
  fun t => inferInstanceAs (Decidable (∀ name ∈ t.names, name ∈ h.names))

instance : DecidablePred h.Admits :=
  fun row => inferInstanceAs (Decidable (List.Forall₂ _ row h.attributes))

section Keyed

variable (hlength : row.length = h.size)

include hlength

/-- The names of a keyed row are distinct. -/
theorem nodup_fst_zip : ((h.names.zip row).map Prod.fst).Nodup := by
  rw [List.map_fst_zip (by simp [names, hlength, size])]
  exact h.distinct

theorem get?_keyed (name : String) :
    (h.keyed row).get? name = (h.names.zip row).lookup name :=
  Tuple.get?_ofPairs (nodup_fst_zip hlength)

theorem covers_keyed : h.Covers (h.keyed row) := by
  intro name hname
  rw [Tuple.mem_names_iff, get?_keyed hlength] at hname
  obtain ⟨value, hvalue⟩ := Option.isSome_iff_exists.1 hname
  rw [lookup_eq_some_iff_mem (nodup_fst_zip hlength)] at hvalue
  exact (List.of_mem_zip hvalue).1

/-- What a positional row names, it spells out. -/
theorem spelled_keyed : h.spelled (h.keyed row) = row := by
  have hfound : h.names.map (h.keyed row).get? = row.map some := by
    rw [funext (get?_keyed hlength)]
    exact map_lookup_zip h.distinct (by simp [names, hlength, size])
  calc h.spelled (h.keyed row)
      = (h.names.map (h.keyed row).get?).map (·.getD .null) := by
        rw [List.map_map]
        rfl
    _ = row := by
        rw [hfound, List.map_map]
        exact List.map_id row

end Keyed

/-- Spelling a row out and naming the values again completes it. -/
theorem keyed_spelled (h : Header) (t : Tuple) :
    h.keyed (h.spelled t) = t.project h.names := by
  unfold keyed spelled Tuple.project
  rw [← List.map_prod_left_eq_zip]

end Header

namespace Tuples

variable {h : Header}

-- ======================================================== conforming rows

/-- A row of values passes the check if the header admits it. -/
theorem fitsPositions_iff {row : List Value} :
    fitsPositions h row = true ↔ h.Admits row := by
  unfold fitsPositions Header.Admits
  rw [List.forall₂_iff_zip, Bool.and_eq_true, beq_iff_eq, List.all_eq_true]
  exact and_congr_right fun _ =>
    ⟨fun hall _ _ hmem => hall _ hmem, fun hall p hmem => hall hmem⟩

/-- A row of names and values passes if it has the names, and the header
admits the values. -/
theorem fitsNames_iff {t : Tuple} :
    fitsNames h t = true ↔ h.Covers t ∧ h.Admits (h.spelled t) := by
  unfold fitsNames Header.Covers Header.Admits Header.spelled Header.names
  rw [Bool.and_eq_true, List.all_eq_true, List.all_eq_true, List.map_map,
    List.forall₂_map_left_iff, List.forall₂_same]
  simp only [Header.contains_iff]
  rfl

/-- A keyed row is checked and completed as the row that it spells out. -/
theorem ofMaps_eq_ofRows (h : Header) (maps : List Tuple) :
    ofMaps h maps
      = ofRows h ((maps.filter fun t => h.Covers t).map h.spelled) := by
  have hchecks : ∀ t, (fitsPositions h (h.spelled t) && decide (h.Covers t))
      = fitsNames h t := by
    intro t
    rw [Bool.eq_iff_iff, fitsNames_iff, Bool.and_eq_true, fitsPositions_iff,
      decide_eq_true_iff, and_comm]
  unfold ofMaps ofRows
  rw [List.filter_map, List.filter_filter, List.map_map]
  simp only [Function.comp_apply, hchecks]
  refine congrArg ofList (List.map_congr_left fun t _ => ?_)
  exact (h.keyed_spelled t).symm

/-- Keying the rows first makes no difference. -/
theorem ofMaps_keyed {rows : List (List Value)}
    (hrows : ∀ row ∈ rows, row.length = h.size) :
    ofMaps h (rows.map h.keyed) = ofRows h rows := by
  have hcovered : (rows.map h.keyed).filter (fun t => h.Covers t)
      = rows.map h.keyed := by
    rw [List.filter_eq_self]
    intro t ht
    obtain ⟨row, hrow, rfl⟩ := List.mem_map.1 ht
    exact decide_eq_true (Header.covers_keyed (hrows row hrow))
  have hsame : (rows.map h.keyed).map h.spelled = rows := by
    rw [List.map_map]
    exact (List.map_congr_left fun row hrow =>
      Header.spelled_keyed (hrows row hrow)).trans (List.map_id rows)
  rw [ofMaps_eq_ofRows, hcovered, hsame]

/-- Of literal rows those that are admitted are kept, once each. -/
theorem rows_ofRows (h : Header) (rows : List (List Value)) :
    (ofRows h rows).rows
      = ((rows.filter fun row => h.Admits row).map h.keyed).eraseDups := by
  have hadmits : fitsPositions h = fun row => decide (h.Admits row) := by
    funext row
    rw [Bool.eq_iff_iff, fitsPositions_iff, decide_eq_true_iff]
  unfold ofRows
  rw [rows_ofList, hadmits]
  rfl

theorem rows_ofMaps (h : Header) (maps : List Tuple) :
    (ofMaps h maps).rows
      = ((maps.filter fun t => h.Covers t ∧ h.Admits (h.spelled t)).map
          fun t => h.keyed (h.spelled t)).eraseDups := by
  have hfits : fitsNames h
      = fun t => decide (h.Covers t ∧ h.Admits (h.spelled t)) := by
    funext t
    rw [Bool.eq_iff_iff, fitsNames_iff, decide_eq_true_iff]
  unfold ofMaps
  rw [rows_ofList, hfits]
  simp only [Header.keyed_spelled]

-- ============================================================ agreement

/-- The two ways to build a collection from literal rows agree. Positional rows
of the right length give what they give with their values named; keyed rows
give what those without further names give spelled out. Either way the
collection has the rows that conform to the header, each at its first
occurrence. -/
theorem literalRows_agree (h : Header) :
    (∀ rows : List (List Value), (∀ row ∈ rows, row.length = h.size) →
        ofMaps h (rows.map h.keyed) = ofRows h rows)
      ∧ (∀ maps : List Tuple, ofMaps h maps
          = ofRows h ((maps.filter fun t => h.Covers t).map h.spelled))
      ∧ (∀ rows : List (List Value), (ofRows h rows).rows
          = ((rows.filter fun row => h.Admits row).map h.keyed).eraseDups)
      ∧ ∀ maps : List Tuple, (ofMaps h maps).rows
          = ((maps.filter fun t => h.Covers t ∧ h.Admits (h.spelled t)).map
              fun t => h.keyed (h.spelled t)).eraseDups :=
  ⟨fun _ => ofMaps_keyed, ofMaps_eq_ofRows h, rows_ofRows h, rows_ofMaps h⟩

/-- Of five rows two conform and differ: the second one repeats the first with
a zero of the other sign, and two have values of wrong types. Of the keyed rows
one lacks a name and is completed, the other has a name too many. -/
theorem literalRows_agree_hobbies :
    let h : Header := ⟨[⟨"x", .required .float⟩, ⟨"hobby", .optional .string⟩],
      by decide, by decide⟩
    let rows : List (List Value) := [[.float 0.0, .null], [.float (-0.0), .null],
      [.string "3", .null], [.null, .string "chess"],
      [.float 1.5, .string "golf"]]
    let maps : List Tuple := [.ofPairs [("x", .float 2.0)],
      .ofPairs [("x", .float 3.0), ("y", .null)]]
    (∀ row ∈ rows, row.length = h.size)
      ∧ ofMaps h (rows.map h.keyed) = ofRows h rows
      ∧ (ofRows h rows).rows = [h.keyed [.float 0.0, .null],
          h.keyed [.float 1.5, .string "golf"]]
      ∧ (ofMaps h maps).rows = [h.keyed [.float 2.0, .null]] := by
  intro h rows maps
  obtain ⟨hagree, -, hpositional, hnamed⟩ := literalRows_agree h
  have hlengths : ∀ row ∈ rows, row.length = h.size := by decide
  exact ⟨hlengths, hagree rows hlengths, (hpositional rows).trans rfl,
    (hnamed maps).trans rfl⟩

end Tuples

end RelAlgebra
