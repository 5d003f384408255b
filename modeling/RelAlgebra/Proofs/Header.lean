/-
Headers as sets of attributes: what lookups find, and when the checks that
operators make on headers succeed.
-/
import Mathlib.Data.List.Nodup
import RelAlgebra.Algebra.Binary

namespace RelAlgebra.Header

variable {h k : Header} {a : Attribute} {name : String}
  {attributes : List Attribute}

-- ============================================================= lookups

theorem mem_names_iff :
    name ∈ h.names ↔ ∃ a ∈ h.attributes, a.name = name :=
  List.mem_map

theorem mem_names_of_mem (ha : a ∈ h.attributes) : a.name ∈ h.names :=
  List.mem_map_of_mem ha

theorem contains_iff : h.contains name = true ↔ name ∈ h.names := by
  rw [mem_names_iff]
  simp [contains]

theorem not_contains_iff : (!h.contains name) = true ↔ name ∉ h.names := by
  rw [Bool.not_eq_true', ← Bool.not_eq_true, contains_iff]

/-- No two attributes have one name. -/
theorem eq_of_name_eq {b : Attribute} (ha : a ∈ h.attributes)
    (hb : b ∈ h.attributes) (hname : a.name = b.name) : a = b :=
  List.inj_on_of_nodup_map h.distinct ha hb hname

/-- The attribute of a name is the one in the header; as names do not repeat
there is only one. -/
theorem attribute?_eq_some_iff :
    h.attribute? name = some a ↔ a ∈ h.attributes ∧ a.name = name := by
  constructor
  · intro hfind
    exact ⟨List.mem_of_find?_eq_some hfind,
      by simpa using List.find?_some hfind⟩
  · rintro ⟨ha, rfl⟩
    unfold attribute?
    cases hfind : h.attributes.find? fun b => b.name = a.name with
    | none => simpa using List.find?_eq_none.1 hfind a ha
    | some b =>
        have hb : b.name = a.name := by simpa using List.find?_some hfind
        rw [eq_of_name_eq (List.mem_of_find?_eq_some hfind) ha hb]

-- ======================================================== construction

/-- A list of attributes of different names makes the header it shows. -/
theorem ofAttributes_attributes (h : Header) :
    ofAttributes h.attributes = .ok h := by
  unfold ofAttributes
  rw [dif_neg h.nonempty, dif_pos h.distinct]

/-- A list of attributes that repeats names makes no header. -/
theorem ofAttributes_of_repeated
    (hrepeats : ¬(attributes.map Attribute.name).Nodup) :
    ofAttributes attributes = .error
      (.duplicates (repeatedAfter [] (attributes.map Attribute.name))) := by
  have hsome : attributes ≠ [] :=
    fun hnil => hrepeats (hnil ▸ List.nodup_nil)
  unfold ofAttributes
  rw [dif_neg hsome, dif_neg hrepeats]

/-- All that a list of attributes can be. -/
theorem ofAttributes_cases (attributes : List Attribute) :
    attributes = [] ∨ (∃ h : Header, h.attributes = attributes)
      ∨ ¬(attributes.map Attribute.name).Nodup := by
  by_cases hnil : attributes = []
  · exact .inl hnil
  · by_cases hdiffer : (attributes.map Attribute.name).Nodup
    · exact .inr (.inl ⟨⟨attributes, hnil, hdiffer⟩, rfl⟩)
    · exact .inr (.inr hdiffer)

/-- A header that is built has just the attributes it is built from. -/
theorem attributes_of_ofAttributes (hk : ofAttributes attributes = .ok k) :
    k.attributes = attributes := by
  rcases ofAttributes_cases attributes with rfl | ⟨h, rfl⟩ | hrepeats
  · cases hk
  · rw [ofAttributes_attributes] at hk
    cases hk
    rfl
  · rw [ofAttributes_of_repeated hrepeats] at hk
    cases hk

-- ============================================================== checks

theorem attributes_of_derive (hk : derive attributes = .ok k) :
    k.attributes = attributes := by
  unfold derive at hk
  cases hheader : ofAttributes attributes with
  | error e =>
      rw [hheader] at hk
      cases hk
  | ok header =>
      rw [hheader] at hk
      cases hk
      exact attributes_of_ofAttributes hheader

/-- What is missing was asked for and is not there. -/
theorem mem_missing {requested : List String} :
    name ∈ h.missing requested ↔ name ∈ requested ∧ name ∉ h.names := by
  unfold missing
  rw [List.mem_eraseDups, List.mem_filter, not_contains_iff]

/-- Once repetitions are erased nothing is repeated. -/
theorem nodup_eraseDups : ∀ names : List String, names.eraseDups.Nodup
  | [] => List.nodup_nil
  | name :: rest => by
      rw [List.eraseDups_cons, List.nodup_cons]
      exact ⟨by simp, nodup_eraseDups _⟩
termination_by names => names.length
decreasing_by exact Nat.lt_succ_of_le (List.length_filter_le _ _)

theorem nodup_missing (h : Header) (requested : List String) :
    (h.missing requested).Nodup :=
  nodup_eraseDups _

/-- A check for names that the header lacks reports them all. -/
theorem require_of_not_mem {requested : List String}
    (hname : name ∈ requested) (hfree : name ∉ h.names) :
    h.require requested
      = .error (.unknownAttributes (h.missing requested)) := by
  have hmem : name ∈ h.missing requested := mem_missing.2 ⟨hname, hfree⟩
  unfold require
  cases hmissing : h.missing requested with
  | nil =>
      rw [hmissing] at hmem
      cases hmem
  | cons m rest => rfl

/-- Names that are required are there if the check passes. -/
theorem mem_of_require {requested : List String}
    (hrequire : h.require requested = .ok ()) (hname : name ∈ requested) :
    name ∈ h.names := by
  by_contra hfree
  rw [require_of_not_mem hname hfree] at hrequire
  cases hrequire

/-- And it passes if they are there. -/
theorem require_of_mem {requested : List String}
    (hnames : ∀ name ∈ requested, name ∈ h.names) :
    h.require requested = .ok () := by
  have hfilter : requested.filter (!h.contains ·) = [] := by
    rw [List.filter_eq_nil_iff]
    intro name hname
    simpa using contains_iff.2 (hnames name hname)
  have hmissing : h.missing requested = [] := by
    unfold missing
    rw [hfilter]
    rfl
  unfold require
  rw [hmissing]

/-- A check for one name. -/
theorem require_singleton (hname : name ∈ h.names) :
    h.require [name] = .ok () :=
  require_of_mem fun _ hmem => List.mem_singleton.1 hmem ▸ hname

theorem require_singleton_of_not_mem (hfree : name ∉ h.names) :
    h.require [name] = .error (.unknownAttributes [name]) := by
  have hlacks : [name].filter (!h.contains ·) = [name] :=
    List.filter_eq_self.2 fun _ hmem =>
      not_contains_iff.2 (List.mem_singleton.1 hmem ▸ hfree)
  have hmissing : h.missing [name] = [name] := by
    unfold missing
    rw [hlacks]
    rfl
  rw [require_of_not_mem (List.mem_singleton_self name) hfree, hmissing]

/-- A name that is given anew is that of no other attribute, since the new
header has it once. -/
theorem ne_of_renamed {old new : String} (hold : old ∈ h.names)
    (hk : k.attributes = h.attributes.map fun a =>
      if a.name = old then { a with name := new } else a)
    (ha : a ∈ h.attributes) (hne : a.name ≠ old) : a.name ≠ new := by
  intro hnew
  obtain ⟨b, hb, hbname⟩ := mem_names_iff.1 hold
  have hdistinct := k.distinct
  rw [hk, List.map_map] at hdistinct
  have hab : a = b := by
    refine List.inj_on_of_nodup_map hdistinct ha hb ?_
    show Attribute.name (if _ then _ else _)
      = Attribute.name (if _ then _ else _)
    rw [if_neg hne, if_pos hbname]
    exact hnew
  exact hne (hab ▸ hbname)

/-- The attributes of a joined header: all of `h`, and those of `k` that
have no namesake in `h`. -/
theorem mem_attributes_of_join {joined : Header} (hj : h.join k = .ok joined) :
    a ∈ joined.attributes
      ↔ a ∈ h.attributes ∨ a ∈ k.attributes ∧ a.name ∉ h.names := by
  unfold join at hj
  split at hj
  · rw [attributes_of_derive hj, List.mem_append]
    unfold without
    rw [List.mem_filter, not_contains_iff]
  · cases hj

/-- A product has the attributes of both headers, the left ones first. -/
theorem attributes_of_product {paired : Header}
    (hp : h.product k = .ok paired) :
    paired.attributes = h.attributes ++ k.attributes := by
  unfold product at hp
  split at hp
  · exact attributes_of_derive hp
  · cases hp

/-- Headers whose product is built have no name in common. -/
theorem disjoint_of_product {paired : Header}
    (hp : h.product k = .ok paired) (hname : name ∈ h.names) :
    name ∉ k.names := by
  unfold product at hp
  split at hp
  · rename_i hoverlap
    obtain ⟨a, ha, rfl⟩ := mem_names_iff.1 hname
    intro hk
    have hmem : a ∈ h.overlap k :=
      List.mem_filter.2 ⟨ha, contains_iff.2 hk⟩
    rw [hoverlap] at hmem
    cases hmem
  · cases hp

/-- Headers that pass the check of a set operation are the same. -/
theorem eq_of_requireSame (hsame : h.requireSame k = .ok ()) : h = k := by
  unfold requireSame at hsame
  split at hsame
  · assumption
  · cases hsame

end RelAlgebra.Header
