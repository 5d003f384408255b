/-
Headers of joins, products and projections. Headers are compatible if their
attributes of one name are of one type; then, and only then, they join, and
the joined header can be named outright. Joined headers associate exactly
and commute up to the order of the attributes. Projecting on the names of
one header gives just that header, as soon as its attributes are there.
-/
import RelAlgebra.Proofs.Header
import RelAlgebra.Query.Plan

namespace RelAlgebra.Header

variable {h k m : Header} {a b : Attribute} {name : String}

theorem ext_attributes (heq : h.attributes = k.attributes) : h = k := by
  cases h
  cases k
  cases heq
  rfl

/-- No attribute repeats, as no name does. -/
theorem nodup_attributes (h : Header) : h.attributes.Nodup :=
  h.distinct.of_map

/-- Deriving a header from the attributes of one gives it back. -/
theorem derive_attributes (h : Header) : derive h.attributes = .ok h := by
  unfold derive
  rw [ofAttributes_attributes]
  rfl

-- ======================================================= compatibility

/-- Attributes of one name are of one type. -/
def Compatible (h k : Header) : Prop :=
  ∀ a ∈ h.attributes, ∀ b ∈ k.attributes, a.name = b.name → a.type = b.type

theorem Compatible.symm (hc : h.Compatible k) : k.Compatible h :=
  fun a ha b hb hname => (hc b hb a ha hname.symm).symm

/-- So an attribute that both headers name is one of both. -/
theorem Compatible.mem_right (hc : h.Compatible k) (ha : a ∈ h.attributes)
    (hname : a.name ∈ k.names) : a ∈ k.attributes := by
  obtain ⟨b, hb, hbname⟩ := mem_names_iff.1 hname
  have heq : a = b := by
    cases a
    cases b
    cases hbname
    cases hc _ ha _ hb rfl
    rfl
  exact heq ▸ hb

/-- There are no conflicts between compatible headers, and only there. -/
theorem conflicts_eq_nil_iff : h.conflicts k = [] ↔ h.Compatible k := by
  unfold conflicts
  rw [List.filterMap_eq_nil_iff]
  constructor
  · intro hnone a ha b hb hname
    have hfind : h.attribute? b.name = some a :=
      attribute?_eq_some_iff.2 ⟨ha, hname⟩
    have hb := hnone b hb
    rw [hfind] at hb
    by_contra htype
    simp [htype] at hb
  · intro hc b hb
    cases hfind : h.attribute? b.name with
    | none => rfl
    | some a =>
        obtain ⟨ha, hname⟩ := attribute?_eq_some_iff.1 hfind
        simp [hc a ha b hb hname]

-- =============================================================== joins

/-- What the right header adds are its attributes with other names. -/
theorem mem_without :
    a ∈ k.without h ↔ a ∈ k.attributes ∧ a.name ∉ h.names := by
  unfold without
  rw [List.mem_filter, not_contains_iff]

/-- The attributes of `h`, then those of `k` that `h` has no namesakes
of. -/
def joined (h k : Header) : Header where
  attributes := h.attributes ++ k.without h
  nonempty := by simp [h.nonempty]
  distinct := by
    rw [List.map_append, List.nodup_append]
    refine ⟨h.distinct, k.distinct.sublist (List.filter_sublist.map _), ?_⟩
    rintro name hname _ hwithout rfl
    obtain ⟨a, ha, rfl⟩ := List.mem_map.1 hwithout
    exact (mem_without.1 ha).2 hname

/-- A joined header has the left attributes, and the right ones with new
names. -/
theorem attributes_joined (h k : Header) :
    (h.joined k).attributes
      = h.attributes ++ k.attributes.filter fun a => a.name ∉ h.names := by
  refine congrArg (h.attributes ++ ·) (List.filter_congr fun a _ => ?_)
  rw [Bool.eq_iff_iff, not_contains_iff, decide_eq_true_iff]

theorem names_joined (h k : Header) :
    (h.joined k).names
      = h.names ++ k.names.filter fun name => name ∉ h.names := by
  unfold names
  rw [attributes_joined, List.map_append, List.filter_map]
  rfl

/-- An attribute of the joined header is a left one, or a right one with a new
name. -/
theorem mem_joined :
    a ∈ (h.joined k).attributes
      ↔ a ∈ h.attributes ∨ a ∈ k.attributes ∧ a.name ∉ h.names := by
  show a ∈ h.attributes ++ k.without h ↔ _
  rw [List.mem_append, mem_without]

theorem mem_names_joined :
    name ∈ (h.joined k).names ↔ name ∈ h.names ∨ name ∈ k.names := by
  constructor
  · intro hname
    obtain ⟨a, ha, rfl⟩ := mem_names_iff.1 hname
    rcases mem_joined.1 ha with ha | ⟨ha, -⟩
    · exact .inl (mem_names_of_mem ha)
    · exact .inr (mem_names_of_mem ha)
  · intro hname
    by_cases hleft : name ∈ h.names
    · obtain ⟨a, ha, rfl⟩ := mem_names_iff.1 hleft
      exact mem_names_of_mem (mem_joined.2 (.inl ha))
    · obtain ⟨a, ha, rfl⟩ := mem_names_iff.1 (hname.resolve_left hleft)
      exact mem_names_of_mem (mem_joined.2 (.inr ⟨ha, hleft⟩))

theorem join_of_compatible (hc : h.Compatible k) :
    h.join k = .ok (h.joined k) := by
  unfold join
  rw [conflicts_eq_nil_iff.2 hc]
  exact derive_attributes (h.joined k)

/-- Headers that are not compatible do not join; the error lists the
attributes at odds. -/
theorem join_of_not_compatible (hc : ¬h.Compatible k) :
    h.join k = .error (.incompatibleAttributes (h.conflicts k)) := by
  rw [← conflicts_eq_nil_iff] at hc
  unfold join
  cases hconflicts : h.conflicts k with
  | nil => exact absurd hconflicts hc
  | cons p rest => rfl

/-- The first two of three headers being compatible, it is the same to be
compatible with the third for both and for the two joined. -/
theorem compatible_joined_left (hc : h.Compatible k) :
    (h.joined k).Compatible m ↔ h.Compatible m ∧ k.Compatible m := by
  constructor
  · intro hm
    refine ⟨fun a ha => hm a (mem_joined.2 (.inl ha)), fun a ha => ?_⟩
    by_cases hname : a.name ∈ h.names
    · exact hm a (mem_joined.2 (.inl (hc.symm.mem_right ha hname)))
    · exact hm a (mem_joined.2 (.inr ⟨ha, hname⟩))
  · rintro ⟨hh, hk⟩ a ha
    rcases mem_joined.1 ha with ha | ⟨ha, -⟩
    · exact hh a ha
    · exact hk a ha

theorem compatible_comm : h.Compatible k ↔ k.Compatible h :=
  ⟨Compatible.symm, Compatible.symm⟩

/-- A header is compatible with a joined one if it is with both parts. -/
theorem compatible_joined_right (hc : k.Compatible m) :
    h.Compatible (k.joined m) ↔ h.Compatible k ∧ h.Compatible m := by
  rw [compatible_comm, compatible_joined_left hc, compatible_comm (h := k),
    compatible_comm (h := m)]

/-- Three headers are compatible pair by pair, however they are grouped. -/
theorem compatible_assoc :
    h.Compatible k ∧ (h.joined k).Compatible m
      ↔ k.Compatible m ∧ h.Compatible (k.joined m) := by
  constructor
  · rintro ⟨hhk, hjoined⟩
    obtain ⟨hhm, hkm⟩ := (compatible_joined_left hhk).1 hjoined
    exact ⟨hkm, (compatible_joined_right hkm).2 ⟨hhk, hhm⟩⟩
  · rintro ⟨hkm, hjoined⟩
    obtain ⟨hhk, hhm⟩ := (compatible_joined_right hkm).1 hjoined
    exact ⟨hhk, (compatible_joined_left hhk).2 ⟨hhm, hkm⟩⟩

/-- Joining headers is associative. -/
theorem joined_assoc (h k m : Header) :
    (h.joined k).joined m = h.joined (k.joined m) := by
  refine ext_attributes ?_
  show (h.attributes ++ k.without h) ++ m.without (h.joined k)
    = h.attributes ++ (k.joined m).without h
  have hlast : m.without (h.joined k)
      = (m.without k).filter fun a => !h.contains a.name := by
    unfold without
    rw [List.filter_filter]
    refine List.filter_congr fun a _ => ?_
    rw [Bool.eq_iff_iff, Bool.and_eq_true, not_contains_iff,
      not_contains_iff, not_contains_iff, mem_names_joined, not_or]
  rw [List.append_assoc, hlast]
  show _ = h.attributes
    ++ (k.attributes ++ m.without k).filter fun a => !h.contains a.name
  rw [List.filter_append]
  rfl

/-- Compatible headers join to the same attributes either way, in another
order. -/
theorem perm_joined_comm (hc : h.Compatible k) :
    (h.joined k).attributes.Perm (k.joined h).attributes := by
  rw [List.perm_ext_iff_of_nodup (nodup_attributes _) (nodup_attributes _)]
  intro a
  rw [mem_joined, mem_joined]
  constructor
  · rintro (ha | ⟨ha, -⟩)
    · by_cases hname : a.name ∈ k.names
      · exact .inl (hc.mem_right ha hname)
      · exact .inr ⟨ha, hname⟩
    · exact .inl ha
  · rintro (ha | ⟨ha, -⟩)
    · by_cases hname : a.name ∈ h.names
      · exact .inl (hc.symm.mem_right ha hname)
      · exact .inr ⟨ha, hname⟩
    · exact .inl ha

-- ============================================================ products

theorem without_of_disjoint (hdisjoint : ∀ name ∈ h.names, name ∉ k.names) :
    k.without h = k.attributes := by
  refine List.filter_eq_self.2 fun a ha => ?_
  rw [not_contains_iff]
  exact fun hname => hdisjoint a.name hname (mem_names_of_mem ha)

theorem attributes_joined_of_disjoint
    (hdisjoint : ∀ name ∈ h.names, name ∉ k.names) :
    (h.joined k).attributes = h.attributes ++ k.attributes :=
  congrArg (h.attributes ++ ·) (without_of_disjoint hdisjoint)

/-- Headers without a common name have a product, the joined header. -/
theorem product_of_disjoint (hdisjoint : ∀ name ∈ h.names, name ∉ k.names) :
    h.product k = .ok (h.joined k) := by
  have hoverlap : h.overlap k = [] := by
    unfold overlap
    rw [List.filter_eq_nil_iff]
    intro a ha hname
    exact hdisjoint a.name (mem_names_of_mem ha) (contains_iff.1 hname)
  unfold product
  rw [hoverlap]
  show derive (h.attributes ++ k.attributes) = _
  rw [← attributes_joined_of_disjoint hdisjoint]
  exact derive_attributes _

-- ========================================================= projections

/-- Looking up the names of attributes that a header has finds them. -/
theorem filterMap_attribute?_of_subset
    (hsub : ∀ a ∈ k.attributes, a ∈ h.attributes) :
    k.names.filterMap h.attribute? = k.attributes := by
  have hfound : ∀ a ∈ k.attributes, h.attribute? a.name = some a :=
    fun a ha => attribute?_eq_some_iff.2 ⟨hsub a ha, rfl⟩
  unfold names
  rw [List.filterMap_map]
  have hsame : k.attributes.filterMap (h.attribute? ∘ Attribute.name)
      = k.attributes.filterMap some :=
    List.filterMap_congr hfound
  rw [hsame, List.filterMap_some]

end RelAlgebra.Header
