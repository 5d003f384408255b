/-
Names replaced by others, one to one, in headers. Headers with replaced
names pass the checks of operators as they did, and make headers with
replaced names; where they do not pass, the errors show the replaced names.
The names that a header lacks may be shown in another order, as predicates
list the names that they read by the names themselves.
-/
import Mathlib.Data.List.Count
import RelAlgebra.Proofs.Expression.Relabelling
import RelAlgebra.Proofs.Header
import RelAlgebra.Proofs.Query.Tolerance

namespace RelAlgebra

section Definitions

variable (f : String ↪ String)

/-- The attribute under its new name. -/
def Attribute.relabel (a : Attribute) : Attribute :=
  { a with name := f a.name }

/-- Attributes with one image are the same. -/
theorem Attribute.relabel_injective : Function.Injective (relabel f) := by
  intro a b h
  obtain ⟨hname, htype⟩ := Attribute.mk.inj h
  cases a
  cases b
  cases f.injective hname
  cases htype
  rfl

/-- The names of attributes with replaced names. -/
theorem Attribute.map_name_relabel (attributes : List Attribute) :
    (attributes.map (relabel f)).map Attribute.name
      = (attributes.map Attribute.name).map f := by
  rw [List.map_map, List.map_map]
  rfl

/-- The header with replaced names. -/
def Header.relabel (h : Header) : Header where
  attributes := h.attributes.map (Attribute.relabel f)
  nonempty := by simpa using h.nonempty
  distinct := by
    rw [Attribute.map_name_relabel]
    exact h.distinct.map f.injective

def HeaderError.relabel : HeaderError → HeaderError
  | .empty => .empty
  | .duplicates names => .duplicates (names.map f)

/-- The one error is the other with replaced names, and shows the same
values. -/
inductive QueryError.Relabels : QueryError → QueryError → Prop
  | unknownAttributes {names names' : List String}
    (h : names'.Perm (names.map f)) :
    Relabels (.unknownAttributes names) (.unknownAttributes names')
  | incompatibleAttributes (pairs : List (Attribute × Attribute)) :
    Relabels (.incompatibleAttributes pairs) (.incompatibleAttributes
      (pairs.map fun p => (p.1.relabel f, p.2.relabel f)))
  | notUnionCompatible (left right : List Attribute) :
    Relabels (.notUnionCompatible left right) (.notUnionCompatible
      (left.map (Attribute.relabel f)) (right.map (Attribute.relabel f)))
  | notDisjoint (left right : List Attribute) :
    Relabels (.notDisjoint left right) (.notDisjoint
      (left.map (Attribute.relabel f)) (right.map (Attribute.relabel f)))
  | notSuperset (left right : List Attribute) :
    Relabels (.notSuperset left right) (.notSuperset
      (left.map (Attribute.relabel f)) (right.map (Attribute.relabel f)))
  | predicate (e : EvalError) :
    Relabels (.predicate e) (.predicate (e.relabel f))
  | header (e : HeaderError) : Relabels (.header e) (.header (e.relabel f))
  | value (e : ValueError) : Relabels (.value e) (.value e)

/-- Both come to values, or both fail, with one error but for the names. -/
def Tolerance.relabelling : Tolerance QueryError QueryError :=
  ⟨fun _ => False, fun _ => False, QueryError.Relabels f⟩

end Definitions

variable {f : String ↪ String}

namespace Header

variable {h k : Header}

/-- Headers with one image are the same. -/
theorem relabel_injective : Function.Injective (relabel f) := by
  intro h k hsame
  have hattributes : h.attributes = k.attributes :=
    List.map_injective_iff.2 (Attribute.relabel_injective f)
      (Header.mk.inj hsame)
  cases h
  cases k
  cases hattributes
  rfl

-- ============================================================= lookups

@[simp]
theorem attributes_relabel (h : Header) :
    (h.relabel f).attributes = h.attributes.map (Attribute.relabel f) := rfl

@[simp]
theorem names_relabel (h : Header) : (h.relabel f).names = h.names.map f :=
  Attribute.map_name_relabel f h.attributes

theorem mem_names_relabel {name : String} :
    f name ∈ (h.relabel f).names ↔ name ∈ h.names := by
  rw [names_relabel, List.mem_map_of_injective f.injective]

/-- The image of a name is found exactly if the name is. -/
@[simp]
theorem contains_relabel (h : Header) (name : String) :
    (h.relabel f).contains (f name) = h.contains name := by
  rw [Bool.eq_iff_iff, contains_iff, contains_iff, mem_names_relabel]

/-- It stands for the image of its attribute. -/
@[simp]
theorem attribute?_relabel (h : Header) (name : String) :
    (h.relabel f).attribute? (f name)
      = (h.attribute? name).map (Attribute.relabel f) := by
  have hfinds : (fun a : Attribute => decide (a.name = f name))
        ∘ Attribute.relabel f
      = fun a => decide (a.name = name) :=
    funext fun a => decide_eq_decide.2 f.injective.eq_iff
  unfold attribute?
  rw [attributes_relabel, List.find?_map, hfinds]

/-- The new name has the place of the old one. -/
@[simp]
theorem position?_relabel (h : Header) (name : String) :
    (h.relabel f).position? (f name) = h.position? name := by
  unfold position?
  rw [attributes_relabel, List.findIdx?_map]
  exact congrArg (h.attributes.findIdx? ·) (funext fun a =>
    decide_eq_decide.2 f.injective.eq_iff)

/-- Attributes that are chosen by their names. -/
theorem filter_relabel (p p' : String → Bool)
    (hp : ∀ name, p' (f name) = p name) (h : Header) :
    ((h.relabel f).attributes.filter fun a => p' a.name)
      = (h.attributes.filter fun a => p a.name).map (Attribute.relabel f) := by
  rw [attributes_relabel, List.filter_map]
  exact congrArg _ (List.filter_congr fun a _ => hp a.name)

/-- Attributes with common names have images with common names, and no others
have. -/
theorem overlap_relabel (h k : Header) :
    (h.relabel f).overlap (k.relabel f)
      = (h.overlap k).map (Attribute.relabel f) :=
  filter_relabel k.contains _ (contains_relabel k) h

theorem without_relabel (h k : Header) :
    (h.relabel f).without (k.relabel f)
      = (h.without k).map (Attribute.relabel f) :=
  filter_relabel (!k.contains ·) (!(k.relabel f).contains ·)
    (fun name => congrArg (!·) (contains_relabel k name)) h

/-- Types are not changed, so the same pairs are at odds. -/
theorem conflicts_relabel (h k : Header) :
    (h.relabel f).conflicts (k.relabel f)
      = (h.conflicts k).map fun p => (p.1.relabel f, p.2.relabel f) := by
  unfold conflicts
  rw [attributes_relabel, List.filterMap_map, List.map_filterMap]
  refine List.filterMap_congr fun a _ => ?_
  have hname : (a.relabel f).name = f a.name := rfl
  simp only [Function.comp_apply, hname, attribute?_relabel]
  cases h.attribute? a.name with
  | none => rfl
  | some b =>
      show (if (b.relabel f).type = (a.relabel f).type then _ else _) = _
      by_cases htype : b.type = a.type
      · simp [Attribute.relabel, htype]
      · simp [Attribute.relabel, htype]

-- ============================================================== checks

open Tolerance (relabelling)

/-- Names repeat exactly where their images do. -/
theorem repeatedAfter_map (before names : List String) :
    repeatedAfter (before.map f) (names.map f)
      = (repeatedAfter before names).map f := by
  induction names generalizing before with
  | nil => rfl
  | cons name rest ih =>
      have hrest := ih (name :: before)
      rw [List.map_cons] at hrest
      rw [List.map_cons, repeatedAfter, repeatedAfter,
        List.count_map_of_injective _ f f.injective, hrest,
        apply_ite (List.map f)]
      rfl

/-- A header is built, or refused, with the images of its names. -/
theorem ofAttributes_relabel (attributes : List Attribute) :
    ofAttributes (attributes.map (Attribute.relabel f))
      = ((ofAttributes attributes).map (relabel f)).mapError
          (HeaderError.relabel f) := by
  unfold ofAttributes
  by_cases hnonempty : attributes = []
  · subst hnonempty
    rfl
  · have hnonempty' : attributes.map (Attribute.relabel f) ≠ [] := by
      simpa using hnonempty
    rw [dif_neg hnonempty, dif_neg hnonempty']
    have hdistinct : ((attributes.map (Attribute.relabel f)).map
          Attribute.name).Nodup ↔ (attributes.map Attribute.name).Nodup := by
      rw [Attribute.map_name_relabel, List.nodup_map_iff f.injective]
    by_cases hd : (attributes.map Attribute.name).Nodup
    · rw [dif_pos hd, dif_pos (hdistinct.2 hd)]
      rfl
    · rw [dif_neg hd, dif_neg fun h => hd (hdistinct.1 h),
        Attribute.map_name_relabel]
      exact congrArg (fun names => Except.error (HeaderError.duplicates names))
        (repeatedAfter_map [] _)

/-- A header that is derived from replaced attributes. -/
theorem relates_derive (attributes : List Attribute) :
    (relabelling f).Relates (fun h h' => h' = h.relabel f)
      (derive attributes)
      (derive (attributes.map (Attribute.relabel f))) := by
  unfold derive
  rw [ofAttributes_relabel]
  cases ofAttributes attributes with
  | ok header => exact .ok rfl
  | error e => exact .both (.header e)

/-- The names that a header lacks are the replaced ones, each once. -/
theorem missing_relabel {requested requested' : List String}
    (hrequested : ∀ name, name ∈ requested' ↔ name ∈ requested.map f) :
    ((h.relabel f).missing requested').Perm
      ((h.missing requested).map f) := by
  refine (List.perm_ext_iff_of_nodup (nodup_missing _ _)
    ((nodup_missing _ _).map f.injective)).2 fun name => ?_
  rw [mem_missing, hrequested, names_relabel]
  constructor
  · rintro ⟨hname, hfree⟩
    obtain ⟨m, hm, rfl⟩ := List.mem_map.1 hname
    refine List.mem_map_of_mem (mem_missing.2 ⟨hm, fun hmem => hfree ?_⟩)
    exact List.mem_map_of_mem hmem
  · intro hname
    obtain ⟨m, hm, rfl⟩ := List.mem_map.1 hname
    obtain ⟨hrequest, hfree⟩ := mem_missing.1 hm
    rw [List.mem_map_of_injective f.injective,
      List.mem_map_of_injective f.injective]
    exact ⟨hrequest, hfree⟩

/-- Names are missing exactly if their images are. -/
theorem relates_require {requested requested' : List String}
    (hrequested : ∀ name, name ∈ requested' ↔ name ∈ requested.map f) :
    (relabelling f).Relates (fun _ _ => True) (h.require requested)
      ((h.relabel f).require requested') := by
  have hperm := missing_relabel (h := h) hrequested
  unfold require
  cases hmissing : h.missing requested with
  | nil =>
      rw [hmissing, List.map_nil, List.perm_nil] at hperm
      rw [hperm]
      exact .ok trivial
  | cons name names =>
      rw [hmissing] at hperm
      cases hmissing' : (h.relabel f).missing requested' with
      | nil =>
          rw [hmissing'] at hperm
          cases hperm.length_eq
      | cons name' names' =>
          rw [hmissing'] at hperm
          exact .both (.unknownAttributes hperm)

/-- Headers join, or clash, as their images do. -/
theorem relates_join (h k : Header) :
    (relabelling f).Relates (fun j j' => j' = j.relabel f) (h.join k)
      ((h.relabel f).join (k.relabel f)) := by
  unfold join
  rw [conflicts_relabel, without_relabel, attributes_relabel,
    ← List.map_append]
  cases h.conflicts k with
  | nil => exact relates_derive _
  | cons p pairs => exact .both (.incompatibleAttributes (p :: pairs))

theorem relates_product (h k : Header) :
    (relabelling f).Relates (fun j j' => j' = j.relabel f) (h.product k)
      ((h.relabel f).product (k.relabel f)) := by
  unfold product
  rw [overlap_relabel, overlap_relabel, attributes_relabel,
    attributes_relabel, ← List.map_append]
  cases h.overlap k with
  | nil => exact relates_derive _
  | cons a common => exact .both (.notDisjoint (a :: common) _)

theorem relates_requireSame (h k : Header) :
    (relabelling f).Relates (fun _ _ => h = k) (h.requireSame k)
      ((h.relabel f).requireSame (k.relabel f)) := by
  unfold requireSame
  simp only [relabel_injective.eq_iff]
  split
  · exact .ok ‹h = k›
  · exact .both (.notUnionCompatible _ _)

/-- A header is part of another exactly if its image is. -/
theorem relates_requireSuperset (h k : Header) :
    (relabelling f).Relates (fun _ _ => True) (h.requireSuperset k)
      ((h.relabel f).requireSuperset (k.relabel f)) := by
  have hall : ((k.relabel f).attributes.all fun a =>
        (h.relabel f).attribute? a.name = some a)
      = k.attributes.all fun a => h.attribute? a.name = some a := by
    rw [attributes_relabel, List.all_map]
    refine congrArg k.attributes.all (funext fun a => ?_)
    have hname : (a.relabel f).name = f a.name := rfl
    simp only [Function.comp_apply, hname, attribute?_relabel]
    cases h.attribute? a.name with
    | none => rfl
    | some b => simp [(Attribute.relabel_injective f).eq_iff]
  unfold requireSuperset
  rw [hall]
  split
  · exact .ok trivial
  · exact .both (.notSuperset _ _)

end Header

end RelAlgebra
