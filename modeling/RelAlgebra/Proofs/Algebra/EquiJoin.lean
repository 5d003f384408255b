/-
Natural joins by comparison. Instead of joining on equal values under shared
names, one can rename the shared names of the right relation, take the
product, select the pairs of rows whose columns compare as equal, and project
the renamed columns away. Comparing as equal and being equal are one thing on
values of one type without not-a-number; the left row keeps its values in the
merged row either way. So both come to the same relation.
-/
import RelAlgebra.Proofs.Algebra.Pairing
import RelAlgebra.Proofs.Algebra.Renaming
import RelAlgebra.Proofs.Value.Comparison

namespace RelAlgebra

-- ======================================================== conjunctions

namespace Predicate

variable {c : Predicate} {t : Tuple} {a b : String}

/-- What a conjunction asks for, however it is grouped. -/
def conjuncts : Predicate → List Predicate
  | .and p q => p.conjuncts ++ q.conjuncts
  | p => [p]

/-- A condition whose parts can all be decided is decided by them. -/
theorem holds_of_conjuncts (h : ∀ p ∈ c.conjuncts, p.Decides t) :
    c.Decides t ∧ c.holds t = c.conjuncts.all (·.holds t) := by
  induction c using conjuncts.induct with
  | case1 p q ihp ihq =>
      rw [conjuncts, List.forall_mem_append] at h
      obtain ⟨hp, hpholds⟩ := ihp h.1
      obtain ⟨hq, hqholds⟩ := ihq h.2
      rw [conjuncts, List.all_append, ← hpholds, ← hqholds]
      exact ⟨decides_and.2 ⟨hp, hq⟩, holds_and hp hq⟩
  | case2 c hc =>
      rw [conjuncts.eq_2 c hc] at h ⊢
      exact ⟨h c (List.mem_singleton.2 rfl), by simp⟩

theorem mem_attributes_iff_conjuncts {name : String} :
    name ∈ c.attributes ↔ ∃ p ∈ c.conjuncts, name ∈ p.attributes := by
  induction c using conjuncts.induct with
  | case1 p q ihp ihq =>
      rw [conjuncts, attributes, NameSet.mem_union, ihp, ihq]
      simp only [List.mem_append, or_and_right, exists_or]
  | case2 c hc => rw [conjuncts.eq_2 c hc]; simp

/-- The comparison of two attributes for equality. -/
def equates (a b : String) : Predicate :=
  .comparison .eq (.member (.attribute a)) (.member (.attribute b))

theorem mem_attributes_equates {name : String} :
    name ∈ (equates a b).attributes ↔ name = a ∨ name = b := by
  simp [equates, attributes, Expression.attributes, Member.attributes]

/-- On values of one type without not-a-number, the comparison says whether
the values are equal. -/
theorem eval_equates {v w : Value} {type : AttributeType}
    (ha : t.get? a = some v) (hb : t.get? b = some w)
    (hv : v.conforms type = true) (hw : w.conforms type = true)
    (hvnan : v.isNaN = false) (hwnan : w.isNaN = false) :
    (equates a b).eval t.get? = .ok (v == w) := by
  simp only [equates, eval, Expression.eval, Member.eval, ha, hb]
  show EvalError.lift (ComparisonOperator.eq.apply v w) = _
  rw [Value.apply_eq_of_conforms hv hw hvnan hwnan]
  rfl

end Predicate

-- ===================================================== separated names

/-- New names for just the names that both headers have: each of these is
given one, different from the others and from all names of the headers. -/
structure Header.Separates (h k : Header) (pairs : List (String × String)) :
    Prop where
  shared : ∀ name, name ∈ pairs.map Prod.fst ↔ name ∈ h.names ∧ name ∈ k.names
  newLeft : ∀ z ∈ pairs, z.2 ∉ h.names
  newRight : ∀ z ∈ pairs, z.2 ∉ k.names
  oldDiffer : (pairs.map Prod.fst).Nodup
  newDiffer : (pairs.map Prod.snd).Nodup

namespace Header.Separates

variable {h k : Header} {pairs : List (String × String)}
  {z : String × String} {name : String}

theorem fst_mem (hs : h.Separates k pairs) (hz : z ∈ pairs) :
    z.1 ∈ h.names ∧ z.1 ∈ k.names :=
  (hs.shared z.1).1 (List.mem_map_of_mem hz)

/-- The new names are fresh, so all the renamings succeed. -/
theorem renames (hs : h.Separates k pairs) : k.Renames pairs where
  old _ hz := (hs.fst_mem hz).2
  new := hs.newRight
  oldDiffer := hs.oldDiffer
  newDiffer := hs.newDiffer

/-- A shared name is replaced by its new one. -/
theorem exchanges_fst (hs : h.Separates k pairs) (hz : z ∈ pairs) :
    exchanges pairs z.1 = z.2 :=
  RelAlgebra.exchanges_fst hs.oldDiffer hs.newDiffer
    (fun _ => hs.renames.snd_not_mem) z hz

/-- A name that is not shared stays. -/
theorem exchanges_of_not_mem (hs : h.Separates k pairs)
    (hname : name ∈ k.names) (hfree : name ∉ h.names) :
    exchanges pairs name = name := by
  refine RelAlgebra.exchanges_of_not_mem
    (fun hmem => hfree ((hs.shared name).1 hmem).1) fun hmem => ?_
  obtain ⟨z, hz, rfl⟩ := List.mem_map.1 hmem
  exact hs.newRight z hz hname

/-- With the new names the headers have no name in common. -/
theorem disjoint (hs : h.Separates k pairs) :
    ∀ name ∈ h.names, name ∉ (k.relabel (exchanges pairs)).names := by
  intro name hname hmem
  rw [names_relabel] at hmem
  obtain ⟨m, hm, rfl⟩ := List.mem_map.1 hmem
  by_cases hshared : m ∈ h.names
  · obtain ⟨z, hz, rfl⟩ := List.mem_map.1 ((hs.shared m).2 ⟨hshared, hm⟩)
    rw [hs.exchanges_fst hz] at hname
    exact hs.newLeft z hz hname
  · rw [hs.exchanges_of_not_mem hm hshared] at hname
    exact hshared hname

/-- The header of the natural join is found in that of the product. -/
theorem mem_joined_of_mem (hs : h.Separates k pairs) {a : Attribute}
    (ha : a ∈ (h.joined k).attributes) :
    a ∈ (h.joined (k.relabel (exchanges pairs))).attributes := by
  rcases mem_joined.1 ha with ha | ⟨ha, hfree⟩
  · exact mem_joined.2 (.inl ha)
  · have hsame : a.relabel (exchanges pairs) = a := by
      unfold Attribute.relabel
      rw [hs.exchanges_of_not_mem (mem_names_of_mem ha) hfree]
    refine mem_joined.2 (.inr ⟨?_, hfree⟩)
    rw [attributes_relabel]
    exact List.mem_map.2 ⟨a, ha, hsame⟩

end Header.Separates

-- ================================================================ rows

namespace Tuple.Fits

variable {h k : Header} {pairs : List (String × String)} {t u : Tuple}

/-- Without its renamed columns, a pair of the product is the merged row of
the join. -/
theorem project_merge_relabel (hs : h.Separates k pairs) (ht : t.Fits h)
    (hu : u.Fits k) :
    (t.merge (u.relabel (exchanges pairs))).project (h.joined k).names
      = t.merge u := by
  have hget : ∀ name ∈ (h.joined k).names,
      (t.merge (u.relabel (exchanges pairs))).get? name
        = (t.merge u).get? name := by
    intro name hname
    rw [get?_merge, get?_merge]
    by_cases hleft : name ∈ h.names
    · obtain ⟨value, hvalue⟩ := ht.get?_isSome hleft
      rw [hvalue]
      rfl
    · have hright := (Header.mem_names_joined.1 hname).resolve_left hleft
      have hsame := get?_relabel (f := exchanges pairs) u name
      rw [hs.exchanges_of_not_mem hright hleft] at hsame
      rw [hsame]
  rw [← project_of_names (ht.merge_joined hu).names]
  refine ext_get? fun name => ?_
  rw [get?_project, get?_project]
  by_cases hname : name ∈ (h.joined k).names
  · rw [if_pos hname, if_pos hname, getD, getD, hget name hname]
  · rw [if_neg hname, if_neg hname]

/-- Both columns of a shared name, in a pair of the product. -/
theorem get?_merge_relabel (hs : h.Separates k pairs) (ht : t.Fits h)
    {z : String × String} (hz : z ∈ pairs) :
    (t.merge (u.relabel (exchanges pairs))).get? z.1 = t.get? z.1
      ∧ (t.merge (u.relabel (exchanges pairs))).get? z.2 = u.get? z.1 := by
  rw [get?_merge, get?_merge]
  constructor
  · obtain ⟨value, hvalue⟩ := ht.get?_isSome (hs.fst_mem hz).1
    rw [hvalue]
    rfl
  · rw [ht.get?_eq_none (hs.newLeft z hz), Option.none_or,
      ← hs.exchanges_fst hz, get?_relabel]

end Tuple.Fits

-- ========================================================== equi joins

namespace Resolved

/-- Under the names that are renamed, no row has not-a-number. -/
def FreeOfNaN (pairs : List (String × String)) (r : Resolved) : Prop :=
  ∀ t ∈ r.tuples.rows, ∀ z ∈ pairs, (t.getD z.1).isNaN = false

instance (pairs : List (String × String)) (r : Resolved) :
    Decidable (r.FreeOfNaN pairs) :=
  inferInstanceAs (Decidable (∀ t ∈ r.tuples.rows, ∀ z ∈ pairs,
    (t.getD z.1).isNaN = false))

/-- When relations are joined by comparison: the headers have the shared
columns with one type, `pairs` has new names for them, no row has
not-a-number under them, and the conjunction compares just these columns
with their renamed ones. -/
structure EquiJoin (pairs : List (String × String)) (c : Predicate)
    (l r : Resolved) : Prop where
  left : l.WellFormed
  right : r.WellFormed
  compatible : l.header.Compatible r.header
  separates : l.header.Separates r.header pairs
  leftNumbers : l.FreeOfNaN pairs
  rightNumbers : r.FreeOfNaN pairs
  conjuncts : c.conjuncts = pairs.map fun z => .equates z.1 z.2

namespace EquiJoin

variable {l r : Resolved} {pairs : List (String × String)} {c : Predicate}
  {t u : Tuple}

/-- In a pair of the product, the columns of a shared name compare as the
values of the two rows are equal. -/
theorem eval_equates_merge (h : EquiJoin pairs c l r) (ht : t ∈ l.tuples.rows)
    (hu : u ∈ r.tuples.rows) {z : String × String} (hz : z ∈ pairs) :
    (Predicate.equates z.1 z.2).eval
        (t.merge (u.relabel (exchanges pairs))).get?
      = .ok (t.get? z.1 == u.get? z.1) := by
  obtain ⟨hleft, hright⟩ := h.separates.fst_mem hz
  obtain ⟨a, ha, haname⟩ := Header.mem_names_iff.1 hleft
  obtain ⟨b, hb, hbname⟩ := Header.mem_names_iff.1 hright
  have htype : a.type = b.type :=
    h.compatible a ha b hb (haname.trans hbname.symm)
  obtain ⟨v, hv, hvconforms⟩ := (h.left.fits t ht).stored ha
  obtain ⟨w, hw, hwconforms⟩ := (h.right.fits u hu).stored hb
  rw [haname] at hv
  rw [hbname] at hw
  rw [← htype] at hwconforms
  have hvnan := h.leftNumbers t ht z hz
  rw [Tuple.getD_of_get? hv] at hvnan
  have hwnan := h.rightNumbers u hu z hz
  rw [Tuple.getD_of_get? hw] at hwnan
  obtain ⟨hfirst, hsecond⟩ :=
    (h.left.fits t ht).get?_merge_relabel h.separates hz (u := u)
  rw [Tuple.beq_get?_of_some hv hw]
  exact Predicate.eval_equates (hfirst.trans hv) (hsecond.trans hw)
    hvconforms hwconforms hvnan hwnan

/-- So the conjunction comes to a truth value on every pair. -/
theorem decides_merge (h : EquiJoin pairs c l r) (ht : t ∈ l.tuples.rows)
    (hu : u ∈ r.tuples.rows) :
    ∀ p ∈ c.conjuncts,
      p.Decides (t.merge (u.relabel (exchanges pairs))) := by
  intro p hp
  rw [h.conjuncts] at hp
  obtain ⟨z, hz, rfl⟩ := List.mem_map.1 hp
  exact ⟨_, h.eval_equates_merge ht hu hz⟩

/-- It holds where the rows agree. -/
theorem holds_merge (h : EquiJoin pairs c l r) (ht : t ∈ l.tuples.rows)
    (hu : u ∈ r.tuples.rows) :
    c.holds (t.merge (u.relabel (exchanges pairs)))
      = t.agreeOn ((r.header.overlap l.header).map Attribute.name) u := by
  have hequates : ∀ z ∈ pairs,
      (Predicate.equates z.1 z.2).holds
          (t.merge (u.relabel (exchanges pairs)))
        = (t.get? z.1 == u.get? z.1) :=
    fun z hz => Predicate.holds_of_eval (h.eval_equates_merge ht hu hz)
  rw [(Predicate.holds_of_conjuncts (h.decides_merge ht hu)).2, h.conjuncts,
    List.all_map, Bool.eq_iff_iff, List.all_eq_true, Tuple.agreeOn_iff]
  constructor
  · intro hall name hname
    obtain ⟨z, hz, rfl⟩ := List.mem_map.1
      ((h.separates.shared name).2 (Header.mem_names_overlap.1 hname))
    rw [← hequates z hz]
    exact hall z hz
  · intro hagree z hz
    show (Predicate.equates z.1 z.2).holds _ = true
    rw [hequates z hz]
    exact hagree z.1 (Header.mem_names_overlap.2 (h.separates.fst_mem hz))

/-- So it applies to the product, and the selection does not fail. -/
theorem appliesTo_paired (h : EquiJoin pairs c l r) :
    c.AppliesTo (l.paired (r.relabel (exchanges pairs))) where
  names name hname := by
    obtain ⟨p, hp, hname⟩ := Predicate.mem_attributes_iff_conjuncts.1 hname
    rw [h.conjuncts] at hp
    obtain ⟨z, hz, rfl⟩ := List.mem_map.1 hp
    obtain ⟨hleft, hright⟩ := h.separates.fst_mem hz
    show name ∈ (l.header.joined _).names
    rw [Header.mem_names_joined]
    rcases Predicate.mem_attributes_equates.1 hname with rfl | rfl
    · exact .inl hleft
    · right
      show z.2 ∈ (r.header.relabel _).names
      rw [Header.names_relabel]
      exact List.mem_map.2 ⟨z.1, hright, h.separates.exchanges_fst hz⟩
  rows v hv := by
    obtain ⟨t, ht, u', hu', rfl⟩ := mem_of_mem_paired hv
    obtain ⟨u, hu, rfl⟩ := List.mem_map.1 hu'
    exact (Predicate.holds_of_conjuncts (h.decides_merge ht hu)).1

/-- The product keeps all pairs. -/
theorem rows_paired (h : EquiJoin pairs c l r) :
    (l.paired (r.relabel (exchanges pairs))).tuples.rows
      = l.tuples.rows.flatMap fun t => r.tuples.rows.map fun u =>
          t.merge (u.relabel (exchanges pairs)) := by
  rw [paired_eq_joined h.separates.disjoint,
    rows_joined h.left h.right.relabel,
    joinedRows_of_disjoint h.separates.disjoint]
  refine List.flatMap_congr fun t _ => ?_
  show (r.tuples.rows.map _).map _ = _
  rw [List.map_map]
  rfl

/-- What is selected from the product and projected back is what is
joined, row by row. -/
theorem map_project_chosen (h : EquiJoin pairs c l r) :
    ((l.paired (r.relabel (exchanges pairs))).chosen c).tuples.rows.map
        (·.project (l.joined r).header.names)
      = l.joinedRows r := by
  show ((l.paired _).tuples.rows.filter c.holds).map _ = _
  rw [h.rows_paired, List.filter_flatMap, List.map_flatMap]
  unfold joinedRows
  refine List.flatMap_congr fun t ht => ?_
  rw [List.filter_map, List.map_map]
  have hchosen : r.tuples.rows.filter
        (c.holds ∘ fun u => t.merge (u.relabel (exchanges pairs)))
      = r.tuples.rows.filter
          (t.agreeOn ((r.header.overlap l.header).map Attribute.name)) :=
    List.filter_congr fun u hu => h.holds_merge ht hu
  rw [hchosen]
  refine List.map_congr_left fun u hu => ?_
  exact (h.left.fits t ht).project_merge_relabel h.separates
    (h.right.fits u (List.mem_of_mem_filter hu))

/-- Product, selection and projection succeed, one after the other, and come
to the natural join. -/
theorem eq_joined (h : EquiJoin pairs c l r) :
    ((l.product (r.relabel (exchanges pairs)) >>= fun x => x.select c)
        >>= fun x => x.project (l.joined r).header.names)
      = .ok (l.joined r) := by
  rw [product_of_disjoint h.separates.disjoint]
  show ((l.paired _).select c >>= _) = _
  rw [select_of_appliesTo h.appliesTo_paired]
  show ((l.paired _).chosen c).project (l.joined r).header.names = _
  rw [project_names (k := (l.joined r).header)
      fun a ha => h.separates.mem_joined_of_mem ha, projected,
    h.map_project_chosen]
  rfl

end EquiJoin

end Resolved

end RelAlgebra
