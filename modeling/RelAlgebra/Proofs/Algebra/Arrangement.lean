/-
What ordering comes to. If it succeeds, by whichever sort, the rows are those
of the relation in the order of the keys, rows that are equal on every key as
the relation lists them. There is one such relation only, and if there is
one, every sort comes to it. So ordering twice is ordering once by all the
keys, the later ones first, and choosing rows by a predicate may be done before
ordering them as well as after.
-/
import RelAlgebra.Proofs.Algebra.Ordering
import RelAlgebra.Proofs.Algebra.Selection
import RelAlgebra.Proofs.Tuples.StableOrder

namespace RelAlgebra

variable {keys : List SortKey}

/-- Rows compare as equal exactly if they are equal on every key. -/
theorem Tuple.compareBy_eq_ok_eq_iff {t u : Tuple} :
    t.compareBy u keys = .ok .eq
      ↔ ∀ key ∈ keys,
          (t.getD key.name).compare (u.getD key.name) = .ok .eq := by
  induction keys with
  | nil => exact iff_of_true rfl nofun
  | cons key keys ih =>
      have hdirected : key.direction.apply .eq = .eq := by
        cases key.direction <;> rfl
      rw [compareBy_cons_eq_ok_iff, List.forall_mem_cons, ← ih, hdirected]
      exact or_iff_right fun h => h.2 rfl

/-- Rows in another order are still different. -/
theorem Tuples.distinct_of_perm {ts : Tuples} {rows : List Tuple}
    (h : rows.Perm ts.rows) : rows.Pairwise fun t u => (t == u) = false :=
  (h.pairwise_iff fun {t u} hne => by rwa [BEq.comm]).2 ts.distinct

/-- Whichever the sort, it comes to the rows in the order of the keys. -/
theorem Tuples.sortedWith_eq_ok_iff (sort : StableSort) {ts us : Tuples} :
    ts.sortedWith sort keys = .ok us
      ↔ Arranges (fun t u => t.compareBy u keys) ts.rows us.rows := by
  have hcoherent := Tuple.coherent_compareBy keys
  have hrows : ∀ {rows}, Arranges (fun t u => t.compareBy u keys) ts.rows rows →
      (ofList rows).rows = rows :=
    fun h => rows_ofList_of_distinct (distinct_of_perm h.perm)
  rw [sortedWith, Attempt.bind_eq_ok_iff]
  simp only [sort.sort_eq_ok_iff hcoherent ts.nodup_rows]
  constructor
  · rintro ⟨rows, harranges, h⟩
    cases h
    rwa [hrows harranges]
  · intro h
    exact ⟨us.rows, h, congrArg Attempt.ok (ext_rows (hrows h))⟩

/-- A relation that is ordered has the keys, keeps its header, and has its
rows in the order of the keys. -/
theorem Resolved.orderWith_eq_ok_iff (sort : StableSort) {r x : Resolved} :
    r.orderWith sort keys = .ok x
      ↔ (∀ key ∈ keys, key.name ∈ r.header.names) ∧ x.header = r.header
        ∧ Arranges (fun t u => t.compareBy u keys) r.tuples.rows
            x.tuples.rows := by
  have hrequire : Attempt.ofExcept (r.header.require (keys.map SortKey.name))
        = .ok ()
      ↔ ∀ key ∈ keys, key.name ∈ r.header.names := by
    rw [Attempt.ofExcept_eq_ok_iff]
    refine ⟨fun h key hkey => ?_, fun h => ?_⟩
    · exact Header.mem_of_require h (List.mem_map_of_mem hkey)
    · exact Header.require_of_mem (List.forall_mem_map.2 h)
  rw [← Tuples.sortedWith_eq_ok_iff sort, ← hrequire, orderWith]
  simp only [Attempt.bind_eq_ok_iff, Attempt.mapError_eq_ok_iff]
  constructor
  · rintro ⟨⟨⟩, hkeys, ts, hts, h⟩
    cases h
    exact ⟨hkeys, rfl, hts⟩
  · rintro ⟨hkeys, hheader, hts⟩
    exact ⟨(), hkeys, x.tuples, hts, by rw [← hheader]; rfl⟩

-- ============================================================ two orders

/-- The keys are asked one after the other, so a list of them can be cut into
a first and a second comparison. -/
theorem Tuple.compareBy_append (t u : Tuple) (keys keys' : List SortKey) :
    t.compareBy u (keys ++ keys')
      = compareFirst (fun t u => t.compareBy u keys)
          (fun t u => t.compareBy u keys') t u := by
  simp only [compareFirst]
  induction keys with
  | nil => rfl
  | cons key keys ih =>
      rw [List.cons_append, compareBy, compareBy, ih]
      cases (t.getD key.name).compare (u.getD key.name) with
      | error e => rfl
      | ok o => cases key.direction <;> cases o <;> rfl

/-- Ordering an ordered relation again, whichever the sorts, is ordering by
the later keys and then by the earlier ones. -/
theorem Resolved.orderWith_append {sort sort' : StableSort} {r x y : Resolved}
    {keys keys' : List SortKey} (hx : r.orderWith sort keys = .ok x)
    (hy : x.orderWith sort' keys' = .ok y) (sort'' : StableSort) :
    r.orderWith sort'' (keys' ++ keys) = .ok y := by
  obtain ⟨hkeys, hxheader, hxrows⟩ := (orderWith_eq_ok_iff sort).1 hx
  obtain ⟨hkeys', hyheader, hyrows⟩ := (orderWith_eq_ok_iff sort').1 hy
  rw [hxheader] at hkeys' hyheader
  refine (orderWith_eq_ok_iff sort'').2 ⟨?_, hyheader, ?_⟩
  · exact List.forall_mem_append.2 ⟨hkeys', hkeys⟩
  · simp only [Tuple.compareBy_append]
    exact hxrows.lex hyrows

-- =========================================================== chosen rows

namespace Resolved

variable {sort : StableSort} {p : Predicate} {r x : Resolved}

/-- Ordering does not change on which rows a predicate has to be evaluated. -/
theorem appliesTo_of_orderWith (h : r.orderWith sort keys = .ok x) :
    p.AppliesTo x ↔ p.AppliesTo r := by
  obtain ⟨-, hheader, hrows⟩ := (orderWith_eq_ok_iff sort).1 h
  exact Predicate.appliesTo_congr hheader hrows.perm

/-- The rows that are chosen from an ordered relation are in order, and the
same ones in the same order come from ordering what is chosen. -/
theorem orderWith_chosen (h : r.orderWith sort keys = .ok x)
    (sort' : StableSort) (p : Predicate) :
    (r.chosen p).orderWith sort' keys = .ok (x.chosen p) := by
  obtain ⟨hkeys, hheader, hrows⟩ := (orderWith_eq_ok_iff sort).1 h
  exact (orderWith_eq_ok_iff sort').2
    ⟨hkeys, hheader, hrows.filter p.holds⟩

/-- Choosing rows and ordering them can be exchanged. The choice succeeds on
the ordered rows exactly if it does on the others, and then the order does not
fail on what is chosen, and gives the chosen rows as the ordered relation has
them. -/
theorem select_orderWith (h : r.orderWith sort keys = .ok x)
    (p : Predicate) :
    ((∃ a, x.select p = .ok a) ↔ ∃ b, r.select p = .ok b)
      ∧ ∀ b, r.select p = .ok b → ∀ sort' : StableSort,
          ∃ c, b.orderWith sort' keys = .ok c ∧ x.select p = .ok c := by
  rw [select_isOk_iff, select_isOk_iff]
  refine ⟨appliesTo_of_orderWith h, fun b hb sort' => ⟨x.chosen p, ?_, ?_⟩⟩
  · have hp : p.AppliesTo r := select_isOk_iff.1 ⟨b, hb⟩
    rw [select_of_appliesTo hp] at hb
    rw [← Except.ok.inj hb]
    exact orderWith_chosen h sort' p
  · exact select_of_appliesTo
      ((appliesTo_of_orderWith h).2 (select_isOk_iff.1 ⟨b, hb⟩))

end Resolved

end RelAlgebra
