/-
Equality of rows and of collections. Rows are equal exactly if they have
one fingerprint, their names with the hash data of their values, and
collections are equal exactly if the fingerprints of their rows are the
same up to order. So equality is an equivalence, and the hash data, which
depend on the fingerprints and not on their order, agree with it.
-/
import Mathlib.Data.List.Nodup
import Mathlib.Data.List.Perm.Subperm
import RelAlgebra.Proofs.Tuple.Lookup
import RelAlgebra.Proofs.Value.Equality
import RelAlgebra.Resolved

namespace RelAlgebra

/-- Lists are the same as soon as they are equal, if their elements are. -/
theorem list_eq_of_beq {α : Type} [BEq α] {l m : List α}
    (hsame : ∀ a ∈ l, ∀ b ∈ m, (a == b) = true → a = b)
    (h : (l == m) = true) : l = m := by
  induction l generalizing m with
  | nil =>
      cases m with
      | nil => rfl
      | cons b m => cases h
  | cons a l ih =>
      cases m with
      | nil => cases h
      | cons b m =>
          rw [List.cons_beq_cons, Bool.and_eq_true] at h
          have hrest : ∀ a ∈ l, ∀ b ∈ m, (a == b) = true → a = b :=
            fun a ha b hb => hsame a (List.mem_cons_of_mem _ ha) b
              (List.mem_cons_of_mem _ hb)
          rw [hsame a (List.mem_cons_self ..) b (List.mem_cons_self ..) h.1,
            ih hrest h.2]

-- ================================================================ rows

namespace Tuple

/-- What equality of rows looks at. -/
def fingerprint (t : Tuple) : List (String × Digest) :=
  t.pairs.map fun p => (p.1, p.2.digest)

/-- Rows are equal if their fingerprints are the same. -/
theorem beq_iff_fingerprint (t u : Tuple) :
    (t == u) = true ↔ t.fingerprint = u.fingerprint := by
  refine list_beq_iff_map_eq (fun p q => ?_) t.pairs u.pairs
  show (p.1 == q.1 && p.2 == q.2) = true ↔ _
  rw [Bool.and_eq_true, Value.beq_iff_digest, beq_iff_eq, Prod.mk.injEq]

instance : EquivBEq Tuple :=
  equivBEq_of_iff_apply_eq fingerprint beq_iff_fingerprint

theorem lookup_fingerprint (t : Tuple) (name : String) :
    t.fingerprint.lookup name = (t.get? name).map Value.digest := by
  unfold fingerprint get?
  induction t.pairs with
  | nil => rfl
  | cons p rest ih =>
      rw [List.map_cons, lookup_cons_eq, lookup_cons_eq, ih]
      split <;> rfl

/-- Rows are equal if they store equal values under every name. -/
theorem beq_iff_get? (t u : Tuple) :
    (t == u) = true ↔ ∀ name, (t.get? name == u.get? name) = true := by
  have hvalues : ∀ v w : Option Value,
      (v == w) = true ↔ v.map Value.digest = w.map Value.digest := by
    intro v w
    cases v <;> cases w <;> simp [Value.beq_iff_digest]
  have hascending : ∀ t : Tuple,
      t.fingerprint.Pairwise fun p q => p.1 < q.1 :=
    fun t => List.pairwise_map.2 t.ascending
  simp only [hvalues, ← lookup_fingerprint]
  rw [beq_iff_fingerprint]
  exact ⟨fun h name => by rw [h],
    eq_of_lookup_eq (hascending t) (hascending u)⟩

/-- The hash data of a row with that fingerprint. -/
def digestOf (print : List (String × Digest)) : Digest :=
  .count print.length :: print.flatMap fun p => .text p.1 :: p.2

/-- The hash data of a row are those of its fingerprint. -/
@[simp]
theorem digestOf_fingerprint (t : Tuple) :
    digestOf t.fingerprint = t.digest := by
  simp [digestOf, digest, fingerprint, size, List.flatMap_map]

end Tuple

-- ========================================================= collections

namespace Tuples

/-- A row is contained if one is listed that is equal to it. -/
theorem contains_iff {ts : Tuples} {t : Tuple} :
    ts.contains t = true ↔ ∃ u ∈ ts.rows, (u == t) = true := by
  simp [contains]

/-- The rows of a collection have different fingerprints. -/
theorem nodup_fingerprints (ts : Tuples) :
    (ts.rows.map Tuple.fingerprint).Nodup := by
  rw [List.nodup_iff_pairwise_ne, List.pairwise_map]
  refine ts.distinct.imp fun {t u} hne hsame => ?_
  rw [(Tuple.beq_iff_fingerprint t u).2 hsame] at hne
  cases hne

/-- Collections are equal exactly if they have the same fingerprints, in
whatever order. -/
theorem beq_iff_perm (ts us : Tuples) :
    (ts == us) = true
      ↔ (ts.rows.map Tuple.fingerprint).Perm
          (us.rows.map Tuple.fingerprint) := by
  have hsides : (ts == us) = true
      ↔ ts.rows.length = us.rows.length
        ∧ ∀ t ∈ ts.rows, us.contains t = true := by
    show (ts.size == us.size && ts.rows.all us.contains) = true ↔ _
    simp [size]
  rw [hsides]
  constructor
  · rintro ⟨hlength, hcontained⟩
    refine (List.subperm_of_subset ts.nodup_fingerprints ?_).perm_of_length_le
      (by simp [hlength])
    intro print hprint
    obtain ⟨t, ht, rfl⟩ := List.mem_map.1 hprint
    obtain ⟨u, hu, hut⟩ := contains_iff.1 (hcontained t ht)
    rw [← (Tuple.beq_iff_fingerprint u t).1 hut]
    exact List.mem_map_of_mem hu
  · intro hperm
    refine ⟨by simpa using hperm.length_eq, fun t ht => ?_⟩
    obtain ⟨u, hu, hut⟩ :=
      List.mem_map.1 (hperm.subset (List.mem_map_of_mem ht))
    exact contains_iff.2 ⟨u, hu, (Tuple.beq_iff_fingerprint u t).2 hut⟩

instance : EquivBEq Tuples where
  rfl := (beq_iff_perm _ _).2 (.refl _)
  symm h := (beq_iff_perm _ _).2 ((beq_iff_perm _ _).1 h).symm
  trans h h' :=
    (beq_iff_perm _ _).2 (((beq_iff_perm _ _).1 h).trans
      ((beq_iff_perm _ _).1 h'))

/-- Words are summed up in whatever order they come. -/
theorem sum_eq_of_perm {α : Type} (word : α → UInt64) {xs ys : List α}
    (h : xs.Perm ys) :
    xs.foldl (fun sum x => sum + word x) 0
      = ys.foldl (fun sum x => sum + word x) 0 := by
  refine h.foldl_eq' (fun x _ y _ sum => ?_) 0
  rw [UInt64.add_assoc, UInt64.add_comm (word x), ← UInt64.add_assoc]

/-- The rows can be visited in any order for the hash data. -/
theorem digest_eq_of_perm (finish : Digest.Finish) {ts : Tuples}
    {rows : List Tuple} (h : rows.Perm ts.rows) :
    ts.digest finish = [.count rows.length,
      .word (rows.foldl (fun sum t => sum + finish t.digest) 0)] := by
  unfold digest
  rw [size, h.length_eq, sum_eq_of_perm (fun t => finish t.digest) h]

/-- The words of the rows are summed up, so their order does not count. -/
theorem digest_eq_of_beq (finish : Digest.Finish) {ts us : Tuples}
    (h : (ts == us) = true) : ts.digest finish = us.digest finish := by
  have hwords : ∀ ts : Tuples,
      ts.rows.foldl (fun sum t => sum + finish t.digest) 0
        = (ts.rows.map Tuple.fingerprint).foldl
            (fun sum print => sum + finish (Tuple.digestOf print)) 0 := by
    intro ts
    rw [List.foldl_map]
    simp only [Tuple.digestOf_fingerprint]
  have hperm := (beq_iff_perm ts us).1 h
  have hsize : ts.size = us.size := by simpa [size] using hperm.length_eq
  unfold digest
  rw [hwords ts, hwords us, hsize,
    sum_eq_of_perm (fun print => finish (Tuple.digestOf print)) hperm]

end Tuples

-- ================================================== resolved relations

namespace Resolved

theorem beq_iff (a b : Resolved) :
    (a == b) = true ↔ a.header = b.header ∧ (a.tuples == b.tuples) = true := by
  show (a.header == b.header && a.tuples == b.tuples) = true ↔ _
  rw [Bool.and_eq_true, beq_iff_eq]

instance : EquivBEq Resolved where
  rfl := (beq_iff _ _).2 ⟨rfl, BEq.rfl⟩
  symm h := (beq_iff _ _).2 <|
    ((beq_iff _ _).1 h).imp Eq.symm BEq.symm
  trans h h' := (beq_iff _ _).2
    ⟨((beq_iff _ _).1 h).1.trans ((beq_iff _ _).1 h').1,
      BEq.trans ((beq_iff _ _).1 h).2 ((beq_iff _ _).1 h').2⟩

/-- Equal relations have the same hash data, however rows are condensed to
words. -/
theorem digest_eq_of_beq (finish : Digest.Finish) {a b : Resolved}
    (h : (a == b) = true) : a.digest finish = b.digest finish := by
  obtain ⟨hheader, htuples⟩ := (beq_iff a b).1 h
  unfold digest
  rw [hheader, Tuples.digest_eq_of_beq finish htuples]

end Resolved

end RelAlgebra
