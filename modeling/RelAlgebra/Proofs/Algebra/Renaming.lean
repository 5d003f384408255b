/-
Renaming as a replacement of names. Renaming an attribute of a well-formed
relation to a name that is not taken exchanges the two names and keeps all
others, in the header and in every row; so renaming back restores the
relation, as an exchange undoes itself. To a name that is taken it fails.
Renaming several attributes, one after the other, to new names replaces each
of them by its own new name; the induction is on the list of renamings, and
what carries it is that the names still to be replaced are those of the
header, and the new ones still free.
-/
import Mathlib.Logic.Equiv.Basic
import RelAlgebra.Proofs.Algebra.Relabelling
import RelAlgebra.Proofs.Algebra.WellFormed
import RelAlgebra.Proofs.Header.Joining
import RelAlgebra.Proofs.Header.Repetition

namespace RelAlgebra

-- =========================================================== exchanges

section Exchange

variable {old new name : String} {pairs : List (String × String)}

/-- Each of the two names replaced by the other. -/
def exchange (old new : String) : String ↪ String :=
  (Equiv.swap old new).toEmbedding

@[simp]
theorem exchange_old : exchange old new old = new :=
  Equiv.swap_apply_left old new

@[simp]
theorem exchange_new : exchange old new new = old :=
  Equiv.swap_apply_right old new

theorem exchange_of_ne (hold : name ≠ old) (hnew : name ≠ new) :
    exchange old new name = name :=
  Equiv.swap_apply_of_ne_of_ne hold hnew

theorem exchange_self : exchange old old = .refl String := by
  unfold exchange
  rw [Equiv.swap_self]
  rfl

/-- Exchanged names that are exchanged back. -/
theorem exchange_trans_exchange :
    (exchange old new).trans (exchange new old) = .refl String := by
  refine DFunLike.ext _ _ fun name => ?_
  show Equiv.swap new old (Equiv.swap old new name) = name
  rw [Equiv.swap_comm new old, Equiv.swap_apply_self]

/-- The exchanges of old and new names, one after the other. -/
def exchanges : List (String × String) → (String ↪ String)
  | [] => .refl String
  | z :: rest => (exchange z.1 z.2).trans (exchanges rest)

/-- A name that is in no pair stays. -/
theorem exchanges_of_not_mem (hold : name ∉ pairs.map Prod.fst)
    (hnew : name ∉ pairs.map Prod.snd) : exchanges pairs name = name := by
  induction pairs with
  | nil => rfl
  | cons z rest ih =>
      rw [List.map_cons, List.mem_cons, not_or] at hold hnew
      show exchanges rest (exchange z.1 z.2 name) = name
      rw [exchange_of_ne hold.1 hnew.1, ih hold.2 hnew.2]

/-- Each old name is replaced by its new one, if all of them differ. -/
theorem exchanges_fst (hold : (pairs.map Prod.fst).Nodup)
    (hnew : (pairs.map Prod.snd).Nodup)
    (hfree : ∀ z ∈ pairs, z.2 ∉ pairs.map Prod.fst) :
    ∀ z ∈ pairs, exchanges pairs z.1 = z.2 := by
  induction pairs with
  | nil => nofun
  | cons y rest ih =>
      rw [List.map_cons, List.nodup_cons] at hold hnew
      have hfree' : ∀ z ∈ y :: rest, z.2 ∉ rest.map Prod.fst :=
        fun z hz hmem => hfree z hz (List.mem_cons_of_mem _ hmem)
      intro z hz
      show exchanges rest (exchange y.1 y.2 z.1) = z.2
      rcases List.mem_cons.1 hz with rfl | hz
      · rw [exchange_old]
        exact exchanges_of_not_mem (hfree' z (List.mem_cons_self ..)) hnew.1
      · have hne : z.1 ≠ y.1 := fun h =>
          hold.1 (h ▸ List.mem_map_of_mem hz)
        have hne' : z.1 ≠ y.2 := fun h =>
          hfree' y (List.mem_cons_self ..) (h ▸ List.mem_map_of_mem hz)
        rw [exchange_of_ne hne hne']
        exact ih hold.2 hnew.2
          (fun z hz => hfree' z (List.mem_cons_of_mem _ hz)) z hz

end Exchange

-- ============================================================== chains

variable {f g : String ↪ String}

theorem Tuple.relabel_relabel (t : Tuple) :
    (t.relabel f).relabel g = t.relabel (f.trans g) := by
  refine eq_relabel_of_get? (fun name => ?_) fun name hname => ?_
  · show ((t.relabel f).relabel g).get? (g (f name)) = _
    rw [get?_relabel, get?_relabel]
  · by_cases hg : ∃ m, g m = name
    · obtain ⟨m, rfl⟩ := hg
      rw [get?_relabel]
      exact get?_relabel_of_free fun n hn => hname n (congrArg g hn)
    · exact get?_relabel_of_free fun m hm => hg ⟨m, hm⟩

theorem Tuple.relabel_refl (t : Tuple) : t.relabel (.refl String) = t :=
  (eq_relabel_of_get? (fun _ => rfl) fun name hname =>
    absurd rfl (hname name)).symm

namespace Resolved

/-- Relations are the same if they have the same attributes and rows. -/
theorem ext_rows {r r' : Resolved}
    (hattributes : r.header.attributes = r'.header.attributes)
    (hrows : r.tuples.rows = r'.tuples.rows) : r = r' := by
  cases r
  cases r'
  cases Header.ext_attributes hattributes
  cases Tuples.ext_rows hrows
  rfl

/-- Two changes of names are one. -/
theorem relabel_relabel (r : Resolved) :
    (r.relabel f).relabel g = r.relabel (f.trans g) := by
  refine ext_rows ?_ ?_
  · show (r.header.attributes.map _).map _ = r.header.attributes.map _
    rw [List.map_map]
    rfl
  · show (r.tuples.rows.map _).map _ = r.tuples.rows.map _
    rw [List.map_map]
    exact List.map_congr_left fun t _ => t.relabel_relabel

theorem relabel_refl (r : Resolved) : r.relabel (.refl String) = r := by
  refine ext_rows ?_ ?_
  · exact List.map_id r.header.attributes
  · exact (List.map_congr_left fun t _ => t.relabel_refl).trans
      (List.map_id r.tuples.rows)

end Resolved

-- =========================================================== renamings

theorem Tuple.Fits.relabel {t : Tuple} {h : Header} (ht : t.Fits h) :
    (t.relabel f).Fits (h.relabel f) := by
  refine .of_stored (fun a ha => ?_) fun name hname => ?_
  · obtain ⟨b, hb, rfl⟩ := List.mem_map.1 ha
    obtain ⟨value, hvalue, hconforms⟩ := ht.stored hb
    exact ⟨value, (get?_relabel t b.name).trans hvalue, hconforms⟩
  · obtain ⟨m, hm, rfl⟩ := exists_of_mem_names_relabel hname
    rw [Header.names_relabel]
    exact List.mem_map_of_mem ((ht.names m).1 hm)

/-- Relabelling keeps rows well formed. -/
theorem Resolved.WellFormed.relabel {r : Resolved} (hr : r.WellFormed) :
    (r.relabel f).WellFormed := by
  refine .of_fits fun t ht => ?_
  obtain ⟨u, hu, rfl⟩ := List.mem_map.1 ht
  exact (hr.fits u hu).relabel

/-- With the names exchanged, a row has the value of the old one under the new
one, and nothing under the old one. -/
theorem Tuple.get?_relabel_exchange {t : Tuple} {old new name : String}
    (hfree : new = old ∨ new ∉ t.names) :
    (t.relabel (exchange old new)).get? name
      = if name = new then t.get? old
        else if name = old then none
        else t.get? name := by
  by_cases hnew : name = new
  · have hmoved := t.get?_relabel (f := exchange old new) old
    rw [exchange_old] at hmoved
    rw [hnew, hmoved, if_pos rfl]
  · by_cases hold : name = old
    · have hgone := t.get?_relabel (f := exchange old new) new
      rw [exchange_new] at hgone
      have hnone : new ∉ t.names :=
        hfree.resolve_left fun h => hnew (hold.trans h.symm)
      rw [if_neg hnew, if_pos hold, hold, hgone]
      exact get?_eq_none_iff.2 hnone
    · have hkept := t.get?_relabel (f := exchange old new) name
      rw [exchange_of_ne hold hnew] at hkept
      rw [hkept, if_neg hnew, if_neg hold]

/-- So a name that is replaced by one that is not there is exchanged with
it. -/
theorem Tuple.renamed_eq_relabel {t : Tuple} {old new : String}
    (hold : old ∈ t.names) (hnew : new ∉ t.names) :
    t.renamed old new = t.relabel (exchange old new) := by
  refine ext_get? fun name => ?_
  rw [get?_renamed, if_pos hold, get?_relabel_exchange (.inr hnew)]

/-- Giving an attribute a free name exchanges the two names, as the free one
does not occur. -/
theorem Header.map_renamed {h : Header} {old new : String}
    (hfree : new = old ∨ new ∉ h.names) :
    (h.attributes.map fun a =>
        if a.name = old then { a with name := new } else a)
      = (h.relabel (exchange old new)).attributes := by
  refine List.map_congr_left fun a ha => ?_
  unfold Attribute.relabel
  by_cases hname : a.name = old
  · rw [if_pos hname, hname, exchange_old]
  · have hne : a.name ≠ new := by
      rintro rfl
      exact hfree.elim hname fun hnew => hnew (mem_names_of_mem ha)
    rw [if_neg hname, exchange_of_ne hname hne]

namespace Resolved

variable {r : Resolved} {old new : String}

/-- Renaming an attribute to a name that is not taken, on any rows. -/
theorem rename_of_not_mem (hold : old ∈ r.header.names)
    (hnew : new ∉ r.header.names) :
    r.rename new old
      = .ok ⟨r.header.relabel (exchange old new),
        .ofList (r.tuples.rows.map (·.renamed old new))⟩ := by
  have hne : new ≠ old := fun h => hnew (h ▸ hold)
  unfold rename
  rw [Header.require_singleton hold, if_neg hne,
    Header.map_renamed (.inr hnew)]
  show (Header.derive _ >>= _) = _
  rw [Header.derive_attributes]
  rfl

/-- On well-formed rows, it exchanges the two names. -/
theorem rename_eq_relabel (hr : r.WellFormed) (hold : old ∈ r.header.names)
    (hnew : new ∉ r.header.names) :
    r.rename new old = .ok (r.relabel (exchange old new)) := by
  have hrows : r.tuples.rows.map (·.renamed old new)
      = r.tuples.rows.map (Tuple.relabel (exchange old new)) := by
    refine List.map_congr_left fun t ht => ?_
    have hnames := (hr.fits t ht).names
    exact Tuple.renamed_eq_relabel ((hnames old).2 hold)
      fun h => hnew ((hnames new).1 h)
  have htuples : Tuples.ofList (r.tuples.rows.map (·.renamed old new))
      = r.tuples.relabel (exchange old new) := by
    refine Tuples.ext_rows ?_
    rw [hrows]
    exact Tuples.rows_ofList_of_distinct
      (r.tuples.relabel (exchange old new)).distinct
  rw [rename_of_not_mem hold hnew, htuples]
  rfl

/-- Renaming a name to itself changes nothing. -/
theorem rename_self (hold : old ∈ r.header.names) :
    r.rename old old = .ok r := by
  unfold rename
  rw [Header.require_singleton hold, if_pos rfl]
  rfl

/-- A name is free for an attribute if it is its own or that of none. To give
the attribute a free name is to exchange the two. -/
theorem rename_of_free (hr : r.WellFormed) (hold : old ∈ r.header.names)
    (hfree : new = old ∨ new ∉ r.header.names) :
    r.rename new old = .ok (r.relabel (exchange old new)) := by
  rcases hfree with rfl | hnew
  · rw [exchange_self, relabel_refl]
    exact rename_self hold
  · exact rename_eq_relabel hr hold hnew

/-- Row for row, the value of the old name is moved to the new one. -/
theorem forall₂_relabel_exchange (hr : r.WellFormed)
    (hfree : new = old ∨ new ∉ r.header.names) :
    List.Forall₂ (fun t u : Tuple => ∀ name, u.get? name
        = if name = new then t.get? old
          else if name = old then none
          else t.get? name)
      r.tuples.rows (r.relabel (exchange old new)).tuples.rows := by
  show List.Forall₂ _ _ (r.tuples.rows.map _)
  rw [List.forall₂_map_right_iff, List.forall₂_same]
  intro t ht name
  have hnames := (hr.fits t ht).names
  exact Tuple.get?_relabel_exchange
    (hfree.imp_right fun hnew hmem => hnew ((hnames new).1 hmem))

/-- Renaming back gives back the relation. -/
theorem rename_rename (hr : r.WellFormed) (hold : old ∈ r.header.names)
    (hfree : new = old ∨ new ∉ r.header.names) :
    (r.rename new old >>= fun x => x.rename old new) = .ok r := by
  have hold' : new ∈ (r.relabel (exchange old new)).header.names := by
    have hmem := (Header.mem_names_relabel (f := exchange old new)).2 hold
    rwa [exchange_old] at hmem
  have hfree' : old = new
      ∨ old ∉ (r.relabel (exchange old new)).header.names := by
    refine hfree.imp Eq.symm fun hnew hmem => hnew ?_
    refine (Header.mem_names_relabel (f := exchange old new)).1 ?_
    rwa [exchange_new]
  rw [rename_of_free hr hold hfree]
  show (r.relabel (exchange old new)).rename old new = .ok r
  rw [rename_of_free hr.relabel hold' hfree', relabel_relabel,
    exchange_trans_exchange, relabel_refl]

/-- Renaming fails for a name that the header lacks, and for a new name that
another attribute has. -/
theorem rename_eq_error_iff {e : QueryError} :
    r.rename new old = .error e
      ↔ old ∉ r.header.names ∧ e = .unknownAttributes [old]
        ∨ old ∈ r.header.names ∧ new ≠ old ∧ new ∈ r.header.names
          ∧ e = .header (.duplicates [new]) := by
  by_cases hold : old ∈ r.header.names
  · by_cases hne : new = old
    · subst hne
      simp [rename_self hold, hold]
    · by_cases hnew : new ∈ r.header.names
      · have hfails : r.rename new old
            = .error (.header (.duplicates [new])) := by
          unfold rename
          rw [Header.require_singleton hold, if_neg hne,
            Header.derive_renamed_of_mem hold hnew hne]
          rfl
        simp [hfails, hold, hne, hnew, eq_comm]
      · simp [rename_of_not_mem hold hnew, hnew, hold]
  · have hfails : r.rename new old = .error (.unknownAttributes [old]) := by
      unfold rename
      rw [Header.require_singleton_of_not_mem hold]
      rfl
    simp [hfails, hold, eq_comm]

end Resolved

/-- What makes a list of renamings of attributes to new names: the old names
are different names of the header, and the new ones are different from each
other and from all of the header. -/
structure Header.Renames (h : Header) (pairs : List (String × String)) :
    Prop where
  old : ∀ z ∈ pairs, z.1 ∈ h.names
  new : ∀ z ∈ pairs, z.2 ∉ h.names
  oldDiffer : (pairs.map Prod.fst).Nodup
  newDiffer : (pairs.map Prod.snd).Nodup

namespace Header.Renames

variable {h : Header} {z : String × String} {pairs : List (String × String)}

/-- The new names are none of the old ones. -/
theorem snd_not_mem (hpairs : h.Renames pairs) (hz : z ∈ pairs) :
    z.2 ∉ pairs.map Prod.fst := by
  intro hmem
  obtain ⟨y, hy, hname⟩ := List.mem_map.1 hmem
  exact hpairs.new z hz (hname ▸ hpairs.old y hy)

/-- After the first renaming, the others are still renamings to new
names. -/
theorem tail (hpairs : h.Renames (z :: pairs)) :
    (h.relabel (exchange z.1 z.2)).Renames pairs := by
  obtain ⟨hdiffer, holdDiffer⟩ := List.nodup_cons.1 hpairs.oldDiffer
  obtain ⟨hdiffer', hnewDiffer⟩ := List.nodup_cons.1 hpairs.newDiffer
  refine ⟨fun y hy => ?_, fun y hy hmem => ?_, holdDiffer, hnewDiffer⟩
  · have hyold := hpairs.old y (List.mem_cons_of_mem _ hy)
    have hne : y.1 ≠ z.1 := fun h => hdiffer (h ▸ List.mem_map_of_mem hy)
    have hne' : y.1 ≠ z.2 :=
      fun h => hpairs.new z (List.mem_cons_self ..) (h ▸ hyold)
    rw [names_relabel, List.mem_map]
    exact ⟨y.1, hyold, exchange_of_ne hne hne'⟩
  · have hynew := hpairs.new y (List.mem_cons_of_mem _ hy)
    have hne : y.2 ≠ z.1 :=
      fun h => hynew (h ▸ hpairs.old z (List.mem_cons_self ..))
    have hne' : y.2 ≠ z.2 := fun h => hdiffer' (h ▸ List.mem_map_of_mem hy)
    rw [names_relabel, ← exchange_of_ne hne hne',
      List.mem_map_of_injective (exchange z.1 z.2).injective] at hmem
    exact hynew hmem

end Header.Renames

/-- Renaming one attribute after the other to new names replaces each of the
names by its new one. -/
theorem Resolved.foldlM_rename {r : Resolved} (hr : r.WellFormed)
    {pairs : List (String × String)} (hpairs : r.header.Renames pairs) :
    pairs.foldlM (fun x z => x.rename z.2 z.1) r
      = .ok (r.relabel (exchanges pairs)) := by
  induction pairs generalizing r with
  | nil => rw [exchanges, relabel_refl]; rfl
  | cons z rest ih =>
      have hfirst := rename_eq_relabel hr
        (hpairs.old z (List.mem_cons_self ..))
        (hpairs.new z (List.mem_cons_self ..))
      rw [List.foldlM_cons, hfirst, exchanges, ← relabel_relabel]
      exact ih hr.relabel hpairs.tail

end RelAlgebra
