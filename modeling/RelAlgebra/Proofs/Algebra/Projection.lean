/-
Projections after one another. Each collects the rows that it shortens, and
keeps the first of those that become equal. Rows that are equal stay equal
when they are shortened once more, so a later projection finds the same first
row of each class, whether or not the others were dropped before; and a row
that is shortened twice is the row that is shortened to the last names at
once. Projected on all names of its header, in whatever order, a well-formed
relation has nothing shortened.
-/
import RelAlgebra.Proofs.Algebra.SemiJoin

namespace RelAlgebra

/-- A row projected on some names, and then on some of these. -/
theorem Tuple.project_project {names names' : List String}
    (hsub : ∀ name ∈ names, name ∈ names') (t : Tuple) :
    (t.project names').project names = t.project names := by
  refine ext_get? fun name => ?_
  rw [get?_project, get?_project]
  by_cases hname : name ∈ names
  · have hfirst : (t.project names').get? name = some (t.getD name) := by
      rw [get?_project, if_pos (hsub name hname)]
    rw [if_pos hname, if_pos hname, getD_of_get? hfirst]
  · rw [if_neg hname, if_neg hname]

/-- Different names of a header, in any order, make a header of their own,
with the attributes that they name. -/
theorem Header.exists_names_eq {h : Header} {names : List String}
    (hsome : names ≠ []) (hdiffer : names.Nodup)
    (hsub : ∀ name ∈ names, name ∈ h.names) :
    ∃ k : Header, k.names = names ∧ ∀ a ∈ k.attributes, a ∈ h.attributes := by
  have hfound : ∀ name ∈ names,
      (h.attribute? name).map Attribute.name = some name := by
    intro name hname
    obtain ⟨a, ha, rfl⟩ := mem_names_iff.1 (hsub name hname)
    rw [attribute?_eq_some_iff.2 ⟨ha, rfl⟩]
    rfl
  have hnames : (names.filterMap h.attribute?).map Attribute.name = names := by
    rw [List.map_filterMap, List.filterMap_congr hfound, List.filterMap_some]
  refine ⟨⟨names.filterMap h.attribute?, fun hnone => hsome ?_, ?_⟩, hnames,
    fun a ha => ?_⟩
  · rw [← hnames, hnone]
    rfl
  · rw [hnames]
    exact hdiffer
  · obtain ⟨name, -, hname⟩ := List.mem_filterMap.1 ha
    exact (attribute?_eq_some_iff.1 hname).1

namespace Resolved

variable {x : Resolved} {k m : Header} {names names' : List String}

/-- Projecting on some names and then on fewer is projecting on the fewer at
once. -/
theorem projected_projected (hsub : ∀ name ∈ m.names, name ∈ k.names)
    (x : Resolved) : (x.projected k).projected m = x.projected m := by
  have hrows : (x.tuples.rows.map (·.project k.names)).map (·.project m.names)
      = x.tuples.rows.map (·.project m.names) := by
    rw [List.map_map]
    exact List.map_congr_left fun t _ => Tuple.project_project hsub t
  have htuples := Tuples.ofList_map_ofList
    (fun h => Tuple.project_congr h m.names)
    (x.tuples.rows.map (·.project k.names))
  rw [hrows] at htuples
  exact congrArg (Resolved.mk m) htuples

/-- Projecting on names, and then on some of these, is projecting on the
latter at once. The rows need not fit the header. -/
theorem exists_project_project (hsome : names ≠ []) (hdiffer : names.Nodup)
    (hdiffer' : names'.Nodup) (hsub : ∀ name ∈ names, name ∈ names')
    (hsub' : ∀ name ∈ names', name ∈ x.header.names) :
    ∃ m : Header, m.names = names
      ∧ (∀ a ∈ m.attributes, a ∈ x.header.attributes)
      ∧ x.project names = .ok (x.projected m)
      ∧ (x.project names' >>= fun y => y.project names)
        = .ok (x.projected m) := by
  obtain ⟨k, rfl, hk⟩ := Header.exists_names_eq
    (List.ne_nil_of_mem (hsub _ (List.head_mem hsome))) hdiffer' hsub'
  obtain ⟨m, rfl, hm⟩ := Header.exists_names_eq hsome hdiffer
    fun name hname => hsub' name (hsub name hname)
  have hmk : ∀ a ∈ m.attributes, a ∈ k.attributes := by
    intro a ha
    obtain ⟨b, hb, hname⟩ :=
      Header.mem_names_iff.1 (hsub a.name (Header.mem_names_of_mem ha))
    exact Header.eq_of_name_eq (hk b hb) (hm a ha) hname ▸ hb
  refine ⟨m, rfl, hm, project_names hm, ?_⟩
  rw [project_names hk]
  show (x.projected k).project m.names = _
  rw [project_names (x := x.projected k) hmk, projected_projected hsub]

/-- Projecting a well-formed relation on all its names, in any order. -/
theorem exists_project_of_perm (hx : x.WellFormed)
    (hperm : names.Perm x.header.names) :
    ∃ m : Header, m.names = names
      ∧ (∀ a ∈ m.attributes, a ∈ x.header.attributes)
      ∧ x.project names = .ok ⟨m, x.tuples⟩ := by
  have hsome : names ≠ [] := by
    rintro rfl
    exact x.header.nonempty (List.map_eq_nil_iff.1 hperm.nil_eq.symm)
  obtain ⟨m, rfl, hm⟩ := Header.exists_names_eq hsome
    (hperm.nodup_iff.2 x.header.distinct) fun _ => hperm.mem_iff.1
  have hrows : x.tuples.rows.map (·.project m.names) = x.tuples.rows := by
    have hsame : ∀ t ∈ x.tuples.rows, t.project m.names = t :=
      fun t ht => Tuple.project_of_names fun name =>
        ((hx.fits t ht).names name).trans hperm.mem_iff.symm
    rw [List.map_congr_left hsame, List.map_id']
  have htuples : Tuples.ofList (x.tuples.rows.map (·.project m.names))
      = x.tuples := by
    rw [hrows]
    exact Tuples.ext_rows (Tuples.rows_ofList_of_distinct x.tuples.distinct)
  refine ⟨m, rfl, hm, ?_⟩
  rw [project_names hm, projected, htuples]

end Resolved

end RelAlgebra
