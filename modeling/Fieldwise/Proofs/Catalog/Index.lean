import Fieldwise.Catalog
import Fieldwise.Proofs.Outcome

/-!
What the index of a catalog finds: every projection by its name in any letter case, every entity by
its id, and nothing else. The index only ever grows by keys that it does not have, so an entry of it
is as good as a look-up, and which entries it has is said by the places they come from.
-/

namespace Fieldwise.Catalog

namespace Index

/-- No key stands twice. -/
structure Unique (index : Index) : Prop where
  projections : index.projections.keys.Nodup
  entities : index.entities.keys.Nodup

/-- What entering the entities of a projection comes to, the first of which stands at place `e`. -/
theorem addEntities_eq_ok {p e : Nat} {index index' : Index} {entities : List Entity}
    (h : addEntities p e index entities = .ok index') :
    (index.Unique → index'.Unique) ∧ index'.projections = index.projections ∧
    ∀ id place, (id, place) ∈ index'.entities ↔ (id, place) ∈ index.entities ∨
      place.1 = p ∧ ∃ entity, (entity, place.2) ∈ entities.zipIdx e ∧ entity.id = id := by
  induction entities generalizing e index with
  | nil =>
    obtain rfl : index = index' := by simpa [addEntities] using h
    simp
  | cons entity rest ih =>
    rw [addEntities] at h
    split at h
    · cases h
    next hnew =>
    obtain ⟨hunique, hprojections, hmem⟩ := ih h
    refine ⟨fun hindex => hunique ⟨hindex.projections, Table.nodup_keys_put hindex.entities _⟩,
      hprojections, fun id place => ?_⟩
    rw [hmem, Table.put_of_notMem (mt Table.has_iff.mpr hnew), List.mem_append, or_assoc,
      List.zipIdx_cons]
    obtain ⟨q, i⟩ := place
    grind

/-- What entering projections with their entities comes to, the first of which stands at place
`p`. -/
theorem addProjections_eq_ok {p : Nat} {index index' : Index} {ps : List Projection}
    (h : addProjections p index ps = .ok index') :
    (index.Unique → index'.Unique) ∧
    (∀ name place, (name, place) ∈ index'.projections ↔ (name, place) ∈ index.projections ∨
      ∃ projection, (projection, place) ∈ ps.zipIdx p ∧
        Text.lowercase projection.name = name) ∧
    ∀ id place, (id, place) ∈ index'.entities ↔ (id, place) ∈ index.entities ∨
      ∃ projection, (projection, place.1) ∈ ps.zipIdx p ∧
        ∃ entity, (entity, place.2) ∈ projection.entities.zipIdx ∧ entity.id = id := by
  induction ps generalizing p index with
  | nil =>
    obtain rfl : index = index' := by simpa [addProjections] using h
    simp
  | cons projection rest ih =>
    rw [addProjections] at h
    split at h
    · cases h
    next hnew =>
    obtain ⟨index₁, hentities, h⟩ := except_bind_eq_ok.mp h
    obtain ⟨hunique₁, hprojections₁, hmem₁⟩ := addEntities_eq_ok hentities
    obtain ⟨hunique, hprojections, hmem⟩ := ih h
    refine ⟨fun hindex => hunique (hunique₁ ⟨Table.nodup_keys_put hindex.projections _,
      hindex.entities⟩), fun name place => ?_, fun id place => ?_⟩
    · rw [hprojections, hprojections₁, Table.put_of_notMem (mt Table.has_iff.mpr hnew),
        List.mem_append, or_assoc, List.zipIdx_cons]
      grind
    · rw [hmem, hmem₁, or_assoc, List.zipIdx_cons]
      grind

end Index

variable {ps : List Projection} {c : Catalog}

theorem ofProjections_eq_ok (h : ofProjections ps = .ok c) :
    c.projections = ps ∧ Index.addProjections 0 ⟨[], []⟩ ps = .ok c.index := by
  obtain ⟨index, hindex, h⟩ := except_bind_eq_ok.mp h
  cases h
  exact ⟨rfl, hindex⟩

theorem projections_of_ofProjections (h : ofProjections ps = .ok c) : c.projections = ps :=
  (ofProjections_eq_ok h).1

theorem projection?_eq_some_iff (h : ofProjections ps = .ok c) {name : String} {p : Projection} :
    c.projection? name = some p ↔
      p ∈ c.projections ∧ Text.lowercase p.name = Text.lowercase name := by
  obtain ⟨rfl, hindex⟩ := ofProjections_eq_ok h
  obtain ⟨hunique, hmem, -⟩ := Index.addProjections_eq_ok hindex
  have hkeys := (hunique ⟨List.nodup_nil, List.nodup_nil⟩).projections
  simp only [projection?, Option.bind_eq_bind, Option.bind_eq_some_iff,
    Table.get?_eq_some_iff hkeys, hmem, List.mk_mem_zipIdx_iff_getElem?, List.not_mem_nil,
    false_or]
  constructor
  · rintro ⟨place, ⟨found, hfound, hname⟩, hp⟩
    obtain rfl : found = p := Option.some.inj (hfound.symm.trans hp)
    exact ⟨List.mem_of_getElem? hp, hname⟩
  · rintro ⟨hp, hname⟩
    obtain ⟨place, hplace⟩ := List.mem_iff_getElem?.mp hp
    exact ⟨place, ⟨p, hplace, hname⟩, hplace⟩

theorem entity?_eq_some_iff (h : ofProjections ps = .ok c) {id : String} {e : Entity} :
    c.entity? id = some e ↔ e ∈ c.entities ∧ e.id = id := by
  obtain ⟨rfl, hindex⟩ := ofProjections_eq_ok h
  obtain ⟨hunique, -, hmem⟩ := Index.addProjections_eq_ok hindex
  have hkeys := (hunique ⟨List.nodup_nil, List.nodup_nil⟩).entities
  simp only [entity?, Option.bind_eq_bind, Option.bind_eq_some_iff,
    Table.get?_eq_some_iff hkeys, hmem, List.mk_mem_zipIdx_iff_getElem?, List.not_mem_nil,
    false_or, entities, List.mem_flatMap]
  constructor
  · rintro ⟨place, ⟨p, hp, found, hfound, hid⟩, p', hp', he⟩
    obtain rfl : p = p' := Option.some.inj (hp.symm.trans hp')
    obtain rfl : found = e := Option.some.inj (hfound.symm.trans he)
    exact ⟨⟨p, List.mem_of_getElem? hp, List.mem_of_getElem? he⟩, hid⟩
  · rintro ⟨⟨p, hp, he⟩, hid⟩
    obtain ⟨i, hi⟩ := List.mem_iff_getElem?.mp hp
    obtain ⟨j, hj⟩ := List.mem_iff_getElem?.mp he
    exact ⟨(i, j), ⟨p, hi, e, hj, hid⟩, p, hi, hj⟩

end Fieldwise.Catalog
