import Fieldwise.Proofs.Reading.Traversal
import Fieldwise.Sample.Engine
import Mathlib.Logic.Relation

/-!
Records as pictures of a graph of objects. However the objects refer to each other, a record shows
each identity in full at most once, and a stub stands only for what is in full before it, or for
an object of no known entity. Where identities tell the objects apart, a record shows in full just
what can be reached through reference fields.
-/

namespace Fieldwise

theorem Catalog.mem_entities_of_entity? {c : Catalog} {id : String} {entity : Entity}
    (h : c.entity? id = some entity) : entity ∈ c.entities := by
  simp only [entity?, Option.bind_eq_bind, Option.bind_eq_some_iff] at h
  obtain ⟨⟨p, i⟩, -, projection, hprojection, hentity⟩ := h
  rw [entities, List.mem_flatMap]
  exact ⟨projection, List.mem_of_getElem? hprojection, List.mem_of_getElem? hentity⟩

theorem exists_of_forall₂ {α β : Type} {R : α → β → Prop} {xs : List α} {ys : List β}
    (h : List.Forall₂ R xs ys) {x : α} (hx : x ∈ xs) : ∃ y ∈ ys, R x y := by
  induction h with
  | nil => simp at hx
  | cons hxy _ ih =>
    rcases List.mem_cons.mp hx with rfl | hx
    · exact ⟨_, by simp, hxy⟩
    · obtain ⟨y, hy, hr⟩ := ih hx
      exact ⟨y, List.mem_cons_of_mem _ hy, hr⟩

namespace Engine

/-- A field of the first object, shown as its entity, refers to the second object, and to its
entity. -/
def LeadsTo (e : Engine) (heap : Heap) (p q : Handle × Entity) : Prop :=
  ∃ f ∈ p.2.fields, f.kind = .reference ∧ e.related? f = some q.2 ∧
    ∃ v, e.registry.getPath heap p.1 f.property = .ok v ∧ q.1 ∈ v.references

abbrev Reaches (e : Engine) (heap : Heap) : Handle × Entity → Handle × Entity → Prop :=
  Relation.ReflTransGen (e.LeadsTo heap)

end Engine

namespace Outline

/-- The records of an outline that are in no other record of it. -/
def heads : Outline → List (Handle × Entity)
  | plain _ | stub _ _ => []
  | full h entity _ => [(h, entity)]
  | list items => headsIn items
where
  headsIn : List Outline → List (Handle × Entity)
  | [] => []
  | o :: rest => o.heads ++ headsIn rest

@[simp] theorem headsIn_eq_flatMap (os : List Outline) : heads.headsIn os = os.flatMap heads := by
  induction os with
  | nil => rfl
  | cons o rest ih => simp [heads.headsIn, ih]

theorem mem_shown {o : Outline} {p : Handle × Entity} :
    p ∈ o.shown ↔ .full p.1 p.2 ∈ o.occurrences := by
  simp only [shown, List.mem_filterMap]
  constructor
  · rintro ⟨occurrence, hmem, hfull⟩
    cases occurrence with
    | full h entity =>
      obtain rfl : (h, entity) = p := by simpa [Occurrence.full?] using hfull
      exact hmem
    | stub f h => simp [Occurrence.full?] at hfull
  · intro hmem
    exact ⟨_, hmem, rfl⟩

variable {e : Engine} {heap : Heap}

/-- An object is met in full, or in two words through a field that shows its entity. -/
def Met (e : Engine) (occurrences : List Occurrence) (p : Handle × Entity) : Prop :=
  .full p.1 p.2 ∈ occurrences ∨ ∃ f, e.related? f = some p.2 ∧ .stub f p.1 ∈ occurrences

theorem Met.mono {occurrences more : List Occurrence} {p : Handle × Entity}
    (h : Met e occurrences p) (hmore : ∀ occurrence ∈ occurrences, occurrence ∈ more) :
    Met e more p :=
  h.imp (hmore _) fun ⟨f, hf, hstub⟩ => ⟨f, hf, hmore _ hstub⟩

theorem Met.flatMap {o : Outline} {os : List Outline} {p : Handle × Entity}
    (h : Met e o.occurrences p) (ho : o ∈ os) : Met e (os.flatMap occurrences) p :=
  h.mono fun _ hoccurrence => List.mem_flatMap.mpr ⟨o, ho, hoccurrence⟩

theorem IsOf.met {f : Field} {o : Outline} {p : Handle × Entity} (ho : o.IsOf e f p.1)
    (hentity : e.related? f = some p.2) : Met e o.occurrences p := by
  cases o with
  | plain v => exact ho.elim
  | stub f' g =>
    obtain ⟨rfl, rfl⟩ := ho
    exact .inr ⟨f', hentity, by simp [occurrences]⟩
  | full g entity values =>
    obtain ⟨rfl, hentity'⟩ := ho
    obtain rfl : entity = p.2 := by simpa [hentity'] using hentity
    exact .inl (by simp [occurrences])
  | list items => exact ho.elim

theorem Shows.met {h : Handle} {f : Field} {o : Outline} {v : PropertyValue}
    {p : Handle × Entity} (ho : o.Shows e heap h f) (hkind : f.kind = .reference)
    (hentity : e.related? f = some p.2) (hget : e.registry.getPath heap h f.property = .ok v)
    (hp : p.1 ∈ v.references) : Met e o.occurrences p := by
  simp only [Shows, hkind, if_true, hget] at ho
  cases v with
  | reference g =>
    obtain rfl : p.1 = g := by simpa [PropertyValue.references] using hp
    exact IsOf.met ho hentity
  | list items =>
    obtain ⟨os, rfl, hitems⟩ := ho
    obtain ⟨item, hitem, hreference⟩ := List.mem_filterMap.mp hp
    obtain rfl : item = .reference p.1 := by
      cases item <;> simp [PropertyValue.reference?] at hreference
      rw [hreference]
    obtain ⟨o, ho, hisItem⟩ := exists_of_forall₂ hitems.flip hitem
    rw [occurrences, occurrencesIn_eq_flatMap]
    exact (IsOf.met hisItem hentity).flatMap ho
  | _ => simp [PropertyValue.references] at hp

/-- Where an object is in full, all that it leads to is met. -/
theorem Faithful.met {o : Outline} (ho : o.Faithful e heap) {p q : Handle × Entity}
    (hp : .full p.1 p.2 ∈ o.occurrences) (hlead : e.LeadsTo heap p q) :
    Met e o.occurrences q := by
  induction o with
  | plain v => simp [occurrences] at hp
  | stub f h => simp [occurrences] at hp
  | full h entity values ih =>
    simp only [Faithful, allFaithful_iff] at ho
    simp only [occurrences, occurrencesIn_eq_flatMap, List.mem_cons] at hp ⊢
    have hvalues : Met e (values.flatMap occurrences) q := by
      rcases hp with hp | hp
      · -- The object is the one of this record: what it leads to is behind one of its fields.
        obtain ⟨rfl, rfl⟩ : p.1 = h ∧ p.2 = entity := by simpa using hp
        obtain ⟨f, hf, hkind, hrelated, v, hget, hq⟩ := hlead
        obtain ⟨o, ho', hshows⟩ := exists_of_forall₂ ho.1 hf
        exact (hshows.met hkind hrelated hget hq).flatMap ho'
      · obtain ⟨o, ho', hpo⟩ := List.mem_flatMap.mp hp
        exact (ih o ho' (ho.2 o ho') hpo).flatMap ho'
    exact hvalues.mono fun _ hoccurrence => List.mem_cons_of_mem _ hoccurrence
  | list items ih =>
    simp only [Faithful, allFaithful_iff] at ho
    simp only [occurrences, occurrencesIn_eq_flatMap] at hp ⊢
    obtain ⟨o, ho', hpo⟩ := List.mem_flatMap.mp hp
    exact (ih o ho' (ho o ho') hpo).flatMap ho'

theorem IsOf.eq_of_mem_heads {f : Field} {o : Outline} {g : Handle} (ho : o.IsOf e f g)
    {p : Handle × Entity} (hp : p ∈ o.heads) : p.1 = g ∧ e.related? f = some p.2 := by
  cases o with
  | plain v => exact ho.elim
  | stub f' g' => simp [heads] at hp
  | full g' entity values =>
    obtain rfl : p = (g', entity) := by simpa [heads] using hp
    exact ho
  | list items => exact ho.elim

theorem Shows.leadsTo_of_mem_heads {h : Handle} {f : Field} {o : Outline} {entity : Entity}
    (ho : o.Shows e heap h f) (hf : f ∈ entity.fields) {p : Handle × Entity} (hp : p ∈ o.heads) :
    e.LeadsTo heap (h, entity) p := by
  by_cases hkind : f.kind = .reference
  · simp only [Shows, hkind, if_true] at ho
    split at ho
    · rename_i g hget
      obtain ⟨hg, hentity⟩ := IsOf.eq_of_mem_heads ho hp
      exact ⟨f, hf, hkind, hentity, _, hget, by simp [hg, PropertyValue.references]⟩
    · rename_i items hget
      obtain ⟨os, rfl, hitems⟩ := ho
      simp only [heads, headsIn_eq_flatMap, List.mem_flatMap] at hp
      obtain ⟨o, ho, hp⟩ := hp
      obtain ⟨item, hitem, hisItem⟩ := exists_of_forall₂ hitems ho
      cases item with
      | reference g =>
        obtain ⟨rfl, hentity⟩ := IsOf.eq_of_mem_heads hisItem hp
        refine ⟨f, hf, hkind, hentity, _, hget, ?_⟩
        exact List.mem_filterMap.mpr ⟨_, hitem, rfl⟩
      | _ => simp_all [IsItem, heads]
    · simp [ho, heads] at hp
  · obtain ⟨v, rfl⟩ : ∃ v, o = .plain v := by simpa [Shows, hkind] using ho
    simp [heads] at hp

theorem Faithful.reaches {o : Outline} (ho : o.Faithful e heap) {root : Handle × Entity}
    (hheads : ∀ p ∈ o.heads, e.Reaches heap root p) {p : Handle × Entity} (hp : p ∈ o.shown) :
    e.Reaches heap root p := by
  induction o with
  | plain v => simp [shown, occurrences] at hp
  | stub f h => simp [shown, occurrences, Occurrence.full?] at hp
  | full h entity values ih =>
    simp only [Faithful, allFaithful_iff] at ho
    have hroot : e.Reaches heap root (h, entity) := hheads _ (by simp [heads])
    simp only [shown, occurrences, occurrencesIn_eq_flatMap, List.filterMap_cons,
      Occurrence.full?, List.mem_cons] at hp
    rcases hp with rfl | hp
    · exact hroot
    · rw [List.filterMap_flatMap, List.mem_flatMap] at hp
      obtain ⟨o, ho', hp⟩ := hp
      obtain ⟨f, hf, hshows⟩ := exists_of_forall₂ ho.1.flip ho'
      refine ih o ho' (ho.2 o ho') (fun q hq => ?_) hp
      exact hroot.tail (Shows.leadsTo_of_mem_heads hshows hf hq)
  | list items ih =>
    simp only [Faithful, allFaithful_iff] at ho
    simp only [shown, occurrences, occurrencesIn_eq_flatMap, List.filterMap_flatMap,
      List.mem_flatMap] at hp
    obtain ⟨o, ho', hp⟩ := hp
    refine ih o ho' (ho o ho') (fun q hq => ?_) hp
    exact hheads q (by simpa [heads] using ⟨o, ho', hq⟩)

end Outline

namespace Engine

variable {e : Engine} {w : World} {h : Handle} {entity : Entity}

theorem related?_fieldNames_nodup
    (hcatalog : ∀ m ∈ e.catalog.entities, m.fieldNames.Nodup) (f : Field) (m : Entity)
    (hm : e.related? f = some m) : m.fieldNames.Nodup := by
  simp only [related?, Option.bind_eq_bind, Option.bind_eq_some_iff] at hm
  obtain ⟨id, -, hentity⟩ := hm
  exact hcatalog m (Catalog.mem_entities_of_entity? hentity)

/-- A fresh reading of an object comes to the same whatever the bound on the nesting. -/
theorem readNested_forRead (hclosed : w.heap.Closed e.registry) (hh : h < w.heap.length)
    (hentity : entity.fieldNames.Nodup)
    (hcatalog : ∀ m ∈ e.catalog.entities, m.fieldNames.Nodup) {d : Nat} (hd : depth w ≤ d) :
    Agree (e.Unformattable w) (fun _ => False)
      (fun record c' => ∃ values, Progress e w .forRead c' [.full h entity values] ∧
        entity.fieldNames.zip (values.map (Outline.json w.heap)) = record)
      .forRead (e.readNested w d h entity.fields) (e.readRecord w h entity.fields) := by
  have hle : w.heap.length ≤ depth w := Nat.le_succ _
  exact readNested_agree (related?_fieldNames_nodup hcatalog) hclosed (hle.trans hd) hle h entity
    .forRead hh (by simp [Context.forRead]) (unvisited_le_length _ _) hentity

/-- A record that is made has an outline, in which each object is in full where it is met first;
none is made only if formats are at fault. -/
theorem toRecord_outlined (hclosed : w.heap.Closed e.registry) (hh : h < w.heap.length)
    (hentity : entity.fieldNames.Nodup)
    (hcatalog : ∀ m ∈ e.catalog.entities, m.fieldNames.Nodup) :
    match e.toRecord w h entity with
    | .ok record => ∃ values,
      (Outline.full h entity values).Faithful e w.heap ∧
      FirstInFull e w.heap [] (Outline.full h entity values).occurrences ∧
      (Outline.full h entity values).json w.heap = .object record
    | .error failure => failure = .unformattable ∧ e.Unformattable w := by
  obtain ⟨-, hends⟩ := readNested_forRead hclosed hh hentity hcatalog (le_refl (depth w))
  simp only [toRecord, readRecord, EStateM.run]
  cases hread : e.readNested w (depth w) h entity.fields .forRead with
  | ok record c' =>
    rw [hread] at hends
    obtain ⟨values, hprogress, rfl⟩ := hends
    refine ⟨values, hprogress.faithful _ (by simp), ?_, by simp [Outline.json]⟩
    simpa [Context.forRead] using hprogress.order
  | error failure c' =>
    rw [hread] at hends
    cases failure with
    | error err => exact hends.elim
    | unformattable => exact ⟨rfl, hends⟩

/-- Reading comes to an end on every graph of objects: no bound on the nesting is ever met. In the
record each identity is in full at most once, and a stub stands for an object whose identity is in
full before it, or which was met through a field of no known entity. -/
theorem toRecord_full_at_most_once (e : Engine) (w : World) (h : Handle) (entity : Entity)
    (hclosed : w.heap.Closed e.registry) (hh : h < w.heap.length)
    (hentity : entity.fieldNames.Nodup)
    (hcatalog : ∀ m ∈ e.catalog.entities, m.fieldNames.Nodup) :
    (∀ d, depth w ≤ d → e.readNested w d h entity.fields .forRead =
      e.readRecord w h entity.fields .forRead) ∧
    match e.toRecord w h entity with
    | .ok record => ∃ values,
      let o := Outline.full h entity values
      o.Faithful e w.heap ∧ o.json w.heap = .object record ∧
      (fullKeys w.heap o.occurrences).Nodup ∧
      ∀ before f g after, o.occurrences = before ++ .stub f g :: after →
        .of w.heap g ∈ fullKeys w.heap before ∨ e.related? f = none
    | .error failure => failure = .unformattable ∧ e.Unformattable w := by
  refine ⟨fun d hd => (readNested_forRead hclosed hh hentity hcatalog hd).1, ?_⟩
  have houtlined := toRecord_outlined hclosed hh hentity hcatalog
  split at houtlined
  · obtain ⟨values, hfaithful, horder, hjson⟩ := houtlined
    refine ⟨values, hfaithful, hjson, ?_, ?_⟩
    · simpa using horder.nodup_append_fullKeys List.nodup_nil
    · intro before f g after hsplit
      rw [hsplit] at horder
      simpa using horder.stub_seen
  · exact houtlined

/-- What the first node of the ring reads as: the second one is in full at the first reference to
it, where the first one is a stub, and a stub at the next. -/
def ringRecord : Record := [
  ("label", .text "a"),
  ("peer", .object [
    ("label", .text "b"),
    ("peer", .object [("id", .null), ("identifier", .text "a")]),
    ("children", .array [])]),
  ("children", .array [
    .object [("id", .null), ("identifier", .text "b")],
    .object [("label", .text "c"), ("peer", .null), ("children", .array [])]])]

theorem toRecord_ring :
    Sample.engine.toRecord Sample.ring 0 Sample.nodeEntity = .ok ringRecord := rfl

theorem ring_closed : Sample.ring.heap.Closed Sample.engine.registry := by
  apply Heap.closed_of_cells
  · intro entry hentry
    obtain ⟨d, -, rfl⟩ := List.mem_map.mp hentry
    exact ⟨d, rfl⟩
  · decide

theorem sample_fieldNames_nodup :
    ∀ m ∈ Sample.engine.catalog.entities, m.fieldNames.Nodup := by decide

theorem ring_full_at_most_once : ∃ values,
    let o := Outline.full 0 Sample.nodeEntity values
    o.json Sample.ring.heap = .object ringRecord ∧
    (fullKeys Sample.ring.heap o.occurrences).Nodup ∧
    ∀ before f g after, o.occurrences = before ++ .stub f g :: after →
      .of Sample.ring.heap g ∈ fullKeys Sample.ring.heap before ∨
        Sample.engine.related? f = none := by
  have hread := (toRecord_full_at_most_once Sample.engine Sample.ring 0 Sample.nodeEntity
    ring_closed (by decide) (by decide) sample_fieldNames_nodup).2
  rw [toRecord_ring] at hread
  obtain ⟨values, -, hjson, hnodup, hstub⟩ := hread
  exact ⟨values, hjson, hnodup, hstub⟩

/-- Where identities tell the objects apart that can be reached, a record shows each of them in
full exactly once, as the entity that it was reached as, and no other. -/
theorem toRecord_full_iff_reaches (e : Engine) (w : World) (h : Handle) (entity : Entity)
    (hclosed : w.heap.Closed e.registry) (hh : h < w.heap.length)
    (hentity : entity.fieldNames.Nodup)
    (hcatalog : ∀ m ∈ e.catalog.entities, m.fieldNames.Nodup)
    (hidentity : ∀ p q, e.Reaches w.heap (h, entity) p → e.Reaches w.heap (h, entity) q →
      IdentityKey.of w.heap p.1 = .of w.heap q.1 → p = q) :
    match e.toRecord w h entity with
    | .ok record => ∃ values,
      let o := Outline.full h entity values
      o.Faithful e w.heap ∧ o.json w.heap = .object record ∧ (o.shown.map Prod.fst).Nodup ∧
      ∀ p, p ∈ o.shown ↔ e.Reaches w.heap (h, entity) p
    | .error failure => failure = .unformattable ∧ e.Unformattable w := by
  have houtlined := toRecord_outlined hclosed hh hentity hcatalog
  split at houtlined
  · obtain ⟨values, hfaithful, horder, hjson⟩ := houtlined
    have hreaches {p} (hp : p ∈ (Outline.full h entity values).shown) :
        e.Reaches w.heap (h, entity) p :=
      hfaithful.reaches (fun q hq => by simp_all [Outline.heads, Relation.ReflTransGen.refl]) hp
    refine ⟨values, hfaithful, hjson, ?_, fun p => ⟨hreaches, fun hp => ?_⟩⟩
    · have hkeys : (fullKeys w.heap (Outline.full h entity values).occurrences).Nodup := by
        simpa using horder.nodup_append_fullKeys List.nodup_nil
      have hmap : (((Outline.full h entity values).shown.map Prod.fst).map
          (IdentityKey.of w.heap)).Nodup := by
        rw [List.map_map]
        exact hkeys
      exact hmap.of_map _
    · -- Along a path from the root each object is in full: the one before it is, so it is met.
      induction hp with
      | refl => simp [Outline.shown, Outline.occurrences, Occurrence.full?]
      | @tail p q hp hlead ih =>
        rw [Outline.mem_shown] at ih ⊢
        rcases hfaithful.met ih hlead with hq | ⟨f, hf, hstub⟩
        · exact hq
        · -- The stub stands for a record before it, of the same identity and so of the same object.
          obtain ⟨before, after, hsplit⟩ := List.append_of_mem hstub
          rw [hsplit] at horder
          have hseen : .of w.heap q.1 ∈ fullKeys w.heap before := by
            simpa [hf] using horder.stub_seen
          obtain ⟨r, hr, hkey⟩ := List.mem_map.mp hseen
          have hshown : r ∈ (Outline.full h entity values).shown := by
            simp only [Outline.shown, hsplit, List.filterMap_append, List.mem_append]
            exact .inl hr
          obtain rfl : r = q := hidentity r q (hreaches hshown) (hp.tail hlead) hkey
          exact Outline.mem_shown.mp hshown
  · exact houtlined

theorem ring_reaches_node {p : Handle × Entity}
    (hp : Sample.engine.Reaches Sample.ring.heap (0, Sample.nodeEntity) p) :
    p.2 = Sample.nodeEntity := by
  induction hp with
  | refl => rfl
  | tail _ hlead ih =>
    obtain ⟨f, hf, -, hrelated, -⟩ := hlead
    rw [ih] at hf
    simp only [Sample.nodeEntity, List.mem_cons, List.not_mem_nil, or_false] at hf
    rcases hf with rfl | rfl | rfl
    · cases hrelated
    · exact (Option.some.inj hrelated).symm
    · exact (Option.some.inj hrelated).symm

/-- Nodes have no ids, so a node is known by its place. -/
theorem ring_key (h : Handle) : (IdentityKey.of Sample.ring.heap h).identity = .place h := by
  match h with
  | 0 | 1 | 2 => rfl
  | h + 3 => rfl

theorem ring_full_iff_reaches : ∃ values,
    let o := Outline.full 0 Sample.nodeEntity values
    o.json Sample.ring.heap = .object ringRecord ∧ (o.shown.map Prod.fst).Nodup ∧
    ∀ p, p ∈ o.shown ↔
      Sample.engine.Reaches Sample.ring.heap (0, Sample.nodeEntity) p := by
  have hread := toRecord_full_iff_reaches Sample.engine Sample.ring 0 Sample.nodeEntity
    ring_closed (by decide) (by decide) sample_fieldNames_nodup (by
      intro p q hp hq hkey
      have hplace : Identity.place p.1 = .place q.1 := by
        rw [← ring_key p.1, ← ring_key q.1, hkey]
      obtain ⟨h, entity⟩ := p
      obtain ⟨h', entity'⟩ := q
      obtain rfl : h = h' := by simpa using hplace
      rw [show entity = entity' from (ring_reaches_node hp).trans (ring_reaches_node hq).symm])
  rw [toRecord_ring] at hread
  obtain ⟨values, -, hjson, hnodup, hshown⟩ := hread
  exact ⟨values, hjson, hnodup, hshown⟩

end Engine

end Fieldwise
