import Fieldwise.Proofs.Catalog.Index
import Mathlib.Data.List.Nodup

/-!
Which projections make a catalog: those in which no name and no id of an entity stands twice. If one
does, the first repeat is reported that is met on a walk through the projections, each before its
entities. What the index of a catalog finds is what a search through the projections finds.
-/

namespace Fieldwise.Catalog

/-- What is entered into an index. -/
inductive Item
  | projection (p : Projection)
  | entity (e : Entity)

namespace Item

inductive Key
  | name (lowercase : String)
  | id (s : String)
deriving DecidableEq

def key : Item → Key
  | projection p => .name (Text.lowercase p.name)
  | entity e => .id e.id

/-- What is reported of an item whose key is there already. -/
def fault : Item → Error
  | projection p => .duplicateProjection p.name
  | entity e => .duplicateEntity e.id

end Item

/-- Each projection, and after it its entities. -/
def walk (ps : List Projection) : List Item :=
  ps.flatMap fun p => .projection p :: p.entities.map .entity

/-- The item repeats the key of one before it, and is the first to do so. -/
structure FirstRepeat (items : List Item) (front : List Item) (item : Item) (back : List Item) :
    Prop where
  split : items = front ++ item :: back
  nodup : (front.map Item.key).Nodup
  repeats : item.key ∈ front.map Item.key

namespace Index

def Has (index : Index) : Item.Key → Prop
  | .name s => s ∈ index.projections.keys
  | .id s => s ∈ index.entities.keys

/-- No key of the items is in the index or stands twice. -/
structure AllNew (index : Index) (items : List Item) : Prop where
  nodup : (items.map Item.key).Nodup
  notHas : ∀ key ∈ items.map Item.key, ¬ index.Has key

/-- How it ends to enter items into an index one after the other: with the keys of all of them, or
at the first whose key is there already. -/
inductive Entering (index : Index) (items : List Item) : Except Error Index → Prop
  | finished {index' : Index} (hnew : index.AllNew items)
      (hhas : ∀ key, index'.Has key ↔ index.Has key ∨ key ∈ items.map Item.key) :
      Entering index items (.ok index')
  | stopped {front back : List Item} {item : Item} (hitems : items = front ++ item :: back)
      (hnew : index.AllNew front) (hknown : index.Has item.key ∨ item.key ∈ front.map Item.key) :
      Entering index items (.error item.fault)

namespace Entering

variable {index index₁ : Index} {front back items : List Item} {item : Item} {error : Error}
  {result : Except Error Index}

theorem none : Entering index [] (.ok index) :=
  .finished ⟨List.nodup_nil, by simp⟩ (by simp)

theorem one (hnew : ¬ index.Has item.key)
    (hhas : ∀ key, index₁.Has key ↔ index.Has key ∨ key = item.key) :
    Entering index [item] (.ok index₁) :=
  .finished ⟨List.nodup_singleton _, by simpa using hnew⟩ (by simpa using hhas)

theorem refused (hknown : index.Has item.key) : Entering index [item] (.error item.fault) := by
  have hitems : [item] = [] ++ item :: [] := rfl
  exact .stopped hitems ⟨List.nodup_nil, by simp⟩ (.inl hknown)

/-- After all of the front has been entered, the rest goes on from there. -/
theorem append (hfront : Entering index front (.ok index₁)) (hback : Entering index₁ back result) :
    Entering index (front ++ back) result := by
  cases hfront with
  | finished hnew hhas =>
  have hall {more : List Item} (hmore : index₁.AllNew more) : index.AllNew (front ++ more) := by
    constructor
    · rw [List.map_append, List.nodup_append']
      exact ⟨hnew.nodup, hmore.nodup, fun key hkey hkey' =>
        hmore.notHas key hkey' ((hhas key).mpr (.inr hkey))⟩
    · intro key hkey
      rw [List.map_append, List.mem_append] at hkey
      rcases hkey with hkey | hkey
      · exact hnew.notHas key hkey
      · exact fun hhad => hmore.notHas key hkey ((hhas key).mpr (.inl hhad))
  cases hback with
  | finished hmore hhas' =>
    exact .finished (hall hmore) fun key => by
      rw [hhas', hhas, List.map_append, List.mem_append, or_assoc]
  | @stopped more rest item hitems hmore hknown =>
    refine .stopped (by rw [hitems, ← List.append_assoc]) (hall hmore) ?_
    rwa [hhas, or_assoc, ← List.mem_append, ← List.map_append] at hknown

/-- What is refused in the front is refused whatever comes after it. -/
theorem append_error (hfront : Entering index front (.error error)) (back : List Item) :
    Entering index (front ++ back) (.error error) := by
  cases hfront with
  | stopped hitems hnew hknown =>
    exact .stopped (by rw [hitems, List.append_assoc, List.cons_append]) hnew hknown

theorem bind {next : Index → Except Error Index} (hfront : Entering index front result)
    (hback : ∀ index₁, Entering index₁ back (next index₁)) :
    Entering index (front ++ back) (result >>= next) := by
  cases result with
  | error error => exact hfront.append_error back
  | ok index₁ => exact hfront.append (hback index₁)

end Entering

theorem entering_addEntities (p e : Nat) (index : Index) (entities : List Entity) :
    index.Entering (entities.map .entity) (addEntities p e index entities) := by
  induction entities generalizing e index with
  | nil => exact .none
  | cons entity rest ih =>
    rw [addEntities, List.map_cons]
    split
    next hknown =>
      have hrefused : index.Entering [.entity entity] (.error (.duplicateEntity entity.id)) :=
        .refused (Table.has_iff.mp hknown)
      exact hrefused.append_error _
    next hnew =>
      have hentered : index.Entering [.entity entity]
          (.ok { index with entities := index.entities.put entity.id (p, e) }) := by
        refine .one (mt Table.has_iff.mpr hnew) fun key => ?_
        cases key with
        | name s => simp [Has, Item.key]
        | id s => simp [Has, Item.key, Table.put_of_notMem (mt Table.has_iff.mpr hnew), Table.keys]
      exact hentered.append (ih ..)

theorem entering_addProjections (p : Nat) (index : Index) (ps : List Projection) :
    index.Entering (walk ps) (addProjections p index ps) := by
  induction ps generalizing p index with
  | nil => exact .none
  | cons projection rest ih =>
    have hwalk : walk (projection :: rest) =
        [.projection projection] ++ (projection.entities.map .entity ++ walk rest) := by
      simp [walk]
    rw [addProjections, hwalk]
    split
    next hknown =>
      have hrefused : index.Entering [.projection projection]
          (.error (.duplicateProjection projection.name)) :=
        .refused (Table.has_iff.mp hknown)
      exact hrefused.append_error _
    next hnew =>
      have hentered : index.Entering [.projection projection] (.ok { index with
          projections := index.projections.put (Text.lowercase projection.name) p }) := by
        refine .one (mt Table.has_iff.mpr hnew) fun key => ?_
        cases key with
        | name s =>
          simp [Has, Item.key, Table.put_of_notMem (mt Table.has_iff.mpr hnew), Table.keys]
        | id s => simp [Has, Item.key]
      exact hentered.append ((entering_addEntities ..).bind fun index₁ => ih (p + 1) index₁)

end Index

variable {ps : List Projection} {c : Catalog}

/-! ### Walks that meet a key twice -/

namespace FirstRepeat

variable {items front front' back back' : List Item} {item item' : Item}

theorem not_nodup (h : FirstRepeat items front item back) : ¬ (items.map Item.key).Nodup := by
  intro hnodup
  rw [h.split, List.map_append, List.map_cons, List.nodup_append'] at hnodup
  exact hnodup.2.2 h.repeats List.mem_cons_self

theorem unique (h : FirstRepeat items front item back)
    (h' : FirstRepeat items front' item' back') : item = item' := by
  rcases List.append_eq_append_iff.mp (h.split.symm.trans h'.split) with
    ⟨_ | ⟨first, more⟩, hfront, hrest⟩ | ⟨_ | ⟨first, more⟩, hfront, hrest⟩
  · exact (List.cons.inj hrest).1
  · obtain ⟨rfl, -⟩ := List.cons.inj hrest
    have hearlier : FirstRepeat front' front item more := ⟨hfront, h.nodup, h.repeats⟩
    exact absurd h'.nodup hearlier.not_nodup
  · exact (List.cons.inj hrest).1.symm
  · obtain ⟨rfl, -⟩ := List.cons.inj hrest
    have hearlier : FirstRepeat front front' item' more := ⟨hfront, h'.nodup, h'.repeats⟩
    exact absurd h.nodup hearlier.not_nodup

end FirstRepeat

theorem perm_keys_walk (ps : List Projection) : ((walk ps).map Item.key).Perm
    ((ps.map fun p => Text.lowercase p.name).map .name ++
      ((ps.flatMap (·.entities)).map (·.id)).map .id) := by
  induction ps with
  | nil => exact .nil
  | cons p rest ih =>
    have hwalk : (walk (p :: rest)).map Item.key = .name (Text.lowercase p.name) ::
        ((p.entities.map (·.id)).map .id ++ (walk rest).map Item.key) := by
      simp [walk, Item.key, Function.comp_def]
    rw [hwalk, List.map_cons, List.map_cons, List.cons_append, List.flatMap_cons, List.map_append,
      List.map_append]
    exact ((ih.append_left _).trans (List.perm_append_comm_assoc ..)).cons _

theorem nodup_keys_walk_iff : ((walk ps).map Item.key).Nodup ↔
    (ps.map fun p => Text.lowercase p.name).Nodup ∧
      ((ps.flatMap (·.entities)).map (·.id)).Nodup := by
  have hname : Function.Injective Item.Key.name := fun _ _ => Item.Key.name.inj
  have hid : Function.Injective Item.Key.id := fun _ _ => Item.Key.id.inj
  have hdisjoint : List.Disjoint ((ps.map fun p => Text.lowercase p.name).map Item.Key.name)
      (((ps.flatMap (·.entities)).map (·.id)).map .id) := by
    simp [List.Disjoint]
  rw [(perm_keys_walk ps).nodup_iff, List.nodup_append', List.nodup_map_iff hname,
    List.nodup_map_iff hid]
  simp only [hdisjoint, and_true]

/-! ### The index of a catalog -/

theorem not_has_empty (key : Item.Key) : ¬ Index.Has ⟨[], []⟩ key := by
  cases key <;> simp [Index.Has, Table.keys]

theorem firstRepeat_of_ofProjections {error : Error} (h : ofProjections ps = .error error) :
    ∃ front item back, FirstRepeat (walk ps) front item back ∧ error = item.fault := by
  have hentering := Index.entering_addProjections 0 ⟨[], []⟩ ps
  unfold ofProjections at h
  cases hadded : Index.addProjections 0 ⟨[], []⟩ ps with
  | ok index =>
    rw [hadded] at h
    cases h
  | error error' =>
    rw [hadded] at h hentering
    cases h
    cases hentering with
    | @stopped front back item hitems hnew hknown =>
      exact ⟨front, item, back,
        ⟨hitems, hnew.nodup, hknown.resolve_left (not_has_empty item.key)⟩, rfl⟩

theorem nodup_of_ofProjections (h : ofProjections ps = .ok c) :
    ((walk ps).map Item.key).Nodup ∧ ∀ key, c.index.Has key ↔ key ∈ (walk ps).map Item.key := by
  have hentering := Index.entering_addProjections 0 ⟨[], []⟩ ps
  rw [(ofProjections_eq_ok h).2] at hentering
  cases hentering with
  | finished hnew hhas => exact ⟨hnew.nodup, fun key => by simpa [not_has_empty] using hhas key⟩

theorem entityCount_eq (h : ofProjections ps = .ok c) :
    c.entityCount = (ps.flatMap (·.entities)).length := by
  have hunique := (Index.addProjections_eq_ok (ofProjections_eq_ok h).2).1
    ⟨List.nodup_nil, List.nodup_nil⟩
  obtain ⟨hnodup, hhas⟩ := nodup_of_ofProjections h
  have hids : c.index.entities.keys.Perm ((ps.flatMap (·.entities)).map (·.id)) := by
    refine (List.perm_ext_iff_of_nodup hunique.entities (nodup_keys_walk_iff.mp hnodup).2).mpr
      fun id => ?_
    rw [show id ∈ c.index.entities.keys ↔ _ from hhas (.id id), (perm_keys_walk ps).mem_iff]
    simp
  have hlength := hids.length_eq
  simpa only [entityCount, Table.keys, List.length_map] using hlength

theorem eq_find? {α : Type} {found : Option α} {items : List α} {q : α → Bool}
    (h : ∀ a, found = some a ↔ a ∈ items ∧ q a) : found = items.find? q := by
  cases hfind : items.find? q with
  | none =>
    refine Option.eq_none_iff_forall_ne_some.mpr fun a ha => ?_
    obtain ⟨hmem, hq⟩ := (h a).mp ha
    exact List.find?_eq_none.mp hfind a hmem hq
  | some a => exact (h a).mpr ⟨List.mem_of_find?_eq_some hfind, List.find?_some hfind⟩

/-- Projections make a catalog unless a name or an id stands twice, and then the first repeat is
reported. Whatever is looked up in a catalog is what a search through all of it finds. -/
theorem ofProjections_search (ps : List Projection) :
    ((∃ error, ofProjections ps = .error error) ↔
      ¬ (ps.map fun p => Text.lowercase p.name).Nodup ∨
      ¬ ((ps.flatMap (·.entities)).map (·.id)).Nodup) ∧
    (∀ error, ofProjections ps = .error error ↔
      ∃ front item back, FirstRepeat (walk ps) front item back ∧ error = item.fault) ∧
    ∀ c, ofProjections ps = .ok c →
      c.projections = ps ∧
      (∀ name, c.projection? name =
        ps.find? fun p => Text.lowercase p.name = Text.lowercase name) ∧
      (∀ id, c.entity? id = (ps.flatMap (·.entities)).find? fun e => e.id = id) ∧
      (∀ e ∈ ps.flatMap (·.entities), c.entity? e.id = some e) ∧
      c.entityCount = (ps.flatMap (·.entities)).length := by
  have hfault {error : Error} : ofProjections ps = .error error ↔
      ∃ front item back, FirstRepeat (walk ps) front item back ∧ error = item.fault := by
    refine ⟨firstRepeat_of_ofProjections, ?_⟩
    rintro ⟨front, item, back, hrepeat, rfl⟩
    cases hps : ofProjections ps with
    | ok c => exact absurd (nodup_of_ofProjections hps).1 hrepeat.not_nodup
    | error error =>
      obtain ⟨_, item', _, hrepeat', rfl⟩ := firstRepeat_of_ofProjections hps
      rw [hrepeat.unique hrepeat']
  refine ⟨?_, fun _ => hfault, fun c hc => ?_⟩
  · rw [← not_and_or, ← nodup_keys_walk_iff]
    constructor
    · rintro ⟨error, herror⟩
      obtain ⟨_, _, _, hrepeat, -⟩ := hfault.mp herror
      exact hrepeat.not_nodup
    · intro hrepeated
      cases hps : ofProjections ps with
      | ok c => exact absurd (nodup_of_ofProjections hps).1 hrepeated
      | error error => exact ⟨error, rfl⟩
  · obtain rfl := projections_of_ofProjections hc
    refine ⟨rfl, fun name => eq_find? fun p => ?_, fun id => eq_find? fun e => ?_, fun e he => ?_,
      entityCount_eq hc⟩
    · rw [projection?_eq_some_iff hc, decide_eq_true_iff]
    · rw [entity?_eq_some_iff hc, decide_eq_true_iff]
      rfl
    · exact (entity?_eq_some_iff hc).mpr ⟨he, rfl⟩

end Fieldwise.Catalog

namespace Fieldwise

open Catalog (walk)

/-- Two places whose ids differ in their letter case only. -/
def Sample.places : List Projection := [
  { id := "P", name := "A", entities := [
      { id := "BIN", name := "Bin", table := "301" },
      { id := "bin", name := "Basket", table := "302" }] },
  { id := "P", name := "É" }]

/-- Of the places that come in addition, the second has the id of one before. -/
def Sample.placesAgain : List Projection :=
  places ++ [{ id := "Q", name := "B", entities := [
    { id := "Bin", name := "Bin", table := "303" },
    { id := "bin", name := "Bin", table := "304" }] }, { id := "R", name := "É" }]

open Sample (places placesAgain)

theorem Catalog.places_search :
    (∃ c, ofProjections places = .ok c ∧
      (c.projection? "é").map (·.name) = some "É" ∧
      (c.entity? "bin").map (·.name) = some "Basket" ∧ c.entity? "Bin" = none ∧
      c.entityCount = 2) ∧
    ofProjections placesAgain = .error (.duplicateEntity "bin") := by
  obtain ⟨hfails, -, hsearch⟩ := ofProjections_search places
  have hok : ∃ c, ofProjections places = .ok c := by
    cases hplaces : ofProjections places with
    | ok c => exact ⟨c, rfl⟩
    | error error => exact absurd (hfails.mp ⟨error, hplaces⟩) (by decide +kernel)
  obtain ⟨c, hc⟩ := hok
  obtain ⟨-, hprojection, hentity, -, hcount⟩ := hsearch c hc
  refine ⟨⟨c, hc, ?_, ?_, ?_, hcount.trans (by decide)⟩, ?_⟩
  · rw [hprojection]
    decide +kernel
  · rw [hentity]
    decide +kernel
  · rw [hentity]
    decide +kernel
  · refine ((ofProjections_search placesAgain).2.1 _).mpr
      ⟨(walk placesAgain).take 6, .entity { id := "bin", name := "Bin", table := "304" },
        (walk placesAgain).drop 7, ⟨rfl, by decide +kernel, by decide +kernel⟩, rfl⟩

end Fieldwise
