import Fieldwise.Sample.Engine
import Mathlib.Data.List.Nodup

/-!
What is in a registry to which types have been offered one after the other, whether each was
accepted or refused. It has the accepted types and nothing else, in the order in which they came:
each under its name and under its table, no two of which are the same.
-/

namespace Fieldwise

namespace EntityType

/-- Only one of the types can be registered. -/
def Clashes (t s : EntityType) : Prop := t.name = s.name ∨ t.table = s.table

instance (t s : EntityType) : Decidable (t.Clashes s) :=
  inferInstanceAs (Decidable (_ ∨ _))

def accept (known : List EntityType) (t : EntityType) : List EntityType :=
  if ∃ s ∈ known, t.Clashes s then known else known ++ [t]

/-- Of types that are offered one after the other, those that clash with none accepted before. -/
def accepted (offers : List EntityType) : List EntityType := offers.foldl accept []

theorem accepted_concat (offers : List EntityType) (t : EntityType) :
    accepted (offers ++ [t]) = accept (accepted offers) t :=
  List.foldl_concat ..

end EntityType

open EntityType (accept accepted)

namespace Registry

/-- The registry after a type has been offered, which is as before if the type is refused. -/
def offer (r : Registry) (t : EntityType) : Registry :=
  match r.register t with
  | .ok r' => r'
  | .error _ => r

def ofOffers (offers : List EntityType) : Registry := offers.foldl offer empty

theorem ofOffers_concat (offers : List EntityType) (t : EntityType) :
    ofOffers (offers ++ [t]) = (ofOffers offers).offer t :=
  List.foldl_concat ..

/-- The registry has the types, in this order, and nothing else. -/
structure Lists (r : Registry) (known : List EntityType) : Prop where
  types : r.types = known.map fun t => (t.name, t)
  tables : r.tables = known.map fun t => (t.table, t.name)
  namesApart : (known.map (·.name)).Nodup
  tablesApart : (known.map (·.table)).Nodup

/-- How it ends to offer a type to a registry that has certain types. -/
inductive Offering (known : List EntityType) (t : EntityType) : Except Error Registry → Prop
  | accepted {r : Registry} (hnew : ¬ ∃ s ∈ known, t.Clashes s) (hlists : r.Lists (known ++ [t])) :
    Offering known t (.ok r)
  | nameTaken {s : EntityType} (hs : s ∈ known) (hname : t.name = s.name) :
    Offering known t (.error (.duplicateType t.name))
  | tableTaken {s : EntityType} (hs : s ∈ known) (htable : t.table = s.table)
    (hnames : ∀ s ∈ known, t.name ≠ s.name) :
    Offering known t (.error (.duplicateType s!"table {t.table}"))

namespace Offering

variable {known : List EntityType} {t : EntityType}

theorem of_ok {r : Registry} (h : Offering known t (.ok r)) :
    (¬ ∃ s ∈ known, t.Clashes s) ∧ accept known t = known ++ [t] ∧ r.Lists (known ++ [t]) := by
  cases h with
  | accepted hnew hlists => exact ⟨hnew, if_neg hnew, hlists⟩

theorem of_error {error : Error} (h : Offering known t (.error error)) :
    (∃ s ∈ known, t.Clashes s) ∧ accept known t = known := by
  have hclash : ∃ s ∈ known, t.Clashes s := by
    cases h with
    | @nameTaken s hs hname => exact ⟨s, hs, .inl hname⟩
    | @tableTaken s hs htable _ => exact ⟨s, hs, .inr htable⟩
  exact ⟨hclash, if_pos hclash⟩

end Offering

namespace Lists

variable {r : Registry} {known : List EntityType} {t : EntityType}

theorem keys_types (h : r.Lists known) : r.types.keys = known.map (·.name) := by
  simp [h.types, Table.keys]

theorem keys_tables (h : r.Lists known) : r.tables.keys = known.map (·.table) := by
  simp [h.tables, Table.keys]

theorem concat (h : r.Lists known) (hname : t.name ∉ known.map (·.name))
    (htable : t.table ∉ known.map (·.table)) :
    Lists ⟨r.types.put t.name t, r.tables.put t.table t.name⟩ (known ++ [t]) where
  types := by
    rw [← h.keys_types] at hname
    rw [Table.put_of_notMem hname, h.types, List.map_append, List.map_singleton]
  tables := by
    rw [← h.keys_tables] at htable
    rw [Table.put_of_notMem htable, h.tables, List.map_append, List.map_singleton]
  namesApart := by
    rw [List.map_append, List.map_singleton, ← List.concat_eq_append]
    exact .concat hname h.namesApart
  tablesApart := by
    rw [List.map_append, List.map_singleton, ← List.concat_eq_append]
    exact .concat htable h.tablesApart

theorem offering (h : r.Lists known) (t : EntityType) : Offering known t (r.register t) := by
  unfold register
  simp only [Table.has_iff, h.keys_types, h.keys_tables]
  split
  · next hname =>
    obtain ⟨s, hs, hname⟩ := List.mem_map.mp hname
    exact .nameTaken hs hname.symm
  · next hname =>
    have hnames : ∀ s ∈ known, t.name ≠ s.name := fun s hs heq =>
      hname (heq ▸ List.mem_map_of_mem hs)
    split
    · next htable =>
      obtain ⟨s, hs, htable⟩ := List.mem_map.mp htable
      exact .tableTaken hs htable.symm hnames
    · next htable =>
      refine .accepted ?_ (h.concat hname htable)
      rintro ⟨s, hs, heq | heq⟩
      · exact hnames s hs heq
      · exact htable (heq ▸ List.mem_map_of_mem hs)

/-- Offering a type keeps a registry in accordance with the types that are accepted. -/
theorem offer (h : r.Lists known) (t : EntityType) : (r.offer t).Lists (accept known t) := by
  have hoffering := h.offering t
  unfold Registry.offer
  cases hresult : r.register t with
  | ok r' =>
    obtain ⟨-, haccept, hlists⟩ := (hresult ▸ hoffering).of_ok
    rwa [haccept]
  | error error =>
    obtain ⟨-, haccept⟩ := (hresult ▸ hoffering).of_error
    rwa [haccept]

end Lists

theorem lists_ofOffers (offers : List EntityType) : (ofOffers offers).Lists (accepted offers) := by
  suffices hmore : ∀ (r : Registry) known, r.Lists known →
      (offers.foldl offer r).Lists (offers.foldl accept known) from
    hmore empty [] ⟨rfl, rfl, List.nodup_nil, List.nodup_nil⟩
  induction offers with
  | nil => exact fun r known h => h
  | cons t rest ih => exact fun r known h => ih _ _ (h.offer t)

/-- The answers of a registry, from the types that it has. -/
structure Describes (r : Registry) (known : List EntityType) : Prop where
  type?_iff : ∀ name t, r.type? name = some t ↔ t ∈ known ∧ t.name = name
  typeOfTable?_iff : ∀ table t, r.typeOfTable? table = some t ↔ t ∈ known ∧ t.table = table
  typeName?_eq : ∀ table, r.typeName? table = (r.typeOfTable? table).map (·.name)
  /-- Names and tables belong together one to one. -/
  typeName?_iff : ∀ table name,
    r.typeName? table = some name ↔ (r.type? name).map (·.table) = some table
  size_eq : r.size = known.length

namespace Lists

variable {r : Registry} {known : List EntityType} (h : r.Lists known)
include h

theorem type?_eq_some_iff {name : String} {t : EntityType} :
    r.type? name = some t ↔ t ∈ known ∧ t.name = name := by
  rw [type?, Table.get?_eq_some_iff (h.keys_types ▸ h.namesApart), h.types, List.mem_map]
  constructor
  · rintro ⟨_, ht, ⟨⟩⟩
    exact ⟨ht, rfl⟩
  · rintro ⟨ht, rfl⟩
    exact ⟨t, ht, rfl⟩

theorem typeName?_eq_some_iff {table name : String} :
    r.typeName? table = some name ↔ ∃ t, (t ∈ known ∧ t.table = table) ∧ t.name = name := by
  rw [typeName?, Table.get?_eq_some_iff (h.keys_tables ▸ h.tablesApart), h.tables, List.mem_map]
  simp only [Prod.mk.injEq, and_assoc]

theorem typeOfTable?_eq_some_iff {table : String} {t : EntityType} :
    r.typeOfTable? table = some t ↔ t ∈ known ∧ t.table = table := by
  simp only [typeOfTable?, Option.bind_eq_bind, Option.bind_eq_some_iff, h.typeName?_eq_some_iff,
    h.type?_eq_some_iff]
  constructor
  · rintro ⟨_, ⟨s, ⟨hs, rfl⟩, rfl⟩, ht, hname⟩
    obtain rfl : t = s := List.inj_on_of_nodup_map h.namesApart ht hs hname
    exact ⟨ht, rfl⟩
  · rintro ⟨ht, rfl⟩
    exact ⟨t.name, ⟨t, ⟨ht, rfl⟩, rfl⟩, ht, rfl⟩

theorem describes : r.Describes known where
  type?_iff _ _ := h.type?_eq_some_iff
  typeOfTable?_iff _ _ := h.typeOfTable?_eq_some_iff
  typeName?_eq table := by
    ext name
    rw [h.typeName?_eq_some_iff, Option.map_eq_some_iff]
    simp only [h.typeOfTable?_eq_some_iff]
  typeName?_iff table name := by
    rw [h.typeName?_eq_some_iff, Option.map_eq_some_iff]
    simp only [h.type?_eq_some_iff, and_right_comm]
  size_eq := by simp [size, h.types]

end Lists

/-- Of types that are offered to an empty registry one after the other, another one is accepted if
neither its name nor its table is that of a type accepted before; one that is refused changes
nothing; and every answer of the registry is that of the accepted types. -/
theorem ofOffers_describes (offers : List EntityType) :
    (∀ t, (∃ r, (ofOffers offers).register t = .ok r) ↔
      ∀ s ∈ accepted offers, t.name ≠ s.name ∧ t.table ≠ s.table) ∧
    (∀ t r, (ofOffers offers).register t = .ok r →
      ofOffers (offers ++ [t]) = r ∧ accepted (offers ++ [t]) = accepted offers ++ [t]) ∧
    (∀ t error, (ofOffers offers).register t = .error error →
      ofOffers (offers ++ [t]) = ofOffers offers ∧ accepted (offers ++ [t]) = accepted offers) ∧
    (ofOffers offers).Describes (accepted offers) := by
  have hlists := lists_ofOffers offers
  refine ⟨fun t => ?_, fun t r hr => ?_, fun t error herror => ?_, hlists.describes⟩
  · have hapart : (∀ s ∈ accepted offers, t.name ≠ s.name ∧ t.table ≠ s.table) ↔
        ¬ ∃ s ∈ accepted offers, t.Clashes s := by
      simp only [EntityType.Clashes, not_exists, not_and, not_or]
    rw [hapart]
    cases hresult : (ofOffers offers).register t with
    | ok r => exact iff_of_true ⟨r, rfl⟩ (hresult ▸ hlists.offering t).of_ok.1
    | error error =>
      refine iff_of_false (fun ⟨r, hr⟩ => nomatch hr) (not_not_intro ?_)
      exact (hresult ▸ hlists.offering t).of_error.1
  · obtain ⟨-, haccept, -⟩ := (hr ▸ hlists.offering t).of_ok
    rw [ofOffers_concat, EntityType.accepted_concat, offer, hr]
    exact ⟨rfl, haccept⟩
  · obtain ⟨-, haccept⟩ := (herror ▸ hlists.offering t).of_error
    rw [ofOffers_concat, EntityType.accepted_concat, offer, herror]
    exact ⟨rfl, haccept⟩

end Registry

namespace Sample

/-- A second type named like the categories, and nodes in the table of the products. -/
def rivals : List EntityType := [
  product.entityType,
  category.entityType,
  { category.entityType with table := "999" },
  { node.entityType with table := "208" }]

end Sample

open Sample (product category node rivals)

/-- Of the rivals the first two are accepted. The nodes are refused because of their table only, so
that they can still be registered with a table of their own. -/
theorem Registry.rivals_describes :
    accepted rivals = [product.entityType, category.entityType] ∧
    (ofOffers rivals).size = 2 ∧
    (ofOffers rivals).typeName? "208" = some "Product" ∧
    (ofOffers rivals).typeOfTable? "999" = none ∧
    (∃ r, (ofOffers rivals).register node.entityType = .ok r) ∧
    ofOffers (rivals ++ [category.entityType]) = ofOffers rivals := by
  have haccepted : accepted rivals = [product.entityType, category.entityType] := rfl
  obtain ⟨hok, -, hrefused, hdescribes⟩ := ofOffers_describes rivals
  rw [haccepted] at hok hdescribes
  have hproduct : (ofOffers rivals).typeOfTable? "208" = some product.entityType :=
    (hdescribes.typeOfTable?_iff _ _).mpr ⟨List.mem_cons_self, rfl⟩
  have hnode : ∀ s ∈ [product.entityType, category.entityType],
      node.entityType.name ≠ s.name ∧ node.entityType.table ≠ s.table := by
    simp only [List.forall_mem_cons]
    decide
  have htables : ∀ s ∈ [product.entityType, category.entityType], s.table ≠ "999" := by
    simp only [List.forall_mem_cons]
    decide
  refine ⟨haccepted, hdescribes.size_eq, ?_, ?_, (hok _).mpr hnode, ?_⟩
  · rw [hdescribes.typeName?_eq, hproduct]
    rfl
  · refine Option.eq_none_iff_forall_ne_some.mpr fun t ht => ?_
    obtain ⟨ht, htable⟩ := (hdescribes.typeOfTable?_iff _ _).mp ht
    exact htables t ht htable
  · cases hresult : (ofOffers rivals).register category.entityType with
    | ok r =>
      have hapart := (hok _).mp ⟨r, hresult⟩ category.entityType (by simp)
      exact absurd rfl hapart.1
    | error error => exact (hrefused _ error hresult).1

end Fieldwise
