import Fieldwise.Proofs.Conversion.Assignments
import Fieldwise.Proofs.Registry.Cells

/-!
Which cells writing a record touches. Paths are looked up when their fields are written, in a graph
that the fields before may have changed, so a cell is told by the world in which its field is come
to. However the writing ends, what is not touched in this way, and is not a stamp, is as it was when
the writing began.
-/

namespace Fieldwise

/-- Worlds whose heaps differ at touched cells only. -/
abbrev World.DiffersAt (r : Registry) (touched : Handle → String → Prop) (w w' : World) : Prop :=
  w.heap.DiffersAt r touched w'.heap

instance (r : Registry) (touched : Handle → String → Prop) :
    Std.Refl (World.DiffersAt r touched) := ⟨fun w => .refl w.heap⟩

instance (r : Registry) (touched : Handle → String → Prop) :
    IsTrans World (World.DiffersAt r touched) := ⟨fun _ _ _ h h' => Heap.DiffersAt.trans h h'⟩

namespace Engine

variable {e : Engine} {record : Record} {h : Handle} {f : Field} {fields : List Field} {w : World}

/-- In this world the field sets the cell: the record has the field, it is a direct field or a
reference, and its path leads there. -/
structure Sets (e : Engine) (record : Record) (h : Handle) (f : Field) (w : World) (g : Handle)
    (property : String) : Prop where
  given : record.get? f.name ≠ none
  kind : f.kind = .direct ∨ f.kind = .reference
  cell : e.registry.cellAt? w.heap h f.property = some (g, property)

/-- The cell is one that stamps are for, of the written object, whose type is to be audited. -/
structure Stamps (e : Engine) (heap : Heap) (h g : Handle) (property : String) : Prop where
  audited : e.audit?.isSome
  auditable : e.registry.isAuditable (heap.get h).typeName = true
  written : g = h
  stamped : property ∈ stampedProperties

theorem heap_changeHeap {change : Heap → Except Error Heap} :
    (after (Action.changeHeap change) w).heap = w.heap ∨
      change w.heap = .ok (after (Action.changeHeap change) w).heap := by
  unfold after Action.changeHeap
  cases change w.heap with
  | error err => exact .inl rfl
  | ok heap => exact .inr rfl

/-- A field without a custom writer leaves the heap, or sets its path to a value there. -/
theorem heap_writeEntry (hcustom : f.kind ≠ .custom) :
    (after (e.writeEntry record h f) w).heap = w.heap ∨
    record.get? f.name ≠ none ∧ (f.kind = .direct ∨ f.kind = .reference) ∧
      ∃ v, e.registry.setPath w.heap h f.property v =
        .ok (after (e.writeEntry record h f) w).heap := by
  unfold writeEntry
  cases hv : record.get? f.name with
  | none => exact .inl rfl
  | some v =>
    cases hkind : f.kind with
    | direct =>
      simp only [MappingKind.strategy?, writeBy, writeDirect]
      rcases heap_changeHeap with hheap | hset
      · exact .inl hheap
      · obtain ⟨type, -, hset⟩ := except_bind_eq_ok.mp hset
        obtain ⟨value, -, hset⟩ := except_bind_eq_ok.mp hset
        exact .inr ⟨Option.some_ne_none v, .inl trivial, value, hset⟩
    | reference =>
      simp only [MappingKind.strategy?, writeBy, writeReference_eq, after_bind]
      cases hassigned : e.assigned f v w with
      | error err w' => exact .inl ((keeps_assigned f v).of_error hassigned).heap
      | ok value? w' =>
        have hheap : w'.heap = w.heap := ((keeps_assigned f v).of_ok hassigned).heap
        cases value? with
        | none => exact .inl hheap
        | some value =>
          rw [← hheap]
          rcases heap_changeHeap with hsame | hset
          · exact .inl hsame
          · exact .inr ⟨Option.some_ne_none v, .inr trivial, value, hset⟩
    | custom => exact absurd hkind hcustom
    | _ => exact .inl rfl

theorem differsAt_writeEntry (hr : e.registry.SetsApart e.registry) (hcustom : f.kind ≠ .custom) :
    w.heap.DiffersAt e.registry (e.Sets record h f w)
      (after (e.writeEntry record h f) w).heap := by
  rcases heap_writeEntry hcustom with hheap | ⟨hgiven, hkind, v, hset⟩
  · exact .of_eq hheap
  · exact (Heap.DiffersAt.setPath hr hset).mono fun g property hcell => ⟨hgiven, hkind, hcell⟩

/-- One of the fields sets the cell in the world in which it is come to, after those before it. -/
def SetsAmong (e : Engine) (record : Record) (h : Handle) (fields : List Field) (w : World)
    (g : Handle) (property : String) : Prop :=
  ∃ done f rest w', fields = done ++ f :: rest ∧
    done.forM (e.writeEntry record h) w = .ok () w' ∧ e.Sets record h f w' g property

theorem SetsAmong.cons {w' : World} {g : Handle} {property : String}
    (hwrite : e.writeEntry record h f w = .ok () w')
    (hsets : e.SetsAmong record h fields w' g property) :
    e.SetsAmong record h (f :: fields) w g property := by
  obtain ⟨done, f', rest, w'', rfl, hdone, hsets⟩ := hsets
  refine ⟨f :: done, f', rest, w'', rfl, ?_, hsets⟩
  rw [forM_cons_apply, bind_apply, hwrite]
  exact hdone

theorem differsAt_forM (hr : e.registry.SetsApart e.registry)
    (hcustom : ∀ f ∈ fields, f.kind ≠ .custom) :
    w.heap.DiffersAt e.registry (e.SetsAmong record h fields w)
      (after (fields.forM (e.writeEntry record h)) w).heap := by
  induction fields generalizing w with
  | nil => exact .refl w.heap
  | cons f rest ih =>
    have hfirst : w.heap.DiffersAt e.registry (e.SetsAmong record h (f :: rest) w)
        (after (e.writeEntry record h f) w).heap :=
      (differsAt_writeEntry hr (hcustom f (by simp))).mono fun g property hsets =>
        ⟨[], f, rest, w, rfl, rfl, hsets⟩
    rw [forM_cons_apply, after_bind]
    cases hwrite : e.writeEntry record h f w with
    | error err w' => rwa [after_of_error hwrite] at hfirst
    | ok _ w' =>
      -- The other fields start from what the first one has left, and look up their paths there.
      rw [after_of_ok hwrite] at hfirst
      exact hfirst.trans <| (ih fun f hf => hcustom f (by simp [hf])).mono fun g property =>
        .cons hwrite

theorem differsAt_auditWritten
    (haudit : ∀ audit, e.audit? = some audit →
      ∃ r user now, audit = .stamps r user now ∧ r.SetsApart e.registry) (isNew : Bool) :
    w.heap.DiffersAt e.registry (e.Stamps w.heap h) (after (e.auditWritten h isNew) w).heap := by
  unfold auditWritten
  cases hsome : e.audit? with
  | none => exact .refl w.heap
  | some audit =>
    simp only [after_bind, get_apply]
    split
    · next hauditable =>
      obtain ⟨r, user, now, rfl, hr⟩ := haudit audit hsome
      have hset : ∀ property ∈ stampedProperties, ∀ v,
          Keeps (World.DiffersAt e.registry fun g property => g = h ∧ property ∈ stampedProperties)
            (Action.changeHeap fun heap => r.setProperty heap h property v) := by
        refine fun property hproperty v => .changeHeap (fun w heap hset => ?_) (refl_of _)
        refine (Heap.DiffersAt.setProperty hr hset).mono ?_
        rintro _ _ ⟨rfl, rfl⟩
        exact ⟨rfl, hproperty⟩
      refine (keeps_stamps_of hset user now isNew w).mono ?_
      rintro _ property ⟨rfl, hproperty⟩
      exact ⟨by simp [hsome], hauditable, rfl, hproperty⟩
    · exact .refl w.heap

section

variable (hcustom : ∀ f ∈ fields, f.kind ≠ .custom) (hr : e.registry.SetsApart e.registry)
  (haudit : ∀ audit, e.audit? = some audit →
    ∃ r user now, audit = .stamps r user now ∧ r.SetsApart e.registry)

include hcustom hr haudit

theorem differsAt_writeOnto (isNew : Bool) :
    w.heap.DiffersAt e.registry
      (fun g property => e.SetsAmong record h fields w g property ∨ e.Stamps w.heap h g property)
      (after (e.writeOnto record h isNew fields) w).heap := by
  have hfields : w.heap.DiffersAt e.registry (e.SetsAmong record h fields w)
      (after (fields.forM (e.writeEntry record h)) w).heap := differsAt_forM hr hcustom
  rw [writeOnto, after_bind]
  cases hforM : fields.forM (e.writeEntry record h) w with
  | error err w' =>
    rw [after_of_error hforM] at hfields
    exact hfields.mono fun g property => .inl
  | ok _ w' =>
    rw [after_of_ok hforM] at hfields
    refine (hfields.mono fun g property => .inl).trans <|
      (differsAt_auditWritten haudit isNew).mono fun g property hstamps => ?_
    exact .inr { hstamps with auditable := hfields.typeName h ▸ hstamps.auditable }

/-- However writing a record without custom fields ends, it has only added new objects before the
first field. From then on values differ in cells that direct fields and references of the record
lead to when they are written, and in stamps of the written object. -/
theorem writeRecord_differsAt (record : Record) (existing : Option Handle) (entity : Entity)
    (w : World) :
    w.heap <+: (after (e.target record existing entity fields) w).heap ∧
    (after (e.target record existing entity fields) w).heap.DiffersAt e.registry
      (fun g property => ∃ h w', e.target record existing entity fields w = .ok h w' ∧
        (e.SetsAmong record h fields w' g property ∨ e.Stamps w'.heap h g property))
      (after (e.writeRecord record existing entity fields) w).heap := by
  refine ⟨(e.keeps_target record existing entity fields w).heap, ?_⟩
  rw [writeRecord, after_bind]
  cases htarget : e.target record existing entity fields w with
  | error err w₀ =>
    rw [after_of_error htarget]
    exact .refl w₀.heap
  | ok h w₀ =>
    rw [after_of_ok htarget]
    simp only [← map_eq_pure_bind, after_map]
    exact (differsAt_writeOnto hcustom hr haudit existing.isNone).mono fun g property htouched =>
      ⟨h, w₀, rfl, htouched⟩

end

end Engine

namespace Sample

/-- The stored category, and a product that has none yet. -/
def unshelved : World :=
  { shelf with heap := shelf.heap.put 1 ⟨product.kind, [("sku", .text "A100")]⟩ }

/-- A record that puts the product into the category and names the category of the product. -/
def renamed : Record := shelved (.text "C1") ++ [("categoryName", .text "Parts")]

end Sample

namespace Engine

set_option maxRecDepth 4000 in
/-- The name of the category is touched for the field `categoryName`, whose path leads nowhere
before the field `category` has been written. -/
theorem renamed_differsAt :
    (∀ f ∈ Sample.productEntity.fields, f.kind ≠ .custom) ∧
    Sample.registry.SetsApart Sample.registry ∧
    Sample.registry.cellAt? Sample.unshelved.heap 1 "category.name" = none ∧
    Sample.registry.getProperty Sample.unshelved.heap 0 "name" = .ok (.text "Tools") ∧
    Sample.registry.getProperty (after (Sample.engine.writeRecord Sample.renamed (some 1)
      Sample.productEntity Sample.productEntity.fields) Sample.unshelved).heap 0 "name" =
        .ok (.text "Parts") ∧
    Sample.engine.SetsAmong Sample.renamed 1 Sample.productEntity.fields Sample.unshelved
      0 "name" := by
  have hcustom : ∀ f ∈ Sample.productEntity.fields, f.kind ≠ .custom := by decide
  have hr : Sample.registry.SetsApart Sample.registry :=
    @Registry.setsApart_of_definitions _ _ Sample.types Sample.types rfl rfl
  have haudit : ∀ audit, Sample.engine.audit? = some audit →
      ∃ r user now, audit = .stamps r user now ∧ r.SetsApart Sample.registry := by
    rintro _ ⟨⟩
    exact ⟨Sample.registry, "system", Sample.moment, rfl, hr⟩
  have htarget : Sample.engine.target Sample.renamed (some 1) Sample.productEntity
      Sample.productEntity.fields Sample.unshelved = .ok 1 Sample.unshelved := rfl
  have hbefore : Sample.registry.getProperty Sample.unshelved.heap 0 "name" =
      .ok (.text "Tools") := rfl
  have hafter : Sample.registry.getProperty (after (Sample.engine.writeRecord Sample.renamed
      (some 1) Sample.productEntity Sample.productEntity.fields) Sample.unshelved).heap 0 "name" =
        .ok (.text "Parts") := rfl
  refine ⟨hcustom, hr, rfl, hbefore, hafter, ?_⟩
  have hdiffers := (writeRecord_differsAt hcustom hr haudit Sample.renamed (some 1)
    Sample.productEntity Sample.unshelved).2
  rw [after_of_ok htarget] at hdiffers
  obtain ⟨h, w', hok, htouched⟩ := hdiffers.touched 0 "name" fun hsame =>
    absurd (hafter.symm.trans (hsame.trans hbefore)) (by simp)
  cases htarget.symm.trans hok
  -- The category is not the written object, so the difference is none of the stamps.
  exact htouched.resolve_right fun hstamps => absurd hstamps.written (by decide)

end Engine

end Fieldwise
