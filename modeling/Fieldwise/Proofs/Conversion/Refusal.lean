import Fieldwise.Proofs.Conversion.Mandatory

/-!
When a record is refused for want of a value, and what has been done by then: nothing. The check
comes before all else, so a refused record is refused by any engine, in any world, which is left as
it was; and if nobody who is asked afterwards has such an error, no other record is refused.
-/

namespace Fieldwise

/-- A field that is mandatory and no constant, and that the record has no value for. -/
structure Field.MissingIn (record : Record) (f : Field) : Prop where
  mandatory : f.mandatory = true
  varies : f.kind ≠ .constant ∧ f.kind ≠ .computedConstant
  absent : record.get? f.name = none ∨ record.get? f.name = some .null

variable {record : Record} {f : Field} {fields : List Field}

theorem Record.lacks_iff {name : String} :
    Record.lacks record name = true ↔ record.get? name = none ∨ record.get? name = some .null := by
  unfold Record.lacks
  cases record.get? name with
  | none => simp
  | some v => cases v <;> simp [Json.isNull]

theorem Field.missingIn_iff : f.MissingIn record ↔
    f.requiresValue = true ∧ Record.lacks record f.name = true := by
  have hvaries : f.kind.isConstant = false ↔
      f.kind ≠ .constant ∧ f.kind ≠ .computedConstant := by
    cases f.kind <;> simp [MappingKind.isConstant]
  rw [Record.lacks_iff, Field.requiresValue, Bool.and_eq_true, Bool.not_eq_true', hvaries]
  exact ⟨fun h => ⟨⟨h.mandatory, h.varies⟩, h.absent⟩, fun h => ⟨h.1.1, h.1.2, h.2⟩⟩

instance : Decidable (f.MissingIn record) := decidable_of_iff _ Field.missingIn_iff.symm

namespace Engine

theorem missingField?_eq_find? : missingField? fields record =
    fields.find? fun f => decide (f.MissingIn record) := by
  simp only [missingField?, List.find?_filter, Field.missingIn_iff, Bool.decide_and,
    Bool.decide_eq_true]
  rfl

theorem missingField?_eq_some_iff : missingField? fields record = some f ↔
    ∃ before rest, fields = before ++ f :: rest ∧ f.MissingIn record ∧
      ∀ g ∈ before, ¬ g.MissingIn record := by
  rw [missingField?_eq_find?, List.find?_eq_some_iff_append]
  simp only [decide_eq_true_eq, Bool.not_eq_true', decide_eq_false_iff_not]
  constructor
  · rintro ⟨hmissing, before, rest, hfields, hbefore⟩
    exact ⟨before, rest, hfields, hmissing, hbefore⟩
  · rintro ⟨before, rest, hfields, hmissing, hbefore⟩
    exact ⟨hmissing, before, rest, hfields, hbefore⟩

theorem exists_missingField?_iff :
    (∃ f, missingField? fields record = some f) ↔ ∃ f ∈ fields, f.MissingIn record := by
  rw [missingField?_eq_find?, ← Option.isSome_iff_exists, List.find?_isSome]
  simp

/-- Whatever the engine is, it looks for missing fields before it looks at the world. -/
theorem writeRecord_of_missing (hmissing : missingField? fields record = some f) (e : Engine)
    (existing : Option Handle) (entity : Entity) (w : World) :
    e.writeRecord record existing entity fields w =
      .error (.error (.missingMandatoryField entity.name f.name)) w := by
  simp only [writeRecord, target, hmissing]
  rfl

namespace RefusesAlone

variable {e : Engine} (he : e.RefusesAlone)

include he

theorem writeRecord_refuses {existing : Option Handle} {entity : Entity} {w : World}
    {name field : String} :
    Action.Refuses name field (e.writeRecord record existing entity fields) w ↔
      ∃ f, missingField? fields record = some f ∧ entity.name = name ∧ f.name = field := by
  rw [writeRecord, Action.refuses_bind_of_passes_after, he.target_refuses_iff]
  exact fun h => .bind (he.passes_writeOnto _ _ _ _) fun _ => .pure h

/-- A record is refused exactly if a mandatory field that is no constant is missing in it. The first
such field is the one that is told, and any engine at all comes to the same and leaves the world as
it is; so the types of tables, what is stored, custom writers and the audit have no part in it. -/
theorem writeRecord_refuses_iff (record : Record) (existing : Option Handle) (entity : Entity)
    (fields : List Field) (w : World) :
    ((∃ name field, Action.Refuses name field (e.writeRecord record existing entity fields) w) ↔
      ∃ f ∈ fields, f.MissingIn record) ∧
    ∀ name field w', e.writeRecord record existing entity fields w =
        .error (.error (.missingMandatoryField name field)) w' →
      w' = w ∧ ∃ before f rest, fields = before ++ f :: rest ∧ f.MissingIn record ∧
        (∀ g ∈ before, ¬ g.MissingIn record) ∧ name = entity.name ∧ field = f.name ∧
        ∀ other : Engine, other.writeRecord record existing entity fields w =
          .error (.error (.missingMandatoryField name field)) w := by
  constructor
  · simp only [he.writeRecord_refuses, ← exists_missingField?_iff]
    constructor
    · rintro ⟨_, _, f, hmissing, -⟩
      exact ⟨f, hmissing⟩
    · rintro ⟨f, hmissing⟩
      exact ⟨entity.name, f.name, f, hmissing, rfl, rfl⟩
  · intro name field w' hrefused
    obtain ⟨f, hmissing, rfl, rfl⟩ := he.writeRecord_refuses.mp ⟨w', hrefused⟩
    have hany (other : Engine) := writeRecord_of_missing hmissing other existing entity w
    obtain ⟨before, rest, hfields, hf, hbefore⟩ := missingField?_eq_some_iff.mp hmissing
    have hsame := (hany e).symm.trans hrefused
    obtain rfl : w = w' := by injection hsame
    exact ⟨rfl, before, f, rest, hfields, hf, hbefore, rfl, rfl, hany⟩

end RefusesAlone

end Engine

namespace Sample

theorem refusesAlone : engine.RefusesAlone :=
  have hr : registry.Passes := @Registry.passes_of_definitions registry types rfl
  .of_stamps hr rfl rfl rfl rfl hr rfl

/-- A record in which a mandatory field is null; it does not have the mandatory constant either. -/
def unnumbered : Record := [("name", .text "Hammer"), ("sku", .null)]

end Sample

namespace Engine

open Sample

/-- The constant is not asked for, and the field that is null is told. -/
theorem unnumbered_refused : engine.RefusesAlone ∧
    (mandatory (.constant "currency" "CURRENCY")) ∈ productEntity.fields ∧
    unnumbered.get? "currency" = none ∧
    Action.Refuses "Product" "sku"
      (engine.writeRecord unnumbered none productEntity productEntity.fields) World.empty := by
  refine ⟨refusesAlone, by decide, rfl, ?_⟩
  have honly : ∀ f ∈ productEntity.fields, f.MissingIn unnumbered → f.name = "sku" := by decide
  have hmissing : ∃ f ∈ productEntity.fields, f.MissingIn unnumbered :=
    ⟨mandatory (same "sku"), by decide, by decide⟩
  obtain ⟨hiff, htold⟩ := refusesAlone.writeRecord_refuses_iff unnumbered none productEntity
    productEntity.fields World.empty
  obtain ⟨name, field, w', hrefused⟩ := hiff.mpr hmissing
  obtain ⟨-, before, f, rest, hfields, hf, -, rfl, rfl, -⟩ := htold name field w' hrefused
  have hmem : f ∈ productEntity.fields := hfields ▸ by simp
  exact ⟨w', honly f hmem hf ▸ hrefused⟩

end Engine

end Fieldwise
