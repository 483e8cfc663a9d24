import Fieldwise.Proofs.Conversion.Refusal
import Mathlib.Data.List.Find

/-!
Which parts of a record have an influence on what is written. Without custom fields they are the
values of direct fields and of references, and of the other fields that must have a value only
whether they have one. Two records that are alike in these come to the same from any world: to the
same object or the same error, and to the same world.
-/

namespace Fieldwise

/-- The records have the same values for fields that are written, and values for the same mandatory
fields among those that are not; constants do not count. -/
structure Record.Alike (fields : List Field) (record record' : Record) : Prop where
  written : ∀ f ∈ fields, f.kind = .direct ∨ f.kind = .reference →
    record.get? f.name = record'.get? f.name
  given : ∀ f ∈ fields, f.mandatory = true → (f.kind = .path ∨ ∃ kind, f.kind = .unknown kind) →
    Record.lacks record f.name = Record.lacks record' f.name

variable {record record' : Record} {f : Field} {fields : List Field}

theorem Record.Alike.of_cons (halike : Record.Alike (f :: fields) record record') :
    Record.Alike fields record record' :=
  ⟨fun g hg => halike.written g (List.mem_cons_of_mem _ hg),
    fun g hg => halike.given g (List.mem_cons_of_mem _ hg)⟩

theorem Record.Alike.missingIn_iff (halike : Record.Alike fields record record') (hf : f ∈ fields)
    (hcustom : f.kind ≠ .custom) : f.MissingIn record ↔ f.MissingIn record' := by
  rw [Field.missingIn_iff, Field.missingIn_iff]
  refine and_congr_right fun hrequired => ?_
  obtain ⟨hmandatory, hvaries⟩ : f.mandatory = true ∧ f.kind.isConstant = false := by
    simpa [Field.requiresValue] using hrequired
  have hwritten (hkind : f.kind = .direct ∨ f.kind = .reference) :
      Record.lacks record f.name = true ↔ Record.lacks record' f.name = true := by
    rw [Record.lacks, Record.lacks, halike.written f hf hkind]
  cases hkind : f.kind with
  | direct => exact hwritten (.inl hkind)
  | reference => exact hwritten (.inr hkind)
  | path => rw [halike.given f hf hmandatory (.inl hkind)]
  | unknown kind => rw [halike.given f hf hmandatory (.inr ⟨kind, hkind⟩)]
  | custom => exact absurd hkind hcustom
  | constant | computedConstant => simp [hkind, MappingKind.isConstant] at hvaries

namespace Engine

theorem missingField?_of_alike (halike : Record.Alike fields record record')
    (hcustom : ∀ f ∈ fields, f.kind ≠ .custom) :
    missingField? fields record = missingField? fields record' := by
  rw [missingField?_eq_find?, missingField?_eq_find?]
  exact List.find?_congr fun f hf =>
    decide_eq_decide.mpr (halike.missingIn_iff hf (hcustom f hf))

variable {e : Engine} {h : Handle}

/-- Through a field of another kind nothing is written, whatever the record has under its name. -/
theorem writeEntry_of_silent (hcustom : f.kind ≠ .custom)
    (hsilent : ¬ (f.kind = .direct ∨ f.kind = .reference)) :
    e.writeEntry record h f = pure () := by
  unfold writeEntry
  cases hkind : f.kind with
  | direct => exact absurd (.inl hkind) hsilent
  | reference => exact absurd (.inr hkind) hsilent
  | custom => exact absurd hkind hcustom
  | constant | computedConstant | path => cases record.get? f.name <;> rfl
  | unknown kind => cases record.get? f.name <;> rfl

theorem writeEntry_of_alike (halike : Record.Alike fields record record') (hf : f ∈ fields)
    (hcustom : f.kind ≠ .custom) : e.writeEntry record h f = e.writeEntry record' h f := by
  by_cases hkind : f.kind = .direct ∨ f.kind = .reference
  · unfold writeEntry
    rw [halike.written f hf hkind]
    -- The record as a whole is only handed to custom writers.
    cases record'.get? f.name with
    | none => rfl
    | some v => rcases hkind with hkind | hkind <;> rw [hkind] <;> rfl
  · rw [writeEntry_of_silent hcustom hkind, writeEntry_of_silent hcustom hkind]

theorem forM_writeEntry_of_alike (halike : Record.Alike fields record record')
    (hcustom : ∀ f ∈ fields, f.kind ≠ .custom) :
    fields.forM (e.writeEntry record h) = fields.forM (e.writeEntry record' h) := by
  induction fields with
  | nil => rfl
  | cons f rest ih =>
    obtain ⟨hfirst, hrest⟩ := List.forall_mem_cons.mp hcustom
    rw [forM_cons_apply, forM_cons_apply, writeEntry_of_alike halike List.mem_cons_self hfirst,
      ih halike.of_cons hrest]

/-- Records that are alike are written alike: with the same object or error in the end, and with the
same effects, from any world, onto an object or a new one. -/
theorem writeRecord_of_alike (e : Engine) (halike : Record.Alike fields record record')
    (hcustom : ∀ f ∈ fields, f.kind ≠ .custom) (existing : Option Handle) (entity : Entity)
    (w : World) :
    e.writeRecord record existing entity fields w =
      e.writeRecord record' existing entity fields w := by
  have htarget : e.target record existing entity fields =
      e.target record' existing entity fields := by
    unfold target
    rw [missingField?_of_alike halike hcustom]
  simp only [writeRecord, writeOnto, htarget, forM_writeEntry_of_alike halike hcustom]

end Engine

namespace Sample

/-- A path has the name of a property, and a path and a field of no known kind must have values. -/
def labelEntity : Entity := { productEntity with
  fields := [
    mandatory (same "sku"),
    .extraction "sku" "attributes" "$.sku",
    .reference "category" "category" "CAT",
    mandatory (.constant "currency" "CURRENCY"),
    mandatory (.extraction "color" "attributes" "$.color"),
    mandatory (.ofKind "weight" (.unknown "Scales"))] }

def label : Record := [("sku", .text "A100"), ("color", .text "red"), ("weight", .ofInt 3)]

/-- The same but for values that are not taken, in another order, and with a name that is none of a
field. -/
def relabel : Record := [("size", .ofInt 7), ("weight", .text "heavy"), ("currency", .text "USD"),
  ("sku", .text "A100"), ("color", .boolean true)]

end Sample

namespace Engine

open Sample

theorem relabel_of_alike : Record.Alike labelEntity.fields label relabel ∧
    (∀ f ∈ labelEntity.fields, f.kind ≠ .custom) ∧
    (∃ h w, engine.writeRecord label none labelEntity labelEntity.fields World.empty = .ok h w) ∧
    engine.writeRecord label none labelEntity labelEntity.fields World.empty =
      engine.writeRecord relabel none labelEntity labelEntity.fields World.empty := by
  have hcustom : ∀ f ∈ labelEntity.fields, f.kind ≠ .custom := by decide
  have halike : Record.Alike labelEntity.fields label relabel := by
    constructor
    · have hnames : ∀ f ∈ labelEntity.fields, f.kind = .direct ∨ f.kind = .reference →
          f.name = "sku" ∨ f.name = "category" := by decide
      intro f hf hkind
      rcases hnames f hf hkind with hname | hname <;> rw [hname] <;> rfl
    · have hgaps : ∀ f ∈ labelEntity.fields, f.mandatory = true → f.kind.isConstant = false →
          Record.lacks label f.name = Record.lacks relabel f.name := by decide
      intro f hf hmandatory hkind
      refine hgaps f hf hmandatory ?_
      rcases hkind with hkind | ⟨kind, hkind⟩ <;> rw [hkind] <;> rfl
  obtain ⟨h, hwrite⟩ : ∃ h, engine.writeRecord label none labelEntity labelEntity.fields
      World.empty = .ok h _ := exists_eq_ok_of_value? (by decide +kernel)
  exact ⟨halike, hcustom, ⟨h, _, hwrite⟩,
    writeRecord_of_alike engine halike hcustom none labelEntity World.empty⟩

end Engine

end Fieldwise
