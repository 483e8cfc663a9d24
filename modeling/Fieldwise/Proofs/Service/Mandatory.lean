import Fieldwise.Proofs.Conversion.Fallbacks
import Fieldwise.Proofs.Conversion.Mandatory
import Fieldwise.Proofs.Service.FailedWrites
import Fieldwise.Proofs.Service.Keys

/-!
Which records the service refuses for want of a mandatory field. The check is made of what is left
of the record by then: its external ids have been replaced, which leaves no entry without a value
that had one, and its own id may have been taken out. So the field `id` can be found missing in a
record that has it.
-/

namespace Fieldwise

theorem Record.lacks_remove_id {record : Record} (hrecord : record.keys.Nodup) (name : String) :
    Record.lacks (record.remove "id") name = (Record.lacks record name || name == "id") := by
  by_cases hname : name = "id"
  · subst hname
    simp [lacks, Table.get?_remove_self hrecord]
  · simp [lacks, Table.get?_remove_of_ne hrecord hname, hname]

/-! ### Translation leaves the gaps of a record -/

namespace Translation

variable {e : Engine} {w : World}

/-- The same names have no value. -/
def SameGaps (record record' : Record) : Prop :=
  ∀ name, Record.lacks record' name = Record.lacks record name

theorem SameGaps.put {record : Record} {key : String} {v u : Json}
    (hv : record.get? key = some v) (hu : u.isNull = v.isNull) :
    SameGaps record (record.put key u) := by
  intro name
  by_cases hname : name = key
  · subst hname
    simp [Record.lacks, hv, hu]
  · simp [Record.lacks, Table.get?_put_of_ne hname]

theorem isNull_ofValue (field table : String) (t : Translation) (v : Json) :
    (ofValue e w field table t v).1.isNull = v.isNull := by
  cases v with
  | object fields =>
    unfold ofValue
    split <;> rfl
  | _ => rfl

theorem sameGaps_translate (e : Engine) (w : World) (entity : Entity) (record : Record) :
    SameGaps record (e.translate w entity record).1 := by
  have hown : SameGaps record (ofOwnId e w entity.table record).1 := by
    unfold ofOwnId
    split
    · next s hs => exact .put hs rfl
    · exact fun _ => rfl
  have hfield (f : Field) (state : Record × Translation) :
      SameGaps state.1 (ofField e w f state).1 := by
    obtain ⟨record, t⟩ := state
    simp only [ofField]
    split
    · next v related hv _ => exact .put hv (isNull_ofValue _ _ _ _)
    · exact fun _ => rfl
  unfold Engine.translate
  generalize ofOwnId e w entity.table record = state at hown
  induction entity.referenceFields generalizing state with
  | nil => exact hown
  | cons f rest ih => exact ih _ fun name => (hfield f state name).trans (hown name)

/-- An error of translation is one of the look-ups, or tells an id that is not known. -/
theorem passes_translate (he : e.RefusesAlone) (entity : Entity) (record : Record) :
    ∀ err, (e.translate w entity record).2.error? = some err → err.Passes := by
  have hlookup (table x : String) : Errs Error.Passes (lookup e w table x) := by
    refine (he.resolve table x w).bind fun answer _ => ?_
    split
    · exact .ok _
    · exact .error rfl
    · exact .ok _
  have haccumulates : Accumulates e w fun t t' =>
      (∀ err, t.error? = some err → err.Passes) → ∀ err, t'.error? = some err → err.Passes := by
    refine ⟨fun _ h => h, fun h h' ht => h' (h ht), fun field table s t ht => ?_⟩
    unfold ofText
    split
    · exact ht
    · split
      · exact ht
      · exact ht
      · next err hfails =>
        rintro _ ⟨⟩
        exact hlookup _ _ err hfails
  have hbegun : ∀ err, ({} : Translation).error? = some err → err.Passes := by simp
  refine haccumulates.ofFields _ _ ?_
  unfold ofOwnId
  split
  · exact haccumulates.ofText _ _ _ {} hbegun
  · exact hbegun

end Translation

namespace Engine

/-- The own id of a record is taken out: always where an object is updated, and where one is
created if it is an external id that nothing is bound to. -/
def dropsId (e : Engine) (w : World) (entity : Entity) : Change → Bool
  | .update .. => true
  | .create _ _ record => (Translation.unknownOwnId? e w entity.table record).isSome

/-- In what is left of the record there is no value under the name. -/
def lacksInEnd (e : Engine) (w : World) (entity : Entity) (c : Change) (name : String) : Bool :=
  Record.lacks c.record name || (name == "id" && e.dropsId w entity c)

/-- What a call asks for exists, and its record can be translated. -/
inductive Considers (e : Engine) (w : World) : Change → Entity → Prop
  | create {projection name : String} {record : Record} {entity : Entity}
    (hexposed : e.exposed projection name = .ok entity)
    (htranslated : (e.translate w entity record).2.error? = none) :
    Considers e w (.create projection name record) entity
  | update {projection name id : String} {record : Record} {asked : Lookup} {h : Handle}
    {w₁ : World} (hasked : e.lookUp projection name id w = .ok asked w₁)
    (hfound : asked.found = some h)
    (htranslated : (e.translate w₁ asked.entity (record.remove "id")).2.error? = none) :
    Considers e w (.update projection name id record) asked.entity

variable {e : Engine} {w : World}

theorem missingField?_eq {fields : List Field} {record : Record} {lacks : String → Bool}
    (h : ∀ name, Record.lacks record name = lacks name) :
    missingField? fields record =
      (fields.filter (·.requiresValue)).find? fun f => lacks f.name := by
  unfold missingField?
  congr 1
  funext f
  exact h f.name

theorem passes_exposed (e : Engine) (projection name : String) :
    Errs Error.Passes (e.exposed projection name) := by
  have hentity : Errs Error.Passes (e.catalog.entityIn projection name) := by
    unfold Catalog.entityIn
    split
    · exact .error rfl
    · split
      · exact .error rfl
      · exact .ok _
  refine hentity.bind fun entity _ => ?_
  split
  · exact .ok _
  · exact .error rfl

theorem lacks_created {projection name : String} {entity : Entity} {record : Record}
    (hrecord : record.keys.Nodup) (herror : (e.translate w entity record).2.error? = none)
    (key : String) :
    Record.lacks
        (if (e.translate w entity record).2.deferrals.isEmpty then (e.translate w entity record).1
          else (e.translate w entity record).1.remove "id") key =
      e.lacksInEnd w entity (.create projection name record) key := by
  have hkept := Translation.sameGaps_translate e w entity record key
  rw [Translation.deferrals_translate herror, lacksInEnd, dropsId, Change.record]
  cases Translation.unknownOwnId? e w entity.table record with
  | none => simpa using hkept
  | some x =>
    have hkeys : (e.translate w entity record).1.keys.Nodup := by
      rwa [Translation.keys_translate]
    simp [Record.lacks_remove_id hkeys, hkept]

theorem lacks_updated {projection name id : String} {entity : Entity} {record : Record}
    (hrecord : record.keys.Nodup) (w₁ : World) (key : String) :
    Record.lacks (e.translate w₁ entity (record.remove "id")).1 key =
      e.lacksInEnd w entity (.update projection name id record) key := by
  rw [Translation.sameGaps_translate, Record.lacks_remove_id hrecord, lacksInEnd, dropsId,
    Change.record, Bool.and_true]

namespace RefusesAlone

variable (he : e.RefusesAlone)

include he

theorem passes_lookUp (projection name id : String) :
    Action.Errs Error.Passes (e.lookUp projection name id) :=
  .bind (.lift (e.passes_exposed _ _)) fun _ => .bind (he.passes_typeOfTable _) fun _ =>
    .bind (he.passes_internalId _ _) fun _ => .bind (.observe fun w => he.load _ _ w) fun _ =>
      .pure _

theorem passes_translated (entity : Entity) (record : Record) :
    Action.Errs Error.Passes (e.translated entity record) := by
  refine .bind .get fun w => ?_
  dsimp only
  split
  · next err herror => exact .fail (Translation.passes_translate he entity record err herror)
  · exact .pure _

theorem passes_finish (job : Job) : Action.Errs Error.Passes (e.finish job) := by
  refine .bind (.within fun _ => rfl) fun _ => .bind ?_ fun _ => ?_
  · unfold bindDeferrals
    split
    · exact .pure _
    · refine .bind .get fun w => ?_
      split
      · exact .bind (.forM fun d _ => he.bind _ _ _) fun _ => .pure _
      · exact .fail rfl
  · exact fun w err w' hshown => absurd hshown shown_ne_error

/-- A call refuses a record before it writes anything, if at all. -/
theorem run_refuses {c : Change} {name field : String} :
    Action.Refuses name field (e.run c) w ↔ Action.Refuses name field (e.prepare c) w := by
  rw [run_eq_phases]
  exact Action.refuses_bind_of_passes_after fun job =>
    .bind (he.passes_writeOnto _ _ _ _) fun _ => he.passes_finish job

/-- Once a record has been translated, it is what is then made of it that may be refused. -/
theorem translated_refuses {α : Type} {entity : Entity} {record : Record}
    {k : Record × Translation → Action α} {name field : String} :
    Action.Refuses name field (e.translated entity record >>= k) w ↔
      (e.translate w entity record).2.error? = none ∧
        Action.Refuses name field (k (e.translate w entity record)) w := by
  rw [Action.refuses_bind_of_passes (he.passes_translated entity record)]
  constructor
  · rintro ⟨result, w₁, htranslated, hrefuses⟩
    obtain ⟨rfl, rfl, herror⟩ := translated_eq_ok htranslated
    exact ⟨herror, hrefuses⟩
  · rintro ⟨herror, hrefuses⟩
    refine ⟨_, w, ?_, hrefuses⟩
    simp [translated, bind_apply, herror]

theorem prepare_refuses_iff {c : Change} (hrecord : c.record.keys.Nodup) {name field : String} :
    Action.Refuses name field (e.prepare c) w ↔
      ∃ entity f, e.Considers w c entity ∧
        entity.mandatoryFields.find? (fun f => e.lacksInEnd w entity c f.name) = some f ∧
        entity.name = name ∧ f.name = field := by
  cases c with
  | create projection asked record =>
    have hrecord : record.keys.Nodup := hrecord
    simp only [prepare]
    rw [Action.refuses_bind_of_passes (.lift (e.passes_exposed _ _))]
    simp only [Action.lift_eq_ok, he.translated_refuses,
      Action.refuses_bind_of_passes_after fun _ => .pure _, he.target_refuses_iff]
    constructor
    · rintro ⟨entity, _, ⟨hexposed, rfl⟩, herror, f, hmissing, hname⟩
      rw [missingField?_eq (lacks_created hrecord herror)] at hmissing
      exact ⟨entity, f, .create hexposed herror, hmissing, hname⟩
    · rintro ⟨entity, f, ⟨hexposed, herror⟩, hmissing, hname⟩
      refine ⟨entity, w, ⟨hexposed, rfl⟩, herror, f, ?_, hname⟩
      rwa [missingField?_eq (lacks_created hrecord herror)]
  | update projection asked id record =>
    have hrecord : record.keys.Nodup := hrecord
    simp only [prepare]
    rw [Action.refuses_bind_of_passes (he.passes_lookUp _ _ _)]
    constructor
    · rintro ⟨l, w₁, hasked, hrefuses⟩
      cases hfound : l.found with
      | none =>
        rw [hfound] at hrefuses
        obtain ⟨w', hfails⟩ := hrefuses
        cases hfails
      | some h =>
        simp only [hfound, he.translated_refuses, he.target_refuses_iff,
          Action.refuses_bind_of_passes_after fun _ => .pure _] at hrefuses
        obtain ⟨herror, f, hmissing, hname⟩ := hrefuses
        rw [missingField?_eq (lacks_updated hrecord w₁)] at hmissing
        exact ⟨l.entity, f, .update hasked hfound herror, hmissing, hname⟩
    · rintro ⟨_, f, hconsiders, hmissing, hname⟩
      cases hconsiders with
      | @update _ _ _ _ l h w₁ hasked hfound herror =>
        refine ⟨l, w₁, hasked, ?_⟩
        simp only [hfound, he.translated_refuses, he.target_refuses_iff,
          Action.refuses_bind_of_passes_after fun _ => .pure _]
        refine ⟨herror, f, ?_, hname⟩
        rwa [missingField?_eq (lacks_updated hrecord w₁)]

/-- A record is refused for want of a mandatory field exactly if, by the time of the check, the
first one that it lacks is that field: it had no value for it, or the field is the id, which has
been taken out. -/
theorem run_refuses_iff {c : Change} (hrecord : c.record.keys.Nodup) {name field : String} :
    Action.Refuses name field (e.run c) w ↔
      ∃ entity f, e.Considers w c entity ∧
        entity.mandatoryFields.find? (fun f => e.lacksInEnd w entity c f.name) = some f ∧
        entity.name = name ∧ f.name = field :=
  he.run_refuses.trans (he.prepare_refuses_iff hrecord)

end RefusesAlone

end Engine

namespace Sample

/-- Categories must have an id and a name. -/
def identifiedEntity : Entity where
  id := "CAT"
  name := "Category"
  table := "209"
  fields := [mandatory (same "id"), mandatory (same "name")]

def identifiedProjection : Projection where
  id := "P-SALES"
  name := "sales"
  entities := [identifiedEntity]

def identifiedCatalog : Catalog where
  projections := [identifiedProjection]
  index := {
    projections := [("sales", 0)]
    entities := [("CAT", (0, 0))] }

theorem ofProjections_identified :
    Catalog.ofProjections [identifiedProjection] = .ok identifiedCatalog := by
  have hsales : Text.lowercase "sales" = "sales" := by decide +kernel
  simp only [Catalog.ofProjections, Catalog.Index.addProjections, identifiedProjection, hsales]
  rfl

def identifiedParts : EngineParts := { parts with catalog := identifiedCatalog }

def identifiedEngine : Engine := { engine with
  catalog := identifiedCatalog
  paths := [] }

theorem build_identified : Engine.build identifiedParts = .ok identifiedEngine := by
  have hcheck : identifiedParts.settings.check = .ok () := by decide +kernel
  have hvalid : identifiedParts.catalog.examine.result = .ok () := by decide +kernel
  simp only [Engine.build, hcheck, hvalid]
  rfl

theorem identified_refusesAlone : identifiedEngine.RefusesAlone :=
  have hr : registry.Passes := @Registry.passes_of_definitions registry types rfl
  .of_stamps hr rfl rfl rfl rfl hr rfl

def tools : Record := [("id", .text "C1"), ("name", .text "Tools")]

def toolshed : World := { World.empty with
  heap := [⟨category.kind, [("id", .text "C1"), ("name", .text "Tools")]⟩]
  store := [(("Category", "C1"), 0)] }

end Sample

namespace Engine

open Sample

/-- The name is there and counts; the id is there and is taken out. -/
theorem identified_refuses_tools : identifiedEngine.RefusesAlone ∧ tools.keys.Nodup ∧
    Action.Refuses "Category" "id" (identifiedEngine.run (.create "sales" "Category" tools))
      World.empty := by
  have hexposed : identifiedEngine.exposed "sales" "Category" = .ok identifiedEntity := by
    decide +kernel
  refine ⟨identified_refusesAlone, by decide, ?_⟩
  exact (identified_refusesAlone.run_refuses_iff (by decide)).mpr
    ⟨identifiedEntity, mandatory (same "id"), .create hexposed rfl, by decide +kernel, rfl, rfl⟩

/-- A record with a value for every mandatory field is refused where an object is created and where
one is updated, with a catalog in which no rule finds a fault. -/
theorem complete_record_refused :
    Catalog.ofProjections [identifiedProjection] = .ok identifiedCatalog ∧
    identifiedCatalog.examine.problems = [] ∧ build identifiedParts = .ok identifiedEngine ∧
    (∀ f ∈ identifiedEntity.mandatoryFields, Record.lacks tools f.name = false) ∧
    identifiedEngine.Reached World.empty World.empty ∧
    Action.Refuses "Category" "id" (identifiedEngine.run (.create "sales" "Category" tools))
      World.empty ∧
    identifiedEngine.Reached toolshed toolshed ∧
    Action.Refuses "Category" "id" (identifiedEngine.run (.update "sales" "Category" "C1" tools))
      toolshed := by
  refine ⟨ofProjections_identified, by decide +kernel, build_identified, by decide +kernel, .start,
    ⟨_, eq_error_of_error? ?_⟩, .start, ⟨_, eq_error_of_error? ?_⟩⟩
  · decide +kernel
  · decide +kernel

end Engine

end Fieldwise
