import Fieldwise.Conversion.Writing
import Fieldwise.Proofs.Catalog.Examination
import Fieldwise.Proofs.Reading.Records

/-!
An engine that has been built with the examination on has all that the fields of its catalog need.
What reading, writing and translating do where something is lacking is then never done: it can be
replaced by anything else, and each of the three comes to the same for the fields of the catalog.
-/

namespace Fieldwise

/-! ### The paths of a catalog -/

/-- Whether the field extracts a part by that expression. -/
abbrev Field.Extracts (f : Field) (expression : String) : Prop :=
  f.kind = .path ∧ f.path = some expression

namespace Catalog

variable {expression : String} {path : Json.Path}

theorem get?_addPath (hparse : Json.Path.parse expression = .ok path)
    (t : Table String Json.Path) (f : Field) :
    (paths.addPath t f).get? expression =
      if f.Extracts expression then some path else t.get? expression := by
  unfold paths.addPath
  split
  · next other hkind hpath =>
    by_cases heq : other = expression
    · subst heq
      simp [hparse, hkind, hpath]
    · cases Json.Path.parse other <;> simp [hpath, heq, Table.get?_put_of_ne (Ne.symm heq)]
  · next hother =>
    rw [if_neg fun hextracts => hother expression hextracts.1 hextracts.2]

theorem get?_foldl_addPath (hparse : Json.Path.parse expression = .ok path)
    (t : Table String Json.Path) (fields : List Field) :
    (fields.foldl paths.addPath t).get? expression =
      if ∃ f ∈ fields, f.Extracts expression then some path else t.get? expression := by
  induction fields generalizing t with
  | nil => simp
  | cons f rest ih =>
    rw [List.foldl_cons, ih, get?_addPath hparse]
    simp only [List.mem_cons, exists_eq_or_imp]
    by_cases hf : f.Extracts expression
    · rw [if_pos hf, ite_self, if_pos (.inl hf)]
    · simp only [if_neg hf, or_iff_right hf]

/-- The field is one of those that the catalog describes. -/
def Lists (c : Catalog) (f : Field) : Prop := ∃ entity ∈ c.entities, f ∈ entity.fields

theorem get?_paths {c : Catalog} {f : Field} (hf : c.Lists f) (hextracts : f.Extracts expression)
    (hparse : Json.Path.parse expression = .ok path) : c.paths.get? expression = some path := by
  obtain ⟨entity, hentity, hf⟩ := hf
  have hmem : f ∈ c.entities.flatMap (·.fields) := List.mem_flatMap.mpr ⟨entity, hentity, hf⟩
  rw [paths, get?_foldl_addPath hparse, if_pos ⟨f, hmem, hextracts⟩]

end Catalog

/-! ### What an engine has for a field -/

namespace Engine

/-- The engine has all that the field needs. -/
structure Serves (e : Engine) (f : Field) : Prop where
  strategy : ∃ strategy, f.kind.strategy? = some strategy
  related : f.kind = .reference →
    ∃ target entity, f.relatedId = some target ∧ e.catalog.entity? target = some entity
  path : f.kind = .path → ∃ expression path, f.path = some expression ∧
    Json.Path.parse expression = .ok path ∧ e.paths.get? expression = some path
  constant : f.kind.isConstant = true → ∃ id, f.constantId = some id ∧ Text.isBlank id = false
  custom : f.kind = .custom → ∃ qualifier, f.qualifier = some qualifier ∧
    Text.isBlank qualifier = false

variable {parts : EngineParts} {e : Engine}

theorem build_eq_ok (h : build parts = .ok e) (hchecked : parts.settings.validateCatalog = true) :
    parts.catalog.examine.problems = [] ∧ e.catalog = parts.catalog ∧
      e.paths = parts.catalog.paths := by
  unfold build at h
  split at h
  case h_2 => cases h
  obtain ⟨-, h⟩ := except_seq_eq_ok.mp h
  rw [if_pos hchecked] at h
  obtain ⟨hexamined, h⟩ := except_seq_eq_ok.mp h
  cases h
  exact ⟨parts.catalog.consistent_examine.isValid_iff.mp (Report.result_eq_ok_iff.mp hexamined),
    rfl, rfl⟩

theorem serves_of_build (h : build parts = .ok e) (hchecked : parts.settings.validateCatalog = true)
    {f : Field} (hf : parts.catalog.Lists f) : e.Serves f := by
  obtain ⟨hproblems, hcatalog, hpaths⟩ := build_eq_ok h hchecked
  have husable := Catalog.usable_iff.mpr hproblems
  obtain ⟨entity, hentity, hmem⟩ := id hf
  have hcomplete := (husable.entities entity hentity).fields f hmem
  refine ⟨hcomplete.exists_strategy, fun hkind => ?_, fun hkind => ?_,
    hcomplete.exists_constantId, hcomplete.exists_qualifier⟩
  · rw [hcatalog]
    exact husable.targets entity hentity f hmem hkind
  · obtain ⟨expression, path, hpath, hparse⟩ := hcomplete.exists_path hkind
    exact ⟨expression, path, hpath, hparse,
      hpaths ▸ Catalog.get?_paths hf ⟨hkind, hpath⟩ hparse⟩

end Engine

/-! ### What is done where something is lacking -/

/-- What is done with a field for which the engine lacks something. -/
structure Fallbacks where
  /-- Its kind is unknown. -/
  readUnknown : Field → Reading Json
  writeUnknown : Handle → Field → Json → Action Unit
  /-- The entity of the related objects is unknown. -/
  readUnrelated : World → Field → Handle → Reading Json
  writeUnrelated : Handle → Field → Json → Action Unit
  translateUnrelated : World → Field → Record × Translation → Record × Translation
  /-- It has no path expression. -/
  withoutExpression : Field → Except Error Json
  /-- Its path expression has not been read beforehand. -/
  unread : String → Except Error Json.Path

/-- What the engine does. -/
def Fallbacks.standard : Fallbacks where
  readUnknown _ := pure .null
  writeUnknown _ _ _ := pure ()
  readUnrelated w _ h := pure (w.heap.stub h)
  writeUnrelated _ _ _ := pure ()
  translateUnrelated _ _ state := state
  withoutExpression f := .error (.pathExtraction "" s!"field '{f.name}' has no path expression")
  unread expression := Json.Path.parse expression

namespace Engine

/-! Each of the following is the function of the engine with other fallbacks. -/

section Variants

variable (e : Engine) (b : Fallbacks)

def pathOr (expression : String) : Except Error Json.Path :=
  match e.paths.get? expression with
  | some p => .ok p
  | none => b.unread expression

def readPathOr (w : World) (h : Handle) (f : Field) : Except Error Json := do
  let some expression := f.path | b.withoutExpression f
  match ← documentOf expression f (← e.registry.getPath w.heap h f.property) with
  | none => pure .null
  | some document => pure (((← e.pathOr b expression).find? document).getD .null)

def readRelatedOr (nested : Handle → Entity → Reading Record) (w : World) (f : Field)
    (h : Handle) : Reading Json := do
  if !(← get).isVisited (.of w.heap h) && (e.related? f).isNone then b.readUnrelated w f h
  else e.readRelated nested w f h

def readItemOr (nested : Handle → Entity → Reading Record) (w : World) (f : Field) :
    PropertyValue → Reading Json
  | .reference h => e.readRelatedOr b nested w f h
  | _ => pure .null

def readReferenceOr (nested : Handle → Entity → Reading Record) (w : World) (h : Handle)
    (f : Field) : Reading Json := do
  match ← Reading.lift (e.registry.getPath w.heap h f.property) with
  | .null => pure .null
  | .reference related => e.readRelatedOr b nested w f related
  | .list items => Json.array <$> items.mapM (e.readItemOr b nested w f)
  | other => throw (.error (.typeMismatch f.property "reference" other.label))

def readByOr (nested : Handle → Entity → Reading Record) (w : World) (h : Handle) (f : Field) :
    Strategy → Reading Json
  | .reference => e.readReferenceOr b nested w h f
  | .path => Reading.lift (e.readPathOr b w h f)
  | strategy => e.readBy nested w h f strategy

def readEntryOr (nested : Handle → Entity → Reading Record) (w : World) (h : Handle)
    (f : Field) : Reading Json :=
  match f.kind.strategy? with
  | some strategy => (e.readByOr b nested w h f strategy).orNull
  | none => b.readUnknown f

def readEntriesOr (nested : Handle → Entity → Reading Record) (w : World) (h : Handle)
    (record : Record) : List Field → Reading Record
  | [] => pure record
  | f :: rest => do
    let v ← e.readEntryOr b nested w h f
    readEntriesOr nested w h (record.put f.name v) rest

def readNestedOr (w : World) : (depth : Nat) → Handle → List Field → Reading Record
  | 0, _, _ => throw (.error (.internal "records are nested deeper than there are objects"))
  | depth + 1, h, fields => do
    modify (·.visit (.of w.heap h))
    e.readEntriesOr b (fun h entity => readNestedOr w depth h entity.fields) w h [] fields

def readRecordOr (w : World) (h : Handle) (fields : List Field) : Reading Record :=
  e.readNestedOr b w (depth w) h fields

def writeReferenceOr (h : Handle) (f : Field) (v : Json) : Action Unit :=
  if !v.isNull && (e.related? f).isNone then b.writeUnrelated h f v else e.writeReference h f v

def writeByOr (root? : Option Record) (h : Handle) (f : Field) (v : Json) :
    Strategy → Action Unit
  | .reference => e.writeReferenceOr b h f v
  | strategy => e.writeBy root? h f v strategy

def writeEntryOr (record : Record) (h : Handle) (f : Field) : Action Unit :=
  match record.get? f.name, f.kind.strategy? with
  | some v, some strategy => e.writeByOr b (some record) h f v strategy
  | some v, none => b.writeUnknown h f v
  | none, _ => pure ()

def writeOntoOr (record : Record) (h : Handle) (isNew : Bool) (fields : List Field) :
    Action Unit := do
  fields.forM (e.writeEntryOr b record h)
  e.auditWritten h isNew

def writeRecordOr (record : Record) (existing : Option Handle) (entity : Entity)
    (fields : List Field) : Action Handle := do
  let h ← e.target record existing entity fields
  e.writeOntoOr b record h existing.isNone fields
  pure h

def ofFieldOr (w : World) (f : Field) : Record × Translation → Record × Translation
  | (record, t) =>
    if (record.get? f.name).any (!·.isNull) && (e.related? f).isNone then
      b.translateUnrelated w f (record, t)
    else Translation.ofField e w f (record, t)

def translateOr (w : World) (entity : Entity) (record : Record) : Record × Translation :=
  entity.referenceFields.foldl (fun state f => e.ofFieldOr b w f state)
    (Translation.ofOwnId e w entity.table record)

end Variants

end Engine

/-! ### They do not matter -/

/-- The fallbacks make no difference for the field: they are those of the engine, or nothing is
lacking. -/
def Fallbacks.Idle (b : Fallbacks) (e : Engine) (f : Field) : Prop :=
  b = .standard ∨ e.Serves f

namespace Engine

section Idle

variable {e : Engine} {b : Fallbacks} {f : Field} {w : World}

theorem Serves.exists_related (h : e.Serves f) (hkind : f.kind = .reference) :
    ∃ entity, e.related? f = some entity := by
  obtain ⟨target, entity, htarget, hentity⟩ := h.related hkind
  exact ⟨entity, by simp [related?, htarget, hentity]⟩

theorem mem_entities_of_related? {entity : Entity} (h : e.related? f = some entity) :
    entity ∈ e.catalog.entities := by
  obtain ⟨target, -, hentity⟩ := Option.bind_eq_some_iff.mp h
  exact Catalog.mem_entities_of_entity? hentity

/-- The related objects are read by functions that read the entities of the catalog alike. -/
theorem readRelatedOr_eq {nested nested' : Handle → Entity → Reading Record} (hf : b.Idle e f)
    (hkind : f.kind = .reference)
    (hnested : ∀ h, ∀ entity ∈ e.catalog.entities, nested' h entity = nested h entity) :
    e.readRelatedOr b nested' w f = e.readRelated nested w f := by
  funext h c
  cases hrelated : e.related? f with
  | some entity =>
    simp [readRelatedOr, readRelated, hrelated, hnested h _ (mem_entities_of_related? hrelated)]
  | none =>
    rcases hf with rfl | hserves
    · simp only [readRelatedOr, readRelated, hrelated, Fallbacks.standard, bind_apply, get_apply]
      split <;> simp_all
    · obtain ⟨entity, hentity⟩ := hserves.exists_related hkind
      simp [hentity] at hrelated

theorem readReferenceOr_eq {nested nested' : Handle → Entity → Reading Record} (hf : b.Idle e f)
    (hkind : f.kind = .reference)
    (hnested : ∀ h, ∀ entity ∈ e.catalog.entities, nested' h entity = nested h entity)
    (h : Handle) : e.readReferenceOr b nested' w h f = e.readReference nested w h f := by
  have hrelated := readRelatedOr_eq (w := w) hf hkind hnested
  have hitem : e.readItemOr b nested' w f = e.readItem nested w f := by
    funext v
    cases v <;> simp only [readItemOr, readItem, hrelated]
  simp only [readReferenceOr, hrelated, hitem]
  rfl

theorem readPathOr_eq (hf : b.Idle e f) (hkind : f.kind = .path) (h : Handle) :
    e.readPathOr b w h f = e.readPath w h f := by
  have hfound : ∀ expression, f.path = some expression →
      e.pathOr b expression = e.path expression := by
    intro expression hpath
    rcases hf with rfl | hserves
    · unfold pathOr Engine.path
      cases e.paths.get? expression with
      | none => simp only [Fallbacks.standard]
      | some path => rfl
    · obtain ⟨known, path, hknown, -, hread⟩ := hserves.path hkind
      obtain rfl : known = expression := Option.some.inj (hknown.symm.trans hpath)
      simp only [pathOr, Engine.path, hread]
  cases hpath : f.path with
  | some expression =>
    simp only [readPathOr, readPath, hpath]
    refine bind_congr fun v => bind_congr fun document? => ?_
    cases document? with
    | none => rfl
    | some document => simp only [hfound expression hpath]
  | none =>
    rcases hf with rfl | hserves
    · simp only [readPathOr, readPath, hpath]
      rfl
    · obtain ⟨known, path, hknown, -⟩ := hserves.path hkind
      simp [hpath] at hknown

theorem readEntryOr_eq {nested nested' : Handle → Entity → Reading Record} (hf : b.Idle e f)
    (hnested : ∀ h, ∀ entity ∈ e.catalog.entities, nested' h entity = nested h entity)
    (h : Handle) : e.readEntryOr b nested' w h f = e.readEntry nested w h f := by
  unfold readEntryOr readEntry
  cases hkind : f.kind with
  | unknown written =>
    rcases hf with rfl | hserves
    · rfl
    · obtain ⟨strategy, hstrategy⟩ := hserves.strategy
      simp [hkind, MappingKind.strategy?] at hstrategy
  | reference => exact congrArg Reading.orNull (readReferenceOr_eq hf hkind hnested h)
  | path =>
    exact congrArg (fun result => (Reading.lift result).orNull) (readPathOr_eq hf hkind h)
  | _ => rfl

theorem readEntriesOr_eq {nested nested' : Handle → Entity → Reading Record} {fields : List Field}
    (hfields : ∀ f ∈ fields, b.Idle e f)
    (hnested : ∀ h, ∀ entity ∈ e.catalog.entities, nested' h entity = nested h entity)
    (h : Handle) (record : Record) :
    e.readEntriesOr b nested' w h record fields = e.readEntries nested w h record fields := by
  induction fields generalizing record with
  | nil => rfl
  | cons f rest ih =>
    rw [List.forall_mem_cons] at hfields
    simp only [readEntriesOr, readEntries, readEntryOr_eq hfields.1 hnested, ih hfields.2]

/-- The fields of nested records are of the catalog, wherever those of the first come from. -/
theorem readNestedOr_eq (hcatalog : ∀ f, e.catalog.Lists f → b.Idle e f) (depth : Nat) (h : Handle)
    {fields : List Field} (hfields : ∀ f ∈ fields, b.Idle e f) :
    e.readNestedOr b w depth h fields = e.readNested w depth h fields := by
  induction depth generalizing h fields with
  | zero => rfl
  | succ depth ih =>
    have hnested (h : Handle) (entity : Entity) (hentity : entity ∈ e.catalog.entities) :=
      ih h fun f hf => hcatalog f ⟨entity, hentity, hf⟩
    simp only [readNestedOr, readNested, readEntriesOr_eq hfields hnested]

theorem readRecordOr_eq (hcatalog : ∀ f, e.catalog.Lists f → b.Idle e f) (h : Handle)
    {fields : List Field} (hfields : ∀ f ∈ fields, b.Idle e f) :
    e.readRecordOr b w h fields = e.readRecord w h fields :=
  readNestedOr_eq hcatalog (depth w) h hfields

theorem writeReferenceOr_eq (hf : b.Idle e f) (hkind : f.kind = .reference) (h : Handle)
    (v : Json) : e.writeReferenceOr b h f v = e.writeReference h f v := by
  unfold writeReferenceOr
  split
  · next hlacking =>
    simp only [Bool.and_eq_true, Bool.not_eq_true', Option.isNone_iff_eq_none] at hlacking
    obtain ⟨hnull, hnone⟩ := hlacking
    rcases hf with rfl | hserves
    · simp [writeReference, hnull, hnone, Fallbacks.standard]
    · obtain ⟨entity, hentity⟩ := hserves.exists_related hkind
      simp [hentity] at hnone
  · rfl

theorem writeEntryOr_eq (hf : b.Idle e f) (record : Record) (h : Handle) :
    e.writeEntryOr b record h f = e.writeEntry record h f := by
  unfold writeEntryOr writeEntry
  cases record.get? f.name with
  | none => rfl
  | some v =>
    cases hkind : f.kind with
    | unknown written =>
      rcases hf with rfl | hserves
      · rfl
      · obtain ⟨strategy, hstrategy⟩ := hserves.strategy
        simp [hkind, MappingKind.strategy?] at hstrategy
    | reference => exact writeReferenceOr_eq hf hkind h v
    | _ => rfl

theorem writeRecordOr_eq {fields : List Field} (hfields : ∀ f ∈ fields, b.Idle e f)
    (record : Record) (existing : Option Handle) (entity : Entity) :
    e.writeRecordOr b record existing entity fields =
      e.writeRecord record existing entity fields := by
  have honto (h : Handle) (isNew : Bool) :
      e.writeOntoOr b record h isNew fields = e.writeOnto record h isNew fields := by
    have hloop : fields.forM (e.writeEntryOr b record h) = fields.forM (e.writeEntry record h) := by
      induction fields with
      | nil => rfl
      | cons f rest ih =>
        rw [List.forall_mem_cons] at hfields
        rw [forM_cons_apply, forM_cons_apply, writeEntryOr_eq hfields.1, ih hfields.2]
    rw [writeOntoOr, writeOnto, hloop]
  simp only [writeRecordOr, writeRecord, honto]

theorem ofFieldOr_eq (hf : b.Idle e f) (hkind : f.kind = .reference)
    (state : Record × Translation) :
    e.ofFieldOr b w f state = Translation.ofField e w f state := by
  obtain ⟨record, t⟩ := state
  simp only [ofFieldOr]
  split
  · next hlacking =>
    simp only [Bool.and_eq_true, Option.isNone_iff_eq_none] at hlacking
    rcases hf with rfl | hserves
    · simp [Translation.ofField, hlacking.2, Fallbacks.standard]
    · obtain ⟨entity, hentity⟩ := hserves.exists_related hkind
      simp [hentity] at hlacking
  · rfl

theorem translateOr_eq {entity : Entity} (hentity : ∀ f ∈ entity.fields, b.Idle e f)
    (record : Record) : e.translateOr b w entity record = e.translate w entity record := by
  unfold translateOr translate
  refine List.foldl_ext _ _ _ fun state f hf => ?_
  obtain ⟨hf, hkind⟩ := List.mem_filter.mp hf
  exact ofFieldOr_eq (hentity f hf) (by simpa using hkind) state

end Idle

theorem standard_fallbacks (e : Engine) :
    (∀ w h fields, e.readRecordOr .standard w h fields = e.readRecord w h fields) ∧
    (∀ record existing entity fields, e.writeRecordOr .standard record existing entity fields =
      e.writeRecord record existing entity fields) ∧
    ∀ w entity record, e.translateOr .standard w entity record = e.translate w entity record :=
  ⟨fun _ h _ => readRecordOr_eq (fun _ _ => .inl rfl) h fun _ _ => .inl rfl,
    fun record existing entity _ => writeRecordOr_eq (fun _ _ => .inl rfl) record existing entity,
    fun _ _ record => translateOr_eq (fun _ _ => .inl rfl) record⟩

/-- An engine that has been built with the examination on has all that the fields of its catalog
need: a way to read and write them, the entity that a reference leads to, the path that an
expression writes, and the ids and qualifiers that are given to collaborators. So whatever would be
done where one of these is lacking, reading, writing and translating with fields of the catalog
come to the same. -/
theorem build_serves {parts : EngineParts} {e : Engine} (hbuild : build parts = .ok e)
    (hchecked : parts.settings.validateCatalog = true) :
    (∀ f, parts.catalog.Lists f → e.Serves f) ∧
    ∀ b : Fallbacks,
      (∀ w h fields, (∀ f ∈ fields, parts.catalog.Lists f) →
        e.readRecordOr b w h fields = e.readRecord w h fields) ∧
      (∀ record existing entity fields, (∀ f ∈ fields, parts.catalog.Lists f) →
        e.writeRecordOr b record existing entity fields =
          e.writeRecord record existing entity fields) ∧
      ∀ w, ∀ entity ∈ parts.catalog.entities, ∀ record,
        e.translateOr b w entity record = e.translate w entity record := by
  have hserves (f : Field) (hf : parts.catalog.Lists f) : e.Serves f :=
    serves_of_build hbuild hchecked hf
  refine ⟨hserves, fun b => ?_⟩
  have hidle (f : Field) (hf : parts.catalog.Lists f) : b.Idle e f := .inr (hserves f hf)
  refine ⟨fun w h fields hfields => ?_, fun record existing entity fields hfields => ?_,
    fun w entity hentity record => ?_⟩
  · refine readRecordOr_eq (fun f hf => hidle f ?_) h fun f hf => hidle f (hfields f hf)
    rwa [(build_eq_ok hbuild hchecked).2.1] at hf
  · exact writeRecordOr_eq (fun f hf => hidle f (hfields f hf)) record existing entity
  · exact translateOr_eq (fun f hf => hidle f ⟨entity, hentity, hf⟩) record

end Engine

namespace Sample

def parts : EngineParts where
  catalog := catalog
  registry := registry
  persistence := some (.inMemory numberedId)
  constants := some engine.constants
  audit? := engine.audit?

theorem build_parts : Engine.build parts = .ok engine := by
  have hcheck : parts.settings.check = .ok () := by decide +kernel
  have hvalid : parts.catalog.examine.result = .ok () := by decide +kernel
  simp only [Engine.build, hcheck, hvalid]
  rfl

end Sample

namespace Engine

/-- Products are written alike, whatever is done with fields for which something is lacking. -/
theorem sample_serves : build Sample.parts = .ok Sample.engine ∧
    (∀ f, Sample.catalog.Lists f → Sample.engine.Serves f) ∧
    ∀ b : Fallbacks, ∀ record existing,
      Sample.engine.writeRecordOr b record existing Sample.productEntity
          Sample.productEntity.fields =
        Sample.engine.writeRecord record existing Sample.productEntity
          Sample.productEntity.fields := by
  obtain ⟨hserves, hidle⟩ := build_serves Sample.build_parts rfl
  refine ⟨Sample.build_parts, hserves, fun b record existing => ?_⟩
  refine (hidle b).2.1 record existing _ _ fun f hf => ⟨Sample.productEntity, ?_, hf⟩
  decide +kernel

end Engine

end Fieldwise
