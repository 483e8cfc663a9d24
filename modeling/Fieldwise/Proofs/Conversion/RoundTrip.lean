import Fieldwise.Conversion.Writing
import Fieldwise.Proofs.Reading.Looking
import Fieldwise.Proofs.Registry.Lawful

/-!
Writing a record back onto the object that it was read from. With fields that show properties of
the object itself, or of objects that it refers to, each write is of the value that is there, and
so nothing changes: not even where two paths lead to one object, or none at all.
-/

namespace Fieldwise

/-- A path to a property that can be written and has a declared type that is shown without loss. -/
def Registry.WritesBack (r : Registry) (typeName path : String) : Prop :=
  ∃ a, r.accessorAlong typeName (Text.pieces '.' path) = .ok a ∧ a.isWritable ∧
    a.type ∈ PropertyType.lossless

theorem PropertyType.Holds.references_lt {heap : Heap} {type : PropertyType} {v : PropertyValue}
    (h : type.Holds heap v) {g : Handle} (hg : g ∈ v.references) : g < heap.length := by
  cases v with
  | reference t =>
    obtain rfl : g = t := by simpa [PropertyValue.references] using hg
    cases type with
    | reference target =>
      obtain ⟨t, ht, hlt, -⟩ := h
      cases ht
      exact hlt
    | _ => exact h.elim
  | list items =>
    obtain ⟨item, hitem, hreference⟩ := List.mem_filterMap.mp hg
    cases type with
    | collection target =>
      obtain ⟨t, rfl, hlt, -⟩ := h item hitem
      obtain rfl : t = g := by simpa [PropertyValue.reference?] using hreference
      exact hlt
    | reference target =>
      obtain ⟨t, ht, -⟩ := h
      cases ht
    | _ => exact h.elim
  | _ => simp [PropertyValue.references] at hg

theorem Heap.WellTyped.closed {r : Registry} {heap : Heap} (hheap : heap.WellTyped r) :
    heap.Closed r := by
  intro h hh property v hv g hg
  obtain ⟨a, ha, -⟩ := except_bind_eq_ok.mp hv
  obtain ⟨u, hu, hholds⟩ := Registry.getProperty_of_accessor hheap hh ha
  obtain rfl : u = v := by simpa [hu] using hv
  exact hholds.references_lt hg

namespace Engine

variable {e : Engine} {w : World} {h : Handle} {f : Field}

theorem alone_direct (hformats : e.settings.HasDefaultFormats)
    (hheap : w.heap.WellTyped e.registry) (hh : h < w.heap.length) (hkind : f.kind = .direct)
    {a : Accessor}
    (ha : e.registry.accessorAlong (w.heap.get h).typeName (Text.pieces '.' f.property) = .ok a)
    (htype : a.type ∈ PropertyType.lossless)
    (hfull : ∀ v, e.registry.getPath w.heap h f.property = .ok v → v.IsShownInFull)
    (c : Context) :
    ∃ v, e.registry.getPath w.heap h f.property = .ok v ∧
      coerce e.settings f.property a.type (e.active.alone h f (w, c)) = .ok v ∧
      ((e.active.alone h f (w, c)).isNull → v = .null) := by
  obtain ⟨v, hv, hholds⟩ := Registry.follow_of_accessorAlong hheap hh ha
  obtain ⟨shown, hshown, hcoerce, hnull⟩ := coerce_render hformats htype hholds (hfull v hv)
    (fun g => (w.heap.get g).identifier) f.property
  have halone : e.active.alone h f (w, c) = shown := by
    have hget : e.registry.getPath w.heap h f.property = .ok v := hv
    have hread : e.readDirect w h f c = .ok shown c := by
      unfold readDirect
      rw [bind_apply, hget]
      simp [Reading.lift, hshown]
    simp [ActiveEngine.alone, ActiveEngine.readField?, hkind, MappingKind.strategy?,
      ActiveEngine.readBy, value?, ActiveReading.now_apply, active, hread]
  refine ⟨v, hv, halone ▸ hcoerce, fun h => ?_⟩
  have hv' := hnull (halone ▸ h)
  cases v <;> simp_all [PropertyValue.isNull]

theorem writeEntry_alone (hformats : e.settings.HasDefaultFormats)
    (hheap : w.heap.WellTyped e.registry) (hlaw : e.registry.Lawful w.heap)
    (hh : h < w.heap.length) (hkind : f.kind = .direct)
    (hpath : e.registry.WritesBack (w.heap.get h).typeName f.property)
    (hfull : ∀ v, e.registry.getPath w.heap h f.property = .ok v → v.IsShownInFull)
    {record : Record} {c : Context} (hentry : record.get? f.name = some (e.active.alone h f (w, c)))
    {heap : Heap} (halike : w.heap.Alike e.registry heap) :
    ∃ heap', e.writeEntry record h f { w with heap } = .ok () { w with heap := heap' } ∧
      w.heap.Alike e.registry heap' := by
  obtain ⟨a, ha, hwritable, htype⟩ := hpath
  obtain ⟨v, hv, hcoerce, -⟩ := alone_direct hformats hheap hh hkind ha htype hfull c
  obtain ⟨heap', hset, halike'⟩ :=
    Registry.setPath_read hheap hlaw halike hh ha hwritable hv
  refine ⟨heap', ?_, halike'⟩
  have hdeclared : e.registry.declaredType (heap.get h).typeName f.property = .ok a.type := by
    rw [Registry.declaredType, (halike.objects h).typeName, Registry.declaredAlong_eq, ha]
    rfl
  unfold writeEntry
  rw [hentry, hkind]
  simp only [MappingKind.strategy?, writeBy, writeDirect, Action.changeHeap, hdeclared, bind,
    Except.bind, hcoerce, hset]

theorem writeEntries_alone (hformats : e.settings.HasDefaultFormats)
    (hheap : w.heap.WellTyped e.registry) (hlaw : e.registry.Lawful w.heap)
    (hh : h < w.heap.length) {record : Record} {fields : List Field}
    (hdirect : ∀ f ∈ fields, f.kind = .direct)
    (hpaths : ∀ f ∈ fields, e.registry.WritesBack (w.heap.get h).typeName f.property)
    (hfull : ∀ f ∈ fields, ∀ v, e.registry.getPath w.heap h f.property = .ok v → v.IsShownInFull)
    (hentries : ∀ f ∈ fields, ∃ c, record.get? f.name = some (e.active.alone h f (w, c)))
    {heap : Heap} (halike : w.heap.Alike e.registry heap) :
    ∃ heap', fields.forM (e.writeEntry record h) { w with heap } =
        .ok () { w with heap := heap' } ∧ w.heap.Alike e.registry heap' := by
  induction fields generalizing heap with
  | nil => exact ⟨heap, rfl, halike⟩
  | cons f rest ih =>
    have hmem : f ∈ f :: rest := by simp
    obtain ⟨c, hentry⟩ := hentries f hmem
    obtain ⟨heap₁, hwrite, halike₁⟩ := writeEntry_alone hformats hheap hlaw hh (hdirect f hmem)
      (hpaths f hmem) (hfull f hmem) hentry halike
    obtain ⟨heap₂, hrest, halike₂⟩ := ih (fun g hg => hdirect g (by simp [hg]))
      (fun g hg => hpaths g (by simp [hg])) (fun g hg => hfull g (by simp [hg]))
      (fun g hg => hentries g (by simp [hg])) halike₁
    refine ⟨heap₂, ?_, halike₂⟩
    rw [forM_cons_apply, bind_apply, hwrite]
    exact hrest

/-- A record made of direct fields can be written back onto its object, and nothing is different
afterwards: each property of each object reads as before, wherever the paths of the fields lead. -/
theorem writeRecord_toRecord (e : Engine) (w : World) (h : Handle) (entity : Entity)
    (hformats : e.settings.HasDefaultFormats) (haudit : e.audit? = none)
    (hheap : w.heap.WellTyped e.registry) (hlaw : e.registry.Lawful w.heap)
    (hh : h < w.heap.length) (hnames : entity.fieldNames.Nodup)
    (hdirect : ∀ f ∈ entity.fields, f.kind = .direct)
    (hpaths : ∀ f ∈ entity.fields, e.registry.WritesBack (w.heap.get h).typeName f.property)
    (hfull : ∀ f ∈ entity.fields, ∀ v, e.registry.getPath w.heap h f.property = .ok v →
      v.IsShownInFull)
    (hmandatory : ∀ f ∈ entity.fields, f.mandatory →
      e.registry.getPath w.heap h f.property ≠ .ok .null) :
    ∃ record heap', e.toRecord w h entity = .ok record ∧
      e.writeRecord record (some h) entity entity.fields w = .ok h { w with heap := heap' } ∧
      heap'.length = w.heap.length ∧ (∀ g, (heap'.get g).kind = (w.heap.get g).kind) ∧
      ∀ g property, e.registry.getProperty heap' g property =
        e.registry.getProperty w.heap g property := by
  obtain ⟨record, c', hread, hlast⟩ := readRecord_ok hformats hheap.closed hh entity.fields .forRead
  have hentries : ∀ f ∈ entity.fields, ∃ c,
      record.get? f.name = some (e.active.alone h f (w, c)) := by
    -- No two fields have one name, so each is the last of its name.
    intro f hf
    obtain ⟨before, rest, hsplit⟩ := List.append_of_mem hf
    have hname : f.name ∉ rest.map (·.name) := by
      rw [Entity.fieldNames, hsplit, List.map_append, List.map_cons] at hnames
      exact (List.nodup_cons.mp (List.nodup_append.mp hnames).2.1).1
    exact hlast before f rest hsplit hname (by simp [hdirect f hf])
  have hpresent : missingField? entity.fields record = none := by
    rw [missingField?, List.find?_eq_none]
    intro f hf
    obtain ⟨hf, hrequired⟩ := List.mem_filter.mp hf
    have hmandatory' : f.mandatory := by
      simp only [Field.requiresValue, Bool.and_eq_true] at hrequired
      exact hrequired.1
    obtain ⟨c, hentry⟩ := hentries f hf
    obtain ⟨a, ha, -, htype⟩ := hpaths f hf
    obtain ⟨v, hv, -, hnull⟩ :=
      alone_direct hformats hheap hh (hdirect f hf) ha htype (hfull f hf) c
    rw [hentry]
    intro hisNull
    obtain rfl := hnull (by simpa using hisNull)
    exact hmandatory f hf hmandatory' hv
  obtain ⟨heap', hwrite, halike⟩ := writeEntries_alone hformats hheap hlaw hh hdirect hpaths hfull
    hentries (.refl w.heap)
  refine ⟨record, heap', ?_, ?_, halike.length, fun g => (halike.objects g).kind,
    halike.getProperty⟩
  · simp [toRecord, EStateM.run, hread]
  · simp only [writeRecord, target, hpresent, writeOnto, bind_apply, pure_apply]
    rw [hwrite]
    simp only [auditWritten, haudit, pure_apply]

end Engine

namespace Sample

/-- Notes with a property of every type that is shown without loss, which lead to each other. -/
def note : TypeDefinition where
  name := "Note"
  table := "500"
  properties := [
    property "title" .text,
    property "body" .json,
    property "at" .dateTime,
    property "day" .date,
    property "count" .integer,
    property "flag" .boolean,
    property "next" (.reference "Note"),
    property "parent" (.reference "Note")]

def noteRegistry : Registry := ⟨[("Note", note.entityType)], [("500", "Note")]⟩

def noteEngine : Engine := { engine with registry := noteRegistry, audit? := none }

/-- Two notes in a circle, of which the second is its own parent and the first has none. -/
def notes : World := { World.empty with
  heap := [
    ⟨note.kind, [("title", .text "first"), ("body", .json (.array [])), ("at", .dateTime moment),
      ("day", .date ⟨-1, 2, 3, by decide⟩), ("count", .integer 7), ("flag", .boolean true),
      ("next", .reference 1)]⟩,
    ⟨note.kind, [("title", .text "second"), ("next", .reference 0), ("parent", .reference 1)]⟩] }

def noteEntity : Entity where
  id := "NOTE"
  name := "Note"
  table := "500"
  fields := [
    mandatory (same "title"), same "body", same "at", same "day", same "count", same "flag",
    .direct "nextTitle" "next.title", .direct "again" "next.next.title",
    .direct "nextCount" "next.parent.count", .direct "parentTitle" "parent.title"]

end Sample

namespace Engine

theorem notes_writeRecord_toRecord : ∃ record heap',
    Sample.noteEngine.toRecord Sample.notes 0 Sample.noteEntity = .ok record ∧
    Sample.noteEngine.writeRecord record (some 0) Sample.noteEntity Sample.noteEntity.fields
      Sample.notes = .ok 0 { Sample.notes with heap := heap' } ∧
    ∀ g property, Sample.noteRegistry.getProperty heap' g property =
      Sample.noteRegistry.getProperty Sample.notes.heap g property := by
  have hr : Sample.noteRegistry.types = [Sample.note].map fun d => (d.name, d.entityType) := rfl
  have hcells : ∀ o ∈ Sample.notes.heap, ∀ d ∈ [Sample.note], d.name = o.typeName →
      o.kind.make = d.name ∧
      ∀ p ∈ d.properties, p.type.Holds Sample.notes.heap (p.get o) ∧ p.Settled o := by
    intro o ho d hd _
    obtain rfl := List.mem_singleton.mp hd
    simp only [Sample.notes, List.mem_cons, List.not_mem_nil, or_false] at ho
    rcases ho with rfl | rfl
    all_goals
      refine ⟨rfl, fun p hp => ?_⟩
      simp only [Sample.note, List.mem_cons, List.not_mem_nil, or_false] at hp
      rcases hp with rfl | rfl | rfl | rfl | rfl | rfl | rfl | rfl
      all_goals first
        | exact ⟨trivial, rfl⟩
        | exact ⟨⟨_, rfl, by decide, rfl⟩, rfl⟩
  have hfields : ∀ f ∈ Sample.noteEntity.fields,
      Sample.noteRegistry.WritesBack "Note" f.property ∧
      (∀ v, Sample.noteRegistry.getPath Sample.notes.heap 0 f.property = .ok v →
        v.IsShownInFull) ∧
      (f.mandatory → Sample.noteRegistry.getPath Sample.notes.heap 0 f.property ≠ .ok .null) := by
    intro f hf
    simp only [Sample.noteEntity, List.mem_cons, List.not_mem_nil, or_false] at hf
    rcases hf with rfl | rfl | rfl | rfl | rfl | rfl | rfl | rfl | rfl | rfl
    all_goals
      refine ⟨⟨_, rfl, rfl, by decide⟩, ?_, by rintro ⟨⟩ ⟨⟩⟩
      rintro v ⟨⟩
      first
        | trivial
        | rfl
        | rintro ⟨⟩
  obtain ⟨record, heap', hread, hwrite, -, -, hsame⟩ := writeRecord_toRecord Sample.noteEngine
    Sample.notes 0 Sample.noteEntity ⟨rfl, rfl⟩ rfl
    (Registry.wellTyped_of_definitions hr fun o ho d hd hname =>
      ⟨(hcells o ho d hd hname).1, fun p hp => ((hcells o ho d hd hname).2 p hp).1⟩)
    (Registry.lawful_of_definitions hr fun o ho d hd hname p hp =>
      ((hcells o ho d hd hname).2 p hp).2)
    (by decide) (by decide) (by decide) (fun f hf => (hfields f hf).1)
    (fun f hf => (hfields f hf).2.1) (fun f hf => (hfields f hf).2.2)
  exact ⟨record, heap', hread, hwrite, hsame⟩

end Engine

end Fieldwise
