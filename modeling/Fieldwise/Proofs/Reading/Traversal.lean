import Fieldwise.Proofs.Outcome
import Fieldwise.Proofs.Reading.Closed
import Fieldwise.Proofs.Reading.Outline

/-!
How a heap is traversed when an object is read. Each step of a reading extends the visited
identities by those of the objects that it shows in full, and what it reads has an outline that
shows objects in full exactly where they are met first. The bound on the nesting never matters, as
long as it is not smaller than the number of objects that have not been visited.
-/

namespace Fieldwise

/-- Some value that a field leads to cannot be written by the formats of the settings. -/
def Engine.Unformattable (e : Engine) (w : World) : Prop :=
  ∃ h path v, e.registry.getPath w.heap h path = .ok v ∧
    render? e.settings (fun g => (w.heap.get g).identifier) v = none

/-- The outlines `os` account for what was visited between two contexts. -/
structure Progress (e : Engine) (w : World) (c c' : Context) (os : List Outline) : Prop where
  faithful : ∀ o ∈ os, o.Faithful e w.heap
  order : FirstInFull e w.heap c.visited (os.flatMap Outline.occurrences)
  visited : c'.visited = c.visited ++ fullKeys w.heap (os.flatMap Outline.occurrences)

namespace Progress

variable {e : Engine} {w : World} {c c' c'' : Context}

theorem none : Progress e w c c [] := ⟨by simp, by simp [FirstInFull], by simp⟩

theorem plain (v : Json) : Progress e w c c [.plain v] :=
  ⟨by simp [Outline.Faithful], by simp [FirstInFull, Outline.occurrences],
    by simp [Outline.occurrences]⟩

theorem stub {f : Field} {h : Handle} (hseen : .of w.heap h ∈ c.visited ∨ e.related? f = .none) :
    Progress e w c c [.stub f h] :=
  ⟨by simp [Outline.Faithful], by simpa [FirstInFull, Outline.occurrences] using hseen,
    by simp [Outline.occurrences]⟩

theorem cons {o : Outline} {os : List Outline} (ho : Progress e w c c' [o])
    (hos : Progress e w c' c'' os) : Progress e w c c'' (o :: os) := by
  have hocc : (o :: os).flatMap Outline.occurrences =
      [o].flatMap Outline.occurrences ++ os.flatMap Outline.occurrences := by simp
  refine ⟨?_, ?_, ?_⟩
  · intro o' ho'
    rcases List.mem_cons.mp ho' with rfl | ho'
    · exact ho.faithful o' (by simp)
    · exact hos.faithful o' ho'
  · rw [hocc, FirstInFull.append_iff, ← ho.visited]
    exact ⟨ho.order, hos.order⟩
  · rw [hocc, fullKeys_append, hos.visited, ho.visited, List.append_assoc]

theorem list {os : List Outline} (hos : Progress e w c c' os) :
    Progress e w c c' [.list os] :=
  ⟨by simpa [Outline.Faithful] using hos.faithful,
    by simpa [Outline.occurrences] using hos.order,
    by simpa [Outline.occurrences] using hos.visited⟩

theorem full {h : Handle} {entity : Entity} {values : List Outline}
    (hnew : .of w.heap h ∉ c.visited)
    (hshows : List.Forall₂ (Outline.Shows e w.heap h) entity.fields values)
    (hvalues : Progress e w (c.visit (.of w.heap h)) c' values) :
    Progress e w c c' [.full h entity values] := by
  have hvisit : (c.visit (.of w.heap h)).visited = c.visited ++ [.of w.heap h] := by
    simp [Context.visit, Context.isVisited, hnew]
  obtain ⟨hfaithful, horder, hvisited⟩ := hvalues
  rw [hvisit] at horder hvisited
  refine ⟨?_, ?_, ?_⟩
  · simpa [Outline.Faithful] using ⟨hshows, hfaithful⟩
  · simpa [Outline.occurrences, FirstInFull] using ⟨hnew, horder⟩
  · simpa [Outline.occurrences] using hvisited

theorem unvisited_le {os : List Outline} {n : Nat} (h : Progress e w c c' os)
    (hc : unvisited w.heap c.visited ≤ n) : unvisited w.heap c'.visited ≤ n := by
  rw [h.visited]
  exact (unvisited_append_le _ _ _).trans hc

end Progress

theorem Agree.orNull {bad : Prop} {P : Json → Context → Prop} {c : Context} {x y : Reading Json}
    (h : Agree bad (P .null) P c x y) : Agree bad (fun _ => False) P c x.orNull y.orNull := by
  obtain ⟨heq, hends⟩ := h
  unfold Agree Reading.orNull
  rw [← heq]
  cases hx : x c with
  | ok v c' =>
    rw [hx] at hends
    exact ⟨rfl, hends⟩
  | error failure c' =>
    rw [hx] at hends
    cases failure <;> exact ⟨rfl, hends⟩

/-- In the context `c` a value is read that has an outline, which is as `P` says. -/
def Outlined (e : Engine) (w : World) (c : Context) (P : Outline → Prop) (v : Json)
    (c' : Context) : Prop :=
  ∃ o, Progress e w c c' [o] ∧ P o ∧ o.json w.heap = v

theorem Outlined.null {e : Engine} {w : World} {c : Context} {P : Outline → Prop}
    (h : P (.plain .null)) : Outlined e w c P .null c :=
  ⟨.plain .null, .plain _, h, by simp [Outline.json]⟩

theorem Outlined.mono {e : Engine} {w : World} {c c' : Context} {P P' : Outline → Prop} {v : Json}
    (h : Outlined e w c P v c') (hP : ∀ o, P o → P' o) : Outlined e w c P' v c' := by
  obtain ⟨o, hprogress, ho, hjson⟩ := h
  exact ⟨o, hprogress, hP o ho, hjson⟩

/-- Two ways to read nested records come to the same while at most `n` objects are unvisited:
records of the fields of the entity, which have outlines. -/
def Nests (e : Engine) (w : World) (n : Nat) (nested nested' : Handle → Entity → Reading Record) :
    Prop :=
  ∀ (h : Handle) (entity : Entity) (c : Context), h < w.heap.length → .of w.heap h ∉ c.visited →
    unvisited w.heap c.visited ≤ n → entity.fieldNames.Nodup →
    Agree (e.Unformattable w) (fun _ => False)
      (fun record c' => ∃ values, Progress e w c c' [.full h entity values] ∧
        entity.fieldNames.zip (values.map (Outline.json w.heap)) = record)
      c (nested h entity) (nested' h entity)

namespace Engine

variable {e : Engine} {w : World} {n : Nat} {nested nested' : Handle → Entity → Reading Record}

theorem readRelated_agree (hnests : Nests e w n nested nested')
    (hnames : ∀ f entity, e.related? f = some entity → entity.fieldNames.Nodup)
    {f : Field} {h : Handle} (hh : h < w.heap.length) {c : Context}
    (hc : unvisited w.heap c.visited ≤ n) :
    Agree (e.Unformattable w) (fun _ => False) (Outlined e w c (·.IsOf e f h)) c
      (e.readRelated nested w f h) (e.readRelated nested' w f h) := by
  have hstub (hseen : .of w.heap h ∈ c.visited ∨ e.related? f = none) :
      Outlined e w c (·.IsOf e f h) (w.heap.stub h) c :=
    ⟨.stub f h, .stub hseen, ⟨rfl, rfl⟩, by simp [Outline.json]⟩
  unfold readRelated
  refine Agree.bind (P := fun a c' => c = a ∧ c = c') ⟨rfl, rfl, rfl⟩ ?_
  rintro _ _ ⟨rfl, rfl⟩
  by_cases hseen : .of w.heap h ∈ c.visited
  · have hvisited : c.isVisited (.of w.heap h) = true := by simpa [Context.isVisited] using hseen
    simp only [hvisited, if_true]
    exact .pure (hstub (.inl hseen))
  · have hvisited : c.isVisited (.of w.heap h) = false := by simpa [Context.isVisited] using hseen
    simp only [hvisited, Bool.false_eq_true, if_false]
    cases hrelated : e.related? f with
    | none => exact .pure (hstub (.inr hrelated))
    | some entity =>
      refine (hnests h entity c hh hseen hc (hnames f entity hrelated)).map ?_
      rintro _ c' ⟨values, hprogress, rfl⟩
      exact ⟨.full h entity values, hprogress, ⟨rfl, hrelated⟩, by simp [Outline.json]⟩

theorem readItem_agree (hnests : Nests e w n nested nested')
    (hnames : ∀ f entity, e.related? f = some entity → entity.fieldNames.Nodup)
    {f : Field} {item : PropertyValue} (hitem : ∀ h, item = .reference h → h < w.heap.length)
    {c : Context} (hc : unvisited w.heap c.visited ≤ n) :
    Agree (e.Unformattable w) (fun _ => False) (Outlined e w c (·.IsItem e f item)) c
      (e.readItem nested w f item) (e.readItem nested' w f item) := by
  cases item with
  | reference h => exact readRelated_agree hnests hnames (hitem h rfl) hc
  | _ => exact .pure (.null rfl)

/-- Items are read one after the other, each in the context that those before it leave. -/
theorem readItems_agree (hnests : Nests e w n nested nested')
    (hnames : ∀ f entity, e.related? f = some entity → entity.fieldNames.Nodup)
    {f : Field} {items : List PropertyValue}
    (hitems : ∀ h, .reference h ∈ items → h < w.heap.length)
    {c : Context} (hc : unvisited w.heap c.visited ≤ n) :
    Agree (e.Unformattable w) (fun _ => False)
      (fun vs c' => ∃ os, Progress e w c c' os ∧ List.Forall₂ (Outline.IsItem e f) os items ∧
        os.map (Outline.json w.heap) = vs)
      c (items.mapM (e.readItem nested w f)) (items.mapM (e.readItem nested' w f)) := by
  induction items generalizing c with
  | nil => exact .pure ⟨[], .none, .nil, rfl⟩
  | cons item rest ih =>
    rw [List.mapM_cons, List.mapM_cons]
    refine (readItem_agree hnests hnames (fun h heq => hitems h (by simp [heq])) hc).bind ?_
    rintro v c' ⟨o, ho, hisItem, rfl⟩
    refine (ih (fun h hh => hitems h (List.mem_cons_of_mem _ hh)) (ho.unvisited_le hc)).bind ?_
    rintro vs c'' ⟨os, hos, hareItems, rfl⟩
    exact .pure ⟨o :: os, ho.cons hos, .cons hisItem hareItems, rfl⟩

/-- What cannot be read is told before anything is visited. -/
theorem readReference_agree (hnests : Nests e w n nested nested')
    (hnames : ∀ f entity, e.related? f = some entity → entity.fieldNames.Nodup)
    (hclosed : w.heap.Closed e.registry) {h : Handle} (hh : h < w.heap.length) {f : Field}
    (hkind : f.kind = .reference) {c : Context} (hc : unvisited w.heap c.visited ≤ n) :
    Agree (e.Unformattable w) (Outlined e w c (·.Shows e w.heap h f) .null)
      (Outlined e w c (·.Shows e w.heap h f)) c
      (e.readReference nested w h f) (e.readReference nested' w h f) := by
  have hlt {v : PropertyValue} (hv : e.registry.getPath w.heap h f.property = .ok v)
      {g : Handle} (hg : g ∈ v.references) : g < w.heap.length :=
    Registry.getPath_lt hclosed hh hv hg
  unfold readReference
  cases hget : e.registry.getPath w.heap h f.property with
  | error failure =>
    have hnull : (Outline.plain .null).Shows e w.heap h f := by
      simp [Outline.Shows, hkind, hget]
    exact ⟨rfl, Outlined.null hnull⟩
  | ok v =>
    refine Agree.bind (P := fun a c' => v = a ∧ c = c') ⟨rfl, rfl, rfl⟩ ?_
    rintro _ _ ⟨rfl, rfl⟩
    cases v with
    | null => exact .pure (.null (by simp [Outline.Shows, hkind, hget]))
    | reference g =>
      have hg : g < w.heap.length := hlt hget (by simp [PropertyValue.references])
      refine (readRelated_agree hnests hnames hg hc).mono (fun _ => False.elim) ?_
      intro v c' hv
      exact hv.mono fun o ho => by simpa [Outline.Shows, hkind, hget] using ho
    | list items =>
      have hitems : ∀ g, .reference g ∈ items → g < w.heap.length := fun g hg =>
        hlt hget (by simpa [PropertyValue.references] using ⟨_, hg, rfl⟩)
      refine ((readItems_agree hnests hnames hitems hc).mono (fun _ => False.elim)
        fun _ _ h => h).map ?_
      rintro _ c' ⟨os, hos, hareItems, rfl⟩
      refine ⟨.list os, hos.list, ?_, by simp [Outline.json]⟩
      simpa [Outline.Shows, hkind, hget] using hareItems
    | _ => exact .throw (.null (by simp [Outline.Shows, hkind, hget]))

theorem readBy_agree_of_ne {strategy : Strategy} (hstrategy : strategy ≠ .reference)
    (h : Handle) (f : Field) (c : Context) :
    Agree (e.Unformattable w) (fun c' => c = c') (fun _ c' => c = c') c
      (e.readBy nested w h f strategy) (e.readBy nested' w h f strategy) := by
  have hlift (result : Except Error Json) :
      Agree (e.Unformattable w) (fun c' => c = c') (fun _ c' => c = c') c
        (Reading.lift result) (Reading.lift result) := by
    cases result <;> exact ⟨rfl, rfl⟩
  cases strategy with
  | reference => exact absurd rfl hstrategy
  | direct =>
    unfold readBy readDirect
    cases hget : e.registry.getPath w.heap h f.property with
    | error failure => exact ⟨rfl, rfl⟩
    | ok v =>
      refine Agree.bind (P := fun a c' => v = a ∧ c = c') ⟨rfl, rfl, rfl⟩ ?_
      rintro _ _ ⟨rfl, rfl⟩
      cases hrender : render? e.settings (fun g => (w.heap.get g).identifier) v with
      | none => exact .unformattable ⟨h, f.property, v, hget, hrender⟩
      | some shown => exact .pure rfl
  | constant => exact hlift _
  | custom =>
    simp only [readBy, readCustom]
    cases e.custom.reader? (f.qualifier.getD "") with
    | none => exact .throw rfl
    | some read =>
      refine Agree.bind (P := fun a c' => c = a ∧ c = c') ⟨rfl, rfl, rfl⟩ ?_
      rintro _ _ ⟨rfl, rfl⟩
      exact hlift _
  | path => exact hlift _

/-- Whatever becomes of it, the value of a field has an outline that shows the field. -/
theorem readEntry_agree (hnests : Nests e w n nested nested')
    (hnames : ∀ f entity, e.related? f = some entity → entity.fieldNames.Nodup)
    (hclosed : w.heap.Closed e.registry) {h : Handle} (hh : h < w.heap.length) (f : Field)
    {c : Context} (hc : unvisited w.heap c.visited ≤ n) :
    Agree (e.Unformattable w) (fun _ => False) (Outlined e w c (·.Shows e w.heap h f)) c
      (e.readEntry nested w h f) (e.readEntry nested' w h f) := by
  by_cases hkind : f.kind = .reference
  · have hstrategy : f.kind.strategy? = some .reference := by rw [hkind]; rfl
    unfold readEntry
    rw [hstrategy]
    exact (readReference_agree hnests hnames hclosed hh hkind hc).orNull
  · have hplain (v : Json) : Outlined e w c (·.Shows e w.heap h f) v c :=
      ⟨.plain v, .plain v, by simp [Outline.Shows, hkind], by simp [Outline.json]⟩
    unfold readEntry
    cases hstrategy : f.kind.strategy? with
    | none => exact .pure (hplain .null)
    | some strategy =>
      have hne : strategy ≠ .reference := by
        rintro rfl
        apply hkind
        cases hf : f.kind <;> simp [hf, MappingKind.strategy?] at hstrategy
        rfl
      apply Agree.orNull
      refine (readBy_agree_of_ne hne h f c).mono ?_ ?_
      · rintro _ rfl
        exact hplain .null
      · rintro v _ rfl
        exact hplain v

/-- Fields with new names are read into new entries at the end. -/
theorem readEntries_agree (hnests : Nests e w n nested nested')
    (hnames : ∀ f entity, e.related? f = some entity → entity.fieldNames.Nodup)
    (hclosed : w.heap.Closed e.registry) {h : Handle} (hh : h < w.heap.length)
    {record : Record} {fields : List Field}
    (hnew : (record.keys ++ fields.map (·.name)).Nodup)
    {c : Context} (hc : unvisited w.heap c.visited ≤ n) :
    Agree (e.Unformattable w) (fun _ => False)
      (fun record' c' => ∃ os, Progress e w c c' os ∧
        List.Forall₂ (Outline.Shows e w.heap h) fields os ∧
        record ++ (fields.map (·.name)).zip (os.map (Outline.json w.heap)) = record')
      c (e.readEntries nested w h record fields) (e.readEntries nested' w h record fields) := by
  induction fields generalizing record c with
  | nil => exact .pure ⟨[], .none, .nil, by simp⟩
  | cons f rest ih =>
    unfold readEntries
    refine (readEntry_agree hnests hnames hclosed hh f hc).bind ?_
    rintro v c' ⟨o, ho, hshows, rfl⟩
    -- A repeated name would take the place of an entry, and its records with it.
    have hput : record.put f.name (o.json w.heap) = record ++ [(f.name, o.json w.heap)] := by
      apply Table.put_of_notMem
      intro hmem
      exact List.disjoint_of_nodup_append hnew hmem (by simp)
    have hnew' : ((record.put f.name (o.json w.heap)).keys ++ rest.map (·.name)).Nodup := by
      simpa [hput, Table.keys] using hnew
    refine (ih hnew' (ho.unvisited_le hc)).mono (fun _ => id) ?_
    rintro _ c'' ⟨os, hos, hshowsRest, rfl⟩
    exact ⟨o :: os, ho.cons hos, .cons hshows hshowsRest, by simp [hput]⟩

/-- Records are nested no deeper than there are unvisited objects, so a bound on the nesting that
leaves room for them makes no difference. -/
theorem readNested_agree
    (hnames : ∀ f entity, e.related? f = some entity → entity.fieldNames.Nodup)
    (hclosed : w.heap.Closed e.registry) {d d' : Nat} (hd : n ≤ d) (hd' : n ≤ d') :
    Nests e w n (fun h entity => e.readNested w d h entity.fields)
      (fun h entity => e.readNested w d' h entity.fields) := by
  induction n generalizing d d' with
  | zero =>
    intro h entity c hh hnew hc
    have := unvisited_visit_lt hh hnew
    omega
  | succ n ih =>
    intro h entity c hh hnew hc hdistinct
    obtain ⟨d, rfl⟩ : ∃ k, d = k + 1 := ⟨d - 1, by omega⟩
    obtain ⟨d', rfl⟩ : ∃ k, d' = k + 1 := ⟨d' - 1, by omega⟩
    have hvisit : (c.visit (.of w.heap h)).visited = c.visited ++ [.of w.heap h] := by
      simp [Context.visit, Context.isVisited, hnew]
    -- Both bounds go down by one with the visit, and so does what is unvisited.
    have hc' : unvisited w.heap (c.visit (.of w.heap h)).visited ≤ n := by
      rw [hvisit]
      have := unvisited_visit_lt hh hnew
      omega
    have hnested : Nests e w n (fun h entity => e.readNested w d h entity.fields)
        (fun h entity => e.readNested w d' h entity.fields) := ih (by omega) (by omega)
    have hfields : (Table.keys ([] : Record) ++ entity.fields.map (·.name)).Nodup := by
      simpa [Table.keys, Entity.fieldNames] using hdistinct
    refine Agree.bind (P := fun _ c' => c.visit (.of w.heap h) = c') ⟨rfl, rfl⟩ ?_
    rintro _ _ rfl
    refine (readEntries_agree hnested hnames hclosed hh hfields hc').mono (fun _ => id) ?_
    rintro _ c' ⟨values, hvalues, hshows, rfl⟩
    exact ⟨values, .full hnew hshows hvalues, rfl⟩

end Engine

end Fieldwise
