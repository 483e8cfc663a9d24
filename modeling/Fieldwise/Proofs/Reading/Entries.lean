import Fieldwise.Proofs.Conversion.Scalars
import Fieldwise.Proofs.Reading.Following

/-!
The entries of a record, field by field. Whatever becomes of the other fields, a record has an entry
for each name, and its value is what the last field of that name comes to. The fields before it make
a difference in two ways: reference fields add to what has been visited, which custom readers are
shown, and custom readers may change the objects that are read.
-/

namespace Fieldwise

theorem eraseDups_concat (names : List String) (name : String) :
    (names ++ [name]).eraseDups =
      if name ∈ names then names.eraseDups else names.eraseDups ++ [name] := by
  have hfilter : [name].removeAll names = if name ∈ names then [] else [name] := by
    by_cases h : name ∈ names <;> simp [List.removeAll, List.filter, h]
  rw [List.eraseDups_append, hfilter]
  split <;> simp [List.eraseDups_cons]

namespace ActiveEngine

open ActiveReading

variable {a : ActiveEngine} {I : World → Prop} {nested : Handle → Entity → ActiveReading Record}

section

variable {h : Handle} {record record' : Record} {s s' : World × Context}

theorem readEntries_append (before rest : List Field) :
    a.readEntries nested h record (before ++ rest) =
      (a.readEntries nested h record before >>= fun r => a.readEntries nested h r rest) := by
  induction before generalizing record with
  | nil => simp [readEntries]
  | cons f before ih => simp [readEntries, ih]

/-- Only reference fields change the context, and without custom fields they are the only ones to
change anything. -/
theorem readEntries_unchanged (hformats : ∀ v, a.settings.covers v = true)
    (hsteady : a.Steady I) (hh : h < s.1.heap.length) (hI : I s.1) {fields : List Field}
    (hfields : ∀ g ∈ fields, g.kind ≠ .reference)
    (hread : a.readEntries nested h record fields s = .ok record' s') :
    s'.2 = s.2 ∧ ((∀ g ∈ fields, g.kind ≠ .custom) → s'.1 = s.1) := by
  induction fields generalizing record s with
  | nil =>
    obtain ⟨-, rfl⟩ : record = record' ∧ s = s' := by simpa [readEntries] using hread
    exact ⟨rfl, fun _ => rfl⟩
  | cons f rest ih =>
    obtain ⟨w', hentry, hfollows, hworld⟩ := readEntry_alone nested hformats hsteady
      hh hI (hfields f (by simp))
    obtain ⟨v, s₁, hv, hrest⟩ := bind_eq_ok.mp hread
    obtain ⟨-, rfl⟩ := EStateM.Result.ok.inj (hv.symm.trans hentry)
    obtain ⟨hcontext, hunchanged⟩ := ih (hfollows.heap.length ▸ hh) hfollows.world
      (fun g hg => hfields g (by simp [hg])) hrest
    refine ⟨hcontext, fun hcustom => ?_⟩
    exact (hunchanged fun g hg => hcustom g (by simp [hg])).trans (hworld (hcustom f (by simp)))

theorem get?_of_readEntries {fields : List Field} {name : String}
    (hname : name ∉ fields.map (·.name))
    (hread : a.readEntries nested h record fields s = .ok record' s') :
    record'.get? name = record.get? name := by
  induction fields generalizing record s with
  | nil =>
    obtain ⟨rfl, -⟩ : record = record' ∧ s = s' := by simpa [readEntries] using hread
    rfl
  | cons f rest ih =>
    obtain ⟨v, s₁, -, hrest⟩ := bind_eq_ok.mp hread
    simp only [List.map_cons, List.mem_cons, not_or] at hname
    rw [ih hname.2 hrest, Table.get?_put_of_ne hname.1]

theorem keys_of_readEntries {fields : List Field}
    (hread : a.readEntries nested h [] fields s = .ok record' s') :
    record'.keys = (fields.map (·.name)).eraseDups := by
  induction fields using List.reverseRecOn generalizing record' s' with
  | nil =>
    obtain ⟨rfl, -⟩ : [] = record' ∧ s = s' := by simpa [readEntries] using hread
    rfl
  | append_singleton before f ih =>
    rw [readEntries_append] at hread
    obtain ⟨record, s₁, hbefore, hlast⟩ := bind_eq_ok.mp hread
    obtain ⟨v, s₂, -, hrest⟩ := bind_eq_ok.mp hlast
    obtain ⟨rfl, rfl⟩ : record.put f.name v = record' ∧ s₂ = s' := by
      simpa [readEntries] using hrest
    rw [Table.keys_put, ih hbefore, List.map_append, List.map_singleton, eraseDups_concat]
    simp only [List.mem_eraseDups]

end

/-- A reading with any bound that leaves room for the objects is the one with the own bound. -/
theorem readRecord_ok (hformats : ∀ v, a.settings.covers v = true) (hsteady : a.Steady I)
    {h : Handle} {s : World × Context} (hh : h < s.1.heap.length) (hI : I s.1)
    (fields : List Field) {d : Nat} (hd : Engine.depth s.1 ≤ d) : ∃ record s',
    a.readNested d h fields s = .ok record s' ∧ a.readRecord h fields s = .ok record s' ∧
      Follows I (s.1, s.2.visit (.of s.1.heap h)) s' := by
  obtain ⟨d, rfl⟩ : ∃ k, d = k + 1 := ⟨d - 1, by rw [Engine.depth] at hd; omega⟩
  obtain ⟨hsame, hends⟩ := readEntries_alike hformats hsteady
    (s := (s.1, s.2.visit (.of s.1.heap h)))
    (readNested_alike hformats hsteady (Nat.le_of_succ_le_succ hd) (le_refl s.1.heap.length))
    [] fields hh hI (unvisited_le_length _ _)
  obtain ⟨record, s', hread, hfollows⟩ := hends.exists_ok id
  exact ⟨record, s', hread, hsame.symm.trans hread, hfollows⟩

theorem readRecord_apply (h : Handle) (fields : List Field) (s : World × Context) :
    a.readRecord h fields s =
      a.readEntries (fun g entity => a.readNested s.1.heap.length g entity.fields) h [] fields
        (s.1, s.2.visit (.of s.1.heap h)) := rfl

/-- The last field of a name gives the value, in the world and the context that the fields before it
leave. -/
theorem get?_of_readRecord (hformats : ∀ v, a.settings.covers v = true) (hsteady : a.Steady I)
    {h : Handle} {before rest : List Field} {f : Field} {s s' reached : World × Context}
    {front record : Record} (hh : h < reached.1.heap.length) (hI : I reached.1)
    (hname : f.name ∉ rest.map (·.name)) (hkind : f.kind ≠ .reference)
    (hbefore : a.readRecord h before s = .ok front reached)
    (hread : a.readRecord h (before ++ f :: rest) s = .ok record s') :
    record.get? f.name = some (a.alone h f reached) := by
  rw [readRecord_apply] at hbefore hread
  rw [readEntries_append] at hread
  obtain ⟨front', reached', hbefore', hrest⟩ := bind_eq_ok.mp hread
  obtain ⟨rfl, rfl⟩ := EStateM.Result.ok.inj (hbefore'.symm.trans hbefore)
  obtain ⟨v, s₂, hv, hafter⟩ := bind_eq_ok.mp hrest
  obtain ⟨w', hentry, -⟩ := readEntry_alone _ hformats hsteady hh hI hkind
  obtain ⟨rfl, -⟩ := EStateM.Result.ok.inj (hv.symm.trans hentry)
  rw [get?_of_readEntries hname hafter, Table.get?_put_self]

/-- Reading with any fields in any context comes to an end and to a record, which has the names of
the fields in order, each where it comes first. The last field of a name gives the value: unless it
is a reference field, the value that the field has alone, in the world and the context in which the
fields before it leave the reading. Only custom fields look at the context, in which more is visited
than at the start only if a reference field comes before. The world is the one of the start unless
custom readers have changed it; where they only look, `I` can say that it is. -/
theorem readRecord_entries (a : ActiveEngine) (I : World → Prop) (w : World) (h : Handle)
    (fields : List Field) (c : Context) (hformats : ∀ v, a.settings.covers v = true)
    (hsteady : a.Steady I) (hI : I w) (hh : h < w.heap.length) :
    (∀ d, Engine.depth w ≤ d → a.readNested d h fields (w, c) = a.readRecord h fields (w, c)) ∧
    ∃ record s', a.readRecord h fields (w, c) = .ok record s' ∧
      record.keys = (fields.map (·.name)).eraseDups ∧
      ∀ before f rest, fields = before ++ f :: rest → f.name ∉ rest.map (·.name) →
        f.kind ≠ .reference →
        let reached := after (a.readRecord h before) (w, c)
        record.get? f.name = some (a.alone h f reached) ∧
        (f.kind ≠ .custom → ∀ c₁, a.alone h f (reached.1, c₁) = a.alone h f reached) ∧
        (c.visit (.of w.heap h)).Extends reached.2 ∧
        ((∀ g ∈ before, g.kind ≠ .reference) → reached.2 = c.visit (.of w.heap h)) ∧
        I reached.1 ∧
        ((∀ g ∈ before, g.kind ≠ .reference ∧ g.kind ≠ .custom) → reached.1 = w) := by
  refine ⟨fun d hd => ?_, ?_⟩
  · obtain ⟨record, s', hnested, hrecord, -⟩ :=
      readRecord_ok (s := (w, c)) hformats hsteady hh hI fields hd
    rw [hnested, hrecord]
  · obtain ⟨record, s', -, hrecord, -⟩ :=
      readRecord_ok (s := (w, c)) hformats hsteady hh hI fields (le_refl _)
    refine ⟨record, s', hrecord, keys_of_readEntries hrecord, ?_⟩
    rintro before f rest rfl hname hkind
    obtain ⟨front, reached, -, hbefore, hfollows⟩ :=
      readRecord_ok (s := (w, c)) hformats hsteady hh hI before (le_refl _)
    rw [after_of_ok hbefore]
    have hh' : h < reached.1.heap.length := hfollows.heap.length ▸ hh
    have hunchanged (hbefore' : ∀ g ∈ before, g.kind ≠ .reference) :=
      readEntries_unchanged hformats hsteady (s := (w, c.visit (.of w.heap h))) hh hI hbefore'
        hbefore
    refine ⟨?_, fun hcustom c₁ => ?_, hfollows.context, fun hbefore' => ?_, hfollows.world,
      fun hplain => ?_⟩
    · exact get?_of_readRecord hformats hsteady hh' hfollows.world hname hkind hbefore hrecord
    · exact alone_eq_of_ne hkind hcustom reached.1 c₁ reached.2
    · exact (hunchanged hbefore').1
    · exact (hunchanged fun g hg => (hplain g hg).1).2 fun g hg => (hplain g hg).2

end ActiveEngine

namespace Sample

/-- Tells how many objects have been visited. -/
def countVisited : CustomReader := fun _ _ _ c => .ok (.ofNat c.visitedCount)

def countingEngine : Engine := { engine with custom := ⟨[("count", countVisited)], []⟩ }

def seen : Field := .custom "seen" "count"

def peer : Field := .reference "peer" "peer" "NODE"

/-- Gives the object another label and has no value for the field. -/
def setMark : ActiveReader := fun h _ _ w =>
  let o := w.heap.get h
  (.ok .null, { w with heap := w.heap.put h { o with cells := o.cells.put "label" (.text "z") } })

def marking : ActiveEngine where
  toEngine := engine
  readers := [("setMark", setMark)]

def mark : Field := .custom "mark" "setMark"

/-- There are nodes only, none of which refers out of the heap. -/
def AreNodes (w : World) : Prop :=
  ∀ o ∈ w.heap, o.kind = node.kind ∧
    ∀ cell ∈ o.cells, ∀ g ∈ cell.2.references, g < w.heap.length

theorem identityKey_of_node {heap : Heap} {g : Handle} (h : (heap.get g).kind = node.kind) :
    IdentityKey.of heap g = ⟨"Node", .place g⟩ := by
  simp only [IdentityKey.of, BusinessObject.id?, BusinessObject.typeName, h]
  rfl

theorem marking_steady : marking.Steady AreNodes where
  closed w hw := by
    refine Heap.closed_of_cells (fun entry hentry => ?_) fun o ho => (hw o ho).2
    obtain ⟨d, -, rfl⟩ := List.mem_map.mp hentry
    exact ⟨d, rfl⟩
  keeps qualifier read hread h f c w hw hh := by
    obtain ⟨-, rfl⟩ : qualifier = "setMark" ∧ setMark = read := by
      simpa [marking, Table.get?, eq_comm] using hread
    have hnode : ∀ g < w.heap.length, (w.heap.get g).kind = node.kind := fun g hg =>
      (hw _ (by simp [Heap.get, hg])).1
    refine ⟨fun o ho => ?_, Heap.length_put _ _ _, fun g hg => ?_⟩
    · simp only [setMark, Heap.length_put] at ho ⊢
      rcases List.mem_or_eq_of_mem_set ho with ho | rfl
      · exact hw o ho
      · refine ⟨hnode h hh, fun cell hcell => ?_⟩
        rcases Table.mem_of_mem_put hcell with rfl | hcell
        · simp [PropertyValue.references]
        · exact (hw _ (by simp [Heap.get, hh])).2 cell hcell
    · have hkind : ((setMark h f c w).2.heap.get g).kind = node.kind :=
        Heap.forall_get_put (P := fun _ o => o.kind = node.kind)
          (o := { w.heap.get h with cells := (w.heap.get h).cells.put "label" (.text "z") })
          (hnode h hh) hnode g hg
      rw [identityKey_of_node hkind, identityKey_of_node (hnode g hg)]

theorem ring_areNodes : AreNodes ring := by
  intro o ho
  refine ⟨?_, ?_⟩
  · obtain rfl | rfl | rfl : o = _ ∨ o = _ ∨ o = _ := by simpa [ring] using ho
    all_goals rfl
  · revert o
    decide

/-- Gives the object another id, one that no object had before. -/
def renew : ActiveReader := fun h _ _ w =>
  let o := w.heap.get h
  (.ok .null, { w with heap := w.heap.put h (o.withId (o.id?.getD "" ++ "x")) })

def renewed : Entity where
  id := "CAT"
  name := "Category"
  table := "209"
  fields := [.custom "mark" "renew", .reference "parent" "parent" "CAT"]

def renewing : ActiveEngine where
  toEngine := { engine with
    catalog := ⟨[{ id := "P", name := "p", entities := [renewed] }], [("p", 0)], [("CAT", 0, 0)]⟩ }
  readers := [("renew", renew)]

/-- A category that is its own parent. -/
def ownParent (id : String) : World := { World.empty with
  heap := [⟨category.kind, [("id", .text id), ("parent", .reference 0)]⟩] }

/-- As many records in each other as there is room for. -/
def ancestors : Nat → Record
  | 0 => [("mark", .null), ("parent", .null)]
  | d + 1 => [("mark", .null), ("parent", .object (ancestors d))]

theorem ancestors_ne_succ (d : Nat) : ancestors d ≠ ancestors (d + 1) := by
  induction d with
  | zero => simp [ancestors]
  | succ d ih =>
    rw [ancestors, ancestors]
    simpa using ih

theorem identityKey_of_ownParent {id : String} (hid : id ≠ "") :
    IdentityKey.of (ownParent id).heap 0 = ⟨"Category", .business id⟩ := by
  change (⟨"Category", if id = "" then .place 0 else .business id⟩ : IdentityKey) = _
  rw [if_neg hid]

/-- The parent of an object that has not been visited is read from the same object, by then another.
-/
theorem readEntries_renewing {nested : Handle → Entity → ActiveReading Record} {id : String}
    {c : Context} (hc : c.isVisited (.of (ownParent (id ++ "x")).heap 0) = false) :
    renewing.readEntries nested 0 [] renewed.fields (ownParent id, c) =
      ((Json.object <$> nested 0 renewed).orNull >>= fun v =>
        pure [("mark", .null), ("parent", v)]) (ownParent (id ++ "x"), c) := by
  have hrelated : renewing.readRelated nested (.reference "parent" "parent" "CAT") 0
      (ownParent (id ++ "x"), c) =
      (Json.object <$> nested 0 renewed) (ownParent (id ++ "x"), c) := by
    unfold ActiveEngine.readRelated
    rw [bind_apply, get_apply]
    simp only [hc]
    rfl
  have hparent : (renewing.readReference nested 0 (.reference "parent" "parent" "CAT")).orNull
      (ownParent (id ++ "x"), c) =
      (Json.object <$> nested 0 renewed).orNull (ownParent (id ++ "x"), c) := by
    unfold ActiveReading.orNull
    rw [← hrelated]
    rfl
  have hmark : renewing.readEntry nested 0 (.custom "mark" "renew") (ownParent id, c) =
      .ok .null (ownParent (id ++ "x"), c) := rfl
  rw [bind_apply, ← hparent]
  simp only [renewed, ActiveEngine.readEntries]
  rw [bind_apply, hmark]
  dsimp only
  rw [bind_apply]
  rfl

/-- Under its new id the object has not been visited, whatever the ids were that it had before. -/
theorem readNested_renewing_succ (d : Nat) {id : String} (hid : id ≠ "") {c : Context}
    (hc : ∀ k ∈ c.visited, ∃ old, k.identity = .business old ∧ old.length < id.length) :
    id ++ "x" ≠ "" ∧ ∃ c' : Context,
      (∀ k ∈ c'.visited, ∃ old, k.identity = .business old ∧ old.length < (id ++ "x").length) ∧
      renewing.readNested (d + 1) 0 renewed.fields (ownParent id, c) =
        ((Json.object <$> renewing.readNested d 0 renewed.fields).orNull >>= fun v =>
          pure [("mark", .null), ("parent", v)]) (ownParent (id ++ "x"), c') := by
  have hlonger : id.length < (id ++ "x").length := by
    rw [String.length_append]
    exact Nat.lt_add_of_pos_right (by decide)
  have hnext : id ++ "x" ≠ "" := by
    intro h
    rw [h] at hlonger
    exact Nat.not_lt_zero _ hlonger
  have hvisited : ∀ k ∈ (c.visit ⟨"Category", .business id⟩).visited,
      ∃ old, k.identity = .business old ∧ old.length < (id ++ "x").length := by
    intro k hk
    have hk' : k ∈ c.visited ∨ k = ⟨"Category", .business id⟩ := by
      unfold Context.visit at hk
      split at hk
      · exact .inl hk
      · simpa using hk
    rcases hk' with hk | rfl
    · obtain ⟨old, hold, hlength⟩ := hc k hk
      exact ⟨old, hold, hlength.trans hlonger⟩
    · exact ⟨id, rfl, hlonger⟩
  have hnew : (c.visit ⟨"Category", .business id⟩).isVisited
      (.of (ownParent (id ++ "x")).heap 0) = false := by
    rw [identityKey_of_ownParent hnext]
    refine Bool.eq_false_iff.mpr fun hseen => ?_
    obtain ⟨old, hold, hlength⟩ := hvisited _ (List.contains_iff_mem.mp hseen)
    obtain rfl := Identity.business.inj hold
    exact Nat.lt_irrefl _ hlength
  have hread : renewing.readNested (d + 1) 0 renewed.fields (ownParent id, c) =
      renewing.readEntries (fun h entity => renewing.readNested d h entity.fields) 0 []
        renewed.fields (ownParent id, c.visit (.of (ownParent id).heap 0)) := rfl
  refine ⟨hnext, c.visit ⟨"Category", .business id⟩, hvisited, ?_⟩
  rw [hread, identityKey_of_ownParent hid, readEntries_renewing hnew]

theorem readNested_renewing (d : Nat) {id : String} (hid : id ≠ "") {c : Context}
    (hc : ∀ k ∈ c.visited, ∃ old, k.identity = .business old ∧ old.length < id.length) : ∃ s',
    renewing.readNested (d + 1) 0 renewed.fields (ownParent id, c) = .ok (ancestors d) s' := by
  induction d generalizing id c with
  | zero =>
    obtain ⟨-, c', -, hread⟩ := readNested_renewing_succ 0 hid hc
    exact ⟨_, hread⟩
  | succ d ih =>
    obtain ⟨hnext, c', hc', hread⟩ := readNested_renewing_succ (d + 1) hid hc
    obtain ⟨s', hnested⟩ := ih hnext hc'
    refine ⟨s', hread.trans ?_⟩
    rw [bind_apply, ActiveReading.orNull, map_apply, hnested]
    rfl

end Sample

namespace ActiveEngine

theorem marking_entries : ∃ record s',
    Sample.marking.readRecord 0
      [Sample.same "label", Sample.mark, Sample.same "label", Sample.peer]
      (Sample.ring, .forRead) = .ok record s' ∧
    record.keys = ["label", "mark", "peer"] ∧ record.get? "label" = some (.text "z") := by
  obtain ⟨-, record, s', hread, hkeys, hentries⟩ := readRecord_entries Sample.marking
    Sample.AreNodes Sample.ring 0
    [Sample.same "label", Sample.mark, Sample.same "label", Sample.peer] .forRead
    (Settings.HasDefaultFormats.covers ⟨rfl, rfl⟩) Sample.marking_steady
    Sample.ring_areNodes (by decide)
  refine ⟨record, s', hread, hkeys, ?_⟩
  exact (hentries [Sample.same "label", Sample.mark] _ [Sample.peer] rfl (by decide) nofun).1

/-- Where a reader gives the object a new id each time, no bound on the nesting is enough. -/
theorem renewing_endless (d : Nat) :
    Sample.renewing.readNested (d + 1) 0 Sample.renewed.fields (Sample.ownParent "x", .forRead) ≠
      Sample.renewing.readNested (d + 2) 0 Sample.renewed.fields
        (Sample.ownParent "x", .forRead) := by
  have hid : "x" ≠ "" := by decide
  obtain ⟨s, hs⟩ := Sample.readNested_renewing d hid (c := .forRead) nofun
  obtain ⟨s', hs'⟩ := Sample.readNested_renewing (d + 1) hid (c := .forRead) nofun
  rw [hs, hs']
  intro h
  exact Sample.ancestors_ne_succ d (EStateM.Result.ok.inj h).1

/-- After a reference field a reader that looks at the context finds more visited than alone; after
a reader that changes the object a direct field shows another value than alone; and there are
readers with which the records in each other do not come to an end. -/
theorem reading_ne_alone :
    (∃ record s', Sample.countingEngine.active.readRecord 0 [Sample.peer, Sample.seen]
        (Sample.ring, .forRead) = .ok record s' ∧
      ∀ c ∈ [Context.forRead, Context.forRead.visit (.of Sample.ring.heap 0)],
        record.get? "seen" ≠
          some (Sample.countingEngine.active.alone 0 Sample.seen (Sample.ring, c))) ∧
    (∃ record s', Sample.marking.readRecord 0 [Sample.mark, Sample.same "label"]
        (Sample.ring, .forRead) = .ok record s' ∧
      ∀ c, record.get? "label" ≠
        some (Sample.marking.alone 0 (Sample.same "label") (Sample.ring, c))) ∧
    ∀ d, Sample.renewing.readNested (d + 1) 0 Sample.renewed.fields
        (Sample.ownParent "x", .forRead) ≠
      Sample.renewing.readNested (d + 2) 0 Sample.renewed.fields
        (Sample.ownParent "x", .forRead) := by
  refine ⟨⟨_, _, rfl, fun c hc => ?_⟩, ⟨_, _, rfl, fun c => ?_⟩, renewing_endless⟩
  · simp only [List.mem_cons, List.not_mem_nil, or_false] at hc
    rcases hc with rfl | rfl
    · change some (Json.ofNat 2) ≠ some (Json.ofNat 0)
      simp [Json.ofNat, Json.ofInt]
    · change some (Json.ofNat 2) ≠ some (Json.ofNat 1)
      simp [Json.ofNat, Json.ofInt]
  · change some (Json.text "z") ≠ some (Json.text "a")
    simp

end ActiveEngine

end Fieldwise
