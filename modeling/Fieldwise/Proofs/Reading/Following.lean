import Fieldwise.Conversion.ActiveReading
import Fieldwise.Proofs.Conversion.Rendering
import Fieldwise.Proofs.Reading.Records

/-!
What a reading leaves behind, whatever custom readers do on the way. They may change what the
objects hold, as long as there are as many objects as before, with the same identities: it is by
these that a reading comes to an end, and the bound on the nesting never matters.
-/

namespace Fieldwise

/-- All that a reading does to its context: more has been visited. -/
structure Context.Extends (c c' : Context) : Prop where
  visited : c.visited <+: c'.visited
  root : c'.root? = c.root?

namespace Context.Extends

theorem refl (c : Context) : c.Extends c := ⟨List.prefix_refl _, rfl⟩

theorem trans {c c' c'' : Context} (h : c.Extends c') (h' : c'.Extends c'') : c.Extends c'' :=
  ⟨h.visited.trans h'.visited, h'.root.trans h.root⟩

theorem visit (c : Context) (k : IdentityKey) : c.Extends (c.visit k) := by
  unfold Context.visit
  split
  · exact refl c
  · exact ⟨List.prefix_append _ _, rfl⟩

end Context.Extends

/-- As many objects, with the identities that they had. -/
structure Heap.SameIdentities (heap heap' : Heap) : Prop where
  length : heap'.length = heap.length
  identity : ∀ g < heap.length, IdentityKey.of heap' g = IdentityKey.of heap g

namespace Heap.SameIdentities

variable {heap heap' heap'' : Heap}

theorem refl (heap : Heap) : heap.SameIdentities heap := ⟨rfl, fun _ _ => rfl⟩

theorem trans (h : heap.SameIdentities heap') (h' : heap'.SameIdentities heap'') :
    heap.SameIdentities heap'' :=
  ⟨h'.length.trans h.length,
    fun g hg => (h'.identity g (h.length ▸ hg)).trans (h.identity g hg)⟩

theorem unvisited_eq (h : heap.SameIdentities heap') (visited : List IdentityKey) :
    unvisited heap' visited = unvisited heap visited := by
  unfold unvisited
  rw [h.length]
  congr 1
  refine Finset.filter_congr fun g hg => ?_
  rw [h.identity g (Finset.mem_range.mp hg)]

end Heap.SameIdentities

namespace ActiveReading

variable {x : ActiveReading Json} {s s' : World × Context}

/-- From the state `s` a reading comes to a value or to an ordinary error, and to the state `s'`. -/
def Settles (x : ActiveReading Json) (s s' : World × Context) : Prop :=
  (∃ v, x s = .ok v s') ∨ ∃ e, x s = .error (.error e) s'

theorem Settles.orNull (h : x.Settles s s') : x.orNull s = .ok ((value? x s).getD .null) s' := by
  unfold ActiveReading.orNull value?
  obtain ⟨v, hv⟩ | ⟨e, he⟩ := h
  · rw [hv]
    rfl
  · rw [he]
    rfl

theorem now_apply {α : Type} (x : World → Reading α) (s : World × Context) :
    now x s = match x s.1 s.2 with
      | .ok a c => .ok a (s.1, c)
      | .error failure c => .error failure (s.1, c) := rfl

theorem now_lift {α : Type} (result : World → Except Error α) (s : World × Context) :
    now (fun w => Reading.lift (result w)) s = match result s.1 with
      | .ok a => .ok a s
      | .error e => .error (.error e) s := by
  simp only [now, Reading.lift]
  cases result s.1 <;> rfl

theorem agree_orNull {bad : Prop} {P : Json → World × Context → Prop} {y : ActiveReading Json}
    (h : Agree bad (P .null) P s x y) : Agree bad (fun _ => False) P s x.orNull y.orNull := by
  obtain ⟨heq, hends⟩ := h
  unfold Agree orNull
  rw [← heq]
  cases hx : x s with
  | ok v s' =>
    rw [hx] at hends
    exact ⟨rfl, hends⟩
  | error failure s' =>
    rw [hx] at hends
    cases failure <;> exact ⟨rfl, hends⟩

end ActiveReading

namespace MappingKind

variable {k : MappingKind}

theorem eq_reference_of_strategy? (h : k.strategy? = some .reference) : k = .reference := by
  cases k <;> first | rfl | cases h

theorem eq_custom_of_strategy? (h : k.strategy? = some .custom) : k = .custom := by
  cases k <;> first | rfl | cases h

end MappingKind

namespace ActiveEngine

open ActiveReading

/-- Where `I` holds no reference leads out of the heap, and custom readers keep `I`. They may change
what the objects hold, but leave them as many as they are, with the identities that they have. -/
structure Steady (a : ActiveEngine) (I : World → Prop) : Prop where
  closed : ∀ w, I w → w.heap.Closed a.registry
  keeps : ∀ qualifier read, a.readers.get? qualifier = some read → ∀ h f c w, I w →
    h < w.heap.length → I (read h f c w).2 ∧ w.heap.SameIdentities (read h f c w).2.heap

/-- What one reading leaves to the next. -/
structure Follows (I : World → Prop) (s s' : World × Context) : Prop where
  world : I s'.1
  heap : s.1.heap.SameIdentities s'.1.heap
  context : s.2.Extends s'.2

namespace Follows

variable {I : World → Prop} {s s' s'' : World × Context}

theorem refl (hs : I s.1) : Follows I s s := ⟨hs, .refl _, .refl _⟩

theorem trans (h : Follows I s s') (h' : Follows I s' s'') : Follows I s s'' :=
  ⟨h'.world, h.heap.trans h'.heap, h.context.trans h'.context⟩

theorem visit (hs : I s.1) (k : IdentityKey) : Follows I s (s.1, s.2.visit k) :=
  ⟨hs, .refl _, .visit _ k⟩

theorem unvisited_le {n : Nat} (h : Follows I s s') (hs : unvisited s.1.heap s.2.visited ≤ n) :
    unvisited s'.1.heap s'.2.visited ≤ n := by
  obtain ⟨more, hmore⟩ := h.context.visited
  rw [h.heap.unvisited_eq, ← hmore]
  exact (unvisited_append_le _ _ _).trans hs

end Follows

variable {a : ActiveEngine} {I : World → Prop} {n : Nat}
  {nested nested' : Handle → Entity → ActiveReading Record}

/-- The value of one field alone, in a world and a context: null if it cannot be read or is of no
known kind. -/
def alone (a : ActiveEngine) (h : Handle) (f : Field) (s : World × Context) : Json :=
  ((a.readField? h f).bind fun reading => value? reading s).getD .null

/-! ### Fields that refer to no object -/

section

variable {h : Handle} {f : Field} {s : World × Context}

theorem settles_lift (result : World → Except Error Json) (s : World × Context) :
    Settles (now fun w => Reading.lift (result w)) s s := by
  unfold Settles
  rw [now_lift]
  cases result s.1 with
  | ok v => exact .inl ⟨v, rfl⟩
  | error e => exact .inr ⟨e, rfl⟩

theorem settles_direct (hformats : ∀ v, a.settings.covers v = true) (h : Handle) (f : Field)
    (s : World × Context) : Settles (now fun w => a.readDirect w h f) s s := by
  cases hget : a.registry.getPath s.1.heap h f.property with
  | error e =>
    have hread : a.readDirect s.1 h f s.2 = .error (.error e) s.2 := by
      rw [Engine.readDirect, bind_apply, hget]
      rfl
    exact .inr ⟨e, by rw [now_apply, hread]⟩
  | ok v =>
    cases hrender : render? a.settings (fun g => (s.1.heap.get g).identifier) v with
    | some shown =>
      have hread : a.readDirect s.1 h f s.2 = .ok shown s.2 := by
        rw [Engine.readDirect, bind_apply, hget]
        simp only [Reading.lift, hrender, pure_apply]
      exact .inl ⟨shown, by rw [now_apply, hread]⟩
    | none =>
      have hcovers := (Settings.render?_eq_none_iff _ v).mp hrender
      rw [hformats v] at hcovers
      cases hcovers

theorem settles_plain (nested : Handle → Entity → ActiveReading Record)
    (hformats : ∀ v, a.settings.covers v = true) {strategy : Strategy}
    (hreference : strategy ≠ .reference) (hcustom : strategy ≠ .custom) :
    (a.readBy nested h f strategy).Settles s s := by
  cases strategy with
  | reference => exact absurd rfl hreference
  | custom => exact absurd rfl hcustom
  | direct => exact settles_direct hformats h f s
  | constant => exact settles_lift (fun _ => a.readConstant f) s
  | path => exact settles_lift (fun w => a.readPath w h f) s

theorem settles_custom (hsteady : a.Steady I) (hh : h < s.1.heap.length) (hI : I s.1) : ∃ w',
    (a.readCustom h f).Settles s (w', s.2) ∧ Follows I s (w', s.2) := by
  cases hread : a.readers.get? (f.qualifier.getD "") with
  | none =>
    have hnone : a.readCustom h f s = .error (.error
        (.customMapping (f.qualifier.getD "") "no reader registered")) s := by
      simp only [readCustom, hread]
    exact ⟨s.1, .inr ⟨_, hnone⟩, .refl hI⟩
  | some read =>
    obtain ⟨hworld, hheap⟩ := hsteady.keeps _ read hread h f s.2 s.1 hI hh
    refine ⟨(read h f s.2 s.1).2, ?_, hworld, hheap, .refl _⟩
    cases hresult : read h f s.2 s.1 with
    | mk outcome w =>
      cases outcome with
      | ok v => exact .inl ⟨v, by simp only [readCustom, hread, hresult]⟩
      | error e => exact .inr ⟨e, by simp only [readCustom, hread, hresult]⟩

/-- Where no object is referred to, it does not matter how nested records are read. -/
theorem readEntry_congr (nested nested' : Handle → Entity → ActiveReading Record)
    (hkind : f.kind ≠ .reference) :
    a.readEntry nested h f = a.readEntry nested' h f := by
  unfold readEntry
  cases hstrategy : f.kind.strategy? with
  | none => rfl
  | some strategy =>
    cases strategy with
    | reference => exact absurd (MappingKind.eq_reference_of_strategy? hstrategy) hkind
    | _ => rfl

theorem readEntry_alone (nested : Handle → Entity → ActiveReading Record)
    (hformats : ∀ v, a.settings.covers v = true) (hsteady : a.Steady I)
    (hh : h < s.1.heap.length) (hI : I s.1) (hkind : f.kind ≠ .reference) : ∃ w',
    a.readEntry nested h f s = .ok (a.alone h f s) (w', s.2) ∧ Follows I s (w', s.2) ∧
      (f.kind ≠ .custom → w' = s.1) := by
  rw [readEntry_congr nested (fun h entity => a.readRecord h entity.fields) hkind]
  unfold readEntry alone readField?
  cases hstrategy : f.kind.strategy? with
  | none => exact ⟨s.1, rfl, .refl hI, fun _ => rfl⟩
  | some strategy =>
    by_cases hcustom : strategy = .custom
    · subst hcustom
      obtain ⟨w', hsettles, hfollows⟩ := settles_custom (f := f) hsteady hh hI
      exact ⟨w', hsettles.orNull, hfollows,
        fun hne => absurd (MappingKind.eq_custom_of_strategy? hstrategy) hne⟩
    · have hreference : strategy ≠ .reference := by
        rintro rfl
        exact hkind (MappingKind.eq_reference_of_strategy? hstrategy)
      have hsettles : (a.readBy (fun h entity => a.readRecord h entity.fields) h f
          strategy).Settles s s := settles_plain _ hformats hreference hcustom
      exact ⟨s.1, hsettles.orNull, .refl hI, fun _ => rfl⟩

/-- Only custom readers look at the context. -/
theorem alone_eq_of_ne (hreference : f.kind ≠ .reference) (hcustom : f.kind ≠ .custom) (w : World)
    (c c' : Context) : a.alone h f (w, c) = a.alone h f (w, c') := by
  have hlift (result : World → Except Error Json) :
      value? (now fun w => Reading.lift (result w)) (w, c) =
        value? (now fun w => Reading.lift (result w)) (w, c') := by
    simp only [value?, now_lift]
    cases result w <;> rfl
  unfold alone readField?
  cases hkind : f.kind with
  | reference => exact absurd hkind hreference
  | custom => exact absurd hkind hcustom
  | unknown written => rfl
  | direct =>
    have hdirect : value? (now fun w => a.readDirect w h f) (w, c) =
        value? (now fun w => a.readDirect w h f) (w, c') := by
      simp only [value?, now, Engine.readDirect, bind_apply]
      cases a.registry.getPath w.heap h f.property with
      | error failure => rfl
      | ok v =>
        simp only [Reading.lift]
        cases render? a.settings (fun g => (w.heap.get g).identifier) v <;> rfl
    simp [MappingKind.strategy?, readBy, hdirect]
  | constant => simp [MappingKind.strategy?, readBy, hlift fun _ => a.readConstant f]
  | computedConstant => simp [MappingKind.strategy?, readBy, hlift fun _ => a.readConstant f]
  | path => simp [MappingKind.strategy?, readBy, hlift fun w => a.readPath w h f]

end

/-! ### Reference fields -/

/-- Two ways to read nested records come to the same while at most `n` objects are unvisited,
whatever the names of the fields. -/
def NestsAlike (I : World → Prop) (n : Nat)
    (nested nested' : Handle → Entity → ActiveReading Record) : Prop :=
  ∀ (h : Handle) (entity : Entity) (s : World × Context), h < s.1.heap.length →
    I s.1 → .of s.1.heap h ∉ s.2.visited →
    unvisited s.1.heap s.2.visited ≤ n →
    Agree False (fun _ => False) (fun _ s' => Follows I s s') s (nested h entity) (nested' h entity)

theorem readRelated_alike (hnests : NestsAlike I n nested nested') (f : Field) {h : Handle}
    {s : World × Context} (hh : h < s.1.heap.length) (hI : I s.1)
    (hs : unvisited s.1.heap s.2.visited ≤ n) :
    Agree False (fun _ => False) (fun _ s' => Follows I s s') s
      (a.readRelated nested f h) (a.readRelated nested' f h) := by
  unfold readRelated
  refine Agree.bind (P := fun t s' => s = t ∧ s = s') ⟨rfl, rfl, rfl⟩ ?_
  rintro _ _ ⟨rfl, rfl⟩
  split
  · exact .pure (.refl hI)
  · next hseen =>
    have hnew : .of s.1.heap h ∉ s.2.visited := by simpa [Context.isVisited] using hseen
    split
    · exact (hnests h _ s hh hI hnew hs).map fun _ _ hfollows => hfollows
    · exact .pure (.refl hI)

/-- Each item is read in the world that the items before it leave. -/
theorem readItems_alike (hnests : NestsAlike I n nested nested') (f : Field)
    {items : List PropertyValue} {s : World × Context}
    (hitems : ∀ h, .reference h ∈ items → h < s.1.heap.length)
    (hI : I s.1) (hs : unvisited s.1.heap s.2.visited ≤ n) :
    Agree False (fun _ => False) (fun _ s' => Follows I s s') s
      (items.mapM (a.readItem nested f)) (items.mapM (a.readItem nested' f)) := by
  induction items generalizing s with
  | nil => exact .pure (.refl hI)
  | cons item rest ih =>
    have hitem : Agree False (fun _ => False) (fun _ s' => Follows I s s') s
        (a.readItem nested f item) (a.readItem nested' f item) := by
      cases item with
      | reference h => exact readRelated_alike hnests f (hitems h (by simp)) hI hs
      | _ => exact .pure (.refl hI)
    rw [List.mapM_cons, List.mapM_cons]
    refine hitem.bind fun v s' hs' => ?_
    have hrest : ∀ h, .reference h ∈ rest → h < s'.1.heap.length := fun h hh =>
      hs'.heap.length ▸ hitems h (List.mem_cons_of_mem _ hh)
    refine (ih hrest hs'.world (hs'.unvisited_le hs)).bind fun vs s'' hs'' => ?_
    exact .pure (hs'.trans hs'')

theorem readReference_alike (hsteady : a.Steady I) (hnests : NestsAlike I n nested nested')
    {h : Handle} (f : Field) {s : World × Context} (hh : h < s.1.heap.length) (hI : I s.1)
    (hs : unvisited s.1.heap s.2.visited ≤ n) :
    Agree False (fun s' => Follows I s s') (fun _ s' => Follows I s s') s
      (a.readReference nested h f) (a.readReference nested' h f) := by
  unfold readReference
  cases hget : a.registry.getPath s.1.heap h f.property with
  | error failure =>
    unfold Agree
    rw [bind_apply, bind_apply, now_lift, hget]
    exact ⟨rfl, .refl hI⟩
  | ok v =>
    have hlt {g : Handle} (hg : g ∈ v.references) : g < s.1.heap.length :=
      Registry.getPath_lt (hsteady.closed _ hI) hh hget hg
    have hnow : Agree False (fun s' => Follows I s s') (fun u s' => v = u ∧ s = s') s
        (now fun w => Reading.lift (a.registry.getPath w.heap h f.property))
        (now fun w => Reading.lift (a.registry.getPath w.heap h f.property)) := by
      unfold Agree
      rw [now_lift, hget]
      exact ⟨rfl, rfl, rfl⟩
    refine hnow.bind ?_
    rintro _ _ ⟨rfl, rfl⟩
    cases v with
    | null => exact .pure (.refl hI)
    | reference g =>
      exact (readRelated_alike hnests f (hlt (by simp [PropertyValue.references])) hI hs).mono
        (fun _ => False.elim) fun _ _ hfollows => hfollows
    | list items =>
      have hitems : ∀ g, .reference g ∈ items → g < s.1.heap.length := fun g hg =>
        hlt (by simpa [PropertyValue.references] using ⟨_, hg, rfl⟩)
      refine ((readItems_alike hnests f hitems hI hs).mono (fun _ => False.elim)
        fun _ _ h => h).map ?_
      exact fun _ _ hfollows => hfollows
    | _ => exact .throw (.refl hI)

section

variable (hformats : ∀ v, a.settings.covers v = true) (hsteady : a.Steady I)
include hformats hsteady

/-- No field stops a reading. -/
theorem readEntry_alike (hnests : NestsAlike I n nested nested') {h : Handle} (f : Field)
    {s : World × Context} (hh : h < s.1.heap.length) (hI : I s.1)
    (hs : unvisited s.1.heap s.2.visited ≤ n) :
    Agree False (fun _ => False) (fun _ s' => Follows I s s') s
      (a.readEntry nested h f) (a.readEntry nested' h f) := by
  by_cases hkind : f.kind = .reference
  · unfold readEntry
    rw [hkind]
    exact agree_orNull (readReference_alike hsteady hnests f hh hI hs)
  · obtain ⟨w', hread, hfollows, -⟩ :=
      readEntry_alone nested hformats hsteady hh hI hkind
    refine ⟨congrFun (readEntry_congr nested nested' hkind) s, ?_⟩
    rw [hread]
    exact hfollows

theorem readEntries_alike (hnests : NestsAlike I n nested nested') {h : Handle}
    (record : Record) (fields : List Field) {s : World × Context} (hh : h < s.1.heap.length)
    (hI : I s.1) (hs : unvisited s.1.heap s.2.visited ≤ n) :
    Agree False (fun _ => False) (fun _ s' => Follows I s s') s
      (a.readEntries nested h record fields) (a.readEntries nested' h record fields) := by
  induction fields generalizing record s with
  | nil => exact .pure (.refl hI)
  | cons f rest ih =>
    unfold readEntries
    refine (readEntry_alike hformats hsteady hnests f hh hI hs).bind fun v s' hs' => ?_
    exact (ih _ (hs'.heap.length ▸ hh) hs'.world (hs'.unvisited_le hs)).mono (fun _ => id)
      fun _ _ => hs'.trans

/-- The visit of an object that was not visited before makes up for the level that is lost. -/
theorem readNested_alike {d d' : Nat} (hd : n ≤ d) (hd' : n ≤ d') :
    NestsAlike I n (fun h entity => a.readNested d h entity.fields)
      (fun h entity => a.readNested d' h entity.fields) := by
  induction n generalizing d d' with
  | zero =>
    intro h entity s hh hI hnew hs
    have := unvisited_visit_lt hh hnew
    omega
  | succ n ih =>
    intro h entity s hh hI hnew hs
    obtain ⟨d, rfl⟩ : ∃ k, d = k + 1 := ⟨d - 1, by omega⟩
    obtain ⟨d', rfl⟩ : ∃ k, d' = k + 1 := ⟨d' - 1, by omega⟩
    have hvisit : (s.2.visit (.of s.1.heap h)).visited = s.2.visited ++ [.of s.1.heap h] := by
      simp [Context.visit, Context.isVisited, hnew]
    have hs' : unvisited s.1.heap (s.2.visit (.of s.1.heap h)).visited ≤ n := by
      rw [hvisit]
      have := unvisited_visit_lt hh hnew
      omega
    refine Agree.bind (P := fun _ s' => (s.1, s.2.visit (.of s.1.heap h)) = s') ⟨rfl, rfl⟩ ?_
    rintro _ _ rfl
    refine (readEntries_alike hformats hsteady (s := (s.1, s.2.visit (.of s.1.heap h)))
      (ih (by omega) (by omega)) [] entity.fields hh hI hs').mono (fun _ => id)
      fun _ _ hfollows => ?_
    exact (Follows.visit hI _).trans hfollows

end

end ActiveEngine

end Fieldwise
