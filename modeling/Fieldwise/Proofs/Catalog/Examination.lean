import Fieldwise.Proofs.Catalog.Index
import Fieldwise.Sample.Engine
import Mathlib.Data.List.Nodup

/-!
The examination of a catalog by all rules and the checks of its projections, one after the other up
to the first thing that is wrong, judge alike. What is wrong with a field or an entity on its own is
said once, and both find it; what the examination finds beside that is names that two entities
share and references that lead nowhere.
-/

namespace Fieldwise

/-! ### The verdict of a report -/

namespace Report

/-- The verdict of the report is about its problems. -/
def Consistent (r : Report) : Prop := r.isValid = r.problems.isEmpty

theorem consistent_clean : clean.Consistent := rfl

theorem consistent_ofProblem (p : Problem) : (ofProblem p).Consistent := rfl

theorem consistent_ofWarning (w : Warning) : (ofWarning w).Consistent := rfl

variable {r s : Report}

theorem Consistent.append (hr : r.Consistent) (hs : s.Consistent) : (r ++ s).Consistent := by
  unfold Consistent at *
  rw [isValid_append, hr, hs, Bool.eq_iff_iff]
  simp

theorem Consistent.onlyIf {condition : Bool} (h : r.Consistent) :
    (onlyIf condition r).Consistent := by
  cases condition
  · exact consistent_clean
  · exact h

theorem Consistent.gather {α : Type} {find : α → Report} {xs : List α}
    (h : ∀ x ∈ xs, (find x).Consistent) : (gather find xs).Consistent := by
  rw [Consistent, Bool.eq_iff_iff, List.isEmpty_iff, problems_gather_eq_nil]
  simp only [Report.gather, List.all_eq_true]
  refine forall₂_congr fun x hx => ?_
  rw [h x hx, List.isEmpty_iff]

theorem Consistent.isValid_iff (h : r.Consistent) : r.isValid = true ↔ r.problems = [] := by
  rw [h, List.isEmpty_iff]

theorem result_eq_ok_iff : r.result = .ok () ↔ r.isValid = true := by
  unfold result
  split
  · simp [*]
  · split <;> simp [*]

end Report

namespace Rule

open Report

theorem consistent_findProjection (p : Projection) : (findProjection p).Consistent :=
  (consistent_ofProblem _).onlyIf.append (consistent_ofWarning _).onlyIf

theorem consistent_findIdentity (projection : String) (earlier : List String) (e : Entity) :
    (findIdentity projection earlier e).Consistent := by
  refine (consistent_ofProblem _).onlyIf.append ?_
  split
  · exact consistent_ofProblem _
  · refine ((consistent_ofProblem _).onlyIf.append (consistent_ofProblem _).onlyIf).append ?_
    split
    · exact consistent_ofWarning _
    · exact (consistent_ofWarning _).onlyIf

theorem consistent_findIdentities (projection : String) (earlier : List String)
    (entities : List Entity) : (findIdentities projection earlier entities).Consistent := by
  induction entities generalizing earlier with
  | nil => exact consistent_clean
  | cons e rest ih => exact (consistent_findIdentity ..).append (ih _)

theorem consistent_findField (projection entity : String) (earlier : List String) (f : Field) :
    (findField projection entity earlier f).Consistent := by
  unfold findField
  split
  · exact consistent_ofProblem _
  · refine (consistent_ofProblem _).onlyIf.append ?_
    split
    · exact consistent_ofProblem _
    · refine Consistent.append ?_ (consistent_ofWarning _).onlyIf
      split
      · exact consistent_ofProblem _
      · exact consistent_clean

theorem consistent_findFields (projection entity : String) (earlier : List String)
    (fields : List Field) : (findFields projection entity earlier fields).Consistent := by
  induction fields generalizing earlier with
  | nil => exact consistent_clean
  | cons f rest ih => exact (consistent_findField ..).append (ih _)

theorem consistent_findTarget (c : Catalog) (projection entity : String) (f : Field) :
    (findTarget c projection entity f).Consistent := by
  unfold findTarget
  split
  · exact consistent_clean
  · exact (consistent_ofProblem _).onlyIf

theorem consistent_of_mem_all {rule : Rule} (h : rule ∈ all) (c : Catalog) :
    (rule.examine c).Consistent := by
  simp only [all, List.mem_cons, List.not_mem_nil, or_false] at h
  rcases h with rfl | rfl | rfl | rfl
  · exact .gather fun p _ => consistent_findProjection p
  · exact .gather fun p _ => consistent_findIdentities ..
  · exact .gather fun p _ => .gather fun e _ => consistent_findFields ..
  · exact .gather fun p _ => .gather fun e _ => .gather fun f _ => consistent_findTarget ..

end Rule

theorem Catalog.consistent_examine (c : Catalog) : c.examine.Consistent :=
  .gather fun _ hrule => Rule.consistent_of_mem_all hrule c

/-! ### What is wrong with one thing

Both ways of judging keep the names that came before, so what they find in a list is said with the
list of those names left open. -/

theorem nodup_disjoint_cons {α : Type} {a : α} {xs earlier : List α} :
    (a :: xs).Nodup ∧ (a :: xs).Disjoint earlier ↔
      a ∉ earlier ∧ xs.Nodup ∧ xs.Disjoint (a :: earlier) := by
  rw [List.nodup_cons, List.disjoint_cons_left, List.disjoint_cons_right]
  tauto

/-- The field can be used as far as it goes by itself: it has a name and what its kind needs. -/
structure Field.Complete (f : Field) : Prop where
  named : Text.isBlank f.name = false
  complete : f.problem? = none

theorem Field.complete_iff {f : Field} :
    f.Complete ↔ Text.isBlank f.name = false ∧ f.problem? = none :=
  ⟨fun h => ⟨h.named, h.complete⟩, fun h => ⟨h.1, h.2⟩⟩

theorem Field.problem?_of_unknown {f : Field} {written : String} (h : f.kind = .unknown written) :
    f.problem? = some s!"Unknown mapping kind '{written}'" := by
  simp only [problem?, h]

namespace Rule

open Report

theorem problems_findField_eq_nil {projection entity : String} {earlier : List String}
    {f : Field} : (findField projection entity earlier f).problems = [] ↔
      f.Complete ∧ f.name ∉ earlier := by
  unfold findField
  rw [Field.complete_iff]
  split
  · next hblank => simp [ofProblem, hblank]
  · next hblank =>
    rw [problems_append, List.append_eq_nil_iff, problems_onlyIf_eq_nil]
    split
    · next written hkind => simp [ofProblem, Field.problem?_of_unknown hkind]
    · rw [problems_append, List.append_eq_nil_iff, problems_onlyIf_eq_nil]
      cases f.problem? <;> simp [ofProblem, ofWarning, clean, hblank]

theorem problems_findFields_eq_nil {projection entity : String} {earlier : List String}
    {fields : List Field} : (findFields projection entity earlier fields).problems = [] ↔
      (∀ f ∈ fields, f.Complete) ∧
        (fields.map (·.name)).Nodup ∧ (fields.map (·.name)).Disjoint earlier := by
  induction fields generalizing earlier with
  | nil => simp [findFields, clean]
  | cons f rest ih =>
    rw [findFields, problems_append, List.append_eq_nil_iff, problems_findField_eq_nil, ih,
      List.forall_mem_cons, List.map_cons, nodup_disjoint_cons]
    tauto

end Rule

namespace Entity

theorem checkField_eq_ok {entity : String} {earlier : List String} {f : Field} :
    checkField entity earlier f = .ok () ↔ f.Complete ∧ f.name ∉ earlier := by
  unfold checkField
  rw [Field.complete_iff]
  split
  · next hblank => simp [hblank]
  · next hblank =>
    split
    · next hmem => simp [hmem]
    · next hmem =>
      split
      · next written hkind => simp [Field.problem?_of_unknown hkind]
      · cases f.problem? <;> simp [hblank, hmem]

theorem checkFields_eq_ok {entity : String} {earlier : List String} {fields : List Field} :
    checkFields entity earlier fields = .ok () ↔
      (∀ f ∈ fields, f.Complete) ∧
        (fields.map (·.name)).Nodup ∧ (fields.map (·.name)).Disjoint earlier := by
  induction fields generalizing earlier with
  | nil => simp [checkFields]
  | cons f rest ih =>
    rw [checkFields, except_seq_eq_ok, checkField_eq_ok, ih, List.forall_mem_cons,
      List.map_cons, nodup_disjoint_cons]
    tauto

/-- The entity says which it is and where its objects are. -/
structure Identified (e : Entity) : Prop where
  id : Text.isBlank e.id = false
  named : Text.isBlank e.name = false
  table : Text.isBlank e.table = false

theorem identified_iff {e : Entity} : e.Identified ↔ Text.isBlank e.id = false ∧
    Text.isBlank e.name = false ∧ Text.isBlank e.table = false :=
  ⟨fun h => ⟨h.id, h.named, h.table⟩, fun h => ⟨h.1, h.2.1, h.2.2⟩⟩

/-- The entity can be used as far as it goes by itself. -/
structure Complete (e : Entity) : Prop where
  identified : e.Identified
  fields : ∀ f ∈ e.fields, f.Complete
  fieldNames : (e.fields.map (·.name)).Nodup

theorem complete_iff {e : Entity} : e.Complete ↔
    e.Identified ∧ (∀ f ∈ e.fields, f.Complete) ∧ (e.fields.map (·.name)).Nodup :=
  ⟨fun h => ⟨h.identified, h.fields, h.fieldNames⟩, fun h => ⟨h.1, h.2.1, h.2.2⟩⟩

theorem check_eq_ok {e : Entity} : e.check = .ok () ↔ e.Complete := by
  unfold check
  rw [complete_iff, identified_iff]
  split
  · simp [*]
  · split
    · simp [*]
    · split
      · simp [*]
      · rw [checkFields_eq_ok]
        simp [*]

end Entity

namespace Rule

open Report

theorem problems_findIdentity_eq_nil {projection : String} {earlier : List String} {e : Entity} :
    (findIdentity projection earlier e).problems = [] ↔
      e.Identified ∧ Text.lowercase e.name ∉ earlier := by
  unfold findIdentity
  rw [Entity.identified_iff, problems_append, List.append_eq_nil_iff, problems_onlyIf_eq_nil]
  split
  · next hblank => simp [ofProblem, hblank]
  · next hblank =>
    rw [problems_append, problems_append, List.append_eq_nil_iff, List.append_eq_nil_iff,
      problems_onlyIf_eq_nil, problems_onlyIf_eq_nil]
    split
    · simp [ofProblem, ofWarning, hblank, and_assoc]
    · rw [problems_onlyIf_eq_nil]
      simp [ofProblem, ofWarning, hblank, and_assoc]

theorem problems_findIdentities_eq_nil {projection : String} {earlier : List String}
    {entities : List Entity} : (findIdentities projection earlier entities).problems = [] ↔
      (∀ e ∈ entities, e.Identified) ∧ (entities.map (Text.lowercase ·.name)).Nodup ∧
        (entities.map (Text.lowercase ·.name)).Disjoint earlier := by
  induction entities generalizing earlier with
  | nil => simp [findIdentities, clean]
  | cons e rest ih =>
    rw [findIdentities, problems_append, List.append_eq_nil_iff, problems_findIdentity_eq_nil, ih,
      List.forall_mem_cons, List.map_cons, nodup_disjoint_cons]
    tauto

theorem problems_findProjection_eq_nil {p : Projection} :
    (findProjection p).problems = [] ↔ Text.isBlank p.name = false := by
  rw [findProjection, problems_append, List.append_eq_nil_iff, problems_onlyIf_eq_nil,
    problems_onlyIf_eq_nil]
  simp [ofProblem, ofWarning]

theorem problems_findTarget_eq_nil {c : Catalog} {projection entity : String} {f : Field} :
    (findTarget c projection entity f).problems = [] ↔
      ∀ target, f.relatedId = some target → (c.entity? target).isSome = true := by
  unfold findTarget
  split
  · next hnone => simp [clean, hnone]
  · next target hsome =>
    rw [problems_onlyIf_eq_nil]
    simp [ofProblem, hsome, Option.isSome_iff_ne_none]

end Rule

theorem Projection.check_eq_ok {p : Projection} :
    p.check = .ok () ↔ Text.isBlank p.name = false ∧ ∀ e ∈ p.entities, e.Complete := by
  unfold check
  split
  · simp [*]
  · rw [except_forM_eq_ok]
    simp [*, Entity.check_eq_ok]

theorem Field.isMissing_eq_false {s : Option String} :
    isMissing s = false ↔ ∃ text, s = some text ∧ Text.isBlank text = false := by
  cases s <;> simp [isMissing]

namespace Field.Complete

variable {f : Field}

theorem exists_relatedId (h : f.Complete) (hkind : f.kind = .reference) :
    ∃ target, f.relatedId = some target ∧ Text.isBlank target = false := by
  have hcomplete := h.complete
  simp only [problem?, hkind] at hcomplete
  split at hcomplete
  · cases hcomplete
  · next hpresent => exact isMissing_eq_false.mp (by simpa using hpresent)

theorem exists_strategy (h : f.Complete) : ∃ strategy, f.kind.strategy? = some strategy := by
  have hcomplete := h.complete
  cases hkind : f.kind with
  | unknown written => simp [problem?_of_unknown hkind] at hcomplete
  | _ => exact ⟨_, rfl⟩

theorem exists_path (h : f.Complete) (hkind : f.kind = .path) :
    ∃ expression path, f.path = some expression ∧ Json.Path.parse expression = .ok path := by
  have hcomplete := h.complete
  simp only [problem?, hkind] at hcomplete
  split at hcomplete
  · cases hcomplete
  · next expression hpath =>
    split at hcomplete
    · next path hparse => exact ⟨expression, path, hpath, hparse⟩
    · cases hcomplete

theorem exists_constantId (h : f.Complete) (hkind : f.kind.isConstant = true) :
    ∃ id, f.constantId = some id ∧ Text.isBlank id = false := by
  rw [← isMissing_eq_false]
  have hcomplete := h.complete
  cases hf : f.kind <;> simp_all [problem?, MappingKind.isConstant]

theorem exists_qualifier (h : f.Complete) (hkind : f.kind = .custom) :
    ∃ qualifier, f.qualifier = some qualifier ∧ Text.isBlank qualifier = false := by
  rw [← isMissing_eq_false]
  have hcomplete := h.complete
  simpa [problem?, hkind] using hcomplete

end Field.Complete

/-! ### What is wrong with a catalog -/

theorem Catalog.forall_mem_entities {c : Catalog} {P : Entity → Prop} :
    (∀ e ∈ c.entities, P e) ↔ ∀ p ∈ c.projections, ∀ e ∈ p.entities, P e := by
  simp only [entities, List.mem_flatMap]
  constructor
  · exact fun h p hp e he => h e ⟨p, hp, he⟩
  · rintro h e ⟨p, hp, he⟩
    exact h p hp e he

namespace Rule

open Report

variable {c : Catalog}

theorem problems_projections_eq_nil : (projections.examine c).problems = [] ↔
    ∀ p ∈ c.projections, Text.isBlank p.name = false :=
  problems_gather_eq_nil.trans (forall₂_congr fun _ _ => problems_findProjection_eq_nil)

theorem problems_identities_eq_nil : (identities.examine c).problems = [] ↔
    ∀ p ∈ c.projections, (∀ e ∈ p.entities, e.Identified) ∧
      (p.entities.map (Text.lowercase ·.name)).Nodup := by
  refine problems_gather_eq_nil.trans (forall₂_congr fun p _ => ?_)
  rw [problems_findIdentities_eq_nil, and_iff_left (List.disjoint_nil_right _)]

theorem problems_mappings_eq_nil : (mappings.examine c).problems = [] ↔
    ∀ e ∈ c.entities, (∀ f ∈ e.fields, f.Complete) ∧ (e.fields.map (·.name)).Nodup := by
  rw [Catalog.forall_mem_entities]
  refine problems_gather_eq_nil.trans (forall₂_congr fun p _ => ?_)
  refine problems_gather_eq_nil.trans (forall₂_congr fun e _ => ?_)
  rw [problems_findFields_eq_nil, and_iff_left (List.disjoint_nil_right _)]

theorem problems_targets_eq_nil : (targets.examine c).problems = [] ↔
    ∀ e ∈ c.entities, ∀ f ∈ e.referenceFields,
      ∀ target, f.relatedId = some target → (c.entity? target).isSome = true := by
  rw [Catalog.forall_mem_entities]
  refine problems_gather_eq_nil.trans (forall₂_congr fun p _ => ?_)
  refine problems_gather_eq_nil.trans (forall₂_congr fun e _ => ?_)
  exact problems_gather_eq_nil.trans (forall₂_congr fun f _ => problems_findTarget_eq_nil)

end Rule

namespace Catalog

variable {c : Catalog}

theorem problems_examine_eq_nil : c.examine.problems = [] ↔
    (Rule.projections.examine c).problems = [] ∧ (Rule.identities.examine c).problems = [] ∧
      (Rule.mappings.examine c).problems = [] ∧ (Rule.targets.examine c).problems = [] := by
  simp only [examine, examineBy, Report.problems_gather_eq_nil, Rule.all, List.forall_mem_cons,
    List.not_mem_nil, false_imp_iff, implies_true, and_true]

/-- What a catalog has that is found without problems. -/
structure Usable (c : Catalog) : Prop where
  projectionNames : ∀ p ∈ c.projections, Text.isBlank p.name = false
  entityNames : ∀ p ∈ c.projections, (p.entities.map (Text.lowercase ·.name)).Nodup
  entities : ∀ e ∈ c.entities, e.Complete
  targets : ∀ e ∈ c.entities, ∀ f ∈ e.fields, f.kind = .reference →
    ∃ target related, f.relatedId = some target ∧ c.entity? target = some related

/-- The rule about targets passes over a reference without one; the rule about fields does not. -/
theorem usable_iff : c.Usable ↔ c.examine.problems = [] := by
  rw [problems_examine_eq_nil, Rule.problems_projections_eq_nil, Rule.problems_identities_eq_nil,
    Rule.problems_mappings_eq_nil, Rule.problems_targets_eq_nil]
  constructor
  · intro h
    refine ⟨h.projectionNames, fun p hp => ⟨?_, h.entityNames p hp⟩,
      fun e he => ⟨(h.entities e he).fields, (h.entities e he).fieldNames⟩, ?_⟩
    · exact fun e he => (h.entities e (List.mem_flatMap.mpr ⟨p, hp, he⟩)).identified
    · intro e he f hf target htarget
      obtain ⟨hf, hkind⟩ := List.mem_filter.mp hf
      obtain ⟨target', related, htarget', hrelated⟩ := h.targets e he f hf (by simpa using hkind)
      obtain rfl : target' = target := Option.some.inj (htarget'.symm.trans htarget)
      exact Option.isSome_iff_exists.mpr ⟨related, hrelated⟩
  · rintro ⟨hprojections, hidentities, hmappings, htargets⟩
    have hidentified : ∀ e ∈ c.entities, e.Identified :=
      forall_mem_entities.mpr fun p hp => (hidentities p hp).1
    refine ⟨hprojections, fun p hp => (hidentities p hp).2,
      fun e he => ⟨hidentified e he, (hmappings e he).1, (hmappings e he).2⟩, ?_⟩
    intro e he f hf hkind
    obtain ⟨target, htarget, -⟩ := ((hmappings e he).1 f hf).exists_relatedId hkind
    have hmem : f ∈ e.referenceFields := List.mem_filter.mpr ⟨hf, by simp [hkind]⟩
    obtain ⟨related, hrelated⟩ := Option.isSome_iff_exists.mp (htargets e he f hmem target htarget)
    exact ⟨target, related, htarget, hrelated⟩

/-- The examination finds no problem exactly in a catalog of which every projection passes its own
check, no projection has two entities of one name in any letter case, and every reference leads to
an entity of the catalog; and its verdict, its list and its result tell the same. -/
theorem examine_clean_iff {ps : List Projection} (hc : ofProjections ps = .ok c) :
    (c.examine.problems = [] ↔
      (∀ p ∈ c.projections, p.check = .ok ()) ∧
      (∀ p ∈ c.projections, (p.entities.map (Text.lowercase ·.name)).Nodup) ∧
      ∀ e ∈ c.entities, ∀ f ∈ e.fields, f.kind = .reference →
        ∃ target ∈ c.entities, f.relatedId = some target.id) ∧
    (c.examine.isValid = true ↔ c.examine.problems = []) ∧
    (c.examine.hasProblems = false ↔ c.examine.problems = []) ∧
    (c.examine.result = .ok () ↔ c.examine.problems = []) := by
  have hvalid := c.consistent_examine.isValid_iff
  refine ⟨?_, hvalid, by simp [Report.hasProblems], Report.result_eq_ok_iff.trans hvalid⟩
  rw [← usable_iff]
  simp only [Projection.check_eq_ok]
  constructor
  · intro h
    refine ⟨fun p hp => ⟨h.projectionNames p hp, ?_⟩, h.entityNames, fun e he f hf hkind => ?_⟩
    · exact fun e he => h.entities e (List.mem_flatMap.mpr ⟨p, hp, he⟩)
    · obtain ⟨target, related, htarget, hrelated⟩ := h.targets e he f hf hkind
      obtain ⟨hmem, rfl⟩ := (entity?_eq_some_iff hc).mp hrelated
      exact ⟨related, hmem, htarget⟩
  · rintro ⟨hchecks, hnames, htargets⟩
    refine ⟨fun p hp => (hchecks p hp).1, hnames,
      forall_mem_entities.mpr fun p hp => (hchecks p hp).2, fun e he f hf hkind => ?_⟩
    obtain ⟨related, hmem, hrelated⟩ := htargets e he f hf hkind
    exact ⟨related.id, related, hrelated, (entity?_eq_some_iff hc).mpr ⟨hmem, rfl⟩⟩

theorem ofProjections_sample : ofProjections Sample.projections = .ok Sample.catalog := by
  have hsales : Text.lowercase "sales" = "sales" := by decide +kernel
  have hgraph : Text.lowercase "graph" = "graph" := by decide +kernel
  have hdocs : Text.lowercase "docs" = "docs" := by decide +kernel
  simp only [ofProjections, Index.addProjections, Sample.projections, hsales, hgraph, hdocs]
  rfl

/-- Two of the sample entities refer to each other, and two to themselves. -/
theorem sample_examine_clean : ofProjections Sample.projections = .ok Sample.catalog ∧
    Sample.catalog.examine.problems = [] ∧ Sample.catalog.examine.result = .ok () := by
  obtain ⟨hiff, -, -, hresult⟩ := examine_clean_iff ofProjections_sample
  have hclean := hiff.mpr ⟨by decide +kernel, by decide +kernel, by decide +kernel⟩
  exact ⟨ofProjections_sample, hclean, hresult.mpr hclean⟩

end Catalog

end Fieldwise
