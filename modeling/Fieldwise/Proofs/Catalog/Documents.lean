import Fieldwise.CommandLine
import Fieldwise.Proofs.Catalog.Index
import Fieldwise.Proofs.Json.Building
import Mathlib.Data.List.Nodup

/-!
A catalog can be read back from each of its texts: the document in the current layout, the document
in the layout before it and the list of its projections alone. Records are read back field by
field: those that were left out get the default that they were left out for.
-/

namespace Fieldwise

open Json (Node)

theorem MappingKind.ofText_name_ofText (s : String) : ofText (ofText s).name = ofText s := by
  by_cases h : (ofText s).isKnown
  · exact ofText_name h
  · have hunknown : ofText s = .unknown s := by
      unfold ofText at h ⊢
      cases hfind : known.find? fun kind => letters kind.name.toList == letters s.toList with
      | none => rfl
      | some kind =>
        have hall : ∀ kind ∈ known, kind.isKnown := by decide
        exact absurd (hall kind (List.mem_of_find?_eq_some hfind)) (by simpa [hfind] using h)
    rw [hunknown]
    exact hunknown

namespace Json

theorem charsOf?_unit {n : Nat} (h : n < 0xD800) (rest : List TextPart) :
    charsOf? (.unit n :: rest) = (charsOf? rest).map (Char.ofNat n :: ·) := by
  -- the equations of `charsOf?` look at the part after a unit
  cases rest with
  | nil => simp [charsOf?, h]
  | cons part rest => cases part <;> simp [charsOf?, h]

theorem charsOf?_map_ofChar (cs : List Char) : charsOf? (cs.map .ofChar) = some cs := by
  induction cs with
  | nil => rfl
  | cons c cs ih =>
    rw [List.map_cons, TextPart.ofChar]
    split
    next h =>
      rw [charsOf?_unit (by omega), ih]
      simp
    next =>
      rw [charsOf?, ih]
      rfl

@[simp] theorem textOf?_textParts (s : String) : textOf? (textParts s) = some s := by
  simp [textOf?, textParts, charsOf?_map_ofChar]

@[simp] theorem integer?_numeral (i : Int) : (Number.integer i).numeral.integer? = some i := by
  rw [Scanner.numeral_integer]
  by_cases h : i < 0
  · have hne : i.natAbs ≠ 0 := by omega
    have hneg : -(i.natAbs : Int) = i := by omega
    simp only [Numeral.integer?, h, List.isEmpty_nil, Option.isNone_none, Bool.and_self, if_true,
      Text.numeralValue_numeral, hne, if_false, hneg, decide_true]
  · have hpos : (i.natAbs : Int) = i := by omega
    simp only [Numeral.integer?, h, List.isEmpty_nil, Option.isNone_none, Bool.and_self, if_true,
      Text.numeralValue_numeral, Bool.false_eq_true, if_false, hpos, decide_false]

theorem fields?_object (known : List String) (hknown : known.Nodup)
    {fields : List (String × Json)} (hnames : (fields.map Prod.fst).Sublist known) :
    (object fields).node.fields? known =
      some (known.map fun name => (Table.get? name fields).map node) := by
  have hnamed : (fieldNodes fields).mapM (fun member => (textOf? member.1).map (·, member.2)) =
      some (fields.map fun field => (field.1, field.2.node)) := by
    clear hnames
    induction fields with
    | nil => rfl
    | cons field rest ih =>
      rw [fieldNodes_eq] at ih
      simp [ih]
  have honce : ¬ (known.any fun name => 1 < (fields.map Prod.fst).count name) := by
    have hcount := List.nodup_iff_count_le_one.mp (hnames.nodup hknown)
    simp [hcount]
  have hkeys : (fields.map fun field => (field.1, field.2.node)).map Prod.fst =
      fields.map Prod.fst := by
    simp
  simp only [node, Node.fields?, hnamed, Option.bind_eq_bind, Option.bind_some, hkeys, honce,
    Bool.false_eq_true, if_false, Table.get?_map]

@[simp] theorem text?_node_text (s : String) : (text s).node.text? = some s :=
  textOf?_textParts s

theorem get?_optionalField (name key : String) (value : Option String) :
    Table.get? key (optionalField name value) = if name = key then value.map .text else none := by
  cases value <;> simp [optionalField, Table.get?]

theorem keys_optionalField_sublist (name : String) (value : Option String) :
    ((optionalField name value).map Prod.fst).Sublist [name] := by
  cases value <;> simp [optionalField]

theorem allIntegral_optionalField (name : String) (value : Option String) :
    AllFieldsIntegral (optionalField name value) := by
  cases value <;> simp [optionalField, Integral]

/-- What is written of a text that may be missing is read back, present or missing. -/
@[simp] theorem optional?_map_text (value : Option String) :
    Node.orDefault? none (Node.optional? Node.text?) (value.map (node ∘ text)) = some value := by
  cases value with
  | none => rfl
  | some s =>
    have hread : (text s).node.optional? Node.text? = some (some s) := by
      simp [node, Node.optional?, Node.text?]
    exact hread

@[simp] theorem boolean?_node_boolean (b : Bool) : (boolean b).node.boolean? = some b := rfl

theorem natBelow?_ofNat {n bound : Nat} (h : n < bound) :
    (ofNat n).node.natBelow? bound = some n := by
  simp [ofNat, ofInt, node, Node.natBelow?, h]

@[simp] theorem Node.orDefault?_some {α : Type} (default : α) (value? : Node → Option α)
    (node : Node) : Node.orDefault? default value? (some node) = value? node := rfl

theorem list?_map {α : Type} {ofNode? : Node → Option α} {toJson : α → Json} (items : List α)
    (h : ∀ item ∈ items, ofNode? (toJson item).node = some item) :
    Node.list? ofNode? (array (items.map toJson)).node = some items := by
  simp only [node, itemNodes_eq, List.map_map, Node.list?]
  induction items with
  | nil => rfl
  | cons item rest ih =>
    simp [h item (by simp), ih fun item hitem => h item (by simp [hitem])]

theorem allFieldsIntegral_append {front back : List (String × Json)} :
    AllFieldsIntegral (front ++ back) ↔ AllFieldsIntegral front ∧ AllFieldsIntegral back := by
  simp [or_imp, forall_and]

end Json

open Json (allFieldsIntegral_append allIntegral_optionalField keys_optionalField_sublist)

namespace Field

theorem integral_toJson (f : Field) : f.toJson.Integral := by
  simp only [toJson, Json.Integral, allFieldsIntegral_append, allIntegral_optionalField, and_true]
  simp [Json.Integral]

theorem ofNode?_toJson {f : Field} {written : String} (hkind : f.kind = .ofText written) :
    ofNode? f.toJson.node = some f := by
  have hread : MappingKind.ofText f.kind.name = f.kind := by
    rw [hkind, MappingKind.ofText_name_ofText]
  rw [ofNode?, toJson, Json.fields?_object recordNames (by decide)]
  · simp [recordNames, Table.get?_append, Json.get?_optionalField, Table.get?, hread]
  · simp only [List.map_append]
    exact ((((List.Sublist.refl ["name", "property", "mapping_kind", "mandatory"]).append
      (keys_optionalField_sublist _ _)).append (keys_optionalField_sublist _ _)).append
      (keys_optionalField_sublist _ _)).append (keys_optionalField_sublist _ _) |>.append
      (keys_optionalField_sublist _ _)

end Field

namespace Entity

theorem integral_toJson (e : Entity) : e.toJson.Integral := by
  simp only [toJson, Json.Integral, allFieldsIntegral_append, allIntegral_optionalField, and_true]
  simp [Json.Integral, Field.integral_toJson]

theorem ofNode?_toJson {e : Entity} (hkinds : ∀ f ∈ e.fields, ∃ written, f.kind = .ofText written) :
    ofNode? e.toJson.node = some e := by
  have hfields := Json.list?_map e.fields fun f hf =>
    have ⟨_, hkind⟩ := hkinds f hf
    Field.ofNode?_toJson hkind
  rw [ofNode?, toJson, Json.fields?_object recordNames (by decide)]
  · simp [recordNames, Table.get?_append, Json.get?_optionalField, Table.get?, hfields]
  · simp only [List.map_append]
    exact (((List.Sublist.refl ["id", "name", "table_id"]).append
      (keys_optionalField_sublist _ _)).append (List.Sublist.refl ["rest_endpoint", "fields"])).append
      (keys_optionalField_sublist _ _)

end Entity

namespace Projection

theorem integral_toJson (p : Projection) : p.toJson.Integral := by
  simp only [toJson, Json.Integral, allFieldsIntegral_append, allIntegral_optionalField]
  simp [Json.Integral, Entity.integral_toJson]

theorem ofNode?_toJson {p : Projection}
    (hkinds : ∀ e ∈ p.entities, ∀ f ∈ e.fields, ∃ written, f.kind = .ofText written) :
    ofNode? p.toJson.node = some p := by
  have hentities := Json.list?_map p.entities fun e he =>
    Entity.ofNode?_toJson (hkinds e he)
  rw [ofNode?, toJson, Json.fields?_object recordNames (by decide)]
  · simp [recordNames, Table.get?_append, Json.get?_optionalField, Table.get?, hentities]
  · simp only [List.map_append]
    exact ((List.Sublist.refl ["id", "name"]).append (keys_optionalField_sublist _ _)).append
      (List.Sublist.refl ["entities"])

/-- All kinds of fields in the projections come from texts, as those of every catalog that was
read do. -/
def KindsWritten (ps : List Projection) : Prop :=
  ∀ p ∈ ps, ∀ e ∈ p.entities, ∀ f ∈ e.fields, ∃ written, f.kind = .ofText written

theorem list?_ofNode? {ps : List Projection} (hkinds : KindsWritten ps) :
    Node.list? ofNode? (Json.array (ps.map toJson)).node = some ps :=
  Json.list?_map ps fun p hp => ofNode?_toJson (hkinds p hp)

theorem integral_list (ps : List Projection) : (Json.array (ps.map toJson)).Integral := by
  simp [Json.Integral, integral_toJson]

end Projection

theorem Json.recordOfText_pretty_append {α : Type} (ofNode? : Node → Option α) {v : Json}
    (hv : v.Integral) (spaces : String) (hspaces : ∀ c ∈ spaces.toList, Scanner.isSpace c) :
    recordOfText ofNode? (v.pretty ++ spaces) =
      match ofNode? v.node with
      | some a => .ok a
      | none => .error .invalidJson := by
  rw [recordOfText, ofText?_pretty_append hv hspaces]
  rfl

namespace CatalogDocument

theorem integral_toJson (d : CatalogDocument) : d.toJson.Integral := by
  simp [toJson, Json.Integral, Projection.integral_toJson, Json.ofNat, Json.ofInt]

theorem ofNode?_toJson {d : CatalogDocument} (hversion : d.version < 2 ^ 32)
    (hkinds : Projection.KindsWritten d.projections) : ofNode? d.toJson.node = some d := by
  have hread := Json.natBelow?_ofNat hversion
  have hprojections := Projection.list?_ofNode? hkinds
  rw [ofNode?, toJson, Json.fields?_object ["schema_version", "projections"] (by decide)]
  · simp [Table.get?, hread, hprojections]
  · exact List.Sublist.refl _

/-- A list of projections is never taken for a document: where the version would stand, there is
no number. -/
theorem ofNode?_projections (ps : List Projection) :
    ofNode? (Json.array (ps.map Projection.toJson)).node = none := by
  have hversion (p : Projection) : p.toJson.node.natBelow? (2 ^ 32) = none := rfl
  match ps with
  | [] => rfl
  | [p] => simp [ofNode?, Json.node, Node.fields?, hversion]
  | [p, q] => simp [ofNode?, Json.node, Node.fields?, hversion]
  | p :: q :: r :: rest => simp [ofNode?, Json.node, Node.fields?]

theorem projectionsOfText_text {d : CatalogDocument} (hversion : d.version ≤ currentVersion)
    (hkinds : Projection.KindsWritten d.projections) :
    projectionsOfText d.text = .ok d.projections := by
  have hbound : d.version < 2 ^ 32 := Nat.lt_of_le_of_lt hversion (by decide)
  have hread : ofText d.text = .ok d := by
    have h := Json.recordOfText_pretty_append ofNode? d.integral_toJson "" (by simp)
    rwa [String.append_empty, ofNode?_toJson hbound hkinds] at h
  rw [projectionsOfText, hread]
  simp only [migrate, Nat.not_lt.mpr hversion, if_false]
  rfl

theorem projectionsOfText_list {ps : List Projection} (hkinds : Projection.KindsWritten ps)
    (spaces : String) (hspaces : ∀ c ∈ spaces.toList, Json.Scanner.isSpace c) :
    projectionsOfText ((Json.array (ps.map Projection.toJson)).pretty ++ spaces) = .ok ps := by
  have hdocument : ofText ((Json.array (ps.map Projection.toJson)).pretty ++ spaces) =
      .error .invalidJson := by
    rw [ofText, Json.recordOfText_pretty_append _ (Projection.integral_list ps) spaces hspaces,
      ofNode?_projections]
  rw [projectionsOfText, hdocument]
  simp only
  rw [Json.recordOfText_pretty_append _ (Projection.integral_list ps) spaces hspaces,
    Projection.list?_ofNode? hkinds]

end CatalogDocument

namespace Catalog

/-- Every catalog is read back from its text, from its document in the layout before and from the
list of its projections, which the command for a catalog prints. -/
theorem ofText_texts {ps : List Projection} {c : Catalog} (hc : ofProjections ps = .ok c)
    (hkinds : ∀ p ∈ ps, ∀ e ∈ p.entities, ∀ f ∈ e.fields,
      ∃ written, f.kind = MappingKind.ofText written) :
    c.projections = ps ∧
    ofText c.text = .ok c ∧
    ofText (CatalogDocument.text ⟨0, ps⟩) = .ok c ∧
    ofText (Json.array (ps.map Projection.toJson)).pretty = .ok c ∧
    ∀ coloured t path, CommandLine.load t path = .ok c →
      ∃ text, CommandLine.Command.run coloured t (.info path none true) = .ok ⟨0, text⟩ ∧
        ofText text = .ok c := by
  obtain rfl := projections_of_ofProjections hc
  have hread {s : String} (h : CatalogDocument.projectionsOfText s = .ok c.projections) :
      ofText s = .ok c := by
    rw [ofText, h]
    exact hc
  have hlist (spaces : String) (hspaces : ∀ char ∈ spaces.toList, Json.Scanner.isSpace char) :=
    hread (CatalogDocument.projectionsOfText_list hkinds spaces hspaces)
  refine ⟨rfl, ?_, ?_, ?_, fun coloured t path hload => ?_⟩
  · exact hread (CatalogDocument.projectionsOfText_text (d := c.document) (Nat.le_refl 1) hkinds)
  · exact hread (CatalogDocument.projectionsOfText_text (d := ⟨0, _⟩) (Nat.zero_le 1) hkinds)
  · simpa using hlist "" (by simp)
  · refine ⟨_, ?_, hlist "\n" (by simp [Json.Scanner.isSpace])⟩
    simp [CommandLine.Command.run, hload, CommandLine.select]
    rfl

end Catalog

namespace Sample

/-- Texts that need escapes, and kinds that are written loosely or not known. -/
def oddProjections : List Projection := [
  { id := "", name := "odd", description := some "\x00\t\"\\" },
  { id := "P", name := "even", entities := [
      { id := "E", name := "\n", table := "é", externalName := some "", endpoint := false,
        fields := [
          .ofKind "a" (.ofText " entity-reference"),
          { name := "a", property := "", kind := .ofText "Kind\x1b", mandatory := true,
            constantId := some "/" }] }] }]

end Sample

theorem Catalog.oddProjections_ofText_texts : ∃ c, ofProjections Sample.oddProjections = .ok c ∧
    c.projections = Sample.oddProjections ∧ ofText c.text = .ok c ∧
    ofText (CatalogDocument.text ⟨0, Sample.oddProjections⟩) = .ok c ∧
    ofText (Json.array (Sample.oddProjections.map Projection.toJson)).pretty = .ok c := by
  have hc : ofProjections Sample.oddProjections =
      .ok ⟨Sample.oddProjections, [("odd", 0), ("even", 1)], [("E", (1, 0))]⟩ := by
    have hodd : Text.lowercase "odd" = "odd" := by decide +kernel
    have heven : Text.lowercase "even" = "even" := by decide +kernel
    simp only [ofProjections, Index.addProjections, Sample.oddProjections, hodd, heven]
    rfl
  have hread := ofText_texts hc (by
    intro p hp e he f hf
    simp only [Sample.oddProjections, List.mem_cons, List.not_mem_nil, or_false] at hp
    rcases hp with rfl | rfl
    · simp at he
    · simp only [List.mem_singleton] at he
      subst he
      simp only [List.mem_cons, List.not_mem_nil, or_false] at hf
      rcases hf with rfl | rfl
      · exact ⟨" entity-reference", rfl⟩
      · exact ⟨"Kind\x1b", rfl⟩)
  exact ⟨_, hc, hread.1, hread.2.1, hread.2.2.1, hread.2.2.2.1⟩

end Fieldwise
