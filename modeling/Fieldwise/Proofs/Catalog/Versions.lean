import Fieldwise.Catalog.Document
import Fieldwise.Proofs.Json.Layout

/-!
Documents of versions that are not known yet. What a document of a later version holds is looked at
in the current layout before its version is: the version is reported if all projections have that
layout, and otherwise the text counts as no document at all.
-/

namespace Fieldwise

open Json (LayoutField Node)
open Json.LayoutField (exists_bind_iff exists_some_iff)

namespace Field

def layout : List LayoutField := [
  ⟨"name", false, Node.IsText⟩,
  ⟨"property", true, Node.IsText⟩,
  ⟨"mapping_kind", false, Node.IsText⟩,
  ⟨"mandatory", true, Node.IsBoolean⟩,
  .optionalText "constant_id",
  .optionalText "json_path",
  .optionalText "custom_mapping_qualifier",
  .optionalText "related_entity_id",
  .optionalText "description"]

theorem exists_ofNode? {node : Node} : (∃ f, ofNode? node = some f) ↔ node.IsRecord layout := by
  have hnames : layout.map (·.name) = recordNames := rfl
  rw [Node.isRecord_iff, hnames, ofNode?]
  refine Json.exists_bind.trans (exists_congr fun given => and_congr_right fun _ => ?_)
  split
  · exact exists_bind_iff Node.exists_text? fun _ =>
      exists_bind_iff (Node.exists_orDefault? fun _ => Node.exists_text?) fun _ =>
      exists_bind_iff Node.exists_text? fun _ =>
      exists_bind_iff (Node.exists_orDefault? fun _ => Node.exists_boolean?) fun _ =>
      exists_bind_iff LayoutField.exists_optionalText? fun _ =>
      exists_bind_iff LayoutField.exists_optionalText? fun _ =>
      exists_bind_iff LayoutField.exists_optionalText? fun _ =>
      exists_bind_iff LayoutField.exists_optionalText? fun _ =>
      exists_bind_iff LayoutField.exists_optionalText? fun _ =>
      exists_some_iff _
  next hshape =>
    have hnone : ¬ List.Forall₂ LayoutField.Admits layout given := by
      simp only [layout, List.forall₂_cons_left_iff, List.forall₂_nil_left_iff,
        LayoutField.admits_required]
      grind
    simp [hnone]

end Field

namespace Entity

def layout : List LayoutField := [
  ⟨"id", false, Node.IsText⟩,
  ⟨"name", false, Node.IsText⟩,
  ⟨"table_id", false, Node.IsText⟩,
  .optionalText "external_name",
  ⟨"rest_endpoint", true, Node.IsBoolean⟩,
  ⟨"fields", true, Node.IsList (Node.IsRecord Field.layout)⟩,
  .optionalText "description"]

theorem exists_ofNode? {node : Node} : (∃ e, ofNode? node = some e) ↔ node.IsRecord layout := by
  have hnames : layout.map (·.name) = recordNames := rfl
  rw [Node.isRecord_iff, hnames, ofNode?]
  refine Json.exists_bind.trans (exists_congr fun given => and_congr_right fun _ => ?_)
  split
  · exact exists_bind_iff Node.exists_text? fun _ =>
      exists_bind_iff Node.exists_text? fun _ =>
      exists_bind_iff Node.exists_text? fun _ =>
      exists_bind_iff LayoutField.exists_optionalText? fun _ =>
      exists_bind_iff (Node.exists_orDefault? fun _ => Node.exists_boolean?) fun _ =>
      exists_bind_iff (Node.exists_orDefault? fun _ =>
        Node.exists_list? fun _ => Field.exists_ofNode?) fun _ =>
      exists_bind_iff LayoutField.exists_optionalText? fun _ =>
      exists_some_iff _
  next hshape =>
    have hnone : ¬ List.Forall₂ LayoutField.Admits layout given := by
      simp only [layout, List.forall₂_cons_left_iff, List.forall₂_nil_left_iff,
        LayoutField.admits_required]
      grind
    simp [hnone]

end Entity

namespace Projection

def layout : List LayoutField := [
  ⟨"id", false, Node.IsText⟩,
  ⟨"name", false, Node.IsText⟩,
  .optionalText "description",
  ⟨"entities", true, Node.IsList (Node.IsRecord Entity.layout)⟩]

theorem exists_ofNode? {node : Node} : (∃ p, ofNode? node = some p) ↔ node.IsRecord layout := by
  have hnames : layout.map (·.name) = recordNames := rfl
  rw [Node.isRecord_iff, hnames, ofNode?]
  refine Json.exists_bind.trans (exists_congr fun given => and_congr_right fun _ => ?_)
  split
  · exact exists_bind_iff Node.exists_text? fun _ =>
      exists_bind_iff Node.exists_text? fun _ =>
      exists_bind_iff LayoutField.exists_optionalText? fun _ =>
      exists_bind_iff (Node.exists_orDefault? fun _ =>
        Node.exists_list? fun _ => Entity.exists_ofNode?) fun _ =>
      exists_some_iff _
  next hshape =>
    have hnone : ¬ List.Forall₂ LayoutField.Admits layout given := by
      simp only [layout, List.forall₂_cons_left_iff, List.forall₂_nil_left_iff,
        LayoutField.admits_required]
      grind
    simp [hnone]

end Projection

namespace CatalogDocument

/-- What a document has to be given as its projections. -/
def projectionsField : LayoutField :=
  ⟨"projections", true, Node.IsList (Node.IsRecord Projection.layout)⟩

variable {s : String} {node : Node} {named : Table String Node} {version : Json.Numeral} {n : Nat}

theorem ofNode?_eq (hmembers : node.HasMembers named)
    (hversion : named.get? "schema_version" = some (.number version))
    (hinteger : version.integer? = some (n : Int)) (hbound : n < 2 ^ 32) :
    ofNode? node = (Node.orDefault? [] (Node.list? Projection.ofNode?)
      (named.get? "projections")).map fun projections => ⟨n, projections⟩ := by
  have hread : (Node.number version).natBelow? (2 ^ 32) = some n := by
    rw [Node.natBelow?, hinteger, Option.bind_some,
      if_pos ⟨Int.natCast_nonneg n, Int.ofNat_lt.mpr hbound⟩, Int.toNat_natCast]
  simp only [ofNode?, hmembers.fields?_eq, List.map_cons, List.map_nil, hversion,
    Option.bind_eq_bind, Option.bind_some, hread]
  cases Node.orDefault? [] (Node.list? Projection.ofNode?) (named.get? "projections") <;> rfl

theorem exists_projections? {given : Option Node} :
    (∃ ps, Node.orDefault? [] (Node.list? Projection.ofNode?) given = some ps) ↔
      projectionsField.Admits given :=
  Node.exists_orDefault? fun _ => Node.exists_list? fun _ => Projection.exists_ofNode?

theorem projectionsOfText_of_laterVersion (hnode : Node.ofText? s = some node)
    (hmembers : node.HasMembers named)
    (hversion : named.get? "schema_version" = some (.number version))
    (hinteger : version.integer? = some (n : Int)) (hlater : currentVersion < n)
    (hbound : n < 2 ^ 32) (hadmits : projectionsField.Admits (named.get? "projections")) :
    projectionsOfText s = .error (.schemaVersionMismatch currentVersion n) := by
  obtain ⟨ps, hps⟩ := exists_projections?.mpr hadmits
  have hread : ofText s = .ok ⟨n, ps⟩ := by
    rw [ofText, Json.recordOfText, hnode, Option.bind_some,
      ofNode?_eq hmembers hversion hinteger hbound, hps]
    rfl
  simp only [projectionsOfText, hread, migrate, hlater, if_true]
  rfl

theorem projectionsOfText_of_not_admits (hnode : Node.ofText? s = some node)
    (hmembers : node.HasMembers named)
    (hversion : named.get? "schema_version" = some (.number version))
    (hinteger : version.integer? = some (n : Int)) (hbound : n < 2 ^ 32)
    (hadmits : ¬ projectionsField.Admits (named.get? "projections")) :
    projectionsOfText s = .error .invalidJson := by
  have hnone : Node.orDefault? [] (Node.list? Projection.ofNode?) (named.get? "projections") =
      none := by
    by_contra hsome
    exact hadmits (exists_projections?.mp (Option.ne_none_iff_exists'.mp hsome))
  have hread : ofText s = .error .invalidJson := by
    rw [ofText, Json.recordOfText, hnode, Option.bind_some,
      ofNode?_eq hmembers hversion hinteger hbound, hnone]
    rfl
  -- an object is no list of projections either
  obtain ⟨members, rfl, -⟩ := hmembers
  simp [projectionsOfText, hread, Json.recordOfText, hnode, Node.list?]

end CatalogDocument

namespace Catalog

open CatalogDocument (currentVersion projectionsField)

/-- The version of a later document is reported exactly if what it has as projections still has
the current layout. Its other members do not count. -/
theorem ofText_laterVersion {s : String} {node : Node} {named : Table String Node}
    {version : Json.Numeral} {n : Nat} (hnode : Node.ofText? s = some node)
    (hmembers : node.HasMembers named)
    (hversion : named.get? "schema_version" = some (.number version))
    (hinteger : version.integer? = some (n : Int)) (hlater : currentVersion < n)
    (hbound : n < 2 ^ 32) :
    (ofText s = .error (.schemaVersionMismatch currentVersion n) ↔
      projectionsField.Admits (named.get? "projections")) ∧
    (ofText s = .error .invalidJson ↔ ¬ projectionsField.Admits (named.get? "projections")) := by
  by_cases hadmits : projectionsField.Admits (named.get? "projections")
  · have herror := CatalogDocument.projectionsOfText_of_laterVersion hnode hmembers hversion
      hinteger hlater hbound hadmits
    have hfails : ofText s = .error (.schemaVersionMismatch currentVersion n) := by
      rw [ofText, herror]
      rfl
    simp [hfails, hadmits]
  · have herror := CatalogDocument.projectionsOfText_of_not_admits hnode hmembers hversion
      hinteger hbound hadmits
    have hfails : ofText s = .error .invalidJson := by
      rw [ofText, herror]
      rfl
    simp [hfails, hadmits]

end Catalog

namespace Sample

/-- Of a version that knows views as well, which are none of a catalog's business. -/
def withViewsText : String :=
  "\x7b\"schema_version\": 2, \"projections\": [[\"P\", \"sales\"]], \"views\": 1e9999\x7d"

def withViews : Table String Node := [
  ("schema_version", .number ⟨false, ['2'], [], none⟩),
  ("projections", .array [.array [.text ("P".toList.map .char), .text ("sales".toList.map .char)]]),
  ("views", .number ⟨false, ['1'], [], some (false, ['9', '9', '9', '9'])⟩)]

/-- Of a version that has its projections by their names. -/
def projectionsByNameText : String := "\x7b\"schema_version\": 2, \"projections\": \x7b\x7d\x7d"

def projectionsByName : Table String Node := [
  ("schema_version", .number ⟨false, ['2'], [], none⟩),
  ("projections", .object [])]

def objectOf (named : Table String Node) : Node :=
  .object (named.map fun member => (member.1.toList.map .char, member.2))

end Sample

open Sample

theorem Catalog.withViews_reported :
    Node.ofText? withViewsText = some (objectOf withViews) ∧
    (objectOf withViews).HasMembers withViews ∧
    withViews.get? "schema_version" = some (.number ⟨false, ['2'], [], none⟩) ∧
    (⟨false, ['2'], [], none⟩ : Json.Numeral).integer? = some ((2 : Nat) : Int) ∧
    CatalogDocument.currentVersion < 2 ∧ 2 < 2 ^ 32 ∧
    ofText withViewsText = .error (.schemaVersionMismatch CatalogDocument.currentVersion 2) := by
  have hnode : Node.ofText? withViewsText = some (objectOf withViews) := by
    with_unfolding_all rfl
  have hmembers : (objectOf withViews).HasMembers withViews := ⟨_, rfl, rfl, by decide⟩
  have hprojection : Node.IsRecord Projection.layout
      (.array [.text ("P".toList.map .char), .text ("sales".toList.map .char)]) :=
    .placed 2 <|
      .cons ⟨_, rfl, rfl⟩ <| .cons ⟨_, rfl, rfl⟩ <| .cons rfl <| .cons rfl .nil
  have hadmits : CatalogDocument.projectionsField.Admits (withViews.get? "projections") :=
    ⟨_, rfl, List.forall_mem_singleton.mpr hprojection⟩
  exact ⟨hnode, hmembers, rfl, rfl, by decide, by decide,
    (ofText_laterVersion hnode hmembers rfl rfl (by decide) (by decide)).1.mpr hadmits⟩

/-- The version of an object with different names, which stands in the text, is not reported. -/
theorem Catalog.projectionsByName_unreported :
    Node.ofText? projectionsByNameText = some (objectOf projectionsByName) ∧
    (objectOf projectionsByName).HasMembers projectionsByName ∧
    projectionsByName.get? "schema_version" = some (.number ⟨false, ['2'], [], none⟩) ∧
    (⟨false, ['2'], [], none⟩ : Json.Numeral).integer? = some ((2 : Nat) : Int) ∧
    CatalogDocument.currentVersion < 2 ∧ 2 < 2 ^ 32 ∧
    ofText projectionsByNameText ≠
      .error (.schemaVersionMismatch CatalogDocument.currentVersion 2) := by
  have hnode : Node.ofText? projectionsByNameText = some (objectOf projectionsByName) := by
    with_unfolding_all rfl
  have hfails : ofText projectionsByNameText = .error .invalidJson := by
    with_unfolding_all rfl
  exact ⟨hnode, ⟨_, rfl, rfl, by decide⟩, rfl, rfl, by decide, by decide, by simp [hfails]⟩

end Fieldwise
