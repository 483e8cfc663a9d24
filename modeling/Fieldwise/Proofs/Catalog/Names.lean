import Fieldwise.Proofs.Catalog.Examination
import Fieldwise.Proofs.Text.Casing

/-!
Which entity a name leads to in a catalog without problems. Own names do not get in each other's
way: what is the same to a look-up is the same to the rule about duplicates. An external name can,
since the look-up takes the first entity that answers to the name and no rule compares external
names.
-/

namespace Fieldwise

/-- Whether the outside knows the entity by that name, besides its own. -/
def Entity.isAliased (e : Entity) (name : String) : Bool :=
  e.externalName.any (Text.sameIgnoringAsciiCase · name)

theorem Entity.answersTo_own_name (e : Entity) : e.answersTo e.name = true := by
  simp [answersTo, nameMatches, Text.sameIgnoringAsciiCase_refl]

namespace Catalog

variable {ps : List Projection} {c : Catalog} {p : Projection} {before after : List Entity}
  {e : Entity}

theorem entityIn_of_mem (hc : ofProjections ps = .ok c) (hp : p ∈ c.projections) {name : String} :
    c.entityIn p.name name = .ok e ↔ p.entity? name = some e := by
  have hfound : c.projection? p.name = some p := (projection?_eq_some_iff hc).mpr ⟨hp, rfl⟩
  simp only [entityIn, hfound]
  cases p.entity? name <;> simp

/-- In a catalog without problems, an entity is found by its own name exactly if no entity before it
in the projection has that name towards the outside. -/
theorem entityIn_own_name_iff (hc : ofProjections ps = .ok c) (hvalid : c.examine.isValid = true)
    (hp : p ∈ c.projections) (he : p.entities = before ++ e :: after) :
    c.entityIn p.name e.name = .ok e ↔ ∀ other ∈ before, other.isAliased e.name = false := by
  have husable := usable_iff.mpr (c.consistent_examine.isValid_iff.mp hvalid)
  have hnames := husable.entityNames p hp
  rw [he, List.map_append, List.map_cons, List.nodup_append] at hnames
  have hapart : ∀ other ∈ before, Text.lowercase other.name ≠ Text.lowercase e.name :=
    fun other hother => hnames.2.2 _ (List.mem_map_of_mem hother) _ List.mem_cons_self
  rw [entityIn_of_mem hc hp, Projection.entity?, he, List.find?_append]
  constructor
  · intro hfind other hother
    -- One that answers would be found before the entity itself, so the entity would stand twice.
    by_contra halias
    have hsome : (before.find? (·.answersTo e.name)).isSome = true := by
      rw [List.find?_isSome]
      exact ⟨other, hother, by simp_all [Entity.answersTo, Entity.isAliased]⟩
    obtain ⟨found, hfound⟩ := Option.isSome_iff_exists.mp hsome
    rw [hfound, Option.some_or, Option.some.injEq] at hfind
    exact hapart found (List.mem_of_find?_eq_some hfound) (by rw [hfind])
  · intro halias
    have hnone : before.find? (·.answersTo e.name) = none := by
      rw [List.find?_eq_none]
      intro other hother hanswers
      rcases Bool.or_eq_true _ _ ▸ hanswers with hname | hexternal
      · exact hapart other hother (Text.lowercase_eq_of_sameIgnoringAsciiCase hname)
      · exact absurd hexternal (by simpa [Entity.isAliased] using halias other hother)
    rw [hnone, Option.none_or, List.find?_cons, e.answersTo_own_name]

end Catalog

namespace Sample

/-- A product to us is a category to the outside. -/
def aliasedProduct : Entity := { productEntity with externalName := some "Category" }

def aliasedProjection : Projection where
  id := "P-SHOP"
  name := "shop"
  entities := [aliasedProduct, categoryEntity]

def aliasedCatalog : Catalog where
  projections := [aliasedProjection]
  index := {
    projections := [("shop", 0)]
    entities := [("PRD", (0, 0)), ("CAT", (0, 1))] }

theorem ofProjections_aliased : Catalog.ofProjections [aliasedProjection] = .ok aliasedCatalog := by
  have hshop : Text.lowercase "shop" = "shop" := by decide +kernel
  simp only [Catalog.ofProjections, Catalog.Index.addProjections, aliasedProjection, hshop]
  rfl

theorem aliased_isValid : aliasedCatalog.examine.isValid = true := by decide +kernel

end Sample

namespace Catalog

/-- The product is found by its own name, which the category has not, and the category is not. -/
theorem aliased_entityIn_own_name :
    ofProjections [Sample.aliasedProjection] = .ok Sample.aliasedCatalog ∧
    Sample.aliasedCatalog.examine.isValid = true ∧
    Sample.aliasedCatalog.entityIn "shop" "Product" = .ok Sample.aliasedProduct ∧
    Sample.aliasedCatalog.entityIn "shop" "Category" ≠ .ok Sample.categoryEntity := by
  have hproduct := entityIn_own_name_iff Sample.ofProjections_aliased Sample.aliased_isValid
    List.mem_cons_self
    (show Sample.aliasedProjection.entities = [] ++ Sample.aliasedProduct :: _ from rfl)
  have hcategory := entityIn_own_name_iff Sample.ofProjections_aliased Sample.aliased_isValid
    List.mem_cons_self
    (show Sample.aliasedProjection.entities =
      [Sample.aliasedProduct] ++ Sample.categoryEntity :: _ from rfl)
  refine ⟨Sample.ofProjections_aliased, Sample.aliased_isValid, hproduct.mpr (by simp), ?_⟩
  exact fun h => absurd (hcategory.mp h) (by decide)

/-- No rule finds fault with a catalog in which a name leads from one entity to another. -/
theorem category_shadowed :
    ofProjections [Sample.aliasedProjection] = .ok Sample.aliasedCatalog ∧
    Sample.aliasedCatalog.examine.problems = [] ∧
    Sample.categoryEntity ∈ Sample.aliasedProjection.entities ∧
    Sample.aliasedCatalog.entityIn Sample.aliasedProjection.name Sample.categoryEntity.name =
      .ok Sample.aliasedProduct ∧
    Sample.aliasedProduct ≠ Sample.categoryEntity := by
  have hfound : Sample.aliasedCatalog.projection? "shop" = some Sample.aliasedProjection :=
    (projection?_eq_some_iff Sample.ofProjections_aliased).mpr ⟨List.mem_cons_self, rfl⟩
  refine ⟨Sample.ofProjections_aliased,
    (consistent_examine _).isValid_iff.mp Sample.aliased_isValid, by decide, ?_, by decide⟩
  change Sample.aliasedCatalog.entityIn "shop" "Category" = _
  simp only [entityIn, hfound]
  rfl

end Catalog

end Fieldwise
