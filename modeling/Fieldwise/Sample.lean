import Fieldwise.Catalog.Entity
import Fieldwise.EntityType.Definition

/-!
Sample types and a sample catalog: products in categories, nodes that may form any graph, and
documents with a property of every type.
-/

namespace Fieldwise.Sample

def property (name : String) (type : PropertyType) : PropertyDefinition := { name, type }

def neverNull (p : PropertyDefinition) : PropertyDefinition := { p with neverNull := true }

def readOnly (p : PropertyDefinition) : PropertyDefinition := { p with readOnly := true }

def product : TypeDefinition where
  name := "Product"
  table := "208"
  auditable := true
  idProperty := some "id"
  identifierProperty := some "sku"
  properties := [
    property "id" .text,
    neverNull (property "sku" .text),
    property "name" .text,
    property "price" .decimal,
    property "quantity" .integer,
    neverNull (property "active" .boolean),
    property "launch_date" .date,
    property "attributes" .text,
    property "category" (.reference "Category"),
    property "created" .dateTime,
    property "created_by" .text,
    property "updated" .dateTime,
    property "updated_by" .text,
    readOnly (property "display_name" .text)]

def category : TypeDefinition where
  name := "Category"
  table := "209"
  idProperty := some "id"
  identifierProperty := some "name"
  properties := [
    property "id" .text,
    property "name" .text,
    property "parent" (.reference "Category"),
    property "products" (.collection "Product")]

/-- Nodes have no ids. -/
def node : TypeDefinition where
  name := "Node"
  table := "300"
  identifierProperty := some "label"
  properties := [
    neverNull (property "label" .text),
    property "peer" (.reference "Node"),
    property "children" (.collection "Node")]

def document : TypeDefinition where
  name := "Doc"
  table := "400"
  auditable := true
  idProperty := some "id"
  properties := [
    property "id" .text,
    property "title" .text,
    property "body" .json,
    property "at" .dateTime,
    property "day" .date,
    property "amount" .decimal,
    property "count" .integer,
    property "flag" .boolean,
    property "owner" (.reference "Product"),
    property "items" (.collection "Doc"),
    property "updated" .dateTime,
    readOnly (property "note" .text)]

def types : List TypeDefinition := [product, category, node, document]

/-- A field that shows the property of its own name. -/
def same (name : String) : Field := .direct name name

def mandatory (f : Field) : Field := { f with mandatory := true }

def productEntity : Entity where
  id := "PRD"
  name := "Product"
  table := "208"
  fields := [
    same "id",
    mandatory (same "sku"),
    same "name",
    same "price",
    same "quantity",
    same "active",
    .direct "launchDate" "launch_date",
    .reference "category" "category" "CAT",
    .direct "categoryName" "category.name",
    mandatory (.constant "currency" "CURRENCY"),
    .extraction "color" "attributes" "$.color"]

def categoryEntity : Entity where
  id := "CAT"
  name := "Category"
  table := "209"
  externalName := some "Group"
  fields := [
    same "id",
    mandatory (same "name"),
    .reference "parent" "parent" "CAT",
    .reference "products" "products" "PRD"]

def nodeEntity : Entity where
  id := "NODE"
  name := "Node"
  table := "300"
  endpoint := false
  fields := [
    same "label",
    .reference "peer" "peer" "NODE",
    .reference "children" "children" "NODE"]

def documentEntity : Entity where
  id := "DOC"
  name := "Doc"
  table := "400"
  fields := [
    same "id",
    same "title",
    same "body",
    same "at",
    same "day",
    same "amount",
    same "count",
    same "flag",
    .reference "owner" "owner" "PRD",
    .reference "items" "items" "DOC",
    .extraction "first" "body" "$.list[0]",
    { Field.computedConstant "rate" "RATE" with property := "" },
    { Field.custom "calc" "calc" with property := "" }]

def projections : List Projection := [
  { id := "P-SALES", name := "sales", entities := [productEntity, categoryEntity] },
  { id := "P-GRAPH", name := "graph", entities := [nodeEntity] },
  { id := "P-DOCS", name := "docs", entities := [documentEntity] }]

end Fieldwise.Sample
