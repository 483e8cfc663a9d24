import Fieldwise.Engine
import Fieldwise.PropertyType.Json
import Fieldwise.Text.Unseen

/-!
Texts for those who look into a running engine. A structure is written with its name and its
fields, a list in brackets and a text in quotes, with escapes for what does not show.
-/

namespace Fieldwise.Inspection

def hexNumber (n : Nat) : List Char := Nat.toDigits 16 n

def escapeChar (c : Char) : List Char :=
  match c with
  | '"' => ['\\', '"']
  | '\\' => ['\\', '\\']
  | '\n' => ['\\', 'n']
  | '\r' => ['\\', 'r']
  | '\t' => ['\\', 't']
  | '\x00' => ['\\', '0']
  | c => if Text.isUnseen c then '\\' :: 'u' :: '\x7b' :: hexNumber c.toNat ++ ['\x7d'] else [c]

def quoted (s : String) : String := String.ofList ('"' :: s.toList.flatMap escapeChar ++ ['"'])

def boolean (b : Bool) : String := if b then "true" else "false"

def listed (items : List String) : String :=
  let inner := ", ".intercalate items
  s!"[{inner}]"

def structured (name : String) (fields : List (String × String)) : String :=
  let inner := ", ".intercalate (fields.map fun field => s!"{field.1}: {field.2}")
  s!"{name} \x7b {inner} \x7d"

def present (text : Option String) : String :=
  match text with
  | some text => s!"Some({text})"
  | none => "None"

def propertyType (type : PropertyType) : String :=
  match type.target? with
  | some target => s!"{type.kindName}({quoted target})"
  | none => type.kindName

def mode : ExternalIdMode → String
  | .lenient => "Lenient"
  | .strict => "Strict"

def settings (s : Settings) : String :=
  structured "EngineConfig" [
    ("external_id_mode", mode s.externalIdMode),
    ("date_format", quoted s.dateFormat),
    ("datetime_format", quoted s.dateTimeFormat),
    ("validate_catalog", boolean s.validateCatalog),
    ("audit_user", quoted s.auditUser)]

def customMappings (m : CustomMappings) : String :=
  structured "CustomMappingRegistry" [("qualifiers", listed (m.qualifiers.map quoted))]

def engine (e : Engine) : String :=
  structured "ConversionEngine" [
    ("projections", toString e.catalog.projections.length),
    ("types", toString e.registry.size),
    ("custom_mappings", customMappings e.custom),
    ("config", settings e.settings)]

def instantiation (w : World) : String :=
  structured "EntityInstantiator" [("resolver_lookups", toString w.lookups)]

def translation (e : Engine) : String :=
  structured "ExternalIdTranslator" [("mode", mode e.settings.externalIdMode)]

def entityType (t : EntityType) : String :=
  structured "EntityType" [
    ("name", quoted t.name),
    ("table_id", quoted t.table),
    ("auditable", boolean t.auditable),
    ("properties", listed (t.sortedAccessors.map fun a => quoted a.name))]

def accessor (a : Accessor) : String :=
  structured "PropertyAccessor" [
    ("name", quoted a.name),
    ("property_type", propertyType a.type),
    ("writable", boolean a.isWritable)]

def object (heap : Heap) (h : Handle) : String :=
  let o := heap.get h
  let id := o.id?.getD "-"
  s!"EntityRef({o.typeName}#{id})"

end Fieldwise.Inspection
