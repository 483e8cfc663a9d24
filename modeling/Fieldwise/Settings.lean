import Fieldwise.Error
import Fieldwise.Text.Basic
import Fieldwise.Toml.Reader

/-!
Settings of the engine, with their defaults and the way in which they are given in TOML: as
entries of the document, all of which may be left out. Entries of other names do not matter.
-/

namespace Fieldwise

/-- What happens to an external id that nothing is bound to. -/
inductive ExternalIdMode
  /-- It is kept as it is and noted as a miss. -/
  | lenient
  /-- It is an error. -/
  | strict
deriving DecidableEq

def ExternalIdMode.name : ExternalIdMode → String
  | lenient => "lenient"
  | strict => "strict"

def ExternalIdMode.ofName? (name : String) : Option ExternalIdMode :=
  [lenient, strict].find? (·.name == name)

structure Settings where
  externalIdMode : ExternalIdMode := .lenient
  dateFormat : String := "%Y-%m-%d"
  dateTimeFormat : String := "%Y-%m-%dT%H:%M:%S"
  validateCatalog : Bool := true
  auditUser : String := "system"
deriving DecidableEq

namespace Settings

/-- Dates and points in time must have a format. -/
def check (s : Settings) : Except Error Unit :=
  if Text.isBlank s.dateFormat then .error (.invalidConfig "date_format must not be empty")
  else if Text.isBlank s.dateTimeFormat then
    .error (.invalidConfig "datetime_format must not be empty")
  else .ok ()

/-- A mode is given by its name, as a text or as the only key of a table, with nothing in it. -/
def modeOfToml? : Toml → Option ExternalIdMode
  | .text name => ExternalIdMode.ofName? name
  | .table _ [(name, value)] =>
    match value with
    | .array [] | .table _ [] | .tables [] => ExternalIdMode.ofName? name
    | _ => none
  | _ => none

def textOfToml? : Toml → Option String
  | .text s => some s
  | _ => none

def booleanOfToml? : Toml → Option Bool
  | .boolean b => some b
  | _ => none

def setting? {α : Type} (entries : Toml.Entries) (name : String) (default : α)
    (value? : Toml → Option α) : Option α :=
  match entries.get? name with
  | none => some default
  | some value => value? value

def ofEntries? (entries : Toml.Entries) : Option Settings := do
  let default : Settings := {}
  pure {
    externalIdMode := ← setting? entries "external_id_mode" default.externalIdMode modeOfToml?
    dateFormat := ← setting? entries "date_format" default.dateFormat textOfToml?
    dateTimeFormat := ← setting? entries "datetime_format" default.dateTimeFormat textOfToml?
    validateCatalog := ← setting? entries "validate_catalog" default.validateCatalog booleanOfToml?
    auditUser := ← setting? entries "audit_user" default.auditUser textOfToml? }

/-- Settings that have passed their check. -/
def ofText (text : String) : Except Error Settings :=
  match (Toml.ofText? text).bind ofEntries? with
  | none => .error .invalidToml
  | some s => s.check.map fun _ => s

end Settings

end Fieldwise
