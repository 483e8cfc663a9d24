/-!
What can go wrong. An error names its cause and the data that belong to it; `Error.message` has
all the wording.
-/

namespace Fieldwise

/-- Why a file could not be read or written. -/
inductive FileFault
  | missing
  | notDirectory
  | notCatalog
  /-- The path has a character in it that no path can have. -/
  | nulCharacter
  | other (message : String)
  /-- In the words of the operating system. -/
  | system (words : String)
deriving DecidableEq

def FileFault.message : FileFault → String
  | missing => "file does not exist"
  | notDirectory => "not a directory"
  | notCatalog => "Invalid catalog file format"
  | nulCharacter => "file name contained an unexpected NUL byte"
  | other message => message
  | system words => words

inductive Error
  | missingMandatoryField (entity field : String)
  | unresolvedRelatedEntity (entity id : String)
  | unsupportedFieldKind (field kind : String)
  | instantiation (table reason : String)
  | externalIdNotFound (table externalId : String)
  | propertyAccess (typeName property reason : String)
  | typeMismatch (property expected found : String)
  | pathExtraction (path reason : String)
  | constantNotFound (id : String)
  | customMapping (qualifier reason : String)
  | validation (reason : String)
  | entityValidation (entity reason : String)
  | fieldValidation (entity field reason : String)
  | duplicateProjection (name : String)
  | duplicateEntity (id : String)
  | duplicateType (name : String)
  | projectionNotFound (name : String)
  | entityMetadataNotFound (name : String)
  | entityNotFound (entity id : String)
  | endpointDisabled (name : String)
  | io (reason : String)
  | fileRead (path : String) (fault : FileFault)
  | fileWrite (path : String) (fault : FileFault)
  | invalidJson
  | invalidToml
  | invalidCatalogFormat (reason : String)
  | schemaVersionMismatch (expected found : Nat)
  | invalidConfig (reason : String)
  | missingConfig (what : String)
  | internal (reason : String)
  | withContext (context reason : String)
deriving DecidableEq

namespace Error

def message : Error → String
  | missingMandatoryField entity field =>
    s!"Missing mandatory field '{field}' for entity '{entity}'"
  | unresolvedRelatedEntity entity id => s!"Unresolved related entity '{entity}' with id '{id}'"
  | unsupportedFieldKind field kind => s!"Unsupported mapping kind '{kind}' on field '{field}'"
  | instantiation table reason => s!"Cannot instantiate entity for table '{table}': {reason}"
  | externalIdNotFound table externalId =>
    s!"External id '{externalId}' not found for table '{table}'"
  | propertyAccess typeName property reason =>
    s!"Property access failed for '{typeName}.{property}': {reason}"
  | typeMismatch property expected found =>
    s!"Type mismatch for '{property}': expected {expected}, found {found}"
  | pathExtraction path reason => s!"Path extraction failed for '{path}': {reason}"
  | constantNotFound id => s!"Constant not found: {id}"
  | customMapping qualifier reason => s!"Custom mapping '{qualifier}' failed: {reason}"
  | validation reason => s!"Validation error: {reason}"
  | entityValidation entity reason => s!"Entity validation failed for '{entity}': {reason}"
  | fieldValidation entity field reason =>
    s!"Field validation failed for '{entity}.{field}': {reason}"
  | duplicateProjection name => s!"Duplicate projection name: '{name}' already exists"
  | duplicateEntity id => s!"Duplicate entity metadata id: '{id}' already exists"
  | duplicateType name => s!"Duplicate type registration: '{name}'"
  | projectionNotFound name => s!"Projection not found: {name}"
  | entityMetadataNotFound name => s!"Entity metadata not found: {name}"
  | entityNotFound entity id => s!"Entity '{entity}' with id '{id}' not found"
  | endpointDisabled name => s!"Entity '{name}' is not exposed as a REST endpoint"
  | io reason => s!"IO error: {reason}"
  | fileRead path fault => s!"Failed to read file '{path}': {fault.message}"
  | fileWrite path fault => s!"Failed to write file '{path}': {fault.message}"
  | invalidJson => "JSON serialization error"
  | invalidToml => "TOML deserialization error"
  | invalidCatalogFormat reason => s!"Invalid catalog file format: {reason}"
  | schemaVersionMismatch expected found =>
    s!"Schema version mismatch: expected {expected}, found {found}"
  | invalidConfig reason => s!"Invalid configuration: {reason}"
  | missingConfig what => s!"Missing required configuration: {what}"
  | internal reason => s!"Internal error: {reason}"
  | withContext context reason => s!"{context}: {reason}"

/-- The same failure, told from further out. -/
def within (context : String) (e : Error) : Error := withContext context e.message

/-- A write may go on without the part that failed. -/
def isRecoverable : Error → Bool
  | unresolvedRelatedEntity .. => true
  | _ => false

/-- The catalog, the types or the settings are at fault. -/
def isConfiguration : Error → Bool
  | unsupportedFieldKind .. | validation _ | entityValidation .. | fieldValidation ..
  | duplicateProjection _ | duplicateEntity _ | duplicateType _ | invalidConfig _
  | missingConfig _ => true
  | _ => false

def isNotFound : Error → Bool
  | projectionNotFound _ | entityMetadataNotFound _ | entityNotFound .. | externalIdNotFound ..
  | constantNotFound _ => true
  | _ => false

def isFileError : Error → Bool
  | io _ | fileRead .. | fileWrite .. => true
  | _ => false

/-- Part of the wording is the operating system's. -/
def isSystemWorded : Error → Bool
  | fileRead _ (.system _) | fileWrite _ (.system _) => true
  | _ => false

end Error

end Fieldwise
