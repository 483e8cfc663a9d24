import Fieldwise.Error

/-!
Codes of errors. A code stays the same whatever the data and the wording of the message.
-/

namespace Fieldwise

def Error.code : Error → String
  | .missingMandatoryField .. => "MissingMandatoryField"
  | .unresolvedRelatedEntity .. => "UnresolvedRelatedEntity"
  | .unsupportedFieldKind .. => "UnsupportedFieldKind"
  | .instantiation .. => "InstantiationFailure"
  | .externalIdNotFound .. => "ExternalIdNotFound"
  | .propertyAccess .. => "PropertyAccess"
  | .typeMismatch .. => "TypeMismatch"
  | .pathExtraction .. => "PathExtraction"
  | .constantNotFound _ => "ConstantNotFound"
  | .customMapping .. => "CustomMapping"
  | .validation _ => "Validation"
  | .entityValidation .. => "EntityValidation"
  | .fieldValidation .. => "FieldValidation"
  | .duplicateProjection _ => "DuplicateProjection"
  | .duplicateEntity _ => "DuplicateEntity"
  | .duplicateType _ => "DuplicateType"
  | .projectionNotFound _ => "ProjectionNotFound"
  | .entityMetadataNotFound _ => "EntityMetadataNotFound"
  | .entityNotFound .. => "EntityNotFound"
  | .endpointDisabled _ => "EndpointDisabled"
  | .io _ => "Io"
  | .fileRead .. => "FileRead"
  | .fileWrite .. => "FileWrite"
  | .invalidJson => "JsonSerialization"
  | .invalidToml => "TomlDeserialization"
  | .invalidCatalogFormat _ => "InvalidCatalogFormat"
  | .schemaVersionMismatch .. => "SchemaVersionMismatch"
  | .invalidConfig _ => "InvalidConfig"
  | .missingConfig _ => "MissingConfig"
  | .internal _ => "Internal"
  | .withContext .. => "WithContext"

end Fieldwise
