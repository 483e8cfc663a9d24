import Fieldwise.Error

/-!
What an examination of a catalog finds: problems, which make the catalog unusable, and warnings.
-/

namespace Fieldwise

inductive Problem.Code
  | emptyProjectionName
  | emptyEntityId
  | emptyEntityName
  | emptyTable
  | duplicateEntityName
  | emptyFieldName
  | duplicateFieldName
  | unknownKind
  | missingKindData
  | unknownRelatedEntity
  | custom
deriving DecidableEq

def Problem.Code.name : Problem.Code → String
  | .emptyProjectionName => "EmptyProjectionName"
  | .emptyEntityId => "EmptyEntityId"
  | .emptyEntityName => "EmptyEntityName"
  | .emptyTable => "EmptyTableId"
  | .duplicateEntityName => "DuplicateEntityName"
  | .emptyFieldName => "EmptyFieldName"
  | .duplicateFieldName => "DuplicateFieldName"
  | .unknownKind => "UnknownMappingKind"
  | .missingKindData => "MissingKindData"
  | .unknownRelatedEntity => "UnknownRelatedEntity"
  | .custom => "Custom"

/-- The codes that stand for one kind of problem each. -/
def Problem.Code.named : List Problem.Code :=
  [emptyProjectionName, emptyEntityId, emptyEntityName, emptyTable, duplicateEntityName,
   emptyFieldName, duplicateFieldName, unknownKind, missingKindData, unknownRelatedEntity]

structure Problem where
  code : Problem.Code
  reason : String
  /-- Where in the catalog it is. -/
  path : Option String := none
  /-- The text that is wrong. -/
  detail : Option String := none
deriving DecidableEq

inductive Warning.Code
  | emptyProjection
  | noFields
  | mandatoryReadOnlyField
  | missingIdField
  | custom
deriving DecidableEq

def Warning.Code.name : Warning.Code → String
  | .emptyProjection => "EmptyProjection"
  | .noFields => "NoFields"
  | .mandatoryReadOnlyField => "MandatoryReadOnlyField"
  | .missingIdField => "MissingIdField"
  | .custom => "Custom"

structure Warning where
  code : Warning.Code
  reason : String
  path : Option String := none
deriving DecidableEq

/-- A text after the place it is about. -/
def located (path : Option String) (text : String) : String :=
  match path with
  | some path => s!"[{path}] {text}"
  | none => text

def Problem.text (p : Problem) : String := located p.path p.reason

def Warning.text (w : Warning) : String := located w.path s!"Warning: {w.reason}"

structure Report where
  problems : List Problem
  warnings : List Warning
  /-- Whether the catalog can be used. -/
  isValid : Bool := problems.isEmpty
deriving DecidableEq

namespace Report

def clean : Report := ⟨[], [], true⟩

def ofProblem (p : Problem) : Report := ⟨[p], [], false⟩

def ofWarning (w : Warning) : Report := ⟨[], [w], true⟩

def append (r s : Report) : Report :=
  ⟨r.problems ++ s.problems, r.warnings ++ s.warnings, r.isValid && s.isValid⟩

instance : Append Report := ⟨append⟩

/-- A report with `r` if the condition holds, and nothing otherwise. -/
def onlyIf (condition : Bool) (r : Report) : Report := if condition then r else clean

/-- What is found in each member of a list, in order. -/
def gather {α : Type} (find : α → Report) (xs : List α) : Report :=
  ⟨xs.flatMap fun x => (find x).problems, xs.flatMap fun x => (find x).warnings,
    xs.all fun x => (find x).isValid⟩

def hasProblems (r : Report) : Bool := !r.problems.isEmpty

def hasWarnings (r : Report) : Bool := !r.warnings.isEmpty

/-- A kind that is not known comes before all else; other problems are told together. -/
def result (r : Report) : Except Error Unit :=
  if r.isValid then .ok ()
  else
    match r.problems.find? (·.code == .unknownKind) with
    | some p => .error (.unsupportedFieldKind (p.path.getD "") (p.detail.getD ""))
    | none => .error (.validation ("; ".intercalate (r.problems.map Problem.text)))

@[simp] theorem problems_append (r s : Report) : (r ++ s).problems = r.problems ++ s.problems := rfl

@[simp] theorem warnings_append (r s : Report) : (r ++ s).warnings = r.warnings ++ s.warnings := rfl

@[simp] theorem isValid_append (r s : Report) : (r ++ s).isValid = (r.isValid && s.isValid) := rfl

theorem problems_onlyIf_eq_nil {condition : Bool} {r : Report} :
    (onlyIf condition r).problems = [] ↔ (condition = true → r.problems = []) := by
  cases condition <;> simp [onlyIf, clean]

theorem problems_gather_eq_nil {α : Type} {find : α → Report} {xs : List α} :
    (gather find xs).problems = [] ↔ ∀ x ∈ xs, (find x).problems = [] := by
  simp [gather, List.flatMap_eq_nil_iff]

end Report

end Fieldwise
