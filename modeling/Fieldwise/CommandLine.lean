import Fieldwise.Catalog.Files
import Fieldwise.Catalog.Validation
import Fieldwise.CommandLine.Arguments
import Fieldwise.CommandLine.Style

/-!
The commands: what each of them prints and the code with which it ends. A command reads from a
file tree and changes nothing.
-/

namespace Fieldwise.CommandLine

/-- Why a command could not be carried out. -/
inductive Failure
  | loading (path : String) (cause : Error)
  | settings (path : String) (cause : Error)
  | projection (name : String)
deriving DecidableEq

def Failure.message : Failure → String
  | loading path cause => s!"failed to load catalog from {path}: {cause.message}"
  | settings path cause => s!"invalid engine config {path}: {cause.message}"
  | projection name => s!"projection '{name}' not found"

def Failure.isSystemWorded : Failure → Bool
  | loading _ cause | settings _ cause => cause.isSystemWorded
  | projection _ => false

def select (c : Catalog) : Option String → Except Failure (List Projection)
  | none => .ok c.projections
  | some name =>
    match c.projection? name with
    | some p => .ok [p]
    | none => .error (.projection name)

def unlines (lines : List String) : String := String.join (lines.map (· ++ "\n"))

def validationText (coloured : Bool) (path : String) (r : Report) : String :=
  let problem := Style.boldRed.paint coloured "error:"
  let warning := Style.boldYellow.paint coloured "warning:"
  let problems := r.problems.map fun p => s!"{problem} {p.text}"
  let warnings := r.warnings.map fun w => s!"{warning} {w.text}"
  let mark := if r.isValid then Style.green.paint coloured "✓" else Style.red.paint coloured "✗"
  let count := s!"{r.problems.length} error(s), {r.warnings.length} warning(s)"
  unlines (problems ++ warnings ++ [s!"{mark} {path}: {count}"])

def fieldLine (f : Field) : String :=
  let mark := if f.mandatory then "*" else " "
  s!"    {mark}{padRight 24 f.name} {padRight 18 f.kind.name} {f.describe}"

def entityLine (coloured : Bool) (e : Entity) : String :=
  let id := Style.dimmed.paint coloured s!"[{e.id}]"
  let note := if e.endpoint then "" else " " ++ Style.yellow.paint coloured "no endpoint"
  s!"  {Style.cyan.paint coloured e.name} {id} table {e.table}{note}"

def projectionLines (coloured : Bool) (p : Projection) : List String :=
  let id := Style.dimmed.paint coloured s!"[{p.id}]"
  s!"{Style.bold.paint coloured p.name} {id} ({p.entities.length} entities)" ::
    p.entities.flatMap fun e => entityLine coloured e :: e.fields.map fieldLine

def infoText (coloured : Bool) (ps : List Projection) : String :=
  unlines (ps.flatMap (projectionLines coloured))

def settingsText (coloured : Bool) (s : Settings) : String :=
  let line (name value : String) : String :=
    s!"{Style.bold.paint coloured (padRight 18 name)} {value}"
  unlines [
    line "external_id_mode" s.externalIdMode.name,
    line "date_format" s.dateFormat,
    line "datetime_format" s.dateTimeFormat,
    line "validate_catalog" (if s.validateCatalog then "true" else "false"),
    line "audit_user" s.auditUser]

/-- What is printed and the code at the end. -/
structure Outcome where
  code : Nat
  text : String
deriving DecidableEq

def load (t : FileTree) (path : String) : Except Failure Catalog :=
  (Catalog.ofPath t path).mapError (.loading path)

def Command.run (coloured : Bool) (t : FileTree) : Command → Except Failure Outcome
  | validate path => do
    let report := (← load t path).examine
    pure ⟨if report.isValid then 0 else 1, validationText coloured path report⟩
  | info path projection json => do
    let selected ← select (← load t path) projection
    if json then pure ⟨0, (Json.array (selected.map Projection.toJson)).pretty ++ "\n"⟩
    else pure ⟨0, infoText coloured selected⟩
  | checkConfig path => do
    let settings ← (Settings.ofFile t path).mapError (.settings path)
    pure ⟨0, settingsText coloured settings⟩

def Command.path : Command → String
  | validate path | info path _ _ | checkConfig path => path

def versionText : String := "metamorph 0.1.0\n"

def helpText : String :=
  unlines [
    "Inspect and validate metadata catalogs",
    "",
    "Usage: metamorph [OPTIONS] <COMMAND>",
    "",
    "Commands:",
    "  validate      Validate a catalog file or a directory of catalog files",
    "  info          Describe the projections of a catalog",
    "  check-config  Parse an engine config file and print the effective settings"]

def failureText (coloured : Bool) (failure : Failure) : String :=
  let mark := Style.red.paint coloured "error:"
  s!"{mark} {failure.message}"

/-- The outcome of a request, or the failure that is told on the error output. -/
def Request.answer (coloured : Bool) (t : FileTree) : Request → Except Failure Outcome
  | run command => command.run coloured t
  | version => .ok ⟨0, versionText⟩
  | help => .ok ⟨0, helpText⟩
  | misuse => .ok ⟨2, ""⟩

end Fieldwise.CommandLine
