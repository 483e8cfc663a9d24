/-!
The arguments of the command line. A command has one path; options may stand before or after it.
An option with a value has it in the next argument or after an equals sign, a short one also right
behind its letter. After a double hyphen everything is a path.
-/

namespace Fieldwise.CommandLine

inductive Command
  | validate (path : String)
  | info (path : String) (projection : Option String) (json : Bool)
  | checkConfig (path : String)
deriving DecidableEq

/-- What the arguments ask for. -/
inductive Request
  | run (command : Command)
  | version
  | help
  /-- They make no sense. -/
  | misuse
deriving DecidableEq

inductive Name
  | validate
  | info
  | checkConfig
deriving DecidableEq

def Name.ofText? : String → Option Name
  | "validate" => some validate
  | "info" => some info
  | "check-config" => some checkConfig
  | _ => none

/-- What has been read of a command. -/
structure Reading where
  name : Name
  path : Option String := none
  projection : Option String := none
  json : Bool := false
  verbose : Bool := false
  /-- After a double hyphen. -/
  pathsOnly : Bool := false
  /-- The next argument is the name of a projection. -/
  awaitsProjection : Bool := false

namespace Reading

def setPath (r : Reading) (path : String) : Except Request Reading :=
  if r.path.isSome || path = "" then .error .misuse else .ok { r with path := some path }

def setProjection (r : Reading) (name : String) : Except Request Reading :=
  if r.name = .info ∧ r.projection.isNone then .ok { r with projection := some name }
  else .error .misuse

def setJson (r : Reading) : Except Request Reading :=
  if r.name = .info ∧ r.json = false then .ok { r with json := true } else .error .misuse

def setVerbose (r : Reading) : Except Request Reading :=
  if r.verbose then .error .misuse else .ok { r with verbose := true }

/-- Options of one letter each, written together. -/
def letters (r : Reading) : List Char → Except Request Reading
  | [] => .ok r
  | 'h' :: _ => .error .help
  | 'v' :: rest => do (← r.setVerbose).letters rest
  | 'p' :: rest =>
    match rest with
    | [] =>
      if r.name = .info ∧ r.projection.isNone then .ok { r with awaitsProjection := true }
      else .error .misuse
    | '=' :: value => r.setProjection (String.ofList value)
    | value => r.setProjection (String.ofList value)
  | _ => .error .misuse

def argument (r : Reading) (arg : String) : Except Request Reading :=
  if r.pathsOnly then r.setPath arg
  else
    match arg.toList with
    | '-' :: c :: rest =>
      if r.awaitsProjection then .error .misuse
      else if c != '-' then r.letters (c :: rest)
      else
        match String.ofList rest with
        | "" => .ok { r with pathsOnly := true }
        | "help" => .error .help
        | "verbose" => r.setVerbose
        | "json" => r.setJson
        | "projection" => r.letters ['p']
        | option =>
          if "projection=".isPrefixOf option then
            r.setProjection (String.ofList (option.toList.drop "projection=".length))
          else .error .misuse
    | _ =>
      if r.awaitsProjection then { r with awaitsProjection := false }.setProjection arg
      else r.setPath arg

def finish (r : Reading) : Request :=
  if r.awaitsProjection then .misuse
  else
    match r.path with
    | none => .misuse
    | some path =>
      match r.name with
      | .validate => .run (.validate path)
      | .info => .run (.info path r.projection r.json)
      | .checkConfig => .run (.checkConfig path)

end Reading

/-- The options of one letter in front of the command: whether there is a `v`. -/
def leadingLetters (verbose : Bool) : List Char → Except Request Bool
  | [] => .ok verbose
  | 'h' :: _ => .error .help
  | 'V' :: _ => .error .version
  | 'v' :: rest => if verbose then .error .misuse else leadingLetters true rest
  | _ => .error .misuse

def helpRequest : List String → Request
  | [] => .help
  | [name] => if name = "help" || (Name.ofText? name).isSome then .help else .misuse
  | _ => .misuse

def Request.ofArguments (verbose : Bool) : List String → Request
  | [] => .misuse
  | "--help" :: _ => .help
  | "--version" :: _ => .version
  | "--verbose" :: rest => if verbose then .misuse else ofArguments true rest
  | "help" :: rest => helpRequest rest
  | arg :: rest =>
    match Name.ofText? arg with
    | some name =>
      match rest.foldlM Reading.argument { name } with
      | .ok reading => reading.finish
      | .error request => request
    | none =>
      match arg.toList with
      | '-' :: c :: letters =>
        match leadingLetters verbose (c :: letters) with
        | .ok verbose => ofArguments verbose rest
        | .error request => request
      | _ => .misuse

end Fieldwise.CommandLine
