import GraphQuery.Settings.Source

/-!
# What a command line asks for

An option stands as `--name value` or `--name=value`. Arguments are read from left to right, and the
first that is wrong, or that asks for help or the version, decides.

## Main definitions

* `CommandLine.Options`: what a run is to do.
* `CommandLine.Request`: a run, help, or the version.
* `CommandLine.UsageError`: what is wrong with a command line.
* `CommandLine.parse`: what a command line asks for.
-/

namespace GraphQuery.CommandLine

/-- How a compiled query is written. -/
inductive Format where
  /-- One statement a line, then the parameters if there are any. -/
  | text
  /-- One object with statements and parameters. -/
  | json
deriving Repr, DecidableEq

/-- The format of a word. -/
def Format.ofWord? : String → Option Format
  | "text" => some .text
  | "json" => some .json
  | _ => none

/-- What a run is to do. -/
structure Options where
  /-- The file with the schema definitions. -/
  schema : String
  /-- The file with the query; a hyphen stands for the standard input. -/
  query : String := "-"
  /-- The values of variables, as the text of a JSON object. -/
  values : Option String := none
  /-- The file with the settings, instead of the environment. -/
  config : Option String := none
  overrides : Overrides := {}
  format : Format := .text
deriving Repr, DecidableEq

/-- What a command line asks for. -/
inductive Request where
  | run (options : Options)
  | help
  | version
deriving Repr, DecidableEq

/-- What is wrong with a command line. -/
inductive UsageError where
  | unexpected (argument : String)
  | unexpectedValue (option : String)
  | missingValue (option : String)
  | invalidValue (option value : String)
  | repeated (option : String)
  | missingSchema
deriving Repr, DecidableEq

/-- The wording of an error. -/
def UsageError.message : UsageError → String
  | .unexpected argument => "unexpected argument '" ++ argument ++ "' found"
  | .unexpectedValue option => "unexpected value for '" ++ option ++ "' found"
  | .missingValue option => "a value is required for '" ++ option ++ "' but none was supplied"
  | .invalidValue option value => "invalid value '" ++ value ++ "' for '" ++ option ++ "'"
  | .repeated option => "the argument '" ++ option ++ "' cannot be used multiple times"
  | .missingSchema => "the following required arguments were not provided: --schema"

/-- The options that take a value. -/
inductive Setting where
  | schema
  | query
  | values
  | config
  | maxDepth
  | firstArgument
  | offsetArgument
  | format
deriving Repr, DecidableEq

/-- The option of a name. -/
def Setting.ofName? : String → Option Setting
  | "--schema" => some .schema
  | "--query" => some .query
  | "--variables" => some .values
  | "--config" => some .config
  | "--max-depth" => some .maxDepth
  | "--first-arg" => some .firstArgument
  | "--offset-arg" => some .offsetArgument
  | "--format" => some .format
  | _ => none

/-- The options that have been read so far. -/
structure Draft where
  schema : Option String := none
  query : Option String := none
  values : Option String := none
  config : Option String := none
  overrides : Overrides := {}
  format : Option Format := none
deriving Repr, DecidableEq

namespace Draft

/-- The name of a file. -/
def path? (value : String) : Option String := if value.isEmpty then none else some value

/-- The option has been given. -/
def has (d : Draft) : Setting → Bool
  | .schema => d.schema.isSome
  | .query => d.query.isSome
  | .values => d.values.isSome
  | .config => d.config.isSome
  | .maxDepth => d.overrides.maxDepth.isSome
  | .firstArgument => d.overrides.firstArgument.isSome
  | .offsetArgument => d.overrides.offsetArgument.isSome
  | .format => d.format.isSome

/-- Give an option a value, if it can have this value. -/
def set? (d : Draft) (setting : Setting) (value : String) : Option Draft :=
  match setting with
  | .schema => (path? value).map fun v => { d with schema := some v }
  | .query => some { d with query := some value }
  | .values => some { d with values := some value }
  | .config => (path? value).map fun v => { d with config := some v }
  | .maxDepth =>
    (readNatural value).toOption.map fun v =>
      { d with overrides := { d.overrides with maxDepth := some v } }
  | .firstArgument => some { d with overrides := { d.overrides with firstArgument := some value } }
  | .offsetArgument =>
    some { d with overrides := { d.overrides with offsetArgument := some value } }
  | .format => (Format.ofWord? value).map fun v => { d with format := some v }

/-- Give an option its value. -/
def add (d : Draft) (name : String) (setting : Setting) (value : String) :
    Except UsageError Draft :=
  if d.has setting then .error (.repeated name)
  else match d.set? setting value with
    | some d => .ok d
    | none => .error (.invalidValue name value)

/-- Filter on declared arguments only. -/
def restrict (d : Draft) : Except UsageError Draft :=
  if d.overrides.implicitFilters.isSome then .error (.repeated "--no-implicit-filters")
  else .ok { d with overrides := { d.overrides with implicitFilters := some false } }

/-- The options, when all have been read. -/
def finish (d : Draft) : Except UsageError Request :=
  match d.schema with
  | none => .error .missingSchema
  | some schema =>
    .ok (.run
      { schema
        query := d.query.getD "-"
        values := d.values
        config := d.config
        overrides := d.overrides
        format := d.format.getD .text })

end Draft

/-- The name of an option and the value after its equals sign, if there is one. -/
def splitValue (argument : String) : String × Option String :=
  let chars := argument.toList
  match chars.dropWhile (· != '=') with
  | [] => (argument, none)
  | _ :: value => (String.ofList (chars.takeWhile (· != '=')), some (String.ofList value))

/-- The argument can be the value of the option before it. -/
def isValue (argument : String) : Bool := argument == "-" || argument.toList.head? != some '-'

/-- Short options ask for help or the version; what follows the letter has no meaning. -/
def short? : List Char → Option Request
  | '-' :: 'h' :: _ => some .help
  | '-' :: 'V' :: _ => some .version
  | _ => none

/-- An argument that is not the value of an option: more of the draft, a request, or an option that
waits for its value. -/
inductive Step where
  | draft (d : Draft)
  | request (r : Request)
  | waiting (name : String) (setting : Setting)

/-- What one argument says. -/
def step (d : Draft) (argument : String) : Except UsageError Step :=
  let (name, value) := splitValue argument
  match Setting.ofName? name, value with
  | some setting, some value => (d.add name setting value).map .draft
  | some setting, none => .ok (.waiting name setting)
  | none, value =>
    if name == "--no-implicit-filters" || name == "--help" || name == "--version" then
      if value.isSome then .error (.unexpectedValue name)
      else if name == "--help" then .ok (.request .help)
      else if name == "--version" then .ok (.request .version)
      else d.restrict.map .draft
    else match short? argument.toList with
      | some r => .ok (.request r)
      | none => .error (.unexpected argument)

/-- What the arguments after a draft ask for. -/
def parseFrom (d : Draft) : List String → Except UsageError Request
  | [] => d.finish
  | ["--"] => d.finish
  | "--" :: argument :: _ => .error (.unexpected argument)
  | argument :: rest => do
    match ← step d argument with
    | .draft d => parseFrom d rest
    | .request r => return r
    | .waiting name setting =>
      match rest with
      | [] => throw (.missingValue name)
      | value :: rest =>
        if isValue value then parseFrom (← d.add name setting value) rest
        else throw (.missingValue name)

/-- What a command line asks for. -/
def parse (arguments : List String) : Except UsageError Request := parseFrom {} arguments

end GraphQuery.CommandLine
