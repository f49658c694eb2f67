import GraphQuery.CommandLine.Options
import GraphQuery.Json.Printer
import GraphQuery.Json.Reader
import GraphQuery.Schema.Resolution
import GraphQuery.Settings.File
import GraphQuery.Compilation.Query

/-!
# Runs

A run reads its settings, the schema, the query and the values of variables, in this order, and
writes the compiled query.

## Main definitions

* `CommandLine.Sources`: the texts that a run reads.
* `CommandLine.RunError`, `RunError.message`: why a run fails.
* `CommandLine.Options.compiled`: the compiled query that a run writes.
* `CommandLine.Outcome`, `CommandLine.Options.run`: what a run leaves behind.
-/

namespace GraphQuery.CommandLine

/-- The texts that a run reads; of a text that cannot be read, the reason. -/
structure Sources where
  environment : String → Option String
  file : String → Except String String
  input : Except String String

/-- Why a run fails. -/
inductive RunError where
  | settings (file : Option String) (error : SettingsError)
  | overrides (faults : SettingFaults)
  | schema (error : SchemaError)
  | query (file reason : String)
  | input (reason : String)
  | variablesUnreadable
  | variablesNotObject (found : Json)
  | compilation (error : QueryError)

/-- The wording of an error, from the outermost cause to the innermost. -/
def RunError.message : RunError → String
  | .settings file error =>
    "Configuration error" ++ (file.map (" in " ++ ·)).getD "" ++ ": " ++ error.message ++ ": " ++
      error.reason
  | .overrides faults => "Configuration error: " ++ faults.text
  | .schema error => error.message
  | .query file reason => "Failed to read query file " ++ file ++ ": " ++ reason
  | .input reason => "Failed to read query from stdin: " ++ reason
  | .variablesUnreadable => "--variables is not valid JSON"
  | .variablesNotObject found => "--variables must be a JSON object, got " ++ found.compact
  | .compilation error => error.message

/-- What a run leaves behind. -/
structure Outcome where
  exit : UInt8
  stdout : String := ""
  stderr : String := ""
deriving Repr, DecidableEq

namespace Options

/-- The settings of a run: those of the file or the environment, with those of the command line
laid over them. Both have to be right. -/
def settings (o : Options) (sources : Sources) : Except RunError Settings := do
  let base ← match o.config with
    | some path => (Settings.ofFile (sources.file path)).mapError (.settings (some path))
    | none => (Settings.ofEnvironment sources.environment).mapError (.settings none)
  let settings := base.merge o.overrides
  match settings.faults with
  | [] => return settings
  | found => throw (.overrides found)

/-- The text of the query. -/
def queryText (o : Options) (sources : Sources) : Except RunError String :=
  if o.query == "-" then sources.input.mapError .input
  else (sources.file o.query).mapError (.query o.query)

/-- The values of the variables. -/
def variableValues (o : Options) : Except RunError (List (String × Json)) :=
  match o.values with
  | none => .ok []
  | some text => match Json.parse? text.toList with
    | some (.object members) => .ok members
    | some found => .error (.variablesNotObject found)
    | none => .error .variablesUnreadable

/-- The compiled query that a run writes. -/
def compiled (o : Options) (sources : Sources) : Logged RunError CompiledQuery := do
  let settings ← Logged.ofExcept (o.settings sources)
  let schema ← (Schema.loadFile o.schema (sources.file o.schema)).mapError .schema
  let query ← Logged.ofExcept (o.queryText sources)
  let values ← Logged.ofExcept o.variableValues
  let compiled ← (schema.compile settings query values).mapError .compilation
  Logged.note (.compiled compiled.statements.length)
  return compiled

end Options

/-- A compiled query as it is written. -/
def Format.write (format : Format) (t : CompiledQuery) : String :=
  match format with
  | .text =>
    String.join (t.statements.map (· ++ "\n")) ++
      if t.parameters.isEmpty then "" else (Json.object t.parameters).pretty ++ "\n"
  | .json =>
    (Json.object
      [("statements", .array (t.statements.map .string)), ("parameters", .object t.parameters)]
      ).pretty ++ "\n"

/-- What a run leaves behind. -/
def Options.run (o : Options) (sources : Sources) : Outcome :=
  match (o.compiled sources).result with
  | .ok t => { exit := 0, stdout := o.format.write t }
  | .error e => { exit := 1, stderr := "Error: " ++ e.message ++ "\n" }

/-- The name of the program and its version. -/
def version : String := "graphql-cypher 0.3.1-dev"

/-- How the program is called. -/
def usage : String :=
  "\n".intercalate
    ["Usage: graphql-cypher [OPTIONS] --schema <SCHEMA>",
      "",
      "Options:",
      "      --schema <SCHEMA>          Schema file with @relation annotations",
      "      --query <QUERY>            Query file, or - to read the query from stdin",
      "      --variables <VARIABLES>    JSON object with variable values",
      "      --config <CONFIG>          YAML file with settings",
      "      --max-depth <MAX_DEPTH>    Maximum selection depth",
      "      --first-arg <FIRST_ARG>    Argument name used as page size",
      "      --offset-arg <OFFSET_ARG>  Argument name used as page start",
      "      --no-implicit-filters      Only filter on declared arguments",
      "      --format <FORMAT>          Output format: text or json",
      "  -h, --help                     Print help",
      "  -V, --version                  Print version",
      ""]

/-- What a command line leaves behind. -/
def outcome (arguments : List String) (sources : Sources) : Outcome :=
  match parse arguments with
  | .error e => { exit := 2, stderr := "error: " ++ e.message ++ "\n\n" ++ usage }
  | .ok .help => { exit := 0, stdout := usage }
  | .ok .version => { exit := 0, stdout := version ++ "\n" }
  | .ok (.run options) => options.run sources

end GraphQuery.CommandLine
