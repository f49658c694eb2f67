import GraphQuery.Settings.Basic

/-!
# Where settings come from

Settings are the defaults with what the environment or the command line says laid over them, and
they are used only if nothing is wrong with them.

## Main definitions

* `ReadFault`: what can be wrong with the text of a setting.
* `SettingsError`, `SettingsError.message`: why there are no settings.
* `readNatural`, `readFlag`: numbers and truth values as text.
* `Settings.validate`: settings that nothing is wrong with.
* `Settings.ofEnvironment`, `Settings.ofOverrides`.
-/

namespace GraphQuery

/-- What can be wrong with the text of a setting. -/
inductive ReadFault where
  | emptyNumber
  | badDigit
  | numberTooLarge
  | notBoolean
  | noFile (reason : String)
  | badContent
deriving Repr, DecidableEq

/-- The wording of a fault. -/
def ReadFault.text : ReadFault → String
  | .emptyNumber => "cannot parse integer from empty string"
  | .badDigit => "invalid digit found in string"
  | .numberTooLarge => "number too large to fit in target type"
  | .notBoolean => "provided string was not `true` or `false`"
  | .noFile reason => reason
  | .badContent => "not a mapping of settings"

/-- Why there are no settings. -/
inductive SettingsError where
  | unreadable (place value : String) (fault : ReadFault)
  | invalid (faults : SettingFaults)
deriving Repr, DecidableEq

namespace SettingsError

/-- The wording of what lies behind an error. -/
def reason : SettingsError → String
  | .unreadable _ _ fault => fault.text
  | .invalid faults => faults.text

/-- The wording of an error. -/
def message : SettingsError → String
  | .unreadable place value fault =>
    "Parse error for " ++ place ++ ": " ++ value ++ " - " ++ fault.text
  | .invalid faults => "Validation error: " ++ faults.text

end SettingsError

/-! ### Numbers and truth values as text -/

/-- Numbers are below this. -/
def numberLimit : Nat := Nat.pow 2 64

/-- The number whose digits are those of `n` and then these. What is wrong first is told first. -/
def readDigits (n : Nat) : List Char → Except ReadFault Nat
  | [] => .ok n
  | c :: cs =>
    if !c.isDigit then .error .badDigit
    else
      let next := 10 * n + (c.toNat - '0'.toNat)
      if next < numberLimit then readDigits next cs else .error .numberTooLarge

/-- A number in decimal digits, with or without a plus sign. -/
def readNatural (text : String) : Except ReadFault Nat :=
  match text.toList with
  | [] => .error .emptyNumber
  | ['+'] => .error .badDigit
  | '+' :: digits => readDigits 0 digits
  | digits => readDigits 0 digits

/-- A truth value. -/
def readFlag (text : String) : Except ReadFault Bool :=
  if text == "true" then .ok true else if text == "false" then .ok false else .error .notBoolean

namespace Settings

/-- The settings themselves, if nothing is wrong with them. -/
def validate (s : Settings) : Except SettingsError Settings :=
  match s.faults with
  | [] => .ok s
  | found => .error (.invalid found)

/-- The defaults with some settings laid over them. -/
def ofOverrides (o : Overrides) : Except SettingsError Settings :=
  (({} : Settings).merge o).validate

/-- The variables of the environment that say something about settings. -/
def variableNames : List String :=
  ["GQL_CYPHER_MAX_DEPTH", "GQL_CYPHER_FIRST_ARG", "GQL_CYPHER_OFFSET_ARG",
    "GQL_CYPHER_IMPLICIT_FILTERS"]

/-- A variable of the environment, if it is set. -/
def readVariable {α : Type} (environment : String → Option String)
    (read : String → Except ReadFault α) (name : String) : Except SettingsError (Option α) :=
  match environment name with
  | none => .ok none
  | some value => match read value with
    | .ok a => .ok (some a)
    | .error fault => .error (.unreadable name value fault)

/-- The defaults with the variables of an environment laid over them. -/
def ofEnvironment (environment : String → Option String) : Except SettingsError Settings := do
  let maxDepth ← readVariable environment readNatural "GQL_CYPHER_MAX_DEPTH"
  let implicitFilters ← readVariable environment readFlag "GQL_CYPHER_IMPLICIT_FILTERS"
  ofOverrides
    { maxDepth
      firstArgument := environment "GQL_CYPHER_FIRST_ARG"
      offsetArgument := environment "GQL_CYPHER_OFFSET_ARG"
      implicitFilters }

end Settings

end GraphQuery
