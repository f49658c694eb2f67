/-!
# Settings

## Main definitions

* `Settings`: the limits and names that compilation depends on, with their defaults.
* `Settings.isPageArgument`: the names that never filter.
* `Overrides`, `Settings.merge`: some settings laid over others.
* `Settings.faults`: what is wrong with settings.
* `SettingFaults.text`: the wording of faults.
-/

namespace GraphQuery

/-- The limits and names that compilation depends on. -/
structure Settings where
  /-- How deep selections may stand inside one another; a root field has depth one. -/
  maxDepth : Nat := 32
  /-- The argument that says how many items to take. -/
  firstArgument : String := "first"
  /-- The argument that says how many items to leave out. -/
  offsetArgument : String := "offset"
  /-- The properties of a target may be filtered on without being declared as arguments. -/
  implicitFilters : Bool := true
deriving Repr, DecidableEq, Inhabited

/-- Settings that may be given or not. -/
structure Overrides where
  maxDepth : Option Nat := none
  firstArgument : Option String := none
  offsetArgument : Option String := none
  implicitFilters : Option Bool := none
deriving Repr, DecidableEq, Inhabited

/-- One fault of a setting. -/
structure SettingFault where
  code : String
  message : String
deriving Repr, DecidableEq

/-- The faults of settings by field, in order of the fields. -/
abbrev SettingFaults := List (String × List SettingFault)

/-- The wording of faults: a line for each field. -/
def SettingFaults.text (faults : SettingFaults) : String :=
  "\n".intercalate (faults.map fun (field, found) =>
    field ++ ": " ++ ", ".intercalate (found.map (·.message)))

namespace Settings

/-- The argument says which page to take, and never filters. -/
def isPageArgument (s : Settings) (name : String) : Bool :=
  name == s.firstArgument || name == s.offsetArgument

/-- The settings that are given replace the others. -/
def merge (s : Settings) (o : Overrides) : Settings :=
  { maxDepth := o.maxDepth.getD s.maxDepth
    firstArgument := o.firstArgument.getD s.firstArgument
    offsetArgument := o.offsetArgument.getD s.offsetArgument
    implicitFilters := o.implicitFilters.getD s.implicitFilters }

/-- The text can be written as the name of an argument. -/
def isArgumentName (name : String) : Bool :=
  match name.toList with
  | [] => false
  | c :: cs => (c == '_' || c.isAlpha) && cs.all fun d => d == '_' || d.isAlphanum

/-- The faults of a depth limit. -/
def depthFaults (depth : Nat) : List SettingFault :=
  if 1 ≤ depth ∧ depth ≤ 256 then []
  else [⟨"range", "Max selection depth must be between 1 and 256"⟩]

/-- The faults of an argument name. -/
def nameFaults (name : String) : List SettingFault :=
  if isArgumentName name then []
  else [⟨"argument_name", "`" ++ name ++ "` is not a valid GraphQL argument name"⟩]

/-- The faults of single settings, by field. -/
def fieldFaults (s : Settings) : SettingFaults :=
  [("first_argument", nameFaults s.firstArgument),
    ("max_selection_depth", depthFaults s.maxDepth),
    ("offset_argument", nameFaults s.offsetArgument)].filter fun (_, faults) => !faults.isEmpty

/-- The faults of the settings together. -/
def jointFaults (s : Settings) : SettingFaults :=
  if s.firstArgument == s.offsetArgument then
    [("__all__", [⟨"pagination_arguments", "first and offset argument names must differ"⟩])]
  else []

/-- All faults. Settings are looked at together only if each is right by itself. -/
def faults (s : Settings) : SettingFaults :=
  match s.fieldFaults with
  | [] => s.jointFaults
  | found => found

end Settings

end GraphQuery
