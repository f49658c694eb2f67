import GraphQuery.Compilation.Coercion
import GraphQuery.Cypher.Statement
import GraphQuery.Journal
import GraphQuery.Language.Selection
import GraphQuery.Settings.Basic

/-!
# Filters of a selection

Arguments filter the nodes that a field leads to. The filters follow the order of the declarations,
whatever the order in the query is: first the declared arguments of the field, then, if the settings
allow it, the properties of the target.

## Main definitions

* `Candidate`, `Candidate.all`: what may be filtered on.
* `Candidate.value?`: the value for a candidate: the one supplied, or else the default.
* `Filter.ofSelection`: the filters of a selection.
-/

namespace GraphQuery

open Cypher

/-- A property that may be filtered on. -/
structure Candidate where
  name : String
  kind : Kind
  default? : Option Value
deriving Repr, Inhabited

namespace Candidate

/-- The declared arguments of a field that do not say which page to take. -/
def declared (settings : Settings) (field : Field) : List Candidate :=
  (field.arguments.filter fun a => !settings.isPageArgument a.name).map fun a =>
    { name := a.name, kind := a.kind, default? := a.default? }

/-- The property can be filtered on and is not among the candidates so far. -/
def isNew (settings : Settings) (found : List Candidate) (property : Field) : Bool :=
  property.kind.isLeaf && !settings.isPageArgument property.name
    && !found.any (·.name == property.name)

/-- The candidates so far, with a property at the end if it is new. -/
def withProperty (settings : Settings) (found : List Candidate) (property : Field) :
    List Candidate :=
  if isNew settings found property then
    found ++ [{ name := property.name, kind := property.kind, default? := none }]
  else found

/-- All that may be filtered on, in order of declaration. -/
def all (settings : Settings) (field : Field) (target : ObjectType) : List Candidate :=
  if settings.implicitFilters then
    target.fields.foldl (withProperty settings) (declared settings field)
  else declared settings field

/-- The value for a candidate: the one supplied, or else the default. -/
def value? (selection : Selection) (c : Candidate) : Option Value :=
  (selection.argument? c.name).or c.default?

end Candidate

namespace Filter

/-- The first supplied argument that is neither a candidate nor says which page to take. -/
def unknown? (settings : Settings) (candidates : List Candidate) (selection : Selection) :
    Option Argument :=
  selection.arguments.find? fun a =>
    !settings.isPageArgument a.name && !candidates.any (·.name == a.name)

/-- The filters for the candidates that have a value. A value that is null filters nothing. -/
def ofCandidates (schema : Schema) (bound : String) (field : Field) (selection : Selection) :
    List Candidate → Logged CompileError (List Equality)
  | [] => return []
  | c :: cs =>
    match c.value? selection with
    | none => ofCandidates schema bound field selection cs
    | some value => do
      let place : ArgumentPlace := { field := field.name, argument := c.name }
      match ← Logged.ofExcept ((schema.literal? c.kind value).mapError (·.located place)) with
      | some literal =>
        let others ← ofCandidates schema bound field selection cs
        return { property := c.name, value := literal } :: others
      | none =>
        Logged.note (.nullFilterOmitted bound c.name field.name)
        ofCandidates schema bound field selection cs

/-- The filters of a selection on the node that a variable is bound to. -/
def ofSelection (schema : Schema) (settings : Settings) (bound : String) (field : Field)
    (target : ObjectType) (selection : Selection) : Logged CompileError (List Equality) :=
  let candidates := Candidate.all settings field target
  match unknown? settings candidates selection with
  | some argument => Logged.fail (.unknownArgument field.name argument.name)
  | none => ofCandidates schema bound field selection candidates

end Filter

end GraphQuery
