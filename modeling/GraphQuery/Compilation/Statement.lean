import GraphQuery.Compilation.Filter
import GraphQuery.Compilation.Paging
import GraphQuery.Compilation.Scope

/-!
# From selections to statements

A root selection becomes a statement, and the selections below it become the map that the statement
returns: a property for each field without a relation, a comprehension for each field with one.

## Main definitions

* `Compilation.entry`, `Compilation.entries`: the entries of a map.
* `Compilation.statement`: the statement of a root selection.
* `Compilation.statements`: those of all root selections, in order.
-/

namespace GraphQuery.Compilation

open Cypher

/-- The relation of a field and the type that it leads to. -/
def hop (schema : Schema) (scope : Scope) (field : Field) :
    Except CompileError (Relation × ObjectType) := do
  let unresolved := CompileError.unresolvedRelation scope.entity.name field.name
  let some relation := field.relation? | .error unresolved
  let some name := field.kind.target? | .error unresolved
  let some target := schema.type? name
    | .error (.unknownType name (.targetOf scope.entity.name field.name))
  return (relation, target)

/-- What is kept of the nodes that a field leads to: a page of a list, or else the first node. -/
def pick (scope : Scope) (field : Field) (page : Page) : Logged CompileError Pick :=
  if field.kind.isList then return .page page
  else do
    if !page.isWhole then Logged.note (.pageIgnored scope.entity.name field.name)
    return .single

/-- The entry of a field without a relation. -/
def property (scope : Scope) (field : Field) (selection : Selection) :
    Logged CompileError Entry := do
  if !selection.selections.isEmpty then
    Logged.fail (.unresolvedRelation scope.entity.name field.name)
  if !selection.arguments.isEmpty then
    Logged.note (.argumentsIgnored scope.entity.name field.name)
  return .property selection.key

mutual

/-- The entry of a selection in the map of the node in scope. -/
def entry (schema : Schema) (settings : Settings) (scope : Scope) :
    Selection → Logged CompileError Entry
  | ⟨aliasName, name, arguments, selections⟩ => do
    let selection : Selection := ⟨aliasName, name, arguments, selections⟩
    let some field := scope.entity.field? name
      | Logged.fail (.unknownField scope.entity.name name)
    if field.relation?.isNone then property scope field selection
    else if selections.isEmpty then
      Logged.fail (.missingSelection scope.entity.name field.name)
    else
      let (relation, target) ← Logged.ofExcept (hop schema scope field)
      let bound := scope.fresh (selection.key ++ target.name)
      let inner ← Logged.ofExcept (scope.enter settings.maxDepth bound target)
      let filters ← Filter.ofSelection schema settings bound field target selection
      let page ← Logged.ofExcept (Paging.ofSelection settings field selection)
      let map ← entries schema settings inner selections
      let kept ← pick scope field page
      let nodes : Comprehension :=
        .mk { source := scope.variableName, relation, bound, label := target.name } filters map kept
      Logged.note (.relationCompiled scope.entity.name field.name nodes.text)
      return .related selection.key nodes

/-- The entries of some selections, in order. -/
def entries (schema : Schema) (settings : Settings) (scope : Scope) :
    List Selection → Logged CompileError (List Entry)
  | [] => return []
  | s :: ss => do
    let first ← entry schema settings scope s
    let others ← entries schema settings scope ss
    return first :: others

end

/-- The root field of a selection and the type that it leads to. -/
def entryPoint (schema : Schema) (selection : Selection) :
    Except CompileError (Field × ObjectType) := do
  let root := schema.root
  let some field := root.field? selection.name
    | .error (.unknownType selection.name (.rootField selection.name root.name))
  let some name := field.kind.target? | .error (.unresolvedRelation root.name field.name)
  let some target := schema.type? name
    | .error (.unknownType name (.resultOf root.name field.name))
  if selection.selections.isEmpty then .error (.missingSelection root.name field.name)
  return (field, target)

/-- The statement of a root selection. -/
def statement (schema : Schema) (settings : Settings) (selection : Selection) :
    Logged CompileError Statement := do
  let (field, target) ← Logged.ofExcept (entryPoint schema selection)
  let bound := selection.key
  let filters ← Filter.ofSelection schema settings bound field target selection
  let page ← Logged.ofExcept (Paging.ofSelection settings field selection)
  let map ← entries schema settings (Scope.root bound target) selection.selections
  let result : Statement := { bound, label := target.name, filters, entries := map, page }
  Logged.note (.statementCompiled bound result.text)
  return result

/-- The statements of some root selections, in order. The first error ends it. -/
def statements (schema : Schema) (settings : Settings) :
    List Selection → Logged CompileError (List Statement)
  | [] => return []
  | s :: ss => do
    let first ← statement schema settings s
    let others ← statements schema settings ss
    return first :: others

end GraphQuery.Compilation
