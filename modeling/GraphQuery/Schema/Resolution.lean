import GraphQuery.Compilation.Coercion
import GraphQuery.Journal
import GraphQuery.Language.Definition
import GraphQuery.Schema.Error

/-!
# From definitions to a schema

Definitions are collected first, so that a type may be used before it is defined. Then the types of
fields and arguments are looked up, relations are checked, and at last every default is tried
against the kind of its argument.

## Main definitions

* `Declarations`, `Declarations.collect`: what the definitions declare.
* `Declarations.kind`: the kind of a type reference.
* `Declarations.field`, `Declarations.object`: resolved fields and types.
* `Schema.resolve`: the schema that definitions declare.
* `Schema.checkDefaults`: every default fits its argument.
* `Schema.load`: the schema of a text.
-/

namespace GraphQuery

/-- What definitions declare, in the order of the text. -/
structure Declarations where
  /-- The names of types of any sort. -/
  names : List String := []
  objects : List ObjectDefinition := []
  enums : List EnumType := []
  scalars : List String := []
  block : Option SchemaBlock := none
deriving Repr, Inhabited

/-- The first name that stood before already. -/
def firstRepeated? (seen : List String) : List String → Option String
  | [] => none
  | name :: rest =>
    if seen.contains name then some name else firstRepeated? (seen ++ [name]) rest

namespace Declarations

/-- Take a name for a type. Built-in scalars have theirs already. -/
def declare (d : Declarations) (name : String) : Except SchemaError Declarations :=
  if (Scalar.builtin? name).isSome || d.names.contains name then
    .error (.duplicate .type name)
  else .ok { d with names := d.names ++ [name] }

/-- The root types that are of no use for read queries. -/
def ignoredRoots (block : SchemaBlock) : List Event :=
  (block.operations.filter (·.1 != .query)).map fun (kind, type) =>
    .rootTypeIgnored kind.word type

/-- One more definition. -/
def add (d : Declarations) (definition : Definition) : Logged SchemaError Declarations :=
  match definition with
  | .object object => do
    let d ← Logged.ofExcept (d.declare object.name)
    return { d with objects := d.objects ++ [object] }
  | .enum enum => do
    let d ← Logged.ofExcept (d.declare enum.name)
    match firstRepeated? [] enum.values with
    | some value => Logged.fail (.duplicate .enumValue (enum.name ++ "." ++ value))
    | none => return { d with enums := d.enums ++ [⟨enum.name, enum.values⟩] }
  | .scalar name => do
    let d ← Logged.ofExcept (d.declare name)
    return { d with scalars := d.scalars ++ [name] }
  | .schema block =>
    if d.block.isSome then Logged.fail (.duplicate .schemaBlock "schema")
    else do
      Logged.noteAll (ignoredRoots block)
      return { d with block := some block }

/-- All definitions, one after the other. -/
def collect (d : Declarations) : List Definition → Logged SchemaError Declarations
  | [] => return d
  | definition :: rest => do
    let d ← d.add definition
    d.collect rest

/-- The name of the root type: the one that the schema block gives, or `Query`. -/
def root (d : Declarations) : String := (d.block.bind (·.queryType?)).getD "Query"

/-- The kind of a type name. -/
def namedKind? (d : Declarations) (name : String) : Option Kind :=
  match Scalar.builtin? name with
  | some scalar => some (.scalar scalar)
  | none =>
    if d.scalars.contains name then some (.scalar (.custom name))
    else if d.enums.any (·.name == name) then some (.enum name)
    else if d.objects.any (·.name == name) then some (.entity name)
    else none

/-- The kind of a type reference at a place. Marks against null are dropped. -/
def kind (d : Declarations) (place : String) : TypeRef → Except SchemaError Kind
  | .nonNull inner => d.kind place inner
  | .list inner => do return .list (← d.kind place inner)
  | .named name =>
    match d.namedKind? name with
    | some kind => .ok kind
    | none => .error (.unknownType name place)

/-- The relation that a directive declares. -/
def relation (directive : Directive) : Except RelationFault Relation := do
  if let some argument := directive.arguments.find? fun a =>
      a.name != "name" && a.name != "direction" then
    .error (.unexpectedArgument argument.name)
  let type ← match directive.argument? "name" with
    | some (.string name) => if name.isEmpty then .error .unnamed else .ok name
    | _ => .error .unnamed
  let direction ← match directive.argument? "direction" with
    | none => .ok .outgoing
    | some value =>
      let text := match value with
        | .string s => s
        | .enum symbol => symbol
        | other => other.text
      let readable := match value with
        | .string _ => true
        | .enum _ => true
        | _ => false
      match if readable then Direction.parse? text else none with
      | some direction => .ok direction
      | none => .error (.badDirection text)
  return { type, direction }

/-- The relation that the directives of a field declare, if any. -/
def relation? (type field : String) (found : Option Relation) :
    List Directive → Except SchemaError (Option Relation)
  | [] => .ok found
  | directive :: rest =>
    if directive.name != "relation" then
      .error (.unsupportedDirective type field directive.name)
    else if found.isSome then .error (.invalidRelation type field .repeated)
    else do
      let relation ← (relation directive).mapError (.invalidRelation type field)
      relation? type field (some relation) rest

/-- Root fields lead to entities and follow no relation; other fields follow a relation exactly if
they lead to an entity; and no field leads to the root type. -/
def checkRelation (d : Declarations) (isRoot : Bool) (type field : String) (kind : Kind)
    (relation : Option Relation) : Except SchemaError Unit := do
  match isRoot, kind.target?, relation with
  | true, none, _ => .error (.rootFieldWithoutEntity field kind)
  | true, some _, some _ => .error (.invalidRelation type field .onRootField)
  | false, some _, none => .error (.invalidRelation type field (.missing kind))
  | false, none, some _ => .error (.invalidRelation type field (.onLeaf kind))
  | _, _, _ => .ok ()
  if kind.target? == some d.root then .error (.invalidRelation type field .toRoot)

/-- The arguments of a field, of which those in `seen` have been declared before. -/
def arguments (d : Declarations) (type field : String) (seen : List String) :
    List ArgumentDefinition → Except SchemaError (List ArgumentDeclaration)
  | [] => .ok []
  | argument :: rest => do
    let place := type ++ "." ++ field
    if seen.contains argument.name then
      .error (.duplicate .argument (place ++ "(" ++ argument.name ++ ")"))
    let kind ← d.kind place argument.type
    if !kind.isLeaf then .error (.argumentNotLeaf type field argument.name kind)
    let others ← d.arguments type field (seen ++ [argument.name]) rest
    return { name := argument.name, kind, default? := argument.default? } :: others

/-- A field of a type. -/
def field (d : Declarations) (isRoot : Bool) (type : String) (definition : FieldDefinition) :
    Except SchemaError Field := do
  let kind ← d.kind (type ++ "." ++ definition.name) definition.type
  let relation? ← relation? type definition.name none definition.directives
  d.checkRelation isRoot type definition.name kind relation?
  let arguments ← d.arguments type definition.name [] definition.arguments
  return { name := definition.name, kind, relation?, arguments }

/-- The fields of a type, of which those in `seen` have been declared before. -/
def fields (d : Declarations) (isRoot : Bool) (type : String) (seen : List String) :
    List FieldDefinition → Except SchemaError (List Field)
  | [] => .ok []
  | definition :: rest => do
    if seen.contains definition.name then
      .error (.duplicate .field (type ++ "." ++ definition.name))
    let first ← d.field isRoot type definition
    let others ← d.fields isRoot type (seen ++ [definition.name]) rest
    return first :: others

/-- An object type. -/
def object (d : Declarations) (definition : ObjectDefinition) : Except SchemaError ObjectType := do
  let fields ← d.fields (definition.name == d.root) definition.name [] definition.fields
  return { name := definition.name, fields }

end Declarations

/-- A list in order of names, with one more item. -/
def insertByName {α : Type} (name : α → String) (item : α) : List α → List α
  | [] => [item]
  | other :: rest =>
    if name item < name other then item :: other :: rest
    else other :: insertByName name item rest

/-- A list in order of names. -/
def sortByName {α : Type} (name : α → String) (items : List α) : List α :=
  items.foldr (insertByName name) []

namespace Schema

/-- The schema that definitions declare, its defaults unchecked. -/
def resolve (definitions : List Definition) : Logged SchemaError Schema := do
  let d ← ({} : Declarations).collect definitions
  let types ← Logged.ofExcept (d.objects.mapM d.object)
  let some root := types.find? (·.name == d.root) | Logged.fail (.missingRoot d.root)
  return {
    root
    types := sortByName (·.name) (types.filter (·.name != d.root))
    enums := sortByName (·.name) d.enums }

/-- The default of an argument fits its kind. -/
def checkDefault (schema : Schema) (type field : String) (argument : ArgumentDeclaration) :
    Except SchemaError Unit :=
  match argument.default? with
  | none => .ok ()
  | some value =>
    match schema.literal? argument.kind value with
    | .ok _ => .ok ()
    | .error e => .error (.invalidDefault type field argument.name e)

/-- Every default fits the kind of its argument. -/
def checkDefaults (schema : Schema) : Except SchemaError Unit :=
  (schema.root :: schema.types).forM fun type =>
    type.fields.forM fun field =>
      field.arguments.forM (schema.checkDefault type.name field.name)

/-- The schema of a definition text. -/
def load (text : String) : Logged SchemaError Schema := do
  let definitions ← Logged.ofExcept ((Definition.parseAll text.toList).mapError .unreadable)
  let schema ← resolve definitions
  Logged.ofExcept schema.checkDefaults
  Logged.note (.schemaLoaded schema.root.name schema.root.fields.length schema.types.length)
  return schema

/-- The schema of a file, given what reading the file came to. -/
def loadFile (path : String) (content : Except String String) : Logged SchemaError Schema := do
  let text ← Logged.ofExcept (content.mapError (.unreadableFile path))
  Logged.note (.loadingSchema path)
  load text

end Schema

end GraphQuery
