import GraphQuery.Compilation.Error
import GraphQuery.Reader.Message

/-!
# Why a text is no schema

## Main definitions

* `Duplicated`, `RelationFault`: what can be there twice, and what can be wrong with a relation.
* `SchemaError`, `SchemaError.message`: the causes and their wording.
-/

namespace GraphQuery

/-- What can be declared twice. -/
inductive Duplicated where
  | type
  | field
  | argument
  | enumValue
  | schemaBlock
deriving Repr, DecidableEq

/-- The word for what is declared twice. -/
def Duplicated.word : Duplicated → String
  | .type => "type"
  | .field => "field"
  | .argument => "argument"
  | .enumValue => "enum value"
  | .schemaBlock => "schema definition"

/-- What can be wrong with the relation of a field. -/
inductive RelationFault where
  | repeated
  | unexpectedArgument (name : String)
  | unnamed
  | badDirection (found : String)
  /-- Root fields follow no relation. -/
  | onRootField
  /-- A field that leads to an entity follows a relation. -/
  | missing (kind : Kind)
  /-- Only fields that lead to an entity follow a relation. -/
  | onLeaf (kind : Kind)
  /-- No field leads to the root type. -/
  | toRoot
deriving Repr, DecidableEq

/-- The wording of a fault. -/
def RelationFault.text : RelationFault → String
  | .repeated => "`@relation` declared more than once"
  | .unexpectedArgument name => "unexpected argument `" ++ name ++ "`"
  | .unnamed => "`name` must be a non-empty string"
  | .badDirection found => "`direction` must be OUT or IN, found `" ++ found ++ "`"
  | .onRootField => "root fields select entities directly and cannot declare `@relation`"
  | .missing kind => "object-valued field of type `" ++ kind.text ++ "` requires `@relation`"
  | .onLeaf kind =>
    "`@relation` is only valid on object-valued fields, found `" ++ kind.text ++ "`"
  | .toRoot => "the root query type cannot be selected as an entity"

/-- Why a text is no schema. -/
inductive SchemaError where
  | unreadable (trail : Trail)
  | unknownType (name place : String)
  | duplicate (what : Duplicated) (name : String)
  | missingRoot (name : String)
  | rootFieldWithoutEntity (field : String) (found : Kind)
  | invalidRelation (type field : String) (fault : RelationFault)
  | unsupportedDirective (type field directive : String)
  | argumentNotLeaf (type field argument : String) (found : Kind)
  | invalidDefault (type field argument : String) (error : CompileError)
  | unreadableFile (path reason : String)
deriving Repr

/-- The wording of an error. -/
def SchemaError.message : SchemaError → String
  | .unreadable trail => "Failed to parse schema definition: " ++ trail.summary
  | .unknownType name place =>
    "Unknown type `" ++ name ++ "\n  Context: referenced by " ++ place ++ "`"
  | .duplicate what name => "Duplicate " ++ what.word ++ " `" ++ name ++ "`"
  | .missingRoot name => "Root query type `" ++ name ++ "` is not defined"
  | .rootFieldWithoutEntity field found =>
    "Root field `" ++ field ++ "` must return an object type or a list of one, found `" ++
      found.text ++ "`"
  | .invalidRelation type field fault =>
    "Invalid relation on `" ++ type ++ "." ++ field ++ "`: " ++ fault.text
  | .unsupportedDirective type field directive =>
    "Unsupported directive `@" ++ directive ++ "` on `" ++ type ++ "." ++ field ++ "`"
  | .argumentNotLeaf type field argument found =>
    "Argument `" ++ argument ++ "` of `" ++ type ++ "." ++ field ++
      "` must be a scalar, enum or list type, found `" ++ found.text ++ "`"
  | .invalidDefault type field argument error =>
    "Invalid default for argument `" ++ argument ++ "` of `" ++ type ++ "." ++ field ++ "`: " ++
      error.message
  | .unreadableFile path reason => "Failed to read schema file: " ++ path ++ ": " ++ reason

end GraphQuery
