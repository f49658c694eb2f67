import GraphQuery.Proofs.Definition.Description

/-!
# The grammar of definitions

Which tokens schema definitions can be written with. Values, types and arguments are written as in
queries, and all values are constants. Before a definition, a field, an argument definition and an
enum value a description may stand; it is not kept.

## Main definitions

* `Directive.Written`, `ArgumentDefinition.Written`, `FieldDefinition.Written`,
  `EnumDefinition.ValueWritten`, `SchemaBlock.OperationWritten`, `Definition.Written`: the tokens of
  each.
* `Definition.Render`: a text is a layout of the tokens of definitions.
-/

namespace GraphQuery

open Lexeme

/-- A directive: an at sign, a name, and perhaps arguments. -/
inductive Directive.Written : Directive → List Token → Prop
  | intro {x : String} {arguments : List Argument} {ts : List Token} (hx : IsName x)
    (harguments : OptionallyGrouped '(' ')' (Argument.Written true) arguments ts) :
    Written ⟨x, arguments⟩ (['@'] :: x.toList :: ts)

/-- The definition of an argument: its name, a colon, its type and its default. -/
inductive ArgumentDefinition.Written : ArgumentDefinition → List Token → Prop
  | intro {x : String} {type : TypeRef} {default? : Option Value} {ts us : List Token}
    (hx : IsName x) (htype : type.Written ts)
    (hdefault : VariableDefinition.DefaultWritten default? us) :
    Written ⟨x, type, default?⟩ (x.toList :: [':'] :: (ts ++ us))

/-- A field: its name, perhaps definitions of arguments, a colon, its type and directives. -/
inductive FieldDefinition.Written : FieldDefinition → List Token → Prop
  | intro {x : String} {arguments : List ArgumentDefinition} {type : TypeRef}
    {directives : List Directive} {ts us vs : List Token} (hx : IsName x)
    (harguments : OptionallyGrouped '(' ')' (Described ArgumentDefinition.Written) arguments ts)
    (htype : type.Written us) (hdirectives : Row Directive.Written directives vs) :
    Written ⟨x, arguments, type, directives⟩ (x.toList :: (ts ++ [':'] :: (us ++ vs)))

/-- A value of an enum is a name. -/
inductive EnumDefinition.ValueWritten : String → List Token → Prop
  | intro {x : String} (hx : IsName x) : ValueWritten x [x.toList]

/-- A root type: the word of an operation, a colon and the name of the type. -/
inductive SchemaBlock.OperationWritten : OperationKind × String → List Token → Prop
  | intro (kind : OperationKind) {x : String} (hx : IsName x) :
    OperationWritten (kind, x) [kind.word.toList, [':'], x.toList]

/-- A definition: the word that introduces it, a name unless it is a schema block, and what it
consists of between braces. -/
inductive Definition.Written : Definition → List Token → Prop
  | object {x : String} {fields : List FieldDefinition} {ts : List Token} (hx : IsName x)
    (hfields : Grouped '\x7b' '\x7d' (Described FieldDefinition.Written) fields ts) :
    Written (.object ⟨x, fields⟩) ("type".toList :: x.toList :: ts)
  | enum {x : String} {values : List String} {ts : List Token} (hx : IsName x)
    (hvalues : Grouped '\x7b' '\x7d' (Described EnumDefinition.ValueWritten) values ts) :
    Written (.enum ⟨x, values⟩) ("enum".toList :: x.toList :: ts)
  | scalar {x : String} (hx : IsName x) : Written (.scalar x) ["scalar".toList, x.toList]
  | schema {operations : List (OperationKind × String)} {ts : List Token}
    (h : Grouped '\x7b' '\x7d' SchemaBlock.OperationWritten operations ts) :
    Written (.schema ⟨operations⟩) ("schema".toList :: ts)

/-- The text is a layout of tokens that the definitions can be written with. -/
def Definition.Render (definitions : List Definition) (text : List Char) : Prop :=
  ∃ ts, Row (Described Definition.Written) definitions ts ∧ Spans ts text []

end GraphQuery
