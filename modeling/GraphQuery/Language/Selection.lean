import GraphQuery.Language.Value

/-!
# Selections

A selection names a field, perhaps under another key, with arguments and with the selections made
on what the field leads to.

## Main definitions

* `Argument`, `Selection`: a named value, and the tree of selections.
* `Selection.key`: the name that the result carries.
* `Selection.argument?`: the first value given for an argument.
* `Selection.vars`: the variables used in a tree, in order.
* `Argument.listReader`, `Selection.setReader`: reading.
-/

namespace GraphQuery

/-- A named value. -/
structure Argument where
  name : String
  value : Value
deriving Repr, Inhabited

/-- The first value given under a name. -/
def Argument.find? (name : String) (arguments : List Argument) : Option Value :=
  (arguments.find? (·.name == name)).map (·.value)

/-- A field, what it is called in the result, its arguments, and the selections below it. -/
structure Selection where
  aliasName : Option String
  name : String
  arguments : List Argument
  selections : List Selection
deriving Repr, Inhabited

namespace Selection

/-- The name that the result carries: the alias, or else the name of the field. -/
def key (s : Selection) : String := s.aliasName.getD s.name

/-- The first value given for an argument. -/
def argument? (s : Selection) (name : String) : Option Value := Argument.find? name s.arguments

mutual

/-- The variables used in a selection: in its arguments first, then in the selections below. -/
def vars : Selection → List String
  | ⟨_, _, arguments, selections⟩ =>
    arguments.flatMap (·.value.vars) ++ varsOfAll selections

/-- The variables used in some selections, in order, with repetitions. -/
def varsOfAll : List Selection → List String
  | [] => []
  | s :: ss => s.vars ++ varsOfAll ss

end

end Selection

/-! ### Reading -/

open Reader Lexeme

namespace Argument

/-- A name, a colon and a value. -/
def reader (constant : Bool) : Reader Argument := do
  let name ← token Lexeme.name
  let _ ← expecting "Expected `:` after argument name" (commit (symbol ':'))
  let value ← expecting "Expected argument value" (commit (token (Value.reader constant)))
  return { name, value }

/-- One or more arguments between parentheses. -/
def listReader (constant : Bool) : Reader (List Argument) := do
  let _ ← symbol '('
  let arguments ← expecting "Argument list must not be empty" (commit (many1 (reader constant)))
  let _ ← expecting "Expected `)` to close argument list" (commit (symbol ')'))
  return arguments

end Argument

namespace Selection

/-- A colon and the name of the field that the name before it is an alias of. -/
def aliasedName : Reader String := do
  let _ ← symbol ':'
  expecting "Expected field name after alias" (commit (token Lexeme.name))

/-- Refuse if the text goes on with `word`. -/
def refuseAt (word : List Char) (cause : String) : Reader Unit := fun s =>
  if word.isPrefixOf s then refuse cause s else .done () s

/-- One selection, with the selections below it read by `below`. -/
def reader (below : Reader (List Selection)) : Reader Selection := do
  ignored
  refuseAt ['.', '.', '.'] "Fragments are not supported"
  let first ← token Lexeme.name
  let aliased ← optional aliasedName
  let arguments ← optional (Argument.listReader false)
  refuseAt ['@'] "Directives are not supported in queries"
  let selections ← optional below
  return {
    aliasName := aliased.map fun _ => first
    name := aliased.getD first
    arguments := arguments.getD []
    selections := selections.getD [] }

/-- Selections between braces, with the sets below them read by `below`. -/
def setReaderStep (below : Reader (List Selection)) : Reader (List Selection) := do
  let _ ← symbol '\x7b'
  let selections ← many (reader below)
  let _ ← expecting "Expected `\x7d` to close selection set" (commit (symbol '\x7d'))
  if selections.isEmpty then refuse "Selection set must not be empty" else return selections

/-- One or more selections between braces. -/
def setReader : Reader (List Selection) := nest setReaderStep

end Selection

end GraphQuery
