import GraphQuery.Decimal.Layout
import GraphQuery.Language.Lexeme
import GraphQuery.Text.Quoted

/-!
# Values

The values that arguments and defaults are written with.

## Main definitions

* `Value`: variables, literals, enum symbols and lists.
* `Value.vars`: the variables inside a value, in order.
* `Value.text`: a value as it is shown in messages.
* `Value.reader`: reads a value; constants hold no variables.
-/

namespace GraphQuery

/-- A value as it is written in a query or a schema definition. -/
inductive Value where
  | var (name : String)
  | int (i : Int64)
  | float (x : Float)
  | string (s : String)
  | boolean (b : Bool)
  | null
  /-- A name that stands for one of the values of an enum. -/
  | enum (symbol : String)
  | list (items : List Value)
deriving Repr, Inhabited

namespace Value

/-- The value is `null`. -/
def isNull : Value → Bool
  | .null => true
  | _ => false

mutual

/-- The variables inside a value, in order, with repetitions. -/
def vars : Value → List String
  | .var name => [name]
  | .list items => varsOfAll items
  | _ => []

/-- The variables inside the items of a list. -/
def varsOfAll : List Value → List String
  | [] => []
  | v :: vs => v.vars ++ varsOfAll vs

end

/-- Numbers in messages never have an exponent, and whole ones have no point. -/
def floatLayout : Decimal.Layout :=
  { least := none, greatest := none, pointZero := false, plusSign := false, tie := .up }

mutual

/-- A value as it is shown in messages. -/
def text : Value → String
  | .var name => "$" ++ name
  | .int i => toString i.toInt
  | .float x => floatLayout.text x
  | .string s => String.ofList (Text.Quoted.encode s.toList)
  | .boolean b => if b then "true" else "false"
  | .null => "null"
  | .enum symbol => symbol
  | .list items => "[" ++ textOfAll items ++ "]"

/-- The items of a list, separated by a comma and a blank. -/
def textOfAll : List Value → String
  | [] => ""
  | [v] => v.text
  | v :: vs => v.text ++ ", " ++ textOfAll vs

end

/-! ### Reading -/

open Reader Lexeme

/-- The value of a name: one of the three reserved words, or an enum symbol. -/
def ofName (name : String) : Value :=
  if name == "true" then .boolean true
  else if name == "false" then .boolean false
  else if name == "null" then .null
  else .enum name

/-- A reserved word or an enum symbol. -/
def nameReader : Reader Value := do
  return ofName (← name)

/-- A dollar sign with the name of a variable directly behind it. -/
def variableReader : Reader Value := do
  let _ ← char '$'
  let name ← expecting "Expected variable name after `$`" (commit name)
  return .var name

/-- The value of a numeral, or why there is none. A fraction or an exponent makes it a float. -/
def ofNumeral (n : Numeral) : Except String Value :=
  if n.isWhole then
    let i := n.toInt
    if Int64.minValue.toInt ≤ i ∧ i ≤ Int64.maxValue.toInt then .ok (.int (Int64.ofInt i))
    else .error "Int literal out of range"
  else
    let x := n.toDecimal.toFloat
    if x.isFinite then .ok (.float x) else .error "Float literal out of range"

/-- An integer or a float. It must not run on into a name or a point. -/
def numberReader : Reader Value := fun s =>
  match numeral s with
  | .done n rest =>
    if rest.head?.any (fun c => isNameChar c || c == '.') then
      .refused [⟨s, "Invalid number literal"⟩]
    else match ofNumeral n with
      | .ok v => .done v rest
      | .error cause => .refused [⟨s, cause⟩]
  | .declined trail => .declined trail
  | .refused trail => .refused trail

/-- A list of values between brackets. -/
def listReader (item : Reader Value) : Reader Value := do
  let _ ← symbol '['
  let items ← many (token item)
  let _ ← expecting "Expected `]` to close list value" (commit (symbol ']'))
  return .list items

/-- The reader that fits the first character of a value. -/
def dispatch (constant : Bool) (item : Reader Value) : Reader Value := fun s =>
  match s with
  | [] => nameReader s
  | c :: _ =>
    if c == '$' then
      if constant then refuse "Variables are not allowed in constant values" s
      else variableReader s
    else if c == '"' then (do return .string (← Lexeme.string) : Reader Value) s
    else if c == '[' then listReader item s
    else if c == '\x7b' then refuse "Input object values are not supported" s
    else if c == '-' || c.isDigit then numberReader s
    else nameReader s

/-- A value, with the values inside it read by `item`. -/
def readerStep (constant : Bool) (item : Reader Value) : Reader Value := do
  ignored
  dispatch constant item

/-- Reads a value. In a constant no variable may stand. -/
def reader (constant : Bool) : Reader Value := nest (readerStep constant)

end Value

end GraphQuery
