import GraphQuery.Yaml.Node

/-!
# Documents of a YAML text

## Main definitions

* `Yaml.Node.node?`: the node that tokens begin with.
* `Yaml.Node.parse?`: the only document of a text.
-/

namespace GraphQuery.Yaml.Node

/-- The tokens that are left, and what the tokens before them have declared. -/
structure Pending where
  tokens : List Token
  /-- The numbers of anchors, each name once. -/
  anchors : List (String × Nat) := []
  handles : Tag.Handles := []

/-- What may read tokens. -/
abbrev TokenReader := StateT Pending Option

/-- The next token. -/
def peek : TokenReader (Option Token) := do return (← get).tokens.head?

/-- Go over the next token. -/
def skip : TokenReader Unit := modify fun s => { s with tokens := s.tokens.drop 1 }

/-- Go over the next token if it is `t`. -/
def accept (t : Token) : TokenReader Bool := do
  if (← peek) == some t then
    skip
    return true
  else return false

/-- The next token is one of these, or there is none. -/
def ahead (ts : List Token) : TokenReader Bool := do
  return (← peek).all ts.contains

/-- An anchor, if one comes next. -/
def anchorName : TokenReader (Option String) := do
  match ← peek with
  | some (.anchor name) =>
    skip
    return some name
  | _ => return none

/-- A tag, if one comes next. Its handle has to be known. -/
def tagName : TokenReader (Option String) := do
  match ← peek with
  | some (.tag t) =>
    skip
    return some (← t.resolve? (← get).handles)
  | _ => return none

/-- An anchor and a tag, in any order and each at most once. -/
def properties : TokenReader (Option String × Option String) := do
  match ← anchorName with
  | some name => return (some name, ← tagName)
  | none =>
    match ← tagName with
    | some tag => return (← anchorName, some tag)
    | none => return (none, none)

/-- Number the anchor of a node that starts here. The number is how many names there are so far,
also if the name is one of them. -/
def declare (anchor : Option String) : TokenReader (Node → Node) := do
  match anchor with
  | some name =>
    let s ← get
    let number := s.anchors.length
    set { s with anchors := (name, number) :: s.anchors.filter (·.1 != name) }
    return .anchored number
  | none => return id

mutual

/-- A node. Block collections are read only if `block` holds; `inline` allows a sequence at the
column of the mapping around it. -/
def node? : (fuel : Nat) → (block inline : Bool) → TokenReader Node
  | 0, _, _ => failure
  | n + 1, block, inline => do
    match ← peek with
    | some (.reference name) =>
      skip
      return .reference (← ((← get).anchors.lookup name : Option Nat))
    | _ =>
      let (anchor, tag) ← properties
      let given := anchor.isSome || tag.isSome
      let wrap ← declare anchor
      let leftOut : TokenReader Node :=
        if given then return wrap (.scalar .plain tag "") else failure
      match ← peek with
      | some (.scalar style text) =>
        skip
        return wrap (.scalar style tag text)
      | some .flowSequenceStart =>
        skip
        return wrap (.sequence (← flowItems? n true))
      | some .flowMappingStart =>
        skip
        return wrap (.mapping (← flowEntries? n true))
      | some .blockEntry =>
        if inline then return wrap (.sequence (← inlineItems? n)) else leftOut
      | some .blockSequenceStart =>
        if block then
          skip
          return wrap (.sequence (← blockItems? n))
        else leftOut
      | some .blockMappingStart =>
        if block then
          skip
          return wrap (.mapping (← blockEntries? n))
        else leftOut
      | _ => leftOut

/-- A node, or nothing if one of these tokens comes first. -/
def nodeUnless? : (fuel : Nat) → (block inline : Bool) → List Token → TokenReader Node
  | 0, _, _, _ => failure
  | n + 1, block, inline, ts => do
    if ← ahead ts then return empty else node? n block inline

/-- The value of a key, which may be left out. -/
def valueUnless? : (fuel : Nat) → (block : Bool) → List Token → TokenReader Node
  | 0, _, _ => failure
  | n + 1, block, ts => do
    if ← accept .value then nodeUnless? n block block ts else return empty

/-- The items of a block sequence, up to its end. -/
def blockItems? : (fuel : Nat) → TokenReader (List Node)
  | 0 => failure
  | n + 1 => do
    if ← accept .blockEnd then return []
    if ← accept .blockEntry then
      let item ← nodeUnless? n true false [.blockEntry, .blockEnd]
      return item :: (← blockItems? n)
    else failure

/-- The items of a sequence that has no end of its own. -/
def inlineItems? : (fuel : Nat) → TokenReader (List Node)
  | 0 => failure
  | n + 1 => do
    if ← accept .blockEntry then
      let item ← nodeUnless? n true false [.blockEntry, .key, .value, .blockEnd]
      return item :: (← inlineItems? n)
    else return []

/-- The entries of a block mapping, up to its end. -/
def blockEntries? : (fuel : Nat) → TokenReader (List (Node × Node))
  | 0 => failure
  | n + 1 => do
    if ← accept .blockEnd then return []
    if ← accept .key then
      let key ← nodeUnless? n true true [.key, .value, .blockEnd]
      let value ← valueUnless? n true [.key, .value, .blockEnd]
      return (key, value) :: (← blockEntries? n)
    else failure

/-- The items of a flow sequence, up to its bracket. An item with a key is a mapping of its own. If
the key is left out, the token that shows it is gone over too. -/
def flowItems? : (fuel : Nat) → (first : Bool) → TokenReader (List Node)
  | 0, _ => failure
  | n + 1, first => do
    if ← accept .flowSequenceEnd then return []
    if !first then
      if !(← accept .flowEntry) then failure
    if ← accept .flowSequenceEnd then return []
    if ← accept .key then
      let bare ← ahead [.value, .flowEntry, .flowSequenceEnd]
      if bare then skip
      let key ← if bare then pure empty else node? n false false
      let value ← valueUnless? n false [.flowEntry, .flowSequenceEnd]
      return .mapping [(key, value)] :: (← flowItems? n false)
    else
      let item ← node? n false false
      return item :: (← flowItems? n false)

/-- The entries of a flow mapping, up to its bracket. -/
def flowEntries? : (fuel : Nat) → (first : Bool) → TokenReader (List (Node × Node))
  | 0, _ => failure
  | n + 1, first => do
    if ← accept .flowMappingEnd then return []
    if !first then
      if !(← accept .flowEntry) then failure
    if ← accept .flowMappingEnd then return []
    if ← accept .key then
      let key ← nodeUnless? n false false [.value, .flowEntry, .flowMappingEnd]
      let value ← valueUnless? n false [.flowEntry, .flowMappingEnd]
      return (key, value) :: (← flowEntries? n false)
    else
      let key ← node? n false false
      return (key, empty) :: (← flowEntries? n false)

end

/-- Take in the directives in front of a document, and say whether there are any. The version comes
at most once, and so does each handle. -/
def directives : (fuel : Nat) → (versioned : Bool) → TokenReader Bool
  | 0, _ => failure
  | n + 1, versioned => do
    match ← peek with
    | some (.directive .version) =>
      if versioned then failure
      skip
      let _ ← directives n true
      return true
    | some (.directive (.handle name meaning)) =>
      let s ← get
      if s.handles.any (·.1 == name) then failure
      set { s with handles := (name, meaning) :: s.handles }
      skip
      let _ ← directives n versioned
      return true
    | _ => return false

/-- Go over the marks behind a document. -/
def documentEnds : (fuel : Nat) → TokenReader Unit
  | 0 => return ()
  | n + 1 => do
    if ← accept .documentEnd then documentEnds n

/-- What follows the mark of a document has no node. -/
def bare : TokenReader Bool := do
  match ← peek with
  | none | some .documentStart | some .documentEnd | some (.directive _) => return true
  | _ => return false

/-- The only document, or nothing if there is none. Its mark may be left out if no directive stands
in front. -/
def document? (fuel : Nat) : TokenReader (Option Node) := do
  if (← peek).isNone then return none
  let given ← directives fuel false
  let marked ← accept .documentStart
  if given && !marked then failure
  let node ←
    if marked && (← bare) then pure empty
    else node? fuel true false
  documentEnds fuel
  if (← peek).isSome then failure
  return some node

/-- The only document of a text. The outer answer is nothing if the text is not well formed, and
the inner one if it has no document. -/
def parse? (text : List Char) : Option (Option Node) := do
  let tokens ← Token.scan? text
  let (node, _) ← (document? (3 * tokens.length + 3)).run { tokens }
  return node

end GraphQuery.Yaml.Node
