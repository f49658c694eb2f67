import GraphQuery.Yaml.Token

/-!
# Nodes of a YAML text

A node may have an anchor, and a reference stands for the node with that anchor.

## Main definitions

* `Yaml.Node`: scalars, sequences and mappings.
* `Yaml.Node.targets`: the nodes that references may stand for.
* `Yaml.Node.follow`: the node that a reference stands for.
-/

namespace GraphQuery.Yaml

/-- What a document is made of. -/
inductive Node where
  | scalar (style : Style) (tag : Option String) (text : String)
  | sequence (items : List Node)
  | mapping (entries : List (Node × Node))
  /-- A node with the number of its anchor. -/
  | anchored (number : Nat) (node : Node)
  /-- The node whose anchor has the number. -/
  | reference (number : Nat)
deriving Repr, Inhabited

namespace Node

/-- A node that is left out. -/
def empty : Node := .scalar .plain none ""

mutual

/-- The nodes with an anchor by its number, in the order in which they start. -/
def targets : Node → List (Nat × Node)
  | .scalar _ _ _ => []
  | .sequence items => targetsOfItems items
  | .mapping entries => targetsOfEntries entries
  | .anchored number node => (number, node) :: targets node
  | .reference _ => []

/-- The nodes with an anchor among items. -/
def targetsOfItems : List Node → List (Nat × Node)
  | [] => []
  | item :: items => targets item ++ targetsOfItems items

/-- The nodes with an anchor among entries. -/
def targetsOfEntries : List (Node × Node) → List (Nat × Node)
  | [] => []
  | (key, value) :: entries => targets key ++ targets value ++ targetsOfEntries entries

end

/-- The node itself, without its anchor, or the one that a reference stands for. Of several targets
with one number the last is meant. -/
def follow (known : List (Nat × Node)) : Node → Node
  | .anchored _ node => node
  | .reference number => (known.reverse.lookup number).getD empty
  | node => node

end Node

end GraphQuery.Yaml
