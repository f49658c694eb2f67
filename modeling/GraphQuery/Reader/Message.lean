import GraphQuery.Reader.Basic
import GraphQuery.Text.Blank

/-!
# The wording of trails

A fault is shown by its cause and the first line of what remains, without surrounding blanks. If
nothing of that line is left, the fault is said to stand at the end of the input.

## Main definitions

* `Fault.message`: one line for one fault.
* `Trail.message`: the lines of a trail, each ended by a line feed.
-/

namespace GraphQuery

/-- What is shown of the place of a fault. -/
def Fault.near (fault : Fault) : List Char := Text.trim (Text.firstLine fault.rest)

/-- The cause of a fault and where it stands. -/
def Fault.message (fault : Fault) : String :=
  match fault.near with
  | [] => fault.cause ++ " at end of input"
  | near => fault.cause ++ " near `" ++ String.ofList near ++ "`"

/-- One line for each fault, from the innermost. -/
def Trail.message (trail : Trail) : String :=
  trail.foldr (fun fault text => fault.message ++ "\n" ++ text) ""

/-- The message without the line feed that ends it. -/
def Trail.summary (trail : Trail) : String :=
  String.ofList (Text.trimEnd (Trail.message trail).toList)

/-- The trail of a text that could not be read at all, with no more known about it. -/
def Trail.unreadable (rest : List Char) : Trail := [⟨rest, "Unable to parse"⟩]

end GraphQuery
