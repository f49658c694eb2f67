/-!
# JSON values

Values for parameters. The members of an object keep the order in which their names first came.

## Main definitions

* `Json`: the values.
* `Json.insert`, `Json.get?`: members by name.
-/

namespace GraphQuery

/-- A JSON value. Integers of any size are kept apart from floats. -/
inductive Json where
  | null
  | bool (b : Bool)
  | int (i : Int)
  | float (x : Float)
  | string (s : String)
  | array (items : List Json)
  | object (members : List (String × Json))
deriving Repr, Inhabited

namespace Json

/-- Members by name: a new name goes to the end, a name already there keeps its place and takes the
new value. -/
def insert (name : String) (value : Json) : List (String × Json) → List (String × Json)
  | [] => [(name, value)]
  | (key, old) :: rest =>
    if key == name then (key, value) :: rest else (key, old) :: insert name value rest

/-- The value of a member. -/
def get? (members : List (String × Json)) (name : String) : Option Json :=
  (members.find? (·.1 == name)).map (·.2)

end Json

end GraphQuery
