import GraphQuery.Compilation.Error
import GraphQuery.Schema.Basic

/-!
# Scopes

The variable in scope, what it is bound to, how deep it stands, and the variables bound there. A
comprehension that used one of these again would match only the node it is already bound to, so
every new variable differs from them.

## Main definitions

* `Scope`: the variable in scope and those around it.
* `Scope.fresh`: a name for a new variable.
* `Scope.enter`: the scope of a new variable, one level deeper.

## Main results

* `Scope.numbered_injective`: different numbers make different names. The search for a free name
  ends because of this.
-/

namespace GraphQuery

/-- A variable, the type of the nodes it is bound to, its depth, and the variables bound in this
scope and around it, outermost first. -/
structure Scope where
  variableName : String
  entity : ObjectType
  depth : Nat
  bound : List String
deriving Repr

namespace Scope

/-- The scope of a root selection. -/
def root (variableName : String) (entity : ObjectType) : Scope :=
  { variableName, entity, depth := 1, bound := [variableName] }

/-- The name is taken by a variable of this scope or one around it. -/
def isBound (s : Scope) (name : String) : Bool := s.bound.contains name

/-- A name with a number behind it. -/
def numbered (base : String) (n : Nat) : String := base ++ toString n

theorem numbered_injective {base : String} {m n : Nat} (h : numbered base m = numbered base n) :
    m = n := by
  have hdigits : Nat.toDigits 10 m = Nat.toDigits 10 n := by
    simpa [numbered, ← String.toList_inj] using h
  have hvalue := congrArg (Nat.ofDigitChars 10 · 0) hdigits
  simpa using hvalue

/-- The bound names that are none of those with a number below `n`. -/
def untried (s : Scope) (base : String) (n : Nat) : List String :=
  s.bound.filter fun name => !((List.range n).map (numbered base)).contains name

theorem length_untried_succ_lt {s : Scope} {base : String} {n : Nat}
    (h : s.isBound (numbered base n) = true) :
    (s.untried base (n + 1)).length < (s.untried base n).length := by
  have hfilter : s.untried base (n + 1)
      = (s.untried base n).filter (· != numbered base n) := by
    simp only [untried, List.filter_filter, List.range_succ, List.map_append]
    congr 1
    funext name
    simp [bne, Bool.and_comm, eq_comm, Bool.beq_eq_decide_eq]
  rw [hfilter, List.length_filter_lt_length_iff_exists]
  refine ⟨numbered base n, ?_, by simp⟩
  have hnew : ∀ m, m < n → numbered base m ≠ numbered base n := by
    intro m hm heq
    exact absurd (numbered_injective heq) (by omega)
  have hmem : numbered base n ∈ s.bound := by simpa [isBound] using h
  simpa [untried] using ⟨hmem, hnew⟩

/-- The first free name among those with a number, from `n` on. Every number that is taken leaves
one bound name less to meet, so a free one is found. -/
def freshFrom (s : Scope) (base : String) (n : Nat) : String :=
  if s.isBound (numbered base n) then s.freshFrom base (n + 1) else numbered base n
termination_by (s.untried base n).length
decreasing_by exact length_untried_succ_lt ‹_›

/-- A name for a new variable: the given one if it is free, and otherwise the first free name with a
number behind it, beginning with the depth of the new scope. -/
def fresh (s : Scope) (base : String) : String :=
  if s.isBound base then s.freshFrom base (s.depth + 1) else base

/-- The scope of a new variable, one level deeper, unless that is too deep. -/
def enter (s : Scope) (limit : Nat) (variableName : String) (entity : ObjectType) :
    Except CompileError Scope :=
  let depth := s.depth + 1
  if limit < depth then .error (.tooDeep depth limit)
  else .ok { variableName, entity, depth, bound := s.bound ++ [variableName] }

end Scope

end GraphQuery
