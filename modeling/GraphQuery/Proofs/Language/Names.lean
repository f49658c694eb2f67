import GraphQuery.Proofs.Language.Acceptance
import GraphQuery.Proofs.Language.Occurrence

/-!
# Variables of a query have names

Each part of a query that is read is written by some of its tokens. A variable is therefore written
as a name behind a dollar sign, wherever it stands in the query.

## Main definitions

* `Document.Selects`: a selection stands in a query, at any depth.

## Main results

* `Row.exists_of_mem`: each thing in a row is written by some tokens.
* `Document.Selects.isName_of_parse`: the variables in a query that is accepted are names.
-/

namespace GraphQuery

open Lexeme

/-! ### Parts of what is written -/

section Repetition

variable {α : Type} {opening closing : Char} {G : α → List Token → Prop} {a : α} {as : List α}
  {ts : List Token}

theorem Row.exists_of_mem (h : Row G as ts) (ha : a ∈ as) : ∃ us, G a us := by
  induction h with
  | nil => cases ha
  | @cons b bs us vs hb _ ih =>
    rcases List.mem_cons.1 ha with rfl | ha
    · exact ⟨us, hb⟩
    · exact ih ha

theorem Grouped.exists_of_mem (h : Grouped opening closing G as ts) (ha : a ∈ as) :
    ∃ us, G a us := by
  cases h with
  | intro h => exact h.exists_of_mem ha

theorem OptionallyGrouped.exists_of_mem (h : OptionallyGrouped opening closing G as ts)
    (ha : a ∈ as) : ∃ us, G a us := by
  cases h with
  | absent => cases ha
  | present h => exact h.exists_of_mem ha

end Repetition

/-! ### Variables -/

/-- What stands at a place of a value that can be written is a name. -/
theorem Value.OccursAt.isName {v : Value} {path : List Nat} {x : String} (h : v.OccursAt path x)
    {constant : Bool} {ts : List Token} (hv : v.Written constant ts) : IsName x := by
  induction h generalizing ts with
  | var x =>
    cases hv with
    | token hspelled =>
      cases hspelled with
      | var hx _ => exact hx
  | item hi _ ih =>
    cases hv with
    | token hspelled => cases hspelled
    | list hrow =>
      obtain ⟨us, hitem⟩ := hrow.exists_of_mem (List.mem_of_getElem? hi)
      exact ih hitem

/-- What stands at a place of a selection that can be written is a name. -/
theorem Selection.OccursAt.isName {s : Selection} {path : List Nat} {x : String}
    (h : s.OccursAt path x) {ts : List Token} (hs : s.Written ts) : IsName x := by
  induction h generalizing ts with
  | argument ha h =>
    cases hs with
    | intro _ harguments _ =>
      obtain ⟨us, hargument⟩ := harguments.exists_of_mem (List.mem_of_getElem? ha)
      cases hargument with
      | intro _ hv => exact h.isName hv
  | nested ht _ ih =>
    cases hs with
    | intro _ _ hselections =>
      obtain ⟨us, hselection⟩ := hselections.exists_of_mem (List.mem_of_getElem? ht)
      exact ih hselection

/-! ### Queries -/

namespace Document

variable {d : Document} {s : Selection}

/-- A selection stands in a query: it is a root selection, or stands below one that does. -/
inductive Selects (d : Document) : Selection → Prop
  | root {s : Selection} (hs : s ∈ d.selections) : d.Selects s
  | nested {s t : Selection} (ht : d.Selects t) (hs : s ∈ t.selections) : d.Selects s

theorem Written.exists_of_mem {ts : List Token} (h : d.Written ts) (hs : s ∈ d.selections) :
    ∃ us, s.Written us := by
  cases h with
  | shorthand h => exact h.exists_of_mem hs
  | operation _ _ h => exact h.exists_of_mem hs

/-- Each selection of a query that is written is written by some of its tokens. -/
theorem Selects.exists_written {ts : List Token} (hs : d.Selects s) (hd : d.Written ts) :
    ∃ us, s.Written us := by
  induction hs with
  | root hs => exact hd.exists_of_mem hs
  | nested _ hs ih =>
    obtain ⟨us, hus⟩ := ih
    cases hus with
    | intro _ _ hselections => exact hselections.exists_of_mem hs

/-- The variables in a query that is accepted are names. -/
theorem Selects.isName_of_parse {text : List Char} (hs : d.Selects s) (h : parse text = .ok d) :
    ∀ x ∈ s.vars, IsName x := by
  intro x hx
  obtain ⟨_, _, _, ⟨_, hd, _⟩, _⟩ := exists_renders_of_parse h
  obtain ⟨ts, hts⟩ := hs.exists_written hd
  obtain ⟨path, hpath⟩ := s.readsOff.mem_iff.1 hx
  exact hpath.isName hts

end Document

end GraphQuery
