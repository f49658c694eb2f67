import GraphQuery.Compilation.Query
import GraphQuery.Proofs.Definition.Soundness
import GraphQuery.Proofs.Language.Names
import GraphQuery.Proofs.Language.Recursion
import GraphQuery.Proofs.Schema.Legality

/-!
# Declared values that cannot be queried

An enum may declare any names as its values. In a query three names are no symbols of an enum: two
of them are booleans, and one is null. An enum that declares one of these declares a value that no
query can ask for. If it is written as an argument, a boolean is refused as a value of the enum, and
null is taken for an argument that is not given: the filter is left out without an error.

All other values that are declared are written in queries as they were declared, and they become
literals in quotes.

## Main results

* `Schema.isName_of_mem_values`: declared values are names.
* `Value.reader_of_name`: which value a name is in a query.
* `Schema.declared_values_queried_unless_reserved`: what writing a declared value in a query comes
  to.
-/

namespace GraphQuery

open Reader Lexeme

/-! ### Names in queries -/

/-- A name that stands alone is read as the value of that name. -/
theorem Value.reader_of_name (constant : Bool) {x : String} (hx : IsName x) :
    reader constant x.toList = .done (ofName x) [] := by
  have hdispatch : dispatch constant (reader constant) (x.toList ++ []) = .done (ofName x) [] :=
    dispatch_of_name constant (reader constant) hx (by simp)
  rw [← List.append_nil x.toList, reader_eq, hx.skip_append]
  exact hdispatch

/-! ### Declared values -/

namespace Schema

open Declarations

variable {text : String} {schema : Schema} {e : EnumType} {x : String}

/-- Only names are declared as values of an enum. Which names is not looked at. -/
theorem isName_of_mem_values (h : (load text).result = .ok schema) (he : e ∈ schema.enums)
    (hx : x ∈ e.values) : IsName x := by
  obtain ⟨definitions, hparse, hresolve, -⟩ := load_eq_ok h
  obtain ⟨-, types, hok⟩ := exists_assembledFrom_ofDefinitions hresolve
  rw [hok.enums_eq, mem_sortByName, enums_ofDefinitions, mem_enumsOf_iff] at he
  obtain ⟨ts, hrow, -⟩ := Definition.render_of_parseAll hparse
  obtain ⟨us, hdescribed⟩ := hrow.exists_of_mem he
  obtain ⟨vs, hwritten⟩ := hdescribed.exists_written
  cases hwritten with
  | enum _ hvalues =>
    obtain ⟨_, hvalue⟩ := hvalues.exists_of_mem hx
    obtain ⟨_, hwritten⟩ := hvalue.exists_written
    cases hwritten with
    | intro hx => exact hx

theorem enum?_of_mem (h : (load text).result = .ok schema) (he : e ∈ schema.enums) :
    schema.enum? e.name = some e := by
  obtain ⟨definitions, d, types, hok⟩ := exists_assembledFrom_of_load h
  exact find?_of_nodup (List.Nodup.of_append_right hok.nodup_names) he

/-- The literal of a declared value that is a symbol. -/
theorem literal?_enum (he : schema.enum? e.name = some e) (hx : x ∈ e.values) :
    schema.literal? (.enum e.name) (.enum x) = .ok (some (.string x)) := by
  have hliteral : schema.literal (.enum e.name) (.enum x) = .ok (.string x) :=
    enumLiteral_eq_ok_iff.2 ⟨x, e, he, hx, rfl, rfl⟩
  rw [literal?_of_constant _ (by simp) (by simp), hliteral]
  rfl

/-- A value that an enum declares is written in a query under its own name. It becomes the literal
of that name unless the name is a reserved word. Null is left out, and a boolean is refused. -/
theorem declared_values_queried_unless_reserved (h : (load text).result = .ok schema)
    (he : e ∈ schema.enums) (hx : x ∈ e.values) :
    ∃ v, Value.reader false x.toList = .done v [] ∧
      ((∃ l, schema.literal? (.enum e.name) v = .ok (some l) ∧ l.text = Cypher.quote x) ↔
        x ∉ ["true", "false", "null"]) ∧
      (schema.literal? (.enum e.name) v = .ok none ↔ x = "null") ∧
      (schema.literal? (.enum e.name) v = .error (.typeMismatch (.enum e.name) none v) ↔
        x = "true" ∨ x = "false") := by
  refine ⟨Value.ofName x, Value.reader_of_name false (isName_of_mem_values h he hx), ?_⟩
  by_cases hreserved : x ∈ ["true", "false", "null"]
  · have hboolean (b : Bool) : schema.literal? (.enum e.name) (.boolean b) =
        .error (.typeMismatch (.enum e.name) none (.boolean b)) := rfl
    have hnull : schema.literal? (.enum e.name) .null = .ok none := rfl
    simp only [List.mem_cons, List.not_mem_nil, or_false] at hreserved
    -- Each of the three words is another value than a symbol, whatever the enum declares.
    rcases hreserved with rfl | rfl | rfl
    · simp [Value.ofName, hboolean]
    · simp [Value.ofName, hboolean]
    · simp [Value.ofName, hnull]
  · rw [Value.ofName_of_notMem hreserved, literal?_enum (enum?_of_mem h he) hx]
    refine ⟨iff_of_true ⟨.string x, rfl, rfl⟩ hreserved, ?_, ?_⟩
    · have hnull : x ≠ "null" := fun heq => hreserved (by simp [heq])
      simp [hnull]
    · have hboolean : ¬ (x = "true" ∨ x = "false") :=
        fun heq => hreserved (by simp [← or_assoc, heq])
      simp [hboolean]

/-- The text of a schema with an enum that declares two reserved words. -/
def answersText : String :=
  "enum Answer \x7byes true null\x7d type Query \x7bpolls(answer: Answer): [Poll]\x7d " ++
  "type Poll \x7banswer: Answer\x7d"

/-- The enum of that schema. -/
def answer : EnumType := ⟨"Answer", ["yes", "true", "null"]⟩

/-- A query that asks for one of the reserved words. -/
def nullAnswersQuery : String := "\x7bpolls(answer: null) \x7banswer\x7d\x7d"

/-- The schema loads, and the query is compiled to a statement that filters nothing. -/
theorem exists_load_answers :
    ∃ schema, (load answersText).result = .ok schema ∧ schema.enums = [answer] ∧
      (schema.compileDefault nullAnswersQuery).result.toOption.map (·.statements) =
        some ["MATCH (polls:Poll) RETURN polls \x7b.answer\x7d"] := by
  have hsome : (load answersText).result.toOption.map (fun schema =>
      (schema.enums, (schema.compileDefault nullAnswersQuery).result.toOption.map (·.statements))) =
      some ([answer], some ["MATCH (polls:Poll) RETURN polls \x7b.answer\x7d"]) := by
    decide +kernel
  obtain ⟨schema, hschema, heq⟩ := Option.map_eq_some_iff.1 hsome
  obtain ⟨henums, hstatements⟩ := Prod.mk.inj heq
  exact ⟨schema, toOption_eq_some_iff.1 hschema, henums, hstatements⟩

/-- Beside the reserved words the enum declares a value that can be asked for. -/
theorem declared_values_queried_unless_reserved_answers :
    ∃ schema v l, (load answersText).result = .ok schema ∧ answer ∈ schema.enums ∧
      Value.reader false "yes".toList = .done v [] ∧
      schema.literal? (.enum "Answer") v = .ok (some l) ∧ l.text = "'yes'" := by
  obtain ⟨schema, hload, henums, -⟩ := exists_load_answers
  have hanswer : answer ∈ schema.enums := henums ▸ List.mem_singleton_self answer
  have hyes : "yes" ∈ answer.values := by decide
  obtain ⟨v, hread, hliteral, -⟩ := declared_values_queried_unless_reserved hload hanswer hyes
  obtain ⟨l, hl, htext⟩ := hliteral.2 (by decide)
  exact ⟨schema, v, l, hload, hanswer, hread, hl, htext.trans (by decide)⟩

/-- Two declared values are not written as their literals. One is refused, and the other is left out
without an error, so that a query for it returns everything. -/
theorem declared_values_not_queried :
    ∃ schema, (load answersText).result = .ok schema ∧ answer ∈ schema.enums ∧
      "true" ∈ answer.values ∧ Value.reader false "true".toList = .done (.boolean true) [] ∧
      (∀ l?, schema.literal? (.enum answer.name) (.boolean true) ≠ .ok l?) ∧
      "null" ∈ answer.values ∧ Value.reader false "null".toList = .done .null [] ∧
      schema.literal? (.enum answer.name) .null = .ok none ∧
      (schema.compileDefault nullAnswersQuery).result.toOption.map (·.statements) =
        some ["MATCH (polls:Poll) RETURN polls \x7b.answer\x7d"] := by
  obtain ⟨schema, hload, henums, hstatements⟩ := exists_load_answers
  have hanswer : answer ∈ schema.enums := henums ▸ List.mem_singleton_self answer
  refine ⟨schema, hload, hanswer, by decide, rfl, ?_, by decide, rfl, rfl, hstatements⟩
  rintro l? ⟨⟩

end Schema

end GraphQuery
