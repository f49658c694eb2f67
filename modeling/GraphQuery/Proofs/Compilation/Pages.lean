import GraphQuery.Proofs.Compilation.Parameters
import GraphQuery.Proofs.Cypher.PageReader
import GraphQuery.Proofs.Language.Names

/-!
# Both forms of a page select the same items

A page is written as a slice if it stands inside of a result, and as two clauses if it stands behind
a statement. The bounds come from a query that was read, or from the defaults of a schema that was
loaded: a number among them is not negative, and a parameter has a name. So both forms can be read,
and they select the same items, whatever the parameters are.

## Main results

* `Paging.readable_of_ofSelection`: the bounds that a selection asks for can be read.
* `Paging.forms_select_alike`: the slice and the clauses of a page select the same items.
-/

namespace GraphQuery.Paging

open Cypher Lexeme

variable {settings : Settings} {field : Field} {s : Selection}

theorem readable_of_bound? {name : String} {b : Bound} (hfield : field.DefaultsConstant)
    (hs : ∀ x ∈ s.vars, IsName x) (h : bound? name field s = .ok (some b)) : b.Readable := by
  have hvars := parameters_subset_of_bound? hfield h
  have hbound := bound?_eq_ok_iff.1 h
  generalize value? name field s = v? at hbound
  cases hbound with
  | var x => exact .parameter (hs x (hvars (List.mem_singleton_self x)))
  | int hn => exact .literal hn

/-- The bounds that a selection asks for can be read. -/
theorem readable_of_ofSelection {page : Page} (hfield : field.DefaultsConstant)
    (hs : ∀ x ∈ s.vars, IsName x) (h : ofSelection settings field s = .ok page) :
    page.Readable := by
  obtain ⟨hfirst, hoffset⟩ := ofSelection_eq_ok_iff.1 h
  constructor
  · intro b hb
    rw [Option.mem_def.1 hb] at hfirst
    exact readable_of_bound? hfield hs hfirst
  · intro b hb
    rw [Option.mem_def.1 hb] at hoffset
    exact readable_of_bound? hfield hs hoffset

/-- The slice and the clauses of a page are read, and select the same items of every list, whatever
the parameters are. The slice ends at a single number exactly if both bounds are numbers whose sum
fits into 64 bits, and then it ends at this sum. -/
theorem forms_select_alike {schemaText : String} {schema : Schema}
    (hload : (Schema.load schemaText).result = .ok schema) {type : ObjectType}
    (htype : type ∈ schema.root :: schema.types) (hfield : field ∈ type.fields) {text : List Char}
    {d : Document} (hparse : Document.parse text = .ok d) (hs : d.Selects s) {page : Page}
    (hpage : ofSelection settings field s = .ok page) :
    page.Readable ∧ ∃ (slice? : Option SliceTerm) (window : Window),
      page.slice?.map SliceTerm.read? = slice?.map some ∧
      Window.read? page.skipLimit = some window ∧
      (∀ (values : String → Nat) (α : Type) (items : List α),
        SliceTerm.cut? values slice? items = window.cut values items) ∧
      ∀ n : Nat, (∃ t ∈ slice?, t.stop = some (.single (.number n))) ↔
        ∃ f o : Int64, page.first = some (.literal f) ∧
          (page.offset = some (.literal o) ∨ page.offset = none ∧ o = 0) ∧
          (n : Int) = o.toInt + f.toInt ∧ (n : Int) ≤ Int64.maxValue.toInt := by
  have hdefaults : field.DefaultsConstant :=
    fun a ha => Schema.default_isConstant_of_load hload htype hfield ha
  have hreadable := readable_of_ofSelection hdefaults (hs.isName_of_parse hparse) hpage
  refine ⟨hreadable, page.toSlice?.map Slice.term, page.window, hreadable.slice?_read,
    hreadable.skipLimit_read, ?_, ?_⟩
  · exact fun values α items => hreadable.cut_eq values items
  · exact fun n => hreadable.stop_eq_number_iff

/-- The text of a query with two pages. The sum of the inner bounds does not fit into 64 bits. -/
def pagesQuery : String :=
  "\x7bpeople(first: $n) \x7bfriends(offset: 5, first: 9223372036854775807) \x7bname\x7d\x7d\x7d"

/-- The sum that does not fit is left to the database, and the slice still takes the items that the
clauses take. -/
theorem forms_select_alike_friends :
    ∃ schema type field d s page, (Schema.load Schema.peopleText).result = .ok schema ∧
      type ∈ schema.root :: schema.types ∧ field ∈ type.fields ∧
      Document.parse pagesQuery.toList = .ok d ∧ d.Selects s ∧ ofSelection {} field s = .ok page ∧
      page.slice? = some "[5..5 + 9223372036854775807]" ∧
      page.skipLimit = " SKIP 5 LIMIT 9223372036854775807" ∧
      ∃ slice window, SliceTerm.read? "[5..5 + 9223372036854775807]" = some slice ∧
        Window.read? " SKIP 5 LIMIT 9223372036854775807" = some window ∧
        ∀ (values : String → Nat) (items : List Nat),
          slice.cut values items = window.cut values items := by
  have hsome : ((Schema.load Schema.peopleText).result.toOption.bind fun schema =>
      schema.types.head?.bind fun type => (type.field? "friends").bind fun field =>
      (Document.parse pagesQuery.toList).toOption.bind fun d => d.selections.head?.bind fun root =>
      root.selections.head?.bind fun s => (ofSelection {} field s).toOption.map fun page =>
        (page.slice?, page.skipLimit)) =
      some (some "[5..5 + 9223372036854775807]", " SKIP 5 LIMIT 9223372036854775807") := by
    decide +kernel
  obtain ⟨schema, hschema, hsome⟩ := Option.bind_eq_some_iff.1 hsome
  obtain ⟨type, htype, hsome⟩ := Option.bind_eq_some_iff.1 hsome
  obtain ⟨field, hfield, hsome⟩ := Option.bind_eq_some_iff.1 hsome
  obtain ⟨d, hd, hsome⟩ := Option.bind_eq_some_iff.1 hsome
  obtain ⟨root, hroot, hsome⟩ := Option.bind_eq_some_iff.1 hsome
  obtain ⟨s, hs, hsome⟩ := Option.bind_eq_some_iff.1 hsome
  obtain ⟨page, hpage, heq⟩ := Option.map_eq_some_iff.1 hsome
  obtain ⟨hslice, hskipLimit⟩ := Prod.mk.inj heq
  have hload := toOption_eq_some_iff.1 hschema
  have htype := List.mem_cons_of_mem schema.root (List.mem_of_head? htype)
  have hfield := List.mem_of_find?_eq_some hfield
  have hparse := toOption_eq_some_iff.1 hd
  have hselects : d.Selects s := .nested (.root (List.mem_of_head? hroot)) (List.mem_of_head? hs)
  have hok := toOption_eq_some_iff.1 hpage
  refine ⟨schema, type, field, d, s, page, hload, htype, hfield, hparse, hselects, hok, hslice,
    hskipLimit, ?_⟩
  obtain ⟨-, slice?, window, hread, hwindow, hcut, -⟩ :=
    forms_select_alike hload htype hfield hparse hselects hok
  rw [hslice, Option.map_some] at hread
  rw [hskipLimit] at hwindow
  obtain ⟨slice, rfl, hslice⟩ := Option.map_eq_some_iff.1 hread.symm
  exact ⟨slice, window, hslice.symm, hwindow, fun values items => hcut values Nat items⟩

end GraphQuery.Paging
