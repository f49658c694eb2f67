import GraphQuery.Proofs.Compilation.Candidates
import GraphQuery.Proofs.Compilation.Capture
import GraphQuery.Proofs.Schema.Resolution

/-!
# Settings that allow more

A higher depth limit and filters on undeclared properties only let more selections pass. What was
compiled before is compiled to the same statement.

For the depth limit this is clear step by step. Filters on undeclared properties add candidates at
every selection, and a candidate with a value would add a filter. But the new candidates have no
default, and a selection that passed before supplies no argument under their names, since it would
have been unknown. So they have no value, and the filters stay the same.

## Main definitions

* `Settings.Relaxed`: the second settings allow all that the first ones do.

## Main results

* `Candidate.exists_all_eq_append`: relaxing adds candidates at the end, without defaults and under
  names that were unknown.
* `Filter.ofSelection_of_relaxed`: the filters stay the same.
* `Compilation.entry_of_relaxed`, `Compilation.statement_of_relaxed`: so do entries and statements.
* `Compilation.text_of_relaxed`: so does the text.
-/

namespace GraphQuery

/-- The second settings allow all that the first ones do, and call page arguments by the same
names. -/
structure Settings.Relaxed (strict loose : Settings) : Prop where
  first_eq : strict.firstArgument = loose.firstArgument
  offset_eq : strict.offsetArgument = loose.offsetArgument
  maxDepth_le : strict.maxDepth ≤ loose.maxDepth
  implicit : strict.implicitFilters = true → loose.implicitFilters = true

variable {strict loose : Settings} {field : Field} {target : ObjectType} {s : Selection}

theorem Settings.Relaxed.isPageArgument_eq (h : strict.Relaxed loose) :
    strict.isPageArgument = loose.isPageArgument := by
  funext name
  rw [isPageArgument, isPageArgument, h.first_eq, h.offset_eq]

/-! ### Candidates -/

namespace Candidate

/-- The candidate has no default, and its name is neither that of a page argument nor taken by one
of the candidates before it. -/
structure IsExtra (settings : Settings) (found : List Candidate) (c : Candidate) : Prop where
  default_eq : c.default? = none
  notPage : settings.isPageArgument c.name = false
  isFree : ∀ b ∈ found, b.name ≠ c.name

theorem IsExtra.of_isNew {settings : Settings} {found : List Candidate} {p : Field}
    (h : isNew settings found p = true) : IsExtra settings found (ofProperty p) := by
  simp only [isNew, Bool.and_eq_true, Bool.not_eq_true', List.any_eq_false, beq_iff_eq] at h
  exact ⟨rfl, h.1.2, h.2⟩

/-- Properties are added at the end. This holds also where two of them have the same name. -/
theorem exists_foldl_eq_append (settings : Settings) (properties : List Field)
    (found : List Candidate) :
    ∃ added, properties.foldl (withProperty settings) found = found ++ added ∧
      ∀ c ∈ added, IsExtra settings found c := by
  obtain ⟨added, heq, hadded⟩ := collected_foldl settings properties found
  refine ⟨added.map ofProperty, heq, fun c hc => ?_⟩
  obtain ⟨p, hp, rfl⟩ := List.mem_map.1 hc
  exact .of_isNew (List.of_mem_filter (hadded.sublist.subset hp))

theorem declared_of_relaxed (h : strict.Relaxed loose) :
    declared strict field = declared loose field := by
  rw [declared, declared, h.isPageArgument_eq]

theorem withProperty_of_relaxed (h : strict.Relaxed loose) :
    withProperty strict = withProperty loose := by
  funext found p
  have hnew : isNew strict found p = isNew loose found p := by
    rw [isNew, isNew, h.isPageArgument_eq]
  rw [withProperty, withProperty, hnew]

/-- Relaxing the settings adds candidates at the end. They have no default, and arguments under
their names were unknown before. -/
theorem exists_all_eq_append (h : strict.Relaxed loose) (field : Field) (target : ObjectType) :
    ∃ added, all loose field target = all strict field target ++ added ∧
      ∀ c ∈ added, IsExtra loose (all strict field target) c := by
  by_cases hstrict : strict.implicitFilters = true
  · -- The properties are candidates already.
    refine ⟨[], ?_, List.forall_mem_nil _⟩
    rw [List.append_nil, all, all, if_pos hstrict, if_pos (h.implicit hstrict),
      declared_of_relaxed h, withProperty_of_relaxed h]
  · rw [all, all, if_neg hstrict, declared_of_relaxed h]
    by_cases hloose : loose.implicitFilters = true
    · rw [if_pos hloose]
      exact exists_foldl_eq_append loose target.fields _
    · rw [if_neg hloose]
      exact ⟨[], (List.append_nil _).symm, List.forall_mem_nil _⟩

end Candidate

/-! ### Filters and pages -/

namespace Filter

open Cypher Candidate

variable {schema : Schema} {candidates : List Candidate}

/-- A selection without unknown arguments gives no value to an extra candidate. -/
theorem equality?_of_isExtra (hknown : unknown? loose candidates s = none) {c : Candidate}
    (hc : IsExtra loose candidates c) : equality? schema field s c = .ok none := by
  have hsupplied : s.argument? c.name = none := by
    rw [Selection.argument?, Argument.find?, Option.map_eq_none_iff, List.find?_eq_none]
    intro a ha hname
    rw [beq_iff_eq] at hname
    -- An argument of this name would be unknown: it is no page argument and no other candidate.
    rcases unknown?_eq_none_iff.1 hknown a ha with hpage | ⟨b, hb, hbname⟩
    · rw [hname, hc.notPage] at hpage
      cases hpage
    · exact hc.isFree b hb (hbname.trans hname)
  have hvalue : c.value? s = none := by
    rw [value?, hsupplied, hc.default_eq]
    rfl
  rw [equality?, hvalue]

theorem unknown?_of_relaxed (h : strict.Relaxed loose) :
    unknown? strict candidates s = unknown? loose candidates s := by
  rw [unknown?, unknown?, h.isPageArgument_eq]

theorem unknown?_append_eq_none (h : unknown? loose candidates s = none)
    (added : List Candidate) : unknown? loose (candidates ++ added) s = none := by
  rw [unknown?_eq_none_iff] at h ⊢
  intro a ha
  apply (h a ha).imp_right
  rintro ⟨c, hc, hname⟩
  exact ⟨c, List.mem_append_left added hc, hname⟩

/-- The filters of a selection stay the same. -/
theorem ofSelection_of_relaxed (h : strict.Relaxed loose) {bound : String}
    {filters : List Equality}
    (hok : (ofSelection schema strict bound field target s).result = .ok filters) :
    (ofSelection schema loose bound field target s).result = .ok filters := by
  obtain ⟨hknown, found, hfound, rfl⟩ := ofSelection_eq_ok_iff.1 hok
  obtain ⟨added, heq, hadded⟩ := exists_all_eq_append h field target
  rw [unknown?_of_relaxed h] at hknown
  have hnothing : List.Forall₂ (fun c e? => equality? schema field s c = .ok e?) added
      (added.map fun _ => none) := by
    rw [List.forall₂_map_right_iff, List.forall₂_same]
    intro c hc
    exact equality?_of_isExtra hknown (hadded c hc)
  rw [ofSelection_eq_ok_iff, heq]
  refine ⟨unknown?_append_eq_none hknown added, _, List.rel_append hfound hnothing, ?_⟩
  rw [List.reduceOption_append, List.map_const', List.reduceOption_replicate_none, List.append_nil]

end Filter

theorem Paging.ofSelection_of_relaxed (h : strict.Relaxed loose) :
    ofSelection strict field s = ofSelection loose field s := by
  rw [ofSelection, ofSelection, h.first_eq, h.offset_eq]

/-! ### Entries and statements -/

namespace Compilation

open Cypher

variable {schema : Schema} {scope : Scope}

/-- An entry that is compiled stays the same. -/
theorem entry_of_relaxed (h : strict.Relaxed loose) (s : Selection) {e : Entry}
    (hok : (entry schema strict scope s).result = .ok e) :
    (entry schema loose scope s).result = .ok e := by
  -- Variables are named after the scopes, so both runs are in the same scope at every selection.
  induction s using Selection.inductionOn generalizing scope e with
  | step s ih =>
    rw [entry_eq_ok_iff] at hok ⊢
    cases hok with
    | property hfield hrelation hbelow => exact .property hfield hrelation hbelow
    | related hfield hrelation hbelow hname htarget hinner hfilters hpage hmap =>
      obtain ⟨hdepth, rfl⟩ := Scope.enter_eq_ok_iff.1 hinner
      rw [Paging.ofSelection_of_relaxed h] at hpage
      apply EntryOk.related hfield hrelation hbelow hname htarget
      · exact Scope.enter_eq_ok_iff.2 ⟨hdepth.trans h.maxDepth_le, rfl⟩
      · exact Filter.ofSelection_of_relaxed h hfilters
      · exact hpage
      · exact forall₂_imp_of_mem hmap fun t ht _ _ hentry => ih t ht hentry

/-- A statement that is compiled stays the same. -/
theorem statement_of_relaxed (h : strict.Relaxed loose) {stmt : Statement}
    (hok : (statement schema strict s).result = .ok stmt) :
    (statement schema loose s).result = .ok stmt := by
  rw [statement_eq_ok_iff] at hok ⊢
  cases hok with
  | intro hfield hname htarget hbelow hfilters hpage hmap =>
    rw [Paging.ofSelection_of_relaxed h] at hpage
    apply StatementOk.intro hfield hname htarget hbelow _ hpage
    · exact hmap.imp fun t _ hentry => entry_of_relaxed h t hentry
    · exact Filter.ofSelection_of_relaxed h hfilters

/-- What compiles under some settings compiles under settings that allow more, to the same text. -/
theorem text_of_relaxed (h : strict.Relaxed loose) (schema : Schema) (s : Selection) {text : String}
    (hok : (statement schema strict s).result.map (·.text) = .ok text) :
    (statement schema loose s).result.map (·.text) = .ok text := by
  obtain ⟨stmt, hstmt, rfl⟩ := map_eq_ok_iff.1 hok
  rw [statement_of_relaxed h hstmt]
  rfl

/-- People and their friends, who are filtered by a declared argument. -/
def friendsSince : Selection :=
  ⟨none, "people", [⟨"first", .int 3⟩],
    [⟨none, "friends", [⟨"since", .int 2⟩], [⟨none, "name", [], []⟩]⟩]⟩

/-- The text of their statement. -/
def friendsSinceText : String :=
  "MATCH (people:Person) RETURN people \x7bfriends:[(people)-[:KNOWS]->(friendsPerson:Person) " ++
    "WHERE friendsPerson.since = 2 | friendsPerson \x7b.name\x7d]\x7d LIMIT 3"

/-- Settings that just allow it. -/
def tightSettings : Settings := { maxDepth := 2, implicitFilters := false }

/-- Friends stand at depth two, and their name is a candidate only if the settings are relaxed. -/
theorem text_of_relaxed_friends :
    ∃ schema, (Schema.load Schema.peopleText).result = .ok schema ∧ tightSettings.Relaxed {} ∧
      (statement schema tightSettings friendsSince).result.map (·.text) = .ok friendsSinceText ∧
      (statement schema {} friendsSince).result.map (·.text) = .ok friendsSinceText := by
  have hsome : ((Schema.load Schema.peopleText).result.toOption.map fun schema =>
      ((statement schema tightSettings friendsSince).result.map (·.text)).toOption) =
      some (some friendsSinceText) := by
    decide +kernel
  obtain ⟨schema, hschema, htext⟩ := Option.map_eq_some_iff.1 hsome
  have hrelaxed : tightSettings.Relaxed {} := ⟨rfl, rfl, by decide, fun _ => rfl⟩
  have hok := toOption_eq_some_iff.1 htext
  exact ⟨schema, toOption_eq_some_iff.1 hschema, hrelaxed, hok,
    text_of_relaxed hrelaxed schema friendsSince hok⟩

end Compilation

end GraphQuery
