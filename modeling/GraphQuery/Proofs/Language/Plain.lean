import Mathlib.Tactic.SplitIfs
import GraphQuery.Language.Definition
import GraphQuery.Proofs.Reader.Yields

/-!
# Names that are read are plain

Names in queries and schema definitions consist of letters, digits and underscores. Everything that
a statement takes over from a text, string values apart, is such a name.

## Main definitions

* `IsPlain`: letters, digits and underscores only.
* `Value.Plain`, `Selection.Plain`, `ObjectDefinition.Plain`: all names that can come to stand in a
  statement are plain.

## Main results

* `Lexeme.yields_name`: a name is plain.
* `Document.plain_of_parse`: the selections of a document are plain.
* `Definition.plain_of_parseAll`: so are the object types of a schema definition.
-/

namespace GraphQuery

open Reader

/-- A text of letters, digits and underscores. -/
def IsPlain (name : String) : Prop := ∀ c ∈ name.toList, Lexeme.isNameChar c = true

instance (name : String) : Decidable (IsPlain name) :=
  decidable_of_iff (name.toList.all Lexeme.isNameChar = true) List.all_eq_true

theorem IsPlain.append {a b : String} (ha : IsPlain a) (hb : IsPlain b) : IsPlain (a ++ b) := by
  intro c hc
  rw [String.toList_append, List.mem_append] at hc
  exact hc.elim (ha c) (hb c)

namespace Lexeme

theorem isNameChar_of_isNameStart {c : Char} (h : isNameStart c = true) : isNameChar c = true := by
  simp only [isNameStart, isNameChar, Char.isAlphanum, Bool.or_eq_true] at h ⊢
  exact h.imp_left .inl

theorem yields_token {α : Type} {P : α → Prop} {p : Reader α} (hp : p.Yields P) :
    (token p).Yields P :=
  .after fun _ => hp.bind fun _ ha => .after fun _ => .pure ha

/-- A name is plain. -/
theorem yields_name : name.Yields IsPlain := by
  refine (yields_takeWhile1 isNameStart).bind fun first hfirst => ?_
  refine (yields_takeWhile isNameChar).bind fun others hothers => .pure ?_
  intro c hc
  rw [String.toList_ofList, List.mem_append] at hc
  exact hc.elim (fun hc => isNameChar_of_isNameStart (hfirst c hc)) (hothers c)

end Lexeme

open Lexeme

/-! ### Values -/

namespace Value

/-- The variables in a value have plain names. -/
def Plain (v : Value) : Prop := ∀ x ∈ v.vars, IsPlain x

theorem mem_varsOfAll {x : String} {items : List Value} :
    x ∈ varsOfAll items ↔ ∃ v ∈ items, x ∈ v.vars := by
  induction items with
  | nil => simp [varsOfAll]
  | cons v items ih => simp [varsOfAll, ih]

theorem plain_list_iff {items : List Value} : (list items).Plain ↔ ∀ v ∈ items, v.Plain := by
  simp only [Plain, vars, mem_varsOfAll]
  exact ⟨fun h v hv x hx => h x ⟨v, hv, hx⟩, fun h x ⟨v, hv, hx⟩ => h v hv x hx⟩

theorem plain_ofName (name : String) : (ofName name).Plain := by
  unfold ofName
  split_ifs <;> simp [Plain, vars]

theorem yields_nameReader : nameReader.Yields Plain :=
  .after fun name => .pure (plain_ofName name)

theorem yields_variableReader : variableReader.Yields Plain := by
  refine .after fun _ => ?_
  refine (yields_name.commit.expecting _).bind fun name hname => .pure ?_
  simpa [Plain, vars] using hname

theorem plain_of_ofNumeral {n : Numeral} {v : Value} (h : ofNumeral n = .ok v) : v.Plain := by
  simp only [ofNumeral] at h
  split_ifs at h <;> cases h <;> simp [Plain, vars]

theorem yields_numberReader : numberReader.Yields Plain := by
  intro s v rest h
  unfold numberReader at h
  split at h
  · split_ifs at h
    split at h
    · next hv =>
      cases h
      exact plain_of_ofNumeral hv
    · cases h
  · cases h
  · cases h

theorem yields_listReader {item : Reader Value} (hitem : item.Yields Plain) :
    (listReader item).Yields Plain := by
  refine .after fun _ => ?_
  refine (yields_token hitem).many.bind fun items hitems => .after fun _ => .pure ?_
  exact plain_list_iff.2 hitems

theorem yields_dispatch {constant : Bool} {item : Reader Value} (hitem : item.Yields Plain) :
    (dispatch constant item).Yields Plain := by
  intro s v rest h
  unfold dispatch at h
  split at h
  · exact yields_nameReader _ v rest h
  · -- Only the dollar sign brings in a variable; of the others, lists may hold some.
    split_ifs at h
    · cases h
    · exact yields_variableReader _ v rest h
    · refine Yields.after (fun text => Yields.pure ?_) _ v rest h
      simp [Plain, vars]
    · exact yields_listReader hitem _ v rest h
    · cases h
    · exact yields_numberReader _ v rest h
    · exact yields_nameReader _ v rest h

theorem yields_reader (constant : Bool) : (reader constant).Yields Plain :=
  .nest fun _ hitem => .after fun _ => yields_dispatch hitem

end Value

/-! ### Selections -/

/-- The key of a selection is plain, and so are the variables in its arguments and the selections
below it. -/
inductive Selection.Plain : Selection → Prop
  | intro {s : Selection} (hkey : IsPlain s.key) (hvalues : ∀ a ∈ s.arguments, a.value.Plain)
      (hselections : ∀ t ∈ s.selections, t.Plain) : s.Plain

namespace Selection.Plain

variable {s : Selection}

theorem key (h : s.Plain) : IsPlain s.key := by
  cases h
  assumption

theorem selections (h : s.Plain) : ∀ t ∈ s.selections, t.Plain := by
  cases h
  assumption

/-- The variables in the value of an argument are plain, if they are in its default. -/
theorem argument?_or (h : s.Plain) {name : String} {default? : Option Value}
    (hdefault : ∀ v ∈ default?, v.Plain) : ∀ v ∈ (s.argument? name).or default?, v.Plain := by
  intro v hv
  rcases Option.or_eq_some_iff.1 hv with hsupplied | ⟨-, hv⟩
  · obtain ⟨a, ha, rfl⟩ := Option.map_eq_some_iff.1 hsupplied
    cases h with
    | intro _ hvalues _ => exact hvalues a (List.mem_of_find?_eq_some ha)
  · exact hdefault v hv

end Selection.Plain

namespace Argument

theorem yields_reader (constant : Bool) : (reader constant).Yields fun a => a.value.Plain := by
  refine .after fun name => .after fun _ => ?_
  exact ((yields_token (Value.yields_reader constant)).commit.expecting _).bind fun _ hvalue =>
    .pure hvalue

theorem yields_listReader (constant : Bool) :
    (listReader constant).Yields fun arguments => ∀ a ∈ arguments, a.value.Plain := by
  refine .after fun _ => ?_
  exact ((yields_reader constant).many1.commit.expecting _).bind fun _ hall =>
    .after fun _ => .pure hall

end Argument

namespace Selection

theorem yields_aliasedName : aliasedName.Yields IsPlain :=
  .after fun _ => (yields_token yields_name).commit.expecting _

theorem yields_reader {below : Reader (List Selection)}
    (hbelow : below.Yields fun ss => ∀ s ∈ ss, s.Plain) : (reader below).Yields Plain := by
  refine .after fun _ => .after fun _ => ?_
  refine (yields_token yields_name).bind fun first hfirst => ?_
  refine yields_aliasedName.optional.bind fun aliased haliased => ?_
  refine (Argument.yields_listReader false).optional.bind fun arguments harguments => ?_
  refine .after fun _ => hbelow.optional.bind fun selections hselections => .pure ⟨?_, ?_, ?_⟩
  · -- An alias stands first, before the name; without one the name itself does.
    cases aliased with
    | none => exact hfirst
    | some name => exact hfirst
  · cases arguments with
    | none => simp
    | some arguments => exact harguments arguments rfl
  · cases selections with
    | none => simp
    | some selections => exact hselections selections rfl

theorem yields_setReader : setReader.Yields fun ss => ∀ s ∈ ss, s.Plain := by
  refine .nest fun below hbelow => .after fun _ => ?_
  refine (yields_reader hbelow).many.bind fun selections hselections => .after fun _ => ?_
  split
  · exact yields_refuse _
  · exact .pure hselections

end Selection

/-! ### Documents -/

namespace Document

theorem yields_shorthandReader : shorthandReader.Yields fun d => ∀ s ∈ d.selections, s.Plain :=
  Selection.yields_setReader.bind fun _ hselections => .pure hselections

theorem yields_operationReader : operationReader.Yields fun d => ∀ s ∈ d.selections, s.Plain := by
  refine .after fun _ => .after fun _ => .after fun _ => ?_
  exact (Selection.yields_setReader.commit.expecting _).bind fun _ hselections =>
    .pure hselections

theorem yields_reader : reader.Yields fun d => ∀ s ∈ d.selections, s.Plain := by
  refine .after fun _ => .after fun rest => ?_
  split
  · exact yields_shorthandReader
  · exact yields_operationReader

/-- The selections of a document are plain. -/
theorem plain_of_parse {text : List Char} {d : Document} (h : parse text = .ok d) :
    ∀ s ∈ d.selections, s.Plain := by
  unfold parse at h
  split at h
  · next document rest hread =>
    simp only at h
    split_ifs at h
    split at h
    · cases h
      exact yields_reader text d rest hread
    · cases h
  · cases h
  · cases h

end Document

/-! ### Definitions -/

/-- The name of an argument is plain, and so are the variables in its default. -/
structure ArgumentDefinition.Plain (a : ArgumentDefinition) : Prop where
  name : IsPlain a.name
  default : ∀ v ∈ a.default?, v.Plain

/-- The name of a field is plain, and so are its arguments. -/
structure FieldDefinition.Plain (f : FieldDefinition) : Prop where
  name : IsPlain f.name
  arguments : ∀ a ∈ f.arguments, a.Plain

/-- The name of an object type is plain, and so are its fields. -/
structure ObjectDefinition.Plain (o : ObjectDefinition) : Prop where
  name : IsPlain o.name
  fields : ∀ f ∈ o.fields, f.Plain

theorem yields_enclosed {α : Type} {P : α → Prop} {inside : Reader α} (hinside : inside.Yields P)
    (opening closing : Reader Char) : (enclosed opening inside closing).Yields P :=
  .after fun _ => hinside.bind fun _ ha => .after fun _ => .pure ha

theorem yields_defaultReader : defaultReader.Yields Value.Plain :=
  .after fun _ => (yields_token (Value.yields_reader true)).commit.expecting _

theorem ArgumentDefinition.yields_reader : ArgumentDefinition.reader.Yields Plain := by
  refine .after fun _ => (yields_token yields_name).bind fun name hname => ?_
  refine .after fun _ => .after fun type => ?_
  exact yields_defaultReader.optional.bind fun _ hdefault => .pure ⟨hname, hdefault⟩

theorem ArgumentDefinition.yields_listReader :
    ArgumentDefinition.listReader.Yields fun as => ∀ a ∈ as, a.Plain :=
  yields_enclosed (yields_reader.many1.commit.expecting _) _ _

theorem FieldDefinition.yields_reader : FieldDefinition.reader.Yields Plain := by
  refine .after fun _ => (yields_token yields_name).bind fun name hname => ?_
  refine ArgumentDefinition.yields_listReader.optional.bind fun arguments harguments => ?_
  refine .after fun _ => .after fun type => .after fun directives => .pure ⟨hname, ?_⟩
  cases arguments with
  | none => simp
  | some arguments => exact harguments arguments rfl

theorem ObjectDefinition.yields_reader : ObjectDefinition.reader.Yields Plain := by
  refine ((yields_token yields_name).commit.expecting _).bind fun name hname => .after fun _ => ?_
  refine (yields_enclosed (FieldDefinition.yields_reader.many1.commit.expecting _) _ _).bind ?_
  exact fun fields hfields => .pure ⟨hname, hfields⟩

namespace Definition

/-- An object type that is defined is plain. -/
def Plain : Definition → Prop
  | .object o => o.Plain
  | _ => True

theorem yields_of_bodyReader? {word : String} {body : Reader Definition}
    (h : bodyReader? word = some body) : body.Yields Plain := by
  unfold bodyReader? at h
  split_ifs at h
  · cases h
    exact ObjectDefinition.yields_reader.bind fun _ hobject => .pure hobject
  · cases h
    exact .after fun _ => .pure trivial
  · cases h
    exact .after fun _ => .pure trivial
  · cases h
    exact .after fun _ => .pure trivial

theorem yields_undescribedReader : undescribedReader.Yields Plain := by
  intro s d rest h
  unfold undescribedReader at h
  split at h
  · split at h
    · next body hbody => exact yields_of_bodyReader? hbody _ d rest h
    · split_ifs at h
  · cases h
  · cases h

/-- The object types of a schema definition are plain. -/
theorem plain_of_parseAll {text : List Char} {definitions : List Definition}
    (h : parseAll text = .ok definitions) : ∀ d ∈ definitions, d.Plain := by
  unfold parseAll at h
  split at h
  · next found rest hread =>
    split at h
    · cases h
      exact Yields.many (.after fun _ => yields_undescribedReader) text definitions rest hread
    · cases h
  · cases h
  · cases h

end Definition

end GraphQuery
