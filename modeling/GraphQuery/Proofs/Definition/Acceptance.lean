import GraphQuery.Proofs.Definition.Soundness

/-!
# The texts that are accepted as definitions

Definitions that are written in front of other tokens are read, and these tokens are left. Together
with the converse, a text is read as definitions exactly if it renders them.

A field has no mark at its end. What follows it, a name, a description or a brace, is told from an
exclamation mark behind its type, a further directive and the arguments of the last one.

## Main results

* `ArgumentDefinition.finds_reader`, `FieldDefinition.finds_reader`: the parts of an object.
* `Definition.finds_reader`: one definition.
* `Definition.parseAll_accepts_renderings`: a text is read as definitions exactly if it renders
  them.
-/

namespace GraphQuery

open Reader Lexeme

variable {α : Type} {s rest : List Char} {us : List Token}

/-! ### Combining readers -/

/-- What stands behind a description decides what comes next if there is none. -/
theorem Described.follows {G : α → List Token → Prop} {a : α} {ts : List Token} {P : Char → Prop}
    (h : Described G a ts) (hquote : P '"') (hfirst : ∀ ts us, G a ts → Follows P (ts ++ us)) :
    Follows P (ts ++ us) := by
  cases h with
  | plain ha => exact hfirst ts us ha
  | described ht =>
    cases ht with
    | string => exact follows_cons hquote
    | block => exact follows_cons hquote

/-- A group that has to be there. -/
theorem Reader.Finds.braced {n : Nat} {p : Reader α} {G : α → List Token → Prop}
    {follow stop : Char → Prop} {as : List α} {ts : List Token} {cause cause' cause'' : String}
    (h : p.Finds n G follow stop) (hfirst : ∀ a ts us, G a ts → Follows follow (ts ++ us))
    (hfollow : follow '\x7d') (hstop : stop '\x7d') (hgroup : Grouped '\x7b' '\x7d' G as ts)
    (hs : s.length < n) (hspans : Spans (ts ++ us) s []) :
    ∃ rest, enclosed (expecting cause (commit (symbol '\x7b')))
      (expecting cause' (commit (Reader.many1 p))) (expecting cause'' (commit (symbol '\x7d'))) s =
      .done as rest ∧ Spans us rest [] ∧ rest.length < s.length := by
  obtain ⟨rest, hdone, hrest⟩ := (h.grouped hfirst hfollow hstop).reads as ts us s hs hgroup
    (fun _ _ => trivial) hspans
  exact ⟨rest, enclosed_expecting_eq_done_iff.2 hdone, hrest⟩

/-! ### Fields -/

namespace Directive

theorem finds_reader (n : Nat) : reader.Finds n Written (· ≠ '(') (· ≠ '@') where
  reads d ts us s hs hd hus hspans := by
    obtain @⟨x, arguments, ts, hx, harguments⟩ := hd
    obtain ⟨s₁, hat, hspans₁, hlength₁, hskip₁⟩ := symbol_of_spans hspans
    obtain ⟨s₂, hname, hspans₂, hlength₂⟩ := name_of_spans hx hspans₁
    obtain ⟨arguments?, rest, hdone, hgetD, hrest, hlength⟩ :=
      (Argument.finds_listReader true n).optionallyGrouped harguments hus (by omega) hspans₂
    -- The name is read where the at sign ended, which is behind everything that is ignored.
    rw [hskip₁] at hname
    refine ⟨rest, ?_, hrest, by omega⟩
    simp only [reader, bind_eq_done_iff, pure_eq_done_iff, expecting_eq_done_iff,
      commit_eq_done_iff]
    exact ⟨_, s₁, hat, x, s₂, hname, arguments?, rest, hdone, by rw [hgetD], rfl⟩
  declines us s _ hus hspans := (declines_symbol hus hspans).bind _

theorem Written.follows {d : Directive} {ts : List Token} (h : d.Written ts) {P : Char → Prop}
    (hat : P '@') (us : List Token) : Follows P (ts ++ us) := by
  obtain ⟨⟩ := h
  exact follows_cons hat

end Directive

namespace ArgumentDefinition

theorem Written.follows {a : ArgumentDefinition} {ts : List Token} (h : a.Written ts)
    (us : List Token) : Follows (isNameStart · = true) (ts ++ us) := by
  obtain ⟨hx⟩ := h
  exact hx.follows

theorem finds_reader (n : Nat) :
    reader.Finds n (Described Written) (· ∉ ['!', '=']) (· = ')') := by
  refine Finds.described ⟨?_, ?_⟩ ?_ ?_
  · intro a ts us s hs ha hus hspans
    obtain @⟨x, type, default?, ts₁, ts₂, hx, htype, hdefault⟩ := ha
    simp only [List.cons_append, List.append_assoc] at hspans
    -- An exclamation mark would be taken for a part of the type.
    have hmark : Follows (· ≠ '!') (ts₂ ++ us) :=
      hdefault.follows (by decide) (hus.ne (by decide))
    obtain ⟨s₁, hname, hspans₁, hlength₁⟩ := token_name_of_spans hx hspans
    obtain ⟨s₂, hcolon, hspans₂, hlength₂, -⟩ := symbol_of_spans hspans₁
    obtain ⟨s₃, hdone, hspans₃, hlength₃⟩ := (TypeRef.finds_reader n).reads type ts₁ _ s₂ (by omega)
      htype hmark hspans₂
    obtain ⟨rest, hoptional, hrest, hlength⟩ := VariableDefinition.optional_default_of_written
      hdefault (hus.ne (by decide)) (by omega : s₃.length < n) hspans₃
    refine ⟨rest, ?_, hrest, by omega⟩
    simp only [bind_eq_done_iff, pure_eq_done_iff, expecting_eq_done_iff, commit_eq_done_iff]
    exact ⟨x, s₁, hname, _, s₂, hcolon, type, s₃, hdone, default?, rest, hoptional, rfl, rfl⟩
  · intro us s _ hus hspans
    exact (declines_token_name (hus.of_eq (by decide)) hspans).bind _
  · exact fun a ts us ha => (ha.follows us).ne (by decide)
  · rintro _ rfl
    decide

theorem finds_listReader (n : Nat) :
    listReader.Finds n (Grouped '(' ')' (Described Written)) (fun _ => True) (· ≠ '(') := by
  refine (finds_reader n).grouped (fun a ts us ha => ?_) (by decide) rfl
  exact ha.follows (by decide) fun ts us ha => (ha.follows us).notMem (by decide)

end ArgumentDefinition

namespace FieldDefinition

/-- The characters with which a field would go on behind its type. -/
def continuations : List Char := ['!', '@', '(']

theorem Written.follows {f : FieldDefinition} {ts : List Token} (h : f.Written ts)
    (us : List Token) : Follows (isNameStart · = true) (ts ++ us) := by
  obtain ⟨hx⟩ := h
  exact hx.follows

theorem finds_reader (n : Nat) :
    reader.Finds n (Described Written) (· ∉ continuations) (· = '\x7d') := by
  refine Finds.described ⟨?_, ?_⟩ ?_ ?_
  · intro f ts us s hs hf hus hspans
    obtain @⟨x, arguments, type, directives, ts₁, ts₂, ts₃, hx, harguments, htype,
      hdirectives⟩ := hf
    simp only [List.cons_append, List.append_assoc] at hspans
    -- Behind the type stands a directive, or what follows the field.
    have hmark : Follows (· ≠ '!') (ts₃ ++ us) :=
      hdirectives.follows (fun _ _ us hd => hd.follows (by decide) us) (hus.ne (by decide))
    obtain ⟨s₁, hname, hspans₁, hlength₁⟩ := token_name_of_spans hx hspans
    obtain ⟨arguments?, s₂, hdone₂, hgetD, hspans₂, hlength₂⟩ :=
      (ArgumentDefinition.finds_listReader n).optionallyGrouped harguments
        (follows_cons (by decide)) (by omega) hspans₁
    obtain ⟨s₃, hcolon, hspans₃, hlength₃, -⟩ := symbol_of_spans hspans₂
    obtain ⟨s₄, hdone₄, hspans₄, hlength₄⟩ := (TypeRef.finds_reader n).reads type ts₂ _ s₃
      (by omega) htype hmark hspans₃
    obtain ⟨rest, hmany, hrest, hlength⟩ := (Directive.finds_reader n).many
      (fun _ _ us hd => hd.follows (by decide) us) (hus.ne (by decide)) (hus.ne (by decide))
      hdirectives (by omega) hspans₄
    refine ⟨rest, ?_, hrest, by omega⟩
    simp only [bind_eq_done_iff, pure_eq_done_iff, expecting_eq_done_iff, commit_eq_done_iff]
    exact ⟨x, s₁, hname, arguments?, s₂, hdone₂, _, s₃, hcolon, type, s₄, hdone₄, directives, rest,
      hmany, by rw [hgetD], rfl⟩
  · intro us s _ hus hspans
    exact (declines_token_name (hus.of_eq (by decide)) hspans).bind _
  · exact fun f ts us hf => (hf.follows us).ne (by decide)
  · rintro _ rfl
    decide

end FieldDefinition

/-! ### Definitions -/

/-- Neither an interface nor a directive of the type is mistaken for what follows its name. -/
theorem refuseTypeExtras_of_head? (hinterface : s.head? ≠ some 'i')
    (hdirective : s.head? ≠ some '@') : refuseTypeExtras s = .done () s := by
  rw [refuseTypeExtras, if_neg]
  cases s with
  | nil => simp
  | cons c s =>
    have hinterface : 'i' ≠ c := by
      rintro rfl
      exact hinterface rfl
    have hdirective : '@' ≠ c := by
      rintro rfl
      exact hdirective rfl
    simp [hinterface, hdirective]

theorem ObjectDefinition.reader_of_written {x : String} {fields : List FieldDefinition}
    {ts : List Token} (hx : IsName x)
    (hfields : Grouped '\x7b' '\x7d' (Described FieldDefinition.Written) fields ts)
    (hspans : Spans (x.toList :: (ts ++ us)) s []) :
    ∃ rest, reader s = .done ⟨x, fields⟩ rest ∧ Spans us rest [] ∧ rest.length < s.length := by
  obtain ⟨s₁, hname, hspans₁, hlength₁⟩ := token_name_of_spans hx hspans
  have hbrace : Follows (· = '\x7b') (ts ++ us) := by
    cases hfields
    exact follows_cons rfl
  have hextras : refuseTypeExtras s₁ = .done () s₁ :=
    refuseTypeExtras_of_head? ((hbrace.ne (by decide)).head?_ne hspans₁ (by decide))
      ((hbrace.ne (by decide)).head?_ne hspans₁ (by decide))
  obtain ⟨rest, hdone, hrest, hlength⟩ := (FieldDefinition.finds_reader (s₁.length + 1)).braced
    (fun f ts us hf => hf.follows (by decide) fun ts us hf => (hf.follows us).notMem (by decide))
    (by decide) rfl hfields (Nat.lt_succ_self _) hspans₁
  refine ⟨rest, ?_, hrest, by omega⟩
  simp only [reader, bind_eq_done_iff, pure_eq_done_iff, expecting_eq_done_iff, commit_eq_done_iff]
  exact ⟨x, s₁, hname, (), s₁, hextras, fields, rest, hdone, rfl, rfl⟩

theorem EnumDefinition.finds_valueReader (n : Nat) :
    valueReader.Finds n (Described ValueWritten) (fun _ => True) (· = '\x7d') := by
  refine Finds.described ⟨?_, ?_⟩ ?_ ?_
  · intro x ts us s _ hvalue _ hspans
    obtain ⟨hx⟩ := hvalue
    exact token_name_of_spans hx hspans
  · intro us s _ hus hspans
    exact declines_token_name (hus.of_eq (by decide)) hspans
  · intro x ts us hvalue
    obtain ⟨hx⟩ := hvalue
    exact hx.follows.ne (by decide)
  · rintro _ rfl
    decide

theorem EnumDefinition.reader_of_written {x : String} {values : List String} {ts : List Token}
    (hx : IsName x) (hvalues : Grouped '\x7b' '\x7d' (Described ValueWritten) values ts)
    (hspans : Spans (x.toList :: (ts ++ us)) s []) :
    ∃ rest, reader s = .done ⟨x, values⟩ rest ∧ Spans us rest [] ∧ rest.length < s.length := by
  obtain ⟨s₁, hname, hspans₁, hlength₁⟩ := token_name_of_spans hx hspans
  obtain ⟨rest, hdone, hrest, hlength⟩ := (finds_valueReader (s₁.length + 1)).braced
    (fun _ _ _ _ _ _ => trivial) trivial rfl hvalues (Nat.lt_succ_self _) hspans₁
  refine ⟨rest, ?_, hrest, by omega⟩
  simp only [reader, bind_eq_done_iff, pure_eq_done_iff, expecting_eq_done_iff, commit_eq_done_iff]
  exact ⟨x, s₁, hname, values, rest, hdone, rfl, rfl⟩

theorem OperationKind.declines_reader (h : ∀ c ∈ s.head?, isNameStart c = false) :
    Declines reader s := by
  have hword (kind : OperationKind) : Declines (wordReader kind) s := by
    obtain ⟨trail, htrail⟩ := declines_name h
    refine Declines.bind ⟨trail, ?_⟩ _
    rw [keyword, filter, htrail]
  apply declines_oneOfFrom
  intro p hp
  simp only [List.mem_cons, List.not_mem_nil, or_false] at hp
  rcases hp with rfl | rfl | rfl
  all_goals exact hword _

theorem SchemaBlock.finds_operationReader (n : Nat) :
    operationReader.Finds n OperationWritten (fun _ => True) (· = '\x7d') where
  reads operation ts us s _ hoperation _ hspans := by
    obtain @⟨kind, x, hx⟩ := hoperation
    obtain ⟨s₁, hkind, hspans₁, hlength₁⟩ := kind.token_of_spans hspans
    obtain ⟨s₂, hcolon, hspans₂, hlength₂, -⟩ := symbol_of_spans hspans₁
    obtain ⟨rest, hname, hrest, hlength⟩ := token_name_of_spans hx hspans₂
    refine ⟨rest, ?_, hrest, by omega⟩
    simp only [operationReader, bind_eq_done_iff, pure_eq_done_iff, commit_eq_done_iff]
    exact ⟨kind, s₁, hkind, _, s₂, hcolon, x, rest, hname, rfl, rfl⟩
  declines us s _ hus hspans := by
    have hstart : Follows (isNameStart · = false) us := hus.of_eq (by decide)
    have hkind := OperationKind.declines_reader (hstart.head?_skip hspans)
    exact (declines_bind_of_done rfl (hkind.bind _) : Declines (token _) s).bind _

theorem SchemaBlock.reader_of_written {operations : List (OperationKind × String)}
    {ts : List Token} (h : Grouped '\x7b' '\x7d' OperationWritten operations ts)
    (hspans : Spans (ts ++ us) s []) :
    ∃ rest, reader s = .done ⟨operations⟩ rest ∧ Spans us rest [] ∧ rest.length < s.length := by
  obtain ⟨rest, hdone, hrest, hlength⟩ := (finds_operationReader (s.length + 1)).braced
    (fun _ _ _ _ _ _ => trivial) trivial rfl h (Nat.lt_succ_self _) hspans
  refine ⟨rest, bind_eq_done_iff.2 ⟨operations, rest, hdone, rfl⟩, hrest, hlength⟩

namespace Definition

/-- A word that introduces definitions is followed by what it introduces. -/
theorem exists_body_of_written {definition : Definition} {ts : List Token}
    (h : definition.Written ts) :
    ∃ word body ts', ts = word.toList :: ts' ∧ IsName word ∧ bodyReader? word = some body ∧
      ∀ us s, Spans (ts' ++ us) s [] →
        ∃ rest, body s = .done definition rest ∧ Spans us rest [] ∧ rest.length < s.length := by
  cases h with
  | object hx hfields =>
    refine ⟨"type", _, _, rfl, isName_of_toList rfl (by decide) (by decide), rfl, ?_⟩
    intro us s hspans
    obtain ⟨rest, hdone, hrest⟩ := ObjectDefinition.reader_of_written hx hfields hspans
    exact ⟨rest, bind_eq_done_iff.2 ⟨_, rest, hdone, rfl⟩, hrest⟩
  | enum hx hvalues =>
    refine ⟨"enum", _, _, rfl, isName_of_toList rfl (by decide) (by decide), rfl, ?_⟩
    intro us s hspans
    obtain ⟨rest, hdone, hrest⟩ := EnumDefinition.reader_of_written hx hvalues hspans
    exact ⟨rest, bind_eq_done_iff.2 ⟨_, rest, hdone, rfl⟩, hrest⟩
  | scalar hx =>
    refine ⟨"scalar", _, _, rfl, isName_of_toList rfl (by decide) (by decide), rfl, ?_⟩
    intro us s hspans
    obtain ⟨rest, hdone, hrest⟩ := token_name_of_spans hx hspans
    refine ⟨rest, bind_eq_done_iff.2 ⟨_, rest, ?_, rfl⟩, hrest⟩
    rw [expecting_eq_done_iff, commit_eq_done_iff]
    exact hdone
  | schema hoperations =>
    refine ⟨"schema", _, _, rfl, isName_of_toList rfl (by decide) (by decide), rfl, ?_⟩
    intro us s hspans
    obtain ⟨rest, hdone, hrest⟩ := SchemaBlock.reader_of_written hoperations hspans
    exact ⟨rest, bind_eq_done_iff.2 ⟨_, rest, hdone, rfl⟩, hrest⟩

theorem finds_undescribedReader (n : Nat) :
    undescribedReader.Finds n Written (fun _ => True) (fun _ => False) where
  reads definition ts us s _ hdefinition _ hspans := by
    obtain ⟨word, body, ts, rfl, hword, hbody, hreads⟩ := exists_body_of_written hdefinition
    obtain ⟨s₁, hname, hspans₁, hlength₁⟩ := token_name_of_spans hword hspans
    obtain ⟨rest, hdone, hrest, hlength⟩ := hreads us s₁ hspans₁
    refine ⟨rest, ?_, hrest, by omega⟩
    simp only [undescribedReader, hname, hbody, hdone]
  declines us s _ hus hspans := by
    -- Nothing stops the reader but the end of the text.
    obtain ⟨trail, htrail⟩ := declines_token_name (hus.mono fun _ => False.elim) hspans
    refine ⟨trail, ?_⟩
    simp only [undescribedReader, htrail]

/-- Every definition that is written is read. -/
theorem finds_reader (n : Nat) :
    reader.Finds n (Described Written) (fun _ => True) (fun _ => False) := by
  refine (finds_undescribedReader n).described ?_ (fun _ => False.elim)
  intro definition ts us hdefinition
  obtain ⟨word, _, ts, rfl, hword, -⟩ := exists_body_of_written hdefinition
  exact hword.follows.ne (by decide)

/-- A text that renders definitions is read as these. -/
theorem parseAll_of_render {definitions : List Definition} {text : List Char}
    (h : Render definitions text) : parseAll text = .ok definitions := by
  obtain ⟨ts, hts, hspans⟩ := h
  rw [← List.append_nil ts] at hspans
  obtain ⟨rest, hmany, hrest, -⟩ := (finds_reader (text.length + 1)).many
    (fun _ _ _ _ _ _ => trivial) (fun _ _ => trivial) (fun _ hc => by cases hc) hts
    (Nat.lt_succ_self _) hspans
  exact parseAll_eq_ok_iff.2 ⟨rest, hmany, hrest.skip_eq_of_nil⟩

/-- A text is read as definitions exactly if it renders them. -/
theorem parseAll_accepts_renderings (definitions : List Definition) (text : List Char) :
    parseAll text = .ok definitions ↔ Render definitions text :=
  ⟨render_of_parseAll, parseAll_of_render⟩

/-- The text of a type with a block as its description, in which there are quotes, and with an empty
string as that of its field. Two of the values are integers, one of them the least. -/
def describedText : String :=
  "\"\"\"a \"\"b\"\"\"type T\x7b\"\"a(b:Int=-9223372036854775808):[Int!]@r(n:null k:42)\x7d"

/-- The definition of that type. -/
def describedType : Definition :=
  .object ⟨"T", [⟨"a", [⟨"b", .named "Int", some (.int Int64.minValue)⟩],
    .list (.nonNull (.named "Int")), [⟨"r", [⟨"n", .null⟩, ⟨"k", .int 42⟩]⟩]⟩]⟩

/-- What is read from that text is rendered by it. -/
theorem parseAll_accepts_renderings_described :
    parseAll describedText.toList = .ok [describedType] ∧
      Render [describedType] describedText.toList := by
  have hparse : parseAll describedText.toList = .ok [describedType] := by
    simp only [describedText, String.reduceToList]
    rfl
  exact ⟨hparse, (parseAll_accepts_renderings _ _).1 hparse⟩

end Definition

end GraphQuery
