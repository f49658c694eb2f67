import GraphQuery.Proofs.Definition.Trails
import GraphQuery.Proofs.Language.Recursion

/-!
# Repetition gets further

Many parts of queries and schema definitions are repeated. Several of them begin with something that
may be missing, such as a description or blanks, but none of them can be read from nothing: each has
a name, a bracket or a sign that must be there. So repetition always comes to an end by itself.

What is ignored between lexemes is repeated too. Skipping was defined by a recursion over single
characters; here it is said as a repetition of three alternatives, and the two are the same.

## Main definitions

* `Lexeme.ignorable`: blanks, a comma or a comment.
* `Reader.Repeated`: the readers that the grammars repeat.

## Main results

* `Lexeme.many_ignorable`: repeating what is ignorable skips what is ignored.
* `Reader.Repeated.progresses`: no repeated reader reads without getting further.
* `Reader.reading_descends`: so repetition never fails for lack of progress, and all recursion is to
  shorter texts.
-/

namespace GraphQuery

open Reader Lexeme

variable {s rest : List Char}

/-! ### What is ignored -/

namespace Lexeme

/-- Spaces, tabs and ends of lines. -/
def isSpacing (c : Char) : Bool := c == ' ' || c == '\t' || c == '\r' || c == '\n'

/-- Characters that do not end a line. -/
def staysInLine (c : Char) : Bool := c != '\n' && c != '\r'

/-- The characters up to the end of the line. A carriage return alone does not end a line. -/
def restOfLine : Reader (List Char) := fun s =>
  if closesLine s then takeWhile staysInLine s else .declined [⟨s, unexpected⟩]

/-- A number sign and the rest of its line. -/
def comment : Reader (List Char) := do
  let _ ← char '#'
  restOfLine

/-- One thing that is ignored: blanks, a comma or a comment. -/
def ignorable : Reader (List Char) :=
  oneOf [takeWhile1 isSpacing, do return [← char ','], comment]

theorem isSeparator_eq (c : Char) : isSeparator c = (isSpacing c || c == ',') := rfl

theorem spans_spacing {cs : List Char} (hcs : ∀ c ∈ cs, isSpacing c = true) (rest : List Char) :
    Spans [] (cs ++ rest) rest := by
  induction cs with
  | nil => exact .nil rest
  | cons c cs ih =>
    obtain ⟨hc, hcs⟩ := List.forall_mem_cons.1 hcs
    have hseparator : isSeparator c = true := by
      rw [isSeparator_eq, hc, Bool.true_or]
    exact .ignored (.separator (isSeparator_iff.1 hseparator) _) (ih hcs)

theorem ignorable_spacing {c : Char} (hc : isSpacing c = true) (s : List Char) :
    ∃ found rest, ignorable (c :: s) = .done found rest ∧ Spans [] (c :: s) rest ∧
      rest.length < (c :: s).length := by
  have hread : takeWhile1 isSpacing (c :: s) =
      .done (c :: s.takeWhile isSpacing) (s.dropWhile isSpacing) := by
    simp [takeWhile1, hc]
  obtain ⟨-, hall, happend, -⟩ := takeWhile1_eq_done_iff.1 hread
  refine ⟨c :: s.takeWhile isSpacing, s.dropWhile isSpacing, ?_, ?_, ?_⟩
  · rw [ignorable, oneOf, oneOfFrom, hread]
  · rw [happend]
    exact spans_spacing hall _
  · exact Nat.lt_succ_of_le (List.length_dropWhile_le isSpacing s)

theorem comment_append {body : List Char} (hbody : ∀ c ∈ body, c ≠ '\n' ∧ c ≠ '\r')
    (hrest : EndsLine rest) : comment ('#' :: (body ++ rest)) = .done body rest := by
  have hline : ∀ c ∈ body, staysInLine c = true := by simpa [staysInLine] using hbody
  have hends : ∀ c ∈ rest.head?, staysInLine c = false := by
    cases hrest <;> simp [staysInLine]
  obtain ⟨htake, hdrop⟩ := takeWhile_append_eq hline hends
  refine bind_eq_done_iff.2 ⟨'#', body ++ rest, char_eq_done_iff.2 ⟨rfl, rfl⟩, ?_⟩
  rw [restOfLine, if_pos (closesLine_append hbody hrest), Reader.takeWhile, htake, hdrop]

/-- A line that a carriage return breaks off makes no comment. -/
theorem declines_comment (h : ∀ s', ¬ Ignored s s') : Declines comment s := by
  by_cases hsign : s.head? = some '#'
  · obtain ⟨s₁, rfl⟩ := List.head?_eq_some_iff.1 hsign
    refine declines_bind_of_done (char_eq_done_iff.2 ⟨rfl, rfl⟩) ?_
    by_cases hcloses : closesLine s₁ = true
    · obtain ⟨body, rest, rfl, hbody, hrest⟩ := exists_endsLine_of_closesLine hcloses
      exact absurd (.comment hbody hrest) (h rest)
    · exact ⟨_, if_neg hcloses⟩
  · exact (declines_char_iff.2 hsign).bind _

theorem declines_ignorable (h : ∀ s', ¬ Ignored s s') : Declines ignorable s := by
  have hseparator : ∀ c ∈ s.head?, isSeparator c = false := by
    intro c hc
    obtain ⟨s₁, rfl⟩ := List.head?_eq_some_iff.1 hc
    rw [Bool.eq_false_iff, Ne, isSeparator_iff]
    exact fun hmem => h s₁ (.separator hmem s₁)
  refine declines_oneOfFrom ?_
  simp only [List.forall_mem_cons]
  refine ⟨declines_takeWhile1_iff.2 fun c hc => ?_, Declines.bind ?_ _, declines_comment h,
    List.forall_mem_nil _⟩
  · have hc := hseparator c hc
    rw [isSeparator_eq, Bool.or_eq_false_iff] at hc
    exact hc.1
  · apply declines_char_iff.2
    intro hcomma
    exact absurd (hseparator ',' hcomma) (by decide)

/-- Something ignored is read, or nothing that is ignored stands in front. -/
theorem ignorable_cases (s : List Char) :
    (∃ found rest, ignorable s = .done found rest ∧ Spans [] s rest ∧ rest.length < s.length) ∨
      Declines ignorable s ∧ skip s = s := by
  by_cases hignored : ∃ s', Ignored s s'
  · left
    obtain ⟨s', hignored⟩ := hignored
    have hspans : Spans [] s s' := .ignored hignored (.nil s')
    have hlt := hignored.length_lt
    cases hignored with
    | @separator c hc =>
      by_cases hspacing : isSpacing c = true
      · exact ignorable_spacing hspacing s'
      · have hcomma : c = ',' := by
          rw [← isSeparator_iff, isSeparator_eq, Bool.or_eq_true] at hc
          exact beq_iff_eq.1 (hc.resolve_left hspacing)
        subst hcomma
        exact ⟨[','], s', rfl, hspans, hlt⟩
    | @comment body _ hbody hrest =>
      -- The other two alternatives decline at the number sign.
      have hsign : ignorable ('#' :: (body ++ s')) =
          oneOfFrom [⟨'#' :: (body ++ s'), unexpected⟩] [comment] ('#' :: (body ++ s')) := rfl
      have hread := hsign.trans (oneOfFrom_cons_of_done (comment_append hbody hrest))
      exact ⟨body, s', hread, hspans, hlt⟩
  · right
    have hclear : ∀ s', ¬ Ignored s s' := fun s' h => hignored ⟨s', h⟩
    exact ⟨declines_ignorable hclear, skip_eq_self_iff.2 hclear⟩

theorem progresses_ignorable : ignorable.Progresses := by
  intro s found rest hread
  rcases ignorable_cases s with ⟨found', rest', hread', hspans, hlt⟩ | ⟨⟨trail, hdeclined⟩, -⟩
  · rw [hread] at hread'
    cases hread'
    exact ⟨hspans.suffix, hlt⟩
  · rw [hread] at hdeclined
    cases hdeclined

/-- Repeating what is ignorable skips what is ignored. -/
theorem many_ignorable (s : List Char) : ∃ found, many ignorable s = .done found (skip s) := by
  induction hlength : s.length using Nat.strongRecOn generalizing s with
  | ind n ih =>
    subst hlength
    rw [many_eq, progresses_ignorable.manyStep_eq, loopStep]
    -- What one round leaves is skipped up to the same place as the whole text.
    rcases ignorable_cases s with ⟨found, rest, hread, hspans, hlt⟩ | ⟨⟨trail, hdeclined⟩, hskip⟩
    · obtain ⟨others, hothers⟩ := ih rest.length hlt rest rfl
      refine ⟨found :: others, ?_⟩
      rw [hread, hspans.skip_eq_of_nil]
      exact bind_eq_done_iff.2 ⟨others, skip rest, hothers, rfl⟩
    · refine ⟨[], ?_⟩
      rw [hdeclined, hskip]

end Lexeme

/-! ### What is repeated -/

namespace Reader

/-- The readers that the grammars of queries and schema definitions repeat. -/
inductive Repeated : {α : Type} → Reader α → Prop
  -- Between all lexemes.
  | ignorable : Repeated ignorable
  -- In queries; values and arguments also in schema definitions.
  | item (constant : Bool) : Repeated (token (Value.reader constant))
  | argument (constant : Bool) : Repeated (Argument.reader constant)
  | selection : Repeated (Selection.reader Selection.setReader)
  | variableDefinition : Repeated VariableDefinition.reader
  -- In schema definitions.
  | definition : Repeated Definition.reader
  | field : Repeated FieldDefinition.reader
  | argumentDefinition : Repeated ArgumentDefinition.reader
  | directive : Repeated Directive.reader
  | enumValue : Repeated EnumDefinition.valueReader
  | operation : Repeated SchemaBlock.operationReader

variable {α : Type} {p : Reader α}

theorem progresses_of_readsOn (h : ∀ s, p.ReadsOn s s) : p.Progresses :=
  progresses_of_stays fun s => ⟨_, (h s).mono fun _ _ hrest => hrest.1⟩

/-- Where no definition begins, none is read. -/
theorem progresses_definition : Definition.reader.Progresses := by
  intro s a rest hread
  cases Definition.begins_reader (List.suffix_refl s) with
  | reads h =>
    rw [ReadsOn, hread] at h
    exact ⟨h.1, h.2.1⟩
  | other h =>
    rw [hread] at h
    cases h
  | unsupported h =>
    rw [hread] at h
    cases h

/-- Each repeated reader has something in it that must be there. -/
theorem Repeated.progresses (h : Repeated p) : p.Progresses := by
  have hself (s : List Char) : s <:+ s := List.suffix_refl s
  -- A field and a directive may end in front of what is ignored, so they do not read on like the
  -- others. They get further all the same.
  cases h with
  | ignorable => exact progresses_ignorable
  | item constant =>
    apply progresses_of_readsOn
    exact fun s => readsOn_token (Value.proceeds_reader constant (spans_skip s).suffix)
  | argument constant =>
    exact progresses_of_readsOn fun s => Argument.readsOn_reader constant (hself s)
  | selection =>
    apply progresses_of_readsOn
    exact fun s => Selection.readsOn_reader (hself s) fun _ ht => Selection.readsOn_setReader ht
  | variableDefinition =>
    exact progresses_of_readsOn fun s => VariableDefinition.readsOn_reader (hself s)
  | definition => exact progresses_definition
  | field =>
    apply progresses_of_stays
    exact fun s => ⟨_, (FieldDefinition.stays_reader (hself s)).mono fun _ _ hrest => hrest.1⟩
  | argumentDefinition =>
    exact progresses_of_readsOn fun s => ArgumentDefinition.readsOn_reader (hself s)
  | directive =>
    apply progresses_of_stays
    exact fun s => ⟨_, (Directive.stays_reader (hself s)).mono fun _ _ hrest => hrest.1⟩
  | enumValue =>
    exact progresses_of_readsOn fun s => EnumDefinition.readsOn_valueReader (hself s)
  | operation => exact progresses_of_readsOn fun _ => SchemaBlock.readsOn_operationReader

/-- Every repeated reader leaves a shorter end of the text than it was given. So repetition is never
declined for lack of progress, one or more values are declined only where the first one is, and the
loop that does not look how far it got has the repetition as its only solution. Values, types and
selections are likewise all that their recursive equations can stand for, by recursion to shorter
texts. -/
theorem reading_descends :
    (∀ {α : Type} (p : Reader α), Repeated p →
      (∀ s a rest, p s = .done a rest → rest <:+ s ∧ rest.length < s.length) ∧
      (∀ s, ¬ Declines (many p) s) ∧ (∀ s, Declines (many1 p) s ↔ Declines p s) ∧
      Descends (loopStep p) (many p)) ∧
    (∀ s, ∃ found, many ignorable s = .done found (skip s)) ∧
    (∀ constant, Descends (Value.readerStep constant) (Value.reader constant)) ∧
    Descends TypeRef.readerStep TypeRef.reader ∧
    Descends Selection.setReaderStep Selection.setReader := by
  refine ⟨?_, many_ignorable, Value.descends_reader, TypeRef.descends_reader,
    Selection.descends_setReader⟩
  intro α p hp
  have hprogresses : p.Progresses := hp.progresses
  exact ⟨hprogresses, hprogresses.not_declines_many, hprogresses.declines_many1_iff,
    hprogresses.descends_many⟩

/-- A field with a description ends directly behind the name of its directive. -/
theorem reading_descends_field :
    FieldDefinition.reader "\"who\" name: String @key\n\x7d".toList =
        .done ⟨"name", [], .named "String", [⟨"key", []⟩]⟩ "\n\x7d".toList ∧
      "\n\x7d".toList <:+ "\"who\" name: String @key\n\x7d".toList ∧
      "\n\x7d".toList.length < "\"who\" name: String @key\n\x7d".toList.length ∧
      ¬ Declines (many FieldDefinition.reader) "\"who\" name: String @key\n\x7d".toList := by
  have hread : FieldDefinition.reader "\"who\" name: String @key\n\x7d".toList =
      .done ⟨"name", [], .named "String", [⟨"key", []⟩]⟩ "\n\x7d".toList := by
    simp only [String.reduceToList]
    rfl
  obtain ⟨hprogress, hmany, -⟩ := reading_descends.1 FieldDefinition.reader .field
  exact ⟨hread, (hprogress _ _ _ hread).1, (hprogress _ _ _ hread).2, hmany _⟩

end Reader

end GraphQuery
