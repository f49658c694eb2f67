import GraphQuery.Proofs.Language.Completeness

/-!
# The texts that are accepted

Reading a whole text as a query accepts the layouts of the tokens of a query, and apart from blanks
at the end nothing else. The blanks need not be the ones that are ignored between tokens: any
character with the property `White_Space` may stand there.

## Main results

* `Document.parse_eq_ok_iff`: a text is accepted if a query is read and only blanks are left.
* `Document.skip_eq_self_of_reader`: what is left of a text does not begin with something ignored.
* `Document.parse_accepts_renderings`: a text is accepted for a query exactly if it renders the
  query, up to blanks at the end.
-/

namespace GraphQuery

open Reader Lexeme

variable {s rest : List Char}

theorem Text.isBlank_of_trim_eq_nil (h : Text.trim s = []) : ∀ c ∈ s, Text.isBlank c = true := by
  rw [Text.trim, Text.trimEnd, List.reverse_eq_nil_iff, List.dropWhile_eq_nil_iff] at h
  intro c hc
  rw [← List.takeWhile_append_dropWhile (p := Text.isBlank) (l := s)] at hc
  rcases List.mem_append.1 hc with hc | hc
  · exact List.all_eq_true.1 List.all_takeWhile c hc
  · exact h c (List.mem_reverse.2 hc)

/-! ### What is left of a text -/

theorem Lexeme.skip_eq_self_of_symbol {c d : Char} (h : symbol c s = .done d rest) :
    skip rest = rest := by
  obtain ⟨middle, -, rfl⟩ := token_eq_done_iff.1 h
  exact skip_skip middle

theorem Selection.skip_eq_self_of_setReader {selections : List Selection}
    (h : setReader s = .done selections rest) : skip rest = rest := by
  have hstep (below : Reader (List Selection)) (h : setReaderStep below s = .done selections rest) :
      skip rest = rest := by
    simp only [setReaderStep, bind_eq_done_iff, expecting_eq_done_iff, commit_eq_done_iff] at h
    obtain ⟨_, _, -, _, _, -, _, _, hclose, h⟩ := h
    split_ifs at h
    · cases h
    · obtain ⟨-, rfl⟩ := pure_eq_done_iff.1 h
      exact skip_eq_self_of_symbol hclose
  -- However often the reader is unfolded, its last step is that of its body.
  rw [setReader, nest] at h
  cases hlength : s.length with
  | zero =>
    rw [hlength] at h
    exact hstep _ h
  | succ n =>
    rw [hlength] at h
    exact hstep _ h

namespace Document

/-- What is left behind a query does not begin with something that is ignored. -/
theorem skip_eq_self_of_reader {d : Document} (h : reader s = .done d rest) : skip rest = rest := by
  simp only [reader, bind_eq_done_iff] at h
  obtain ⟨_, _, -, _, _, -, h⟩ := h
  split_ifs at h
  · obtain ⟨_, _, hselections, heq⟩ := bind_eq_done_iff.1 h
    obtain ⟨-, rfl⟩ := pure_eq_done_iff.1 heq
    exact Selection.skip_eq_self_of_setReader hselections
  · simp only [operationReader, bind_eq_done_iff, pure_eq_done_iff, expecting_eq_done_iff,
      commit_eq_done_iff] at h
    obtain ⟨_, _, -, _, _, -, _, _, -, _, _, hselections, -, rfl⟩ := h
    exact Selection.skip_eq_self_of_setReader hselections

/-! ### Whole texts -/

theorem unsupported?_eq_none_iff {kind : OperationKind} :
    unsupported? kind = none ↔ kind = .query := by
  cases kind <;> simp [unsupported?]

theorem parse_eq_ok_iff {text : List Char} {d : Document} :
    parse text = .ok d ↔
      ∃ rest, reader text = .done d rest ∧ Text.trim rest = [] ∧ d.kind = .query := by
  unfold parse
  cases reader text with
  | done d' rest =>
    simp only [Reading.done.injEq, List.isEmpty_iff]
    constructor
    · intro h
      split_ifs at h with htrim
      split at h
      · next hkind =>
        cases h
        exact ⟨rest, ⟨rfl, rfl⟩, htrim, unsupported?_eq_none_iff.1 hkind⟩
      · cases h
    · rintro ⟨_, ⟨rfl, rfl⟩, htrim, hkind⟩
      rw [if_pos htrim, unsupported?_eq_none_iff.2 hkind]
  | declined trail => simp
  | refused trail => simp

theorem Written.kind_eq {d : Document} {ts : List Token} (h : d.Written ts) : d.kind = .query := by
  cases h <;> rfl

theorem parse_of_renders {d : Document} {text : List Char} (h : d.Renders text) :
    parse text = .ok d := by
  obtain ⟨ts, hts, hspans⟩ := h
  obtain ⟨rest, hdone, hrest⟩ := reader_of_written hts hspans
  have hnil : rest = [] := by
    rw [← skip_eq_self_of_reader hdone, hrest.skip_eq_of_nil]
    rfl
  refine parse_eq_ok_iff.2 ⟨rest, hdone, ?_, hts.kind_eq⟩
  rw [hnil]
  rfl

theorem exists_renders_of_parse {text : List Char} {d : Document} (h : parse text = .ok d) :
    ∃ front blanks, text = front ++ blanks ∧ d.Renders front ∧
      ∀ c ∈ blanks, Text.isBlank c = true := by
  obtain ⟨rest, hdone, htrim, hkind⟩ := parse_eq_ok_iff.1 h
  obtain ⟨ts, hts, hspans⟩ := reads_reader text d rest hdone
  have hseparator := isSeparator_head?_skip rest
  rw [skip_eq_self_of_reader hdone] at hseparator
  obtain ⟨front, heq, hfront⟩ := hspans.exists_front hseparator
  exact ⟨front, rest, heq, ⟨ts, hts hkind, hfront⟩, Text.isBlank_of_trim_eq_nil htrim⟩

/-- Every rendering of a query is accepted for this query. What is accepted for a query is a
rendering of it, followed by blanks only. -/
theorem parse_accepts_renderings :
    (∀ (d : Document) (text : List Char), d.Renders text → parse text = .ok d) ∧
      ∀ (d : Document) (text : List Char), parse text = .ok d →
        ∃ front blanks, text = front ++ blanks ∧ d.Renders front ∧
          ∀ c ∈ blanks, Text.isBlank c = true :=
  ⟨fun _ _ h => parse_of_renders h, fun _ _ h => exists_renders_of_parse h⟩

/-- A field under an alias, with a variable and a negative integer as arguments. -/
def aliased : Document :=
  ⟨.query, none, [], [⟨some "x", "a", [⟨"s", .var "v"⟩, ⟨"n", .int (-120)⟩], []⟩]⟩

theorem renders_aliased : aliased.Renders "\x7bx:a(s:$v,n:-120)\x7d #é".toList := by
  have hx : IsName "x" := isName_of_toList rfl (by decide) rfl
  have ha : IsName "a" := isName_of_toList rfl (by decide) rfl
  have hs : IsName "s" := isName_of_toList rfl (by decide) rfl
  have hv : IsName "v" := isName_of_toList rfl (by decide) rfl
  have hn : IsName "n" := isName_of_toList rfl (by decide) rfl
  have hint : Value.Spelled false (.int (-120)) ['-', '1', '2', '0'] :=
    Value.spelled_of_isDigits false true (isDigits_of_all (by simp) (by decide)) (by decide)
  have hvariable : Argument.Written false ⟨"s", .var "v"⟩ _ := .intro hs (.token (.var hv rfl))
  have hinteger : Argument.Written false ⟨"n", .int (-120)⟩ _ := .intro hn (.token hint)
  have hselection :
      Selection.Written ⟨some "x", "a", [⟨"s", .var "v"⟩, ⟨"n", .int (-120)⟩], []⟩ _ :=
    .intro (.aliased hx ha) (.present (.intro (.cons hvariable (.cons hinteger .nil)))) .absent
  refine ⟨_, .shorthand (.intro (.cons hselection .nil)), ?_⟩
  simp only [String.reduceToList, List.cons_append, List.nil_append, List.append_nil]
  -- No two tokens join, because of two neighbours one is always punctuation.
  refine .punctuation (by decide) (.before hx.beginsToken (by decide) ?_)
  refine .punctuation (by decide) (.before ha.beginsToken (by decide) ?_)
  refine .punctuation (by decide) (.before hs.beginsToken (by decide) ?_)
  refine .punctuation (by decide) (.before ⟨'$', ['v'], rfl, by decide⟩ (by decide) ?_)
  refine .separator (by decide) (.before hn.beginsToken (by decide) ?_)
  refine .punctuation (by decide) (.before ⟨'-', ['1', '2', '0'], rfl, by decide⟩ (by decide) ?_)
  refine .punctuation (by decide) (.punctuation (by decide) (.separator (by decide) ?_))
  have hbody : ∀ c ∈ ['é'], c ≠ '\n' ∧ c ≠ '\r' := List.forall_mem_singleton.2 (by decide)
  have hcomment : Ignored ('#' :: (['é'] ++ [])) [] := .comment hbody .ended
  exact .ignored hcomment (.nil [])

/-- The comment ends with the text. -/
theorem parse_accepts_renderings_aliased :
    aliased.Renders "\x7bx:a(s:$v,n:-120)\x7d #é".toList ∧
      parse "\x7bx:a(s:$v,n:-120)\x7d #é".toList = .ok aliased ∧
      ∃ front blanks, "\x7bx:a(s:$v,n:-120)\x7d #é".toList = front ++ blanks ∧
        aliased.Renders front ∧ ∀ c ∈ blanks, Text.isBlank c = true := by
  have hparse := parse_accepts_renderings.1 aliased _ renders_aliased
  exact ⟨renders_aliased, hparse, parse_accepts_renderings.2 aliased _ hparse⟩

end Document

end GraphQuery
