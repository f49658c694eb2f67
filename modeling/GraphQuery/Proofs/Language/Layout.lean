import Mathlib.Data.List.Basic
import GraphQuery.Proofs.Language.Plain

/-!
# Tokens in a text

A text is made of tokens with ignored things around them: blanks, commas and comments. Nothing has
to stand between two tokens, unless the last character of one and the first character of the next
could stand in one name.

How far a token goes depends on what follows it. Tokens are therefore laid out in front of the rest
of a text, which is there to look at but does not belong to them; two layouts are put together where
the rest of the first is the text of the second.

## Main definitions

* `Lexeme.Ignored`: something ignored stands in front of a text.
* `Lexeme.Apart`: a token and the text behind it do not join.
* `Lexeme.Spans`: some tokens are laid out in front of the rest of a text.

## Main results

* `Lexeme.skip_induction`, `Lexeme.spans_skip`: what is skipped is ignored.
* `Lexeme.Spans.exists_of_cons`: skipping stops at the next token.
* `Lexeme.Spans.append`: layouts are put together.
* `Lexeme.Spans.suffix`: what is left behind a layout is the end of the text.
* `Lexeme.Spans.exists_front`: a layout does not depend on what it does not reach.
-/

namespace GraphQuery.Lexeme

/-! ### Ignored things -/

/-- The line ends here: with the text, a line feed, or a carriage return and a line feed. -/
inductive EndsLine : List Char → Prop
  | ended : EndsLine []
  | lineFeed (s : List Char) : EndsLine ('\n' :: s)
  | carriageReturn (s : List Char) : EndsLine ('\r' :: '\n' :: s)

/-- Something ignored stands in front of a text: a blank, a comma, or a comment up to the end of its
line. -/
inductive Ignored : List Char → List Char → Prop
  | separator {c : Char} (hc : c ∈ [' ', '\t', '\r', '\n', ',']) (s : List Char) :
    Ignored (c :: s) s
  | comment {body s : List Char} (hbody : ∀ c ∈ body, c ≠ '\n' ∧ c ≠ '\r') (hs : EndsLine s) :
    Ignored ('#' :: (body ++ s)) s

theorem isSeparator_iff {c : Char} : isSeparator c = true ↔ c ∈ [' ', '\t', '\r', '\n', ','] := by
  simp [isSeparator, or_assoc]

section Comments

variable {body s : List Char}

theorem closesLine_append (hbody : ∀ c ∈ body, c ≠ '\n' ∧ c ≠ '\r') (hs : EndsLine s) :
    closesLine (body ++ s) = true := by
  induction body with
  | nil => cases hs <;> rfl
  | cons c body ih =>
    obtain ⟨⟨hfeed, hreturn⟩, hbody⟩ := List.forall_mem_cons.1 hbody
    rw [List.cons_append, closesLine, if_neg (by simpa using hfeed),
      if_neg (by simpa using hreturn)]
    exact ih hbody

theorem skipComment_append (hbody : ∀ c ∈ body, c ≠ '\n' ∧ c ≠ '\r') (hs : EndsLine s) :
    skipComment (body ++ s) = skip s := by
  induction body with
  | nil => cases hs <;> simp [skipComment, skip, isSeparator]
  | cons c body ih =>
    obtain ⟨⟨hfeed, hreturn⟩, hbody⟩ := List.forall_mem_cons.1 hbody
    rw [List.cons_append, skipComment, if_neg (by simp [hfeed, hreturn])]
    exact ih hbody

/-- A line that is closed consists of characters that do not end it, and its end. -/
theorem exists_endsLine_of_closesLine (h : closesLine s = true) :
    ∃ body rest, s = body ++ rest ∧ (∀ c ∈ body, c ≠ '\n' ∧ c ≠ '\r') ∧ EndsLine rest := by
  induction s with
  | nil => exact ⟨[], [], rfl, List.forall_mem_nil _, .ended⟩
  | cons c s ih =>
    rw [closesLine] at h
    split_ifs at h with hfeed hreturn
    · rw [beq_iff_eq] at hfeed
      exact ⟨[], c :: s, rfl, List.forall_mem_nil _, hfeed ▸ .lineFeed s⟩
    · rw [beq_iff_eq] at hreturn h
      obtain ⟨s', rfl⟩ := List.head?_eq_some_iff.1 h
      exact ⟨[], c :: '\n' :: s', rfl, List.forall_mem_nil _, hreturn ▸ .carriageReturn s'⟩
    · obtain ⟨body, rest, rfl, hbody, hrest⟩ := ih h
      refine ⟨c :: body, rest, rfl, List.forall_mem_cons.2 ⟨?_, hbody⟩, hrest⟩
      exact ⟨by simpa using hfeed, by simpa using hreturn⟩

end Comments

/-- Skipping goes on behind what is ignored. -/
theorem Ignored.skip_eq {s s' : List Char} (h : Ignored s s') : skip s = skip s' := by
  cases h with
  | separator hc => rw [skip, if_pos (isSeparator_iff.2 hc)]
  | comment hbody hs =>
    rw [skip, if_neg (by decide), if_pos (by simp [closesLine_append hbody hs]),
      skipComment_append hbody hs]

theorem Ignored.length_lt {s s' : List Char} (h : Ignored s s') : s'.length < s.length := by
  cases h with
  | separator => exact Nat.lt_succ_self _
  | comment =>
    rw [List.length_cons, List.length_append]
    omega

theorem Ignored.suffix {s s' : List Char} (h : Ignored s s') : s' <:+ s := by
  cases h with
  | separator => exact List.suffix_cons _ _
  | comment => exact (List.suffix_append _ _).trans (List.suffix_cons _ _)

/-- Induction along what is ignored, up to a text that begins with something else. -/
theorem skip_induction {motive : List Char → Prop}
    (ignored : ∀ s s', Ignored s s' → motive s' → motive s)
    (stop : ∀ s, skip s = s → (∀ c ∈ s.head?, isSeparator c = false) → motive s)
    (s : List Char) : motive s := by
  -- A comment is skipped as a whole, so the induction is on the length of the text.
  induction hlength : s.length using Nat.strongRecOn generalizing s with
  | ind n ih =>
    subst hlength
    have hnext {s' : List Char} (h : Ignored s s') : motive s :=
      ignored s s' h (ih _ h.length_lt s' rfl)
    cases s with
    | nil => exact stop [] rfl fun c hc => by cases hc
    | cons c s =>
      by_cases hseparator : isSeparator c = true
      · exact hnext (.separator (isSeparator_iff.1 hseparator) s)
      · by_cases hcomment : c = '#' ∧ closesLine s = true
        · obtain ⟨rfl, hcloses⟩ := hcomment
          obtain ⟨body, rest, rfl, hbody, hrest⟩ := exists_endsLine_of_closesLine hcloses
          exact hnext (.comment hbody hrest)
        · refine stop _ ?_ ?_
          · rw [skip, if_neg hseparator, if_neg (by simpa using hcomment)]
          · rintro d ⟨⟩
            simpa using hseparator

/-! ### Tokens -/

/-- The characters of a token. -/
abbrev Token := List Char

/-- A token can begin with this character: one of a name or a number, a quote, a dollar sign, or
punctuation. -/
def beginsToken (c : Char) : Bool :=
  isNameChar c ||
    ['-', '"', '$', '(', ')', '[', ']', '\x7b', '\x7d', ':', '=', '!', '@'].contains c

/-- The token and the text behind it do not join to a longer name. -/
def Apart (t : Token) (s : List Char) : Prop :=
  ∀ c ∈ t.getLast?, ∀ d ∈ s.head?, isNameChar c = true → isNameChar d = false

/-- Some tokens are laid out in front of the rest of a text, with ignored things before, between and
after them. -/
inductive Spans : List Token → List Char → List Char → Prop
  | nil (s : List Char) : Spans [] s s
  | ignored {ts : List Token} {s s' rest : List Char} (h : Ignored s s') (hs : Spans ts s' rest) :
    Spans ts s rest
  | token {c : Char} {t : Token} {ts : List Token} {s rest : List Char}
    (hc : beginsToken c = true) (hapart : Apart (c :: t) s) (hs : Spans ts s rest) :
    Spans ((c :: t) :: ts) (c :: t ++ s) rest

/-- A character of a class does not stand in a list without characters of the class. -/
theorem notMem_of_all (test : Char → Bool) {cs : List Char} {c : Char}
    (hcs : cs.all (!test ·) = true) (hc : test c = true) : c ∉ cs := by
  intro hmem
  have hnot := List.all_eq_true.1 hcs c hmem
  rw [hc] at hnot
  cases hnot

theorem skip_of_beginsToken {c : Char} (hc : beginsToken c = true) (s : List Char) :
    skip (c :: s) = c :: s := by
  have hseparator : isSeparator c = false := by
    rw [Bool.eq_false_iff, Ne, isSeparator_iff]
    exact notMem_of_all beginsToken (by decide) hc
  have hcomment : (c == '#') = false := by
    refine beq_false_of_ne ?_
    rintro rfl
    exact absurd hc (by decide)
  rw [skip, if_neg (by simp [hseparator]), if_neg (by simp [hcomment])]

namespace Spans

variable {ts us : List Token} {s rest : List Char}

theorem append {end' : List Char} (h : Spans ts s rest) (h' : Spans us rest end') :
    Spans (ts ++ us) s end' := by
  induction h with
  | nil => exact h'
  | ignored hignored _ ih => exact .ignored hignored (ih h')
  | token hc hapart _ ih => exact .token hc hapart (ih h')

/-- What is left behind a layout is the end of the text. -/
theorem suffix (h : Spans ts s rest) : rest <:+ s := by
  induction h with
  | nil s => exact List.suffix_refl s
  | ignored hignored _ ih => exact ih.trans hignored.suffix
  | token _ _ _ ih => exact ih.trans (List.suffix_append _ _)

/-- Every token takes at least one character. -/
theorem length_le (h : Spans ts s rest) : rest.length + ts.length ≤ s.length := by
  induction h with
  | nil => exact Nat.le_refl _
  | ignored hignored _ ih => exact Nat.le_of_lt (Nat.lt_of_le_of_lt ih hignored.length_lt)
  | token _ _ _ ih =>
    simp only [List.length_cons, List.length_append]
    omega

end Spans

/-- What is skipped is ignored. -/
theorem spans_skip (s : List Char) : Spans [] s (skip s) := by
  induction s using skip_induction with
  | ignored s s' hignored ih =>
    rw [hignored.skip_eq]
    exact .ignored hignored ih
  | stop s hskip =>
    rw [hskip]
    exact .nil s

theorem length_skip_le (s : List Char) : (skip s).length ≤ s.length :=
  (spans_skip s).length_le

/-- Where nothing is skipped, nothing that is ignored stands in front. -/
theorem not_ignored_of_skip_eq_self {s s' : List Char} (h : skip s = s) : ¬ Ignored s s' := by
  intro hignored
  have hlt := hignored.length_lt
  have hle := length_skip_le s'
  rw [← hignored.skip_eq, h] at hle
  omega

/-- Nothing is skipped exactly where nothing that is ignored stands in front. -/
theorem skip_eq_self_iff {s : List Char} : skip s = s ↔ ∀ s', ¬ Ignored s s' := by
  constructor
  · exact fun h _ => not_ignored_of_skip_eq_self h
  · intro h
    induction s using skip_induction with
    | ignored s s' hignored => exact absurd hignored (h s')
    | stop s hskip => exact hskip

theorem isSeparator_head?_skip (s : List Char) : ∀ c ∈ (skip s).head?, isSeparator c = false := by
  induction s using skip_induction with
  | ignored s s' hignored ih =>
    rw [hignored.skip_eq]
    exact ih
  | stop s hskip hhead =>
    rw [hskip]
    exact hhead

namespace Spans

variable {t : Token} {ts us : List Token} {s rest : List Char}

theorem skip_eq_of_nil (h : Spans [] s rest) : skip s = skip rest := by
  generalize hts : ([] : List Token) = ts at h
  induction h with
  | nil => rfl
  | ignored hignored _ ih => rw [hignored.skip_eq, ih hts]
  | token => cases hts

/-- Skipping stops at the next token. -/
theorem exists_of_cons (h : Spans (t :: ts) s rest) :
    ∃ c t' s', t = c :: t' ∧ beginsToken c = true ∧ skip s = c :: t' ++ s' ∧ Apart t s' ∧
      Spans ts s' rest := by
  generalize hus : t :: ts = us at h
  induction h with
  | nil => cases hus
  | ignored hignored _ ih =>
    obtain ⟨c, t', s', htoken, hc, hskip, hs'⟩ := ih hus
    exact ⟨c, t', s', htoken, hc, hignored.skip_eq.trans hskip, hs'⟩
  | @token c t' _ s' _ hc hapart hs' =>
    cases hus
    exact ⟨c, t', s', rfl, hc, skip_of_beginsToken hc _, hapart, hs'⟩

/-- Tokens are still there when what is ignored before them is skipped. -/
theorem skip_of_cons (h : Spans (t :: ts) s rest) : Spans (t :: ts) (Lexeme.skip s) rest := by
  obtain ⟨c, t', s', rfl, hc, hskip, hapart, hs'⟩ := h.exists_of_cons
  rw [hskip]
  exact .token hc hapart hs'

/-- So is the end of a text, if nothing but ignored things stands before it. -/
theorem skip (h : Spans ts s []) : Spans ts (skip s) [] := by
  cases ts with
  | nil =>
    rw [h.skip_eq_of_nil]
    exact .nil []
  | cons t ts => exact h.skip_of_cons

/-- What a layout does not reach can be cut off, if it does not begin with the end of a line. -/
theorem exists_front (h : Spans ts s rest) (hrest : ∀ c ∈ rest.head?, isSeparator c = false) :
    ∃ front, s = front ++ rest ∧ Spans ts front [] := by
  induction h with
  | nil => exact ⟨[], rfl, .nil []⟩
  | @ignored ts s s' rest hignored _ ih =>
    obtain ⟨front, rfl, hfront⟩ := ih hrest
    cases hignored with
    | @separator c hc => exact ⟨c :: front, rfl, .ignored (.separator hc front) hfront⟩
    | @comment body _ hbody hends =>
      refine ⟨'#' :: (body ++ front), by simp, .ignored (.comment hbody ?_) hfront⟩
      -- The end of the line does not lie in the rest, so it is the end of the front.
      cases front with
      | nil =>
        rw [List.nil_append] at hends
        cases hends with
        | ended => exact .ended
        | lineFeed => exact absurd (hrest _ rfl) (by decide)
        | carriageReturn => exact absurd (hrest _ rfl) (by decide)
      | cons c front =>
        cases front with
        | nil =>
          cases hends with
          | lineFeed => exact .lineFeed []
          | carriageReturn => exact absurd (hrest _ rfl) (by decide)
        | cons d front =>
          cases hends with
          | lineFeed => exact .lineFeed _
          | carriageReturn => exact .carriageReturn _
  | @token c t ts s rest hc hapart _ ih =>
    obtain ⟨front, rfl, hfront⟩ := ih hrest
    refine ⟨c :: t ++ front, by simp, .token hc ?_ hfront⟩
    cases front with
    | nil => exact fun _ _ _ hd => by cases hd
    | cons => exact hapart

end Spans

end GraphQuery.Lexeme
