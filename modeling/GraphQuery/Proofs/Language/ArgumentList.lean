import GraphQuery.Proofs.Language.Names
import GraphQuery.Proofs.Language.Recursion

/-!
# Argument lists in front of any text

A query is a text of tokens from its beginning to its end. An argument list is only a part of such a
text, and its closing parenthesis says where it ends. So nothing has to be known about what follows:
the list is read from every layout of its tokens, and what is ignored behind it is skipped, even if
no token comes next.

The tokens inside of the list are different. Where a name or a number ends depends on what stands
behind it, and there the next token of the list is known.

## Main definitions

* `Reader.Takes`: a reader reads some tokens in front of others, wherever they are laid out.
* `Argument.Spelled`: an argument with a value of one token.

## Main results

* `Reader.Takes.many`: repetition up to punctuation.
* `Argument.listReader_of_spans`: argument lists in front of any text.
* `Argument.isName_of_listReader`: every argument that is read has a name.
-/

namespace GraphQuery

open Reader Lexeme

variable {α : Type} {s rest : List Char} {t : Token} {ts us : List Token}

/-! ### Layouts -/

namespace Lexeme

theorem Numeral.Spelled.beginsToken {n : Numeral} (h : n.Spelled t) : BeginsToken t := by
  obtain ⟨c, t', hchars, hc⟩ := h.exists_cons
  exact ⟨c, t', hchars, Value.beginsToken_of_isNumeral hc⟩

namespace Spans

/-- In front of a token stands no point, which neither begins one nor is ignored. -/
theorem head?_ne_point (h : Spans (t :: ts) s rest) : s.head? ≠ some '.' := by
  intro hhead
  obtain ⟨s', rfl⟩ := List.head?_eq_some_iff.1 hhead
  have hself : Lexeme.skip ('.' :: s') = '.' :: s' := by
    rw [Lexeme.skip, if_neg (by decide), if_neg (by simp)]
  obtain ⟨c, t', s'', -, hc, hskip, -⟩ := h.exists_of_cons
  rw [hself] at hskip
  cases hskip
  exact absurd hc (by decide)

end Spans

/-- Punctuation at the end is read, and what is ignored behind it is skipped. -/
theorem symbol_of_spans_singleton {c : Char} (h : Spans [[c]] s rest) :
    symbol c s = .done c (skip rest) := by
  obtain ⟨_, _, s', htoken, -, hskip, -, hs'⟩ := h.exists_of_cons
  cases htoken
  exact token_eq_done_iff.2 ⟨s', char_eq_done_iff.2 ⟨rfl, hskip⟩, hs'.skip_eq_of_nil.symm⟩

end Lexeme

/-! ### Readers of tokens -/

namespace Reader

variable {p : Reader α} {a : α}

/-- Wherever the tokens are laid out in front of further ones, the reader reads them and stops at
those. -/
def Takes (p : Reader α) (a : α) (ts : List Token) : Prop :=
  ∀ us s rest, us ≠ [] → Spans (ts ++ us) s rest →
    ∃ s', p s = .done a s' ∧ Spans us s' rest ∧ s'.length < s.length

/-- A single token, read by a reader that knows where it ends. -/
theorem takes_token
    (h : ∀ s', skip (t ++ s') = t ++ s' → Apart t s' → s'.head? ≠ some '.' →
      p (t ++ s') = .done a s') :
    (token p).Takes a [t] := by
  intro us s rest hne hspans
  obtain ⟨u, us, rfl⟩ := List.exists_cons_of_ne_nil hne
  obtain ⟨c, t', s', rfl, hc, hskip, hapart, hs'⟩ := hspans.exists_of_cons
  -- A number would go on with a point, but the next token does not begin with one.
  have hdone : p (skip s) = .done a s' := by
    rw [hskip]
    exact h s' (skip_of_beginsToken hc _) hapart hs'.head?_ne_point
  refine ⟨skip s', token_eq_done_iff.2 ⟨s', hdone, rfl⟩, hs'.skip_of_cons, ?_⟩
  have hle := length_skip_le s
  have hle' := length_skip_le s'
  rw [hskip] at hle
  simp only [List.cons_append, List.length_cons, List.length_append] at hle
  omega

theorem takes_symbol (c : Char) : (symbol c).Takes c [[c]] :=
  takes_token fun _ _ _ _ => char_eq_done_iff.2 ⟨rfl, rfl⟩

theorem takes_name {x : String} (hx : IsName x) : (token name).Takes x [x.toList] := by
  refine takes_token fun s' _ hapart _ => name_eq_done_iff.2 ⟨hx, rfl, ?_⟩
  obtain ⟨c, hlast, hc⟩ := hx.getLast?
  exact hapart.head? hlast hc

theorem takes_value {constant : Bool} {v : Value} (h : v.Spelled constant t) :
    (token (Value.reader constant)).Takes v [t] := by
  refine takes_token fun s' hskip hapart hpoint => ?_
  rw [Value.reader_eq, hskip]
  exact Value.dispatch_of_spelled _ h hapart hpoint

/-- Repetition reads a row of things up to punctuation that is declined. -/
theorem Takes.many {G : α → List Token → Prop} {closing : Char} {as : List α}
    (h : ∀ a ts, G a ts → p.Takes a ts)
    (hstop : ∀ s us, Spans ([closing] :: us) s rest → Declines p s) (hrow : Row G as ts)
    (hspans : Spans (ts ++ [closing] :: us) s rest) :
    ∃ s', many p s = .done as s' ∧ Spans ([closing] :: us) s' rest := by
  -- Behind each thing in the row there is at least the punctuation, so its last token ends there.
  induction hrow generalizing s with
  | nil =>
    obtain ⟨trail, htrail⟩ := hstop s us hspans
    refine ⟨s, ?_, hspans⟩
    rw [many_eq, manyStep, htrail]
  | @cons a as ts ts' ha hrow ih =>
    rw [List.append_assoc] at hspans
    obtain ⟨middle, hdone, hmiddle, hlength⟩ := h a ts ha _ s rest (by simp) hspans
    obtain ⟨s', hmany, hs'⟩ := ih hmiddle
    refine ⟨s', ?_, hs'⟩
    rw [many_eq, manyStep, hdone]
    simp only [if_pos hlength]
    exact bind_eq_done_iff.2 ⟨as, s', hmany, pure_eq_done_iff.2 ⟨rfl, rfl⟩⟩

end Reader

/-! ### Arguments -/

namespace Argument

/-- An argument with a value of one token. -/
inductive Spelled (constant : Bool) : Argument → List Token → Prop
  | intro {x : String} {v : Value} {t : Token} (hx : IsName x) (hv : v.Spelled constant t) :
    Spelled constant ⟨x, v⟩ [x.toList, [':'], t]

variable {constant : Bool} {a : Argument} {as : List Argument}

theorem Spelled.takes (h : a.Spelled constant ts) : (reader constant).Takes a ts := by
  intro us s rest hne hspans
  obtain @⟨x, v, t, hx, hv⟩ := h
  obtain ⟨s₁, hname, hspans₁, hlength₁⟩ := takes_name hx _ s rest (by simp) hspans
  obtain ⟨s₂, hcolon, hspans₂, hlength₂⟩ := takes_symbol ':' _ s₁ rest (by simp) hspans₁
  obtain ⟨s₃, hvalue, hspans₃, hlength₃⟩ := takes_value hv us s₂ rest hne hspans₂
  refine ⟨s₃, ?_, hspans₃, by omega⟩
  simp only [reader, bind_eq_done_iff, pure_eq_done_iff, expecting_eq_done_iff, commit_eq_done_iff]
  exact ⟨x, s₁, hname, _, s₂, hcolon, v, s₃, hvalue, rfl, rfl⟩

theorem declines_reader_of_spans (h : Spans ([')'] :: us) s rest) :
    Declines (reader constant) s := by
  obtain ⟨_, _, s', htoken, -, hskip, -⟩ := h.exists_of_cons
  cases htoken
  have hname : Declines Lexeme.name (skip s) := by
    rw [hskip]
    refine declines_name ?_
    rintro _ ⟨⟩
    decide
  exact Declines.bind (declines_bind_of_done rfl (hname.bind _)) _

/-- A list of arguments is read from every layout of its tokens, whatever follows. -/
theorem listReader_of_spans (h : Grouped '(' ')' (Spelled constant) as ts)
    (hspans : Spans ts s rest) : listReader constant s = .done as (skip rest) := by
  obtain ⟨hrow⟩ := h
  obtain ⟨s₁, hopen, hspans₁, -⟩ := takes_symbol '(' _ s rest (by simp) hspans
  obtain ⟨s₂, hmany, hspans₂⟩ :=
    Takes.many (fun _ _ ha => ha.takes) (fun _ _ => declines_reader_of_spans) hrow hspans₁
  have hclose := symbol_of_spans_singleton hspans₂
  simp only [listReader, bind_eq_done_iff, pure_eq_done_iff, expecting_eq_done_iff,
    commit_eq_done_iff]
  exact ⟨_, s₁, hopen, _, s₂, many1_of_many hmany, _, _, hclose, rfl, rfl⟩

/-- Every argument that is read from a list has a name. -/
theorem isName_of_listReader (h : listReader constant s = .done as rest) (ha : a ∈ as) :
    IsName a.name := by
  obtain ⟨ts, hgrouped, -⟩ := reads_listReader constant s as rest h
  obtain ⟨us, hwritten⟩ := hgrouped.exists_of_mem ha
  cases hwritten with
  | intro hx => exact hx

end Argument

end GraphQuery
