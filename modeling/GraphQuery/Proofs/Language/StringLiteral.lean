import GraphQuery.Proofs.Language.Spelling
import Mathlib.Data.Nat.Digits.Defs

/-!
# String literals

A string literal stands between double quotes, and each of its characters can be written in several
ways: as it is, by a backslash and a letter, or by a backslash, the letter `u` and four hexadecimal
digits. Which digits there are, and what number four of them denote, is said here without the
reader: the digits are listed in order, and the number is their value in base sixteen.

The reader takes every such literal for the text that was written, up to the quote that closes it.
It takes nothing else: after a quote all other texts are refused, and without a quote it declines.

## Main definitions

* `Lexeme.IsHexDigit`: the hexadecimal digits and their values.
* `Lexeme.CharWritten`: the ways to write one character inside a literal.
* `Lexeme.LiteralOf`: a text begins with a literal, and more follows.

## Main results

* `Lexeme.hexDigit?_eq_some_iff`, `Lexeme.hexValue?_eq_some_iff`: what the reader of digits finds.
* `Lexeme.spells_iff_charsWritten`: the inside of a literal is written one character at a time.
* `Lexeme.string_reads_literals`: the reader takes exactly the literals.
-/

namespace GraphQuery.Lexeme

open Reader

/-! ### Hexadecimal digits -/

/-- The hexadecimal digits in the order of their values, with small letters. -/
def smallHexDigits : List Char :=
  ['0', '1', '2', '3', '4', '5', '6', '7', '8', '9', 'a', 'b', 'c', 'd', 'e', 'f']

/-- The hexadecimal digits in the order of their values, with capital letters. -/
def capitalHexDigits : List Char :=
  ['0', '1', '2', '3', '4', '5', '6', '7', '8', '9', 'A', 'B', 'C', 'D', 'E', 'F']

/-- The character is the hexadecimal digit of a value, in either case. -/
def IsHexDigit (c : Char) (n : Nat) : Prop :=
  smallHexDigits[n]? = some c ∨ capitalHexDigits[n]? = some c

instance (c : Char) (n : Nat) : Decidable (IsHexDigit c n) := instDecidableOr

theorem hexDigit?_lt {c : Char} {n : Nat} (h : Text.hexDigit? c = some n) : c.toNat < 128 := by
  unfold Text.hexDigit? at h
  have hle {d : Char} (hd : d.toNat < 128) (hc : c ≤ d) : c.toNat < 128 :=
    Nat.lt_of_le_of_lt hc hd
  split_ifs at h with hdecimal hsmall hcapital
  · exact hle (by decide) (of_decide_eq_true ((Bool.and_eq_true _ _).mp hdecimal).2)
  · exact hle (by decide) hsmall.2
  · exact hle (by decide) hcapital.2

/-- The reader of digits finds the place of a digit in one of the two lists. -/
theorem hexDigit?_eq_some_iff {c : Char} {n : Nat} :
    Text.hexDigit? c = some n ↔ IsHexDigit c n := by
  constructor
  · intro h
    -- All digits are among the first 128 characters, which are tried one by one.
    have hall : ((List.range 128).all fun k =>
        (Text.hexDigit? (Char.ofNat k)).all fun n => IsHexDigit (Char.ofNat k) n) = true := by
      decide
    have hc := List.all_eq_true.1 hall c.toNat (List.mem_range.2 (hexDigit?_lt h))
    rw [Char.ofNat_toNat, h] at hc
    exact of_decide_eq_true hc
  · intro h
    have hlt : n < 16 := by
      rcases h with h | h
      · exact (List.getElem?_eq_some_iff.1 h).1
      · exact (List.getElem?_eq_some_iff.1 h).1
    have hsmall : ∀ k < 16, smallHexDigits[k]?.bind Text.hexDigit? = some k := by decide
    have hcapital : ∀ k < 16, capitalHexDigits[k]?.bind Text.hexDigit? = some k := by decide
    rcases h with h | h
    · simpa [h] using hsmall n hlt
    · simpa [h] using hcapital n hlt

theorem ofDigits_reverse_four (x y z w : Nat) :
    Nat.ofDigits 16 [x, y, z, w].reverse = ((x * 16 + y) * 16 + z) * 16 + w := by
  simp only [List.reverse_cons, List.reverse_nil, List.nil_append, List.cons_append,
    Nat.ofDigits_cons, Nat.ofDigits_nil]
  omega

/-- Four digits denote their value in base sixteen, the last digit first. -/
theorem hexValue?_eq_some_iff {a b c d : Char} {n : Nat} :
    Text.hexValue? a b c d = some n ↔
      ∃ values, List.Forall₂ IsHexDigit [a, b, c, d] values ∧
        n = Nat.ofDigits 16 values.reverse := by
  simp only [Text.hexValue?, Option.bind_eq_bind, Option.bind_eq_some_iff, hexDigit?_eq_some_iff,
    Option.pure_def, Option.some.injEq]
  constructor
  · rintro ⟨x, hx, y, hy, z, hz, w, hw, rfl⟩
    exact ⟨[x, y, z, w], .cons hx (.cons hy (.cons hz (.cons hw .nil))),
      (ofDigits_reverse_four x y z w).symm⟩
  · rintro ⟨_, _ | ⟨hx, _ | ⟨hy, _ | ⟨hz, _ | ⟨hw, _ | _⟩⟩⟩⟩, rfl⟩
    exact ⟨_, hx, _, hy, _, hz, _, hw, (ofDigits_reverse_four ..).symm⟩

/-! ### Characters of a literal -/

theorem toNat_ofNat_of_isValidChar {n : Nat} (h : n.isValidChar) : (Char.ofNat n).toNat = n := by
  rw [Char.ofNat, dif_pos h]
  rfl

/-- The ways to write a character inside a literal. A code point that is written names a character,
so it is no surrogate. -/
inductive CharWritten : Char → List Char → Prop
  | raw {c : Char} (hc : c ∉ ['"', '\\', '\n', '\r']) : CharWritten c [c]
  | short {letter c : Char} (hc : (letter, c) ∈ shortEscapes) : CharWritten c ['\\', letter]
  | code {ch a b c d : Char} {values : List Nat}
    (hdigits : List.Forall₂ IsHexDigit [a, b, c, d] values)
    (hcode : ch.toNat = Nat.ofDigits 16 values.reverse) :
    CharWritten ch ['\\', 'u', a, b, c, d]

/-- A text begins with a literal of `x`, and `rest` stands behind it. -/
def LiteralOf (x : String) (rest s : List Char) : Prop :=
  ∃ parts, List.Forall₂ CharWritten x.toList parts ∧ s = '"' :: (parts.flatten ++ '"' :: rest)

theorem CharWritten.spells {c : Char} {part text written : List Char} (hc : CharWritten c part)
    (h : Spells text written) : Spells (c :: text) (part ++ written) := by
  cases hc with
  | raw hc => exact .plain hc h
  | short hc => exact .short hc h
  | @code _ _ _ _ _ values hdigits hcode =>
    have hvalue := hexValue?_eq_some_iff.2 ⟨values, hdigits, rfl⟩
    have hchar : Char.ofNat (Nat.ofDigits 16 values.reverse) = c := by
      rw [← hcode, Char.ofNat_toNat]
    rw [← hchar]
    exact .code hvalue (hcode ▸ c.valid) h

/-- The inside of a literal is written one character at a time. -/
theorem spells_iff_charsWritten {text written : List Char} :
    Spells text written ↔
      ∃ parts, List.Forall₂ CharWritten text parts ∧ written = parts.flatten := by
  constructor
  · intro h
    induction h with
    | nil => exact ⟨[], .nil, rfl⟩
    | @plain c _ _ hc _ ih =>
      obtain ⟨parts, hparts, rfl⟩ := ih
      exact ⟨[c] :: parts, .cons (.raw hc) hparts, rfl⟩
    | @short letter _ _ _ hc _ ih =>
      obtain ⟨parts, hparts, rfl⟩ := ih
      exact ⟨['\\', letter] :: parts, .cons (.short hc) hparts, rfl⟩
    | @code a b c d n _ _ hn hvalid _ ih =>
      obtain ⟨parts, hparts, rfl⟩ := ih
      obtain ⟨values, hdigits, rfl⟩ := hexValue?_eq_some_iff.1 hn
      have hcode := CharWritten.code hdigits (toNat_ofNat_of_isValidChar hvalid)
      exact ⟨['\\', 'u', a, b, c, d] :: parts, .cons hcode hparts, rfl⟩
  · rintro ⟨parts, hparts, rfl⟩
    induction hparts with
    | nil => exact .nil
    | cons hc _ ih => exact hc.spells ih

/-! ### Literals -/

theorem string_eq_done_iff_literalOf {x : String} {rest s : List Char} :
    string s = .done x rest ↔ LiteralOf x rest s := by
  rw [string_eq_done_iff]
  constructor
  · rintro ⟨written, hwritten, rfl⟩
    obtain ⟨parts, hparts, rfl⟩ := spells_iff_charsWritten.1 hwritten
    exact ⟨parts, hparts, rfl⟩
  · rintro ⟨parts, hparts, rfl⟩
    exact ⟨_, spells_iff_charsWritten.2 ⟨parts, hparts, rfl⟩, rfl⟩

/-- Without a quote in front the reader declines. -/
theorem string_of_head?_ne {s : List Char} (h : s.head? ≠ some '"') :
    ∃ trail, string s = .declined trail := by
  cases s with
  | nil => exact ⟨_, rfl⟩
  | cons c body =>
    have hc : (c == '"') = false := by simpa using h
    simp [string, hc]

/-- Behind a quote the reader never declines. -/
theorem string_of_head?_eq {s : List Char} (h : s.head? = some '"') :
    (∃ x rest, string s = .done x rest) ∨ ∃ trail, string s = .refused trail := by
  obtain ⟨body, rfl⟩ := List.head?_eq_some_iff.1 h
  cases hbody : stringBody body with
  | closed text rest => exact .inl ⟨String.ofList text, rest, by simp [string, hbody]⟩
  | _ => exact .inr (by simp [string, hbody])

/-- The reader takes exactly the literals: it gives the text that is written and what follows, for
each way of writing the characters. All other texts behind a quote are refused, and where no quote
stands the reader declines. -/
theorem string_reads_literals (s : List Char) :
    (∀ x rest, string s = .done x rest ↔ LiteralOf x rest s) ∧
      ((∃ trail, string s = .refused trail) ↔
        s.head? = some '"' ∧ ¬ ∃ x rest, LiteralOf x rest s) ∧
      ((∃ trail, string s = .declined trail) ↔ s.head? ≠ some '"') := by
  have hdone (x : String) (rest : List Char) : string s = .done x rest ↔ LiteralOf x rest s :=
    string_eq_done_iff_literalOf
  refine ⟨hdone, ?_, ?_⟩
  · simp only [← hdone]
    constructor
    · rintro ⟨trail, htrail⟩
      rw [htrail]
      refine ⟨?_, by simp⟩
      by_contra hhead
      obtain ⟨other, hother⟩ := string_of_head?_ne hhead
      rw [htrail] at hother
      cases hother
    · rintro ⟨hhead, hnone⟩
      exact (string_of_head?_eq hhead).resolve_left hnone
  · constructor
    · rintro ⟨trail, htrail⟩ hhead
      rcases string_of_head?_eq hhead with ⟨x, rest, hread⟩ | ⟨other, hother⟩
      · rw [htrail] at hread
        cases hread
      · rw [htrail] at hother
        cases hother
    · exact string_of_head?_ne

/-- Small and capital digits, a short escape, and a character that stands for itself. -/
example : string ['"', '\\', 'u', '0', '0', 'e', 'A', 'é', '\\', '/', '"', '"', ')'] =
    .done "êé/" ['"', ')'] := by
  rfl

end GraphQuery.Lexeme
