import GraphQuery.Proofs.Language.Plain
import GraphQuery.Proofs.Reader.Outcome

/-!
# How lexemes are spelled

Names, numerals and strings as sequences of characters. A name has one spelling. A numeral records
its digits, but not how its exponent is marked, and a character of a string can be spelled as itself
or by an escape.

A reader takes the longest spelling. What follows it is therefore part of each statement.

## Main definitions

* `Lexeme.IsName`: the names.
* `Lexeme.Numeral.Spelled`: the spellings of a numeral.
* `Lexeme.Spells`: the spellings of the inside of a string.

## Main results

* `Lexeme.name_eq_done_iff`, `Lexeme.string_eq_done_iff`: names and strings are read exactly from
  their spellings.
* `Lexeme.exists_spelled_of_numeral`, `Lexeme.numeral_append`: so are numerals that nothing runs on
  from.
-/

namespace GraphQuery.Lexeme

open Reader

variable {s rest : List Char}

/-! ### Names -/

/-- A letter or an underscore, and then letters, digits and underscores. -/
def IsName (x : String) : Prop :=
  ∃ c cs, x.toList = c :: cs ∧ isNameStart c = true ∧ ∀ d ∈ cs, isNameChar d = true

theorem isName_of_toList {x : String} {c : Char} {cs : List Char} (hx : x.toList = c :: cs)
    (hc : isNameStart c = true) (hcs : cs.all isNameChar = true) : IsName x :=
  ⟨c, cs, hx, hc, List.all_eq_true.1 hcs⟩

theorem IsName.isPlain {x : String} (h : IsName x) : IsPlain x := by
  obtain ⟨c, cs, hx, hc, hcs⟩ := h
  rw [IsPlain, hx]
  exact List.forall_mem_cons.2 ⟨isNameChar_of_isNameStart hc, hcs⟩

theorem IsName.getLast? {x : String} (h : IsName x) :
    ∃ c, x.toList.getLast? = some c ∧ isNameChar c = true := by
  obtain ⟨c, cs, hx, -, -⟩ := id h
  have hne : x.toList ≠ [] := by
    rw [hx]
    exact List.cons_ne_nil c cs
  exact ⟨_, List.getLast?_eq_some_getLast hne, h.isPlain _ (List.getLast_mem hne)⟩

/-- A name is read up to the last character that can belong to it. -/
theorem name_eq_done_iff {x : String} :
    name s = .done x rest ↔
      IsName x ∧ s = x.toList ++ rest ∧ ∀ c ∈ rest.head?, isNameChar c = false := by
  simp only [name, bind_eq_done_iff, pure_eq_done_iff, takeWhile1_eq_done_iff]
  constructor
  · rintro ⟨first, middle, ⟨hne, hfirst, rfl, -⟩, others, _, hothers, rfl, rfl⟩
    cases hothers
    obtain ⟨c, cs, rfl⟩ := List.exists_cons_of_ne_nil hne
    obtain ⟨hc, hcs⟩ := List.forall_mem_cons.1 hfirst
    refine ⟨⟨c, cs ++ middle.takeWhile isNameChar, by simp, hc, ?_⟩, ?_,
      head?_dropWhile_eq_false isNameChar middle⟩
    · intro d hd
      rcases List.mem_append.1 hd with hd | hd
      · exact isNameChar_of_isNameStart (hcs d hd)
      · exact List.all_eq_true.1 List.all_takeWhile d hd
    · simp [List.takeWhile_append_dropWhile]
  · rintro ⟨⟨c, cs, hx, hc, hcs⟩, rfl, hrest⟩
    -- The name is read in two parts: up to its first digit, and from there on.
    have hothers : ∀ d ∈ x.toList.dropWhile isNameStart, isNameChar d = true := by
      intro d hd
      have hmem := (List.dropWhile_sublist isNameStart).subset hd
      rw [hx] at hmem
      rcases List.mem_cons.1 hmem with rfl | hmem
      · exact isNameChar_of_isNameStart hc
      · exact hcs d hmem
    have hstop : ∀ d ∈ (x.toList.dropWhile isNameStart ++ rest).head?, isNameStart d = false := by
      cases hdrop : x.toList.dropWhile isNameStart with
      | nil =>
        intro d hd
        have hd := hrest d hd
        rw [Bool.eq_false_iff] at hd ⊢
        exact fun hstart => hd (isNameChar_of_isNameStart hstart)
      | cons d ds =>
        rintro _ ⟨⟩
        refine head?_dropWhile_eq_false isNameStart x.toList d ?_
        rw [hdrop]
        rfl
    obtain ⟨htake, hdrop⟩ := takeWhile_append_eq hothers hrest
    refine ⟨x.toList.takeWhile isNameStart, x.toList.dropWhile isNameStart ++ rest,
      ⟨?_, ?_, ?_, hstop⟩, _, _, rfl, ?_, hdrop⟩
    · rw [hx, List.takeWhile_cons_of_pos hc]
      exact List.cons_ne_nil _ _
    · exact fun d hd => List.all_eq_true.1 List.all_takeWhile d hd
    · rw [← List.append_assoc, List.takeWhile_append_dropWhile]
    · rw [htake, List.takeWhile_append_dropWhile, String.ofList_toList]

theorem declines_name (h : ∀ c ∈ s.head?, isNameStart c = false) : Declines name s :=
  (declines_takeWhile1_iff.2 h).bind _

/-! ### Numerals -/

/-- One or more digits. -/
def IsDigits (ds : List Char) : Prop := ds ≠ [] ∧ ∀ d ∈ ds, d.isDigit = true

theorem isDigits_of_all {ds : List Char} (hne : ds ≠ []) (hds : ds.all Char.isDigit = true) :
    IsDigits ds :=
  ⟨hne, List.all_eq_true.1 hds⟩

/-- The spelling of a fraction: a point and digits. -/
inductive FractionSpelled : Option (List Char) → List Char → Prop
  | absent : FractionSpelled none []
  | present {ds : List Char} (hds : IsDigits ds) : FractionSpelled (some ds) ('.' :: ds)

/-- The spelling of a sign in an exponent. -/
inductive SignSpelled : Bool → List Char → Prop
  | absent : SignSpelled false []
  | plus : SignSpelled false ['+']
  | minus : SignSpelled true ['-']

/-- The spelling of an exponent: a mark, a sign or none, and digits. -/
inductive ExponentSpelled : Option (Bool × List Char) → List Char → Prop
  | absent : ExponentSpelled none []
  | present {mark : Char} {sign ds : List Char} {negative : Bool} (hmark : mark ∈ ['e', 'E'])
    (hsign : SignSpelled negative sign) (hds : IsDigits ds) :
    ExponentSpelled (some (negative, ds)) (mark :: (sign ++ ds))

/-- The spelling of a numeral: a minus sign or none, digits, a fraction and an exponent. -/
inductive Numeral.Spelled (n : Numeral) : List Char → Prop
  | intro {fraction exponent : List Char} (hwhole : IsDigits n.whole)
    (hfraction : FractionSpelled n.fraction fraction)
    (hexponent : ExponentSpelled n.exponent exponent) :
    n.Spelled ((if n.negative then ['-'] else []) ++ n.whole ++ fraction ++ exponent)

theorem digits_eq_done_iff {ds : List Char} :
    digits s = .done ds rest ↔
      IsDigits ds ∧ s = ds ++ rest ∧ ∀ c ∈ rest.head?, c.isDigit = false := by
  rw [digits, takeWhile1_eq_done_iff, IsDigits, and_assoc]

theorem fractionPart_eq_done_iff {ds : List Char} :
    fractionPart s = .done ds rest ↔
      IsDigits ds ∧ s = '.' :: (ds ++ rest) ∧ ∀ c ∈ rest.head?, c.isDigit = false := by
  simp only [fractionPart, bind_eq_done_iff, char_eq_done_iff, digits_eq_done_iff]
  constructor
  · rintro ⟨_, _, ⟨rfl, rfl⟩, hds, rfl, hrest⟩
    exact ⟨hds, rfl, hrest⟩
  · rintro ⟨hds, rfl, hrest⟩
    exact ⟨'.', ds ++ rest, ⟨rfl, rfl⟩, hds, rfl, hrest⟩

theorem isDigit_eq_false {c : Char} (h : isNameChar c = false) : c.isDigit = false := by
  rw [isNameChar, Char.isAlphanum, Bool.or_eq_false_iff, Bool.or_eq_false_iff] at h
  exact h.1.2

theorem isDigit_of_isNameStart {c : Char} (h : isNameStart c = true) : c.isDigit = false := by
  rw [isNameStart, Bool.or_eq_true, beq_iff_eq] at h
  rcases h with halpha | rfl
  · -- Both kinds of letters come after the digits.
    have hlarge : '9'.val < c.val := by
      rcases (Bool.or_eq_true _ _).mp halpha with hupper | hlower
      · exact UInt32.lt_of_lt_of_le (by decide) (of_decide_eq_true hupper).1
      · have hge := of_decide_eq_true ((Bool.and_eq_true _ _).mp hlower).1
        exact UInt32.lt_of_lt_of_le (by decide) hge
    simp only [Char.isDigit, Bool.and_eq_false_iff, decide_eq_false_iff_not, UInt32.not_le]
    exact .inr hlarge
  · decide

/-- Digits begin with a digit. -/
theorem IsDigits.head? {ds : List Char} (h : IsDigits ds) (rest : List Char) :
    ∀ c ∈ (ds ++ rest).head?, c.isDigit = true := by
  obtain ⟨d, ds, rfl⟩ := List.exists_cons_of_ne_nil h.1
  rintro _ ⟨⟩
  exact h.2 d List.mem_cons_self

theorem IsDigits.getLast? {ds : List Char} (h : IsDigits ds) (front : List Char) :
    ∃ c, (front ++ ds).getLast? = some c ∧ isNameChar c = true := by
  refine ⟨ds.getLast h.1, ?_, ?_⟩
  · rw [List.getLast?_append, List.getLast?_eq_some_getLast h.1, Option.some_or]
  · simp [isNameChar, Char.isAlphanum, h.2 _ (List.getLast_mem h.1)]

/-- A numeral begins with a minus sign or a digit. -/
theorem Numeral.Spelled.exists_cons {n : Numeral} {t : List Char} (h : n.Spelled t) :
    ∃ c t', t = c :: t' ∧ (c == '-' || c.isDigit) = true := by
  obtain @⟨fraction, exponent, ⟨hne, hdigits⟩, -, -⟩ := h
  obtain ⟨d, ds, hwhole⟩ := List.exists_cons_of_ne_nil hne
  rw [hwhole]
  cases n.negative with
  | true => exact ⟨'-', _, rfl, rfl⟩
  | false =>
    refine ⟨d, _, rfl, ?_⟩
    rw [hdigits d (by rw [hwhole]; exact List.mem_cons_self), Bool.or_true]

/-- A numeral ends with a digit. -/
theorem Numeral.Spelled.getLast? {n : Numeral} {t : List Char} (h : n.Spelled t) :
    ∃ c, t.getLast? = some c ∧ isNameChar c = true := by
  obtain ⟨negative, whole, fraction?, exponent?⟩ := n
  obtain @⟨fraction, exponent, hwhole, hfraction, hexponent⟩ := h
  cases hexponent with
  | @present mark sign ds _ _ _ hds =>
    have hlast := hds.getLast?
      ((if negative then ['-'] else []) ++ whole ++ fraction ++ mark :: sign)
    simpa using hlast
  | absent =>
    rw [List.append_nil]
    cases hfraction with
    | @present ds hds =>
      have hlast := hds.getLast? ((if negative then ['-'] else []) ++ whole ++ ['.'])
      simpa using hlast
    | absent =>
      rw [List.append_nil]
      exact hwhole.getLast? _

section Parts

variable {f : Option (List Char)} {e : Option (Bool × List Char)} {t u : List Char}

theorem eq_of_optional_minus {minus : Option Char} (h : optional (char '-') s = .done minus rest) :
    s = (if minus.isSome then ['-'] else []) ++ rest := by
  rcases optional_eq_done_iff.1 h with ⟨_, rfl, hchar⟩ | ⟨rfl, rfl, -⟩
  · exact (char_eq_done_iff.1 hchar).2
  · rfl

theorem exists_spelled_of_fraction (h : optional fractionPart s = .done f rest) :
    ∃ t, FractionSpelled f t ∧ s = t ++ rest := by
  rcases optional_eq_done_iff.1 h with ⟨ds, rfl, hpart⟩ | ⟨rfl, rfl, -⟩
  · obtain ⟨hds, heq, -⟩ := fractionPart_eq_done_iff.1 hpart
    exact ⟨_, .present hds, heq⟩
  · exact ⟨[], .absent, rfl⟩

theorem exists_spelled_of_exponent (h : optional exponentPart s = .done e rest) :
    ∃ t, ExponentSpelled e t ∧ s = t ++ rest := by
  rcases optional_eq_done_iff.1 h with ⟨_, rfl, hpart⟩ | ⟨rfl, rfl, -⟩
  · simp only [exponentPart, bind_eq_done_iff, satisfy_eq_done_iff, pure_eq_done_iff,
      digits_eq_done_iff] at hpart
    obtain ⟨mark, middle, ⟨rfl, hmark⟩, sign?, _, hoptional, ds, _, ⟨hds, rfl, -⟩, rfl, rfl⟩ :=
      hpart
    have hmark : mark ∈ ['e', 'E'] := by simpa using hmark
    rcases optional_eq_done_iff.1 hoptional with ⟨sign, rfl, hchar⟩ | ⟨rfl, rfl, -⟩
    · obtain ⟨rfl, htest⟩ := satisfy_eq_done_iff.1 hchar
      have hsign : SignSpelled (some sign == some '-') [sign] := by
        rw [Bool.or_eq_true, beq_iff_eq, beq_iff_eq] at htest
        rcases htest with rfl | rfl
        · exact .plus
        · exact .minus
      exact ⟨_, .present hmark hsign hds, by simp⟩
    · exact ⟨_, .present hmark .absent hds, by simp⟩
  · exact ⟨[], .absent, rfl⟩

theorem optional_minus_append {negative : Bool} {ds : List Char} (hds : IsDigits ds) :
    optional (char '-') ((if negative then ['-'] else []) ++ (ds ++ rest)) =
      .done (if negative then some '-' else none) (ds ++ rest) := by
  cases negative with
  | true => exact optional_eq_done_iff.2 (.inl ⟨'-', rfl, char_eq_done_iff.2 ⟨rfl, rfl⟩⟩)
  | false =>
    refine optional_eq_done_iff.2 (.inr ⟨rfl, rfl, declines_char_iff.2 fun hminus => ?_⟩)
    exact absurd (hds.head? rest '-' hminus) (by decide)

theorem optional_fraction_append (h : FractionSpelled f t)
    (hrest : ∀ c ∈ rest.head?, c.isDigit = false ∧ c ≠ '.') :
    optional fractionPart (t ++ rest) = .done f rest := by
  cases h with
  | absent =>
    refine optional_eq_done_iff.2 (.inr ⟨rfl, rfl, (declines_char_iff.2 ?_).bind _⟩)
    exact fun hpoint => (hrest '.' hpoint).2 rfl
  | @present ds hds =>
    refine optional_eq_done_iff.2 (.inl ⟨ds, rfl, fractionPart_eq_done_iff.2 ⟨hds, rfl, ?_⟩⟩)
    exact fun c hc => (hrest c hc).1

theorem optional_sign_append {negative : Bool} {sign ds : List Char}
    (h : SignSpelled negative sign) (hds : IsDigits ds) :
    ∃ sign?, optional (satisfy fun c => c == '+' || c == '-') (sign ++ (ds ++ rest)) =
      .done sign? (ds ++ rest) ∧ (sign? == some '-') = negative := by
  cases h with
  | absent =>
    refine ⟨none, optional_eq_done_iff.2 (.inr ⟨rfl, rfl, declines_satisfy_iff.2 ?_⟩), rfl⟩
    intro c hc
    have hdigit := hds.head? rest c hc
    rw [Bool.eq_false_iff]
    intro hsign
    rw [Bool.or_eq_true, beq_iff_eq, beq_iff_eq] at hsign
    rcases hsign with rfl | rfl <;> exact absurd hdigit (by decide)
  | plus =>
    refine ⟨some '+', optional_eq_done_iff.2 (.inl ⟨'+', rfl, ?_⟩), rfl⟩
    exact satisfy_eq_done_iff.2 ⟨rfl, by decide⟩
  | minus =>
    refine ⟨some '-', optional_eq_done_iff.2 (.inl ⟨'-', rfl, ?_⟩), rfl⟩
    exact satisfy_eq_done_iff.2 ⟨rfl, by decide⟩

theorem optional_exponent_append (h : ExponentSpelled e t)
    (hrest : ∀ c ∈ rest.head?, isNameChar c = false) :
    optional exponentPart (t ++ rest) = .done e rest := by
  cases h with
  | absent =>
    refine optional_eq_done_iff.2 (.inr ⟨rfl, rfl, (declines_satisfy_iff.2 ?_).bind _⟩)
    intro c hc
    have hname := hrest c hc
    rw [Bool.eq_false_iff]
    intro hmark
    rw [Bool.or_eq_true, beq_iff_eq, beq_iff_eq] at hmark
    rcases hmark with rfl | rfl <;> exact absurd hname (by decide)
  | @present mark sign ds negative hmark hsign hds =>
    rw [List.mem_cons, List.mem_singleton] at hmark
    have hdone := digits_eq_done_iff.2 ⟨hds, rfl, fun c hc => isDigit_eq_false (hrest c hc)⟩
    obtain ⟨sign?, hoptional, hnegative⟩ := optional_sign_append hsign hds
    refine optional_eq_done_iff.2 (.inl ⟨(negative, ds), rfl, ?_⟩)
    simp only [exponentPart, bind_eq_done_iff, pure_eq_done_iff]
    refine ⟨mark, sign ++ (ds ++ rest), satisfy_eq_done_iff.2 ⟨by simp, by simpa using hmark⟩,
      sign?, _, hoptional, ds, rest, hdone, ?_, rfl⟩
    rw [hnegative]

/-- What stands behind the digits of a fraction or of a whole number is neither a digit nor, behind
a fraction, a point. -/
theorem head?_exponent_append (h : ExponentSpelled e t)
    (hrest : ∀ c ∈ rest.head?, isNameChar c = false ∧ c ≠ '.') :
    ∀ c ∈ (t ++ rest).head?, c.isDigit = false ∧ c ≠ '.' := by
  cases h with
  | absent => exact fun c hc => ⟨isDigit_eq_false (hrest c hc).1, (hrest c hc).2⟩
  | @present mark sign ds negative hmark =>
    rintro _ ⟨⟩
    rw [List.mem_cons, List.mem_singleton] at hmark
    rcases hmark with rfl | rfl <;> decide

theorem head?_fraction_append (h : FractionSpelled f t)
    (hrest : ∀ c ∈ rest.head?, c.isDigit = false) : ∀ c ∈ (t ++ rest).head?, c.isDigit = false := by
  cases h with
  | absent => exact hrest
  | present =>
    rintro _ ⟨⟩
    decide

end Parts

/-- What is read as a numeral spells it. -/
theorem exists_spelled_of_numeral {n : Numeral} (h : numeral s = .done n rest) :
    ∃ t, n.Spelled t ∧ s = t ++ rest := by
  simp only [numeral, bind_eq_done_iff, pure_eq_done_iff, digits_eq_done_iff] at h
  obtain ⟨minus, middle, hminus, whole, middle', ⟨hwhole, rfl, -⟩, fraction, middle'', hfraction,
    exponent, _, hexponent, rfl, rfl⟩ := h
  obtain ⟨fractionText, hpoint, rfl⟩ := exists_spelled_of_fraction hfraction
  obtain ⟨exponentText, hmark, rfl⟩ := exists_spelled_of_exponent hexponent
  refine ⟨_, .intro hwhole hpoint hmark, ?_⟩
  rw [eq_of_optional_minus hminus]
  simp only [List.append_assoc]

/-- A spelling of a numeral is read, if neither a name nor a point follows. -/
theorem numeral_append {n : Numeral} {t : List Char} (h : n.Spelled t)
    (hrest : ∀ c ∈ rest.head?, isNameChar c = false ∧ c ≠ '.') :
    numeral (t ++ rest) = .done n rest := by
  obtain @⟨fraction, exponent, hwhole, hfraction, hexponent⟩ := h
  have hbehind := head?_exponent_append hexponent hrest
  have hpoint := optional_fraction_append hfraction hbehind
  have hmark := optional_exponent_append hexponent fun c hc => (hrest c hc).1
  have hdigits := digits_eq_done_iff.2
    ⟨hwhole, rfl, head?_fraction_append hfraction fun c hc => (hbehind c hc).1⟩
  simp only [numeral, bind_eq_done_iff, pure_eq_done_iff, List.append_assoc]
  refine ⟨_, _, optional_minus_append hwhole, n.whole, _, hdigits, n.fraction, _, hpoint,
    n.exponent, rest, hmark, ?_, rfl⟩
  obtain ⟨negative, whole, fraction?, exponent?⟩ := n
  cases negative <;> rfl

/-! ### Strings -/

/-- The escapes of one letter, each with its character. -/
def shortEscapes : List (Char × Char) :=
  [('"', '"'), ('\\', '\\'), ('/', '/'), ('b', '\x08'), ('f', '\x0c'), ('n', '\n'), ('r', '\r'),
    ('t', '\t')]

/-- The inside of a string is spelled: a character by itself, by an escape of one letter, or by the
four hexadecimal digits of its code point. -/
inductive Spells : List Char → List Char → Prop
  | nil : Spells [] []
  | plain {c : Char} {text written : List Char} (hc : c ∉ ['"', '\\', '\n', '\r'])
    (h : Spells text written) : Spells (c :: text) (c :: written)
  | short {letter c : Char} {text written : List Char} (hc : (letter, c) ∈ shortEscapes)
    (h : Spells text written) : Spells (c :: text) ('\\' :: letter :: written)
  | code {a b c d : Char} {n : Nat} {text written : List Char}
    (hn : Text.hexValue? a b c d = some n) (hvalid : n.isValidChar) (h : Spells text written) :
    Spells (Char.ofNat n :: text) ('\\' :: 'u' :: a :: b :: c :: d :: written)

theorem shortEscape?_eq_some_iff {letter c : Char} :
    shortEscape? letter = some c ↔ (letter, c) ∈ shortEscapes := by
  constructor
  · intro h
    unfold shortEscape? at h
    split_ifs at h
    all_goals
      cases h
      simp_all [shortEscapes]
  · intro h
    have hall : ∀ pair ∈ shortEscapes, shortEscape? pair.1 = some pair.2 := by decide
    exact hall (letter, c) h

theorem charOfCode?_eq_some_iff {n : Nat} {c : Char} :
    Text.charOfCode? n = some c ↔ n.isValidChar ∧ c = Char.ofNat n := by
  unfold Text.charOfCode?
  split_ifs with h
  · simp [h, eq_comm]
  · simp [h]

theorem push_eq_closed_iff {c : Char} {r : StringReading} {text : List Char} :
    r.push c = .closed text rest ↔ ∃ text', text = c :: text' ∧ r = .closed text' rest := by
  cases r with
  | closed text' rest' =>
    simp only [StringReading.push, StringReading.closed.injEq]
    constructor
    · rintro ⟨rfl, rfl⟩
      exact ⟨text', rfl, rfl, rfl⟩
    · rintro ⟨_, rfl, rfl, rfl⟩
      exact ⟨rfl, rfl⟩
  | _ => simp [StringReading.push]

/-- What is read as the inside of a string spells it. -/
theorem exists_spells_of_stringBody {text : List Char} (h : stringBody s = .closed text rest) :
    ∃ written, Spells text written ∧ s = written ++ '"' :: rest := by
  fun_induction stringBody s generalizing text with
  | case1 a b c d s ch hch ih =>
    obtain ⟨text, rfl, hbody⟩ := push_eq_closed_iff.1 h
    obtain ⟨written, hwritten, rfl⟩ := ih hbody
    obtain ⟨n, hn, hcode⟩ := Option.bind_eq_some_iff.1 hch
    obtain ⟨hvalid, rfl⟩ := charOfCode?_eq_some_iff.1 hcode
    exact ⟨_, .code hn hvalid hwritten, rfl⟩
  | case4 letter s _ _ ch hch ih =>
    obtain ⟨text, rfl, hbody⟩ := push_eq_closed_iff.1 h
    obtain ⟨written, hwritten, rfl⟩ := ih hbody
    exact ⟨_, .short (shortEscape?_eq_some_iff.1 hch) hwritten, rfl⟩
  | case6 c s _ _ hc =>
    cases h
    rw [beq_iff_eq] at hc
    exact ⟨[], .nil, by rw [hc, List.nil_append]⟩
  | case9 c s _ _ hquote hbackslash hline ih =>
    obtain ⟨text, rfl, hbody⟩ := push_eq_closed_iff.1 h
    obtain ⟨written, hwritten, rfl⟩ := ih hbody
    refine ⟨_, .plain ?_ hwritten, rfl⟩
    simp_all
  | _ => cases h

theorem stringBody_plain {c : Char} (hc : c ∉ ['"', '\\', '\n', '\r']) (s : List Char) :
    stringBody (c :: s) = (stringBody s).push c := by
  simp only [List.mem_cons, List.not_mem_nil, or_false, not_or] at hc
  obtain ⟨hquote, hbackslash, hfeed, hreturn⟩ := hc
  rw [stringBody]
  · simp [hquote, hbackslash, hfeed, hreturn]
  · exact fun _ _ _ _ _ heq => absurd heq hbackslash
  · exact fun _ _ heq => absurd heq hbackslash

theorem stringBody_short {letter c : Char} (hc : (letter, c) ∈ shortEscapes) (s : List Char) :
    stringBody ('\\' :: letter :: s) = (stringBody s).push c := by
  have hletter : letter ≠ 'u' := by
    have hall : ∀ pair ∈ shortEscapes, pair.1 ≠ 'u' := by decide
    exact hall (letter, c) hc
  rw [stringBody]
  · simp [hletter, shortEscape?_eq_some_iff.2 hc]
  · exact fun _ _ _ _ _ heq => absurd heq hletter

/-- A spelling of the inside of a string is read up to the closing quote. -/
theorem stringBody_append {text written : List Char} (h : Spells text written) :
    stringBody (written ++ '"' :: rest) = .closed text rest := by
  induction h with
  | nil => rfl
  | @plain c text written hc _ ih =>
    rw [List.cons_append, stringBody_plain hc]
    exact push_eq_closed_iff.2 ⟨text, rfl, ih⟩
  | @short letter c text written hc _ ih =>
    rw [List.cons_append, List.cons_append, stringBody_short hc]
    exact push_eq_closed_iff.2 ⟨text, rfl, ih⟩
  | @code a b c d n text written hn hvalid _ ih =>
    rw [List.cons_append, List.cons_append, List.cons_append, List.cons_append, List.cons_append,
      List.cons_append, stringBody, hn, Option.bind_some, charOfCode?_eq_some_iff.2 ⟨hvalid, rfl⟩]
    exact push_eq_closed_iff.2 ⟨text, rfl, ih⟩

theorem string_eq_done_iff {x : String} :
    string s = .done x rest ↔
      ∃ written, Spells x.toList written ∧ s = '"' :: (written ++ '"' :: rest) := by
  constructor
  · intro h
    unfold string at h
    split at h
    · cases h
    · next c body =>
      split_ifs at h with hc
      rw [beq_iff_eq] at hc
      subst hc
      split at h
      · next text _ hbody =>
        cases h
        obtain ⟨written, hwritten, rfl⟩ := exists_spells_of_stringBody hbody
        exact ⟨written, by rwa [String.toList_ofList], rfl⟩
      all_goals cases h
  · rintro ⟨written, hwritten, rfl⟩
    simp [string, stringBody_append hwritten]

end GraphQuery.Lexeme
