import GraphQuery.Proofs.Language.Soundness

/-!
# What is written is read

A reader that meets something written in front of further tokens reads it and leaves these tokens.
It looks ahead: a type goes on with an exclamation mark, a selection with an argument list, and
repetition stops only where the next thing is declined. What a reader finds is therefore stated
together with the characters that may follow and those at which it declines.

Readers that call themselves are unfolded as often as the text has characters. The bound on the
length of the text is the measure along which they find what is nested.

## Main definitions

* `Lexeme.Follows`: the next token, if there is one, begins with a certain character.
* `Reader.Finds`: on short texts a reader reads what is written.

## Main results

* `Reader.Finds.nest`, `Reader.Finds.between`: recursion, and repetition between brackets.
* `Value.finds_reader`, `Selection.finds_setReader`: the readers of values and of selections.
* `Document.reader_of_written`: the reader of queries.
-/

namespace GraphQuery

open Reader Lexeme

variable {α : Type} {s rest : List Char} {us : List Token}

/-! ### The next token -/

namespace Lexeme

/-- The first character of the next token. -/
def next? (us : List Token) : Option Char := us.head?.bind List.head?

/-- The next token, if there is one, begins with a character that satisfies a predicate. -/
def Follows (P : Char → Prop) (us : List Token) : Prop := ∀ c ∈ next? us, P c

theorem follows_cons {P : Char → Prop} {c : Char} {t : Token} (hc : P c) :
    Follows P ((c :: t) :: us) := by
  rintro _ ⟨⟩
  exact hc

theorem Follows.mono {P Q : Char → Prop} (h : Follows P us) (hPQ : ∀ c, P c → Q c) :
    Follows Q us :=
  fun c hc => hPQ c (h c hc)

theorem Follows.of_eq {P : Char → Prop} {c : Char} (h : Follows (· = c) us) (hc : P c) :
    Follows P us := by
  refine h.mono ?_
  rintro _ rfl
  exact hc

theorem Follows.ne {P : Char → Prop} {c : Char} (h : Follows P us) (hc : ¬ P c) :
    Follows (· ≠ c) us := by
  refine h.mono ?_
  rintro _ hP rfl
  exact hc hP

/-- A name comes next, and so none of some characters that do not begin one. -/
theorem Follows.notMem {cs : List Char} (h : Follows (isNameStart · = true) us)
    (hcs : cs.all (!isNameStart ·) = true) : Follows (· ∉ cs) us :=
  h.mono fun _ hc => notMem_of_all isNameStart hcs hc

theorem skip_skip (s : List Char) : skip (skip s) = skip s :=
  (spans_skip s).skip_eq_of_nil.symm

/-- Skipping stops at the first character of the next token. -/
theorem Spans.head?_skip (h : Spans us s []) : (Lexeme.skip s).head? = next? us := by
  cases us with
  | nil =>
    rw [h.skip_eq_of_nil]
    rfl
  | cons t us =>
    obtain ⟨c, t', s', rfl, -, hskip, -, -⟩ := h.exists_of_cons
    rw [hskip]
    rfl

theorem Follows.head?_skip {P : Char → Prop} (h : Follows P us) (hspans : Spans us s []) :
    ∀ c ∈ (Lexeme.skip s).head?, P c := by
  rw [hspans.head?_skip]
  exact h

/-- Characters that neither begin a token nor are ignored do not stand in front. -/
theorem Spans.head?_ne (h : Spans us s []) {c : Char} (hc : beginsToken c = false)
    (hseparator : isSeparator c = false) (hcomment : c ≠ '#') : s.head? ≠ some c := by
  intro hhead
  cases h with
  | nil => cases hhead
  | ignored hignored =>
    cases hignored with
    | separator hmem =>
      cases hhead
      rw [isSeparator_iff.2 hmem] at hseparator
      cases hseparator
    | comment =>
      cases hhead
      exact hcomment rfl
  | token hbegins =>
    cases hhead
    rw [hbegins] at hc
    cases hc

/-- A character that could begin a token does not stand in front if no token begins with it. -/
theorem Follows.head?_ne {c : Char} (h : Follows (· ≠ c) us) (hspans : Spans us s [])
    (hc : beginsToken c = true) : s.head? ≠ some c := by
  intro hhead
  obtain ⟨s', rfl⟩ := List.head?_eq_some_iff.1 hhead
  refine h.head?_skip hspans c ?_ rfl
  rw [skip_of_beginsToken hc]
  rfl

/-- A token that ends like a name ends where the name does. -/
theorem Apart.head? {t : Token} {c : Char} (h : Apart t rest) (hlast : t.getLast? = some c)
    (hc : isNameChar c = true) : ∀ d ∈ rest.head?, isNameChar d = false :=
  fun d hd => h c hlast d hd hc

theorem IsName.follows {x : String} (h : IsName x) :
    Follows (isNameStart · = true) (x.toList :: us) := by
  obtain ⟨c, cs, hx, hc, -⟩ := h
  rw [hx]
  exact follows_cons hc

/-! ### Single tokens -/

theorem symbol_of_spans {c : Char} (h : Spans ([c] :: us) s []) :
    ∃ rest, symbol c s = .done c rest ∧ Spans us rest [] ∧ rest.length < s.length ∧
      skip rest = rest := by
  obtain ⟨_, _, s', htoken, -, hskip, -, hs'⟩ := h.exists_of_cons
  cases htoken
  refine ⟨skip s', token_eq_done_iff.2 ⟨s', char_eq_done_iff.2 ⟨rfl, hskip⟩, rfl⟩, hs'.skip, ?_,
    skip_skip s'⟩
  have hlength := length_skip_le s
  have hlength' := length_skip_le s'
  rw [hskip] at hlength
  simp only [List.cons_append, List.nil_append, List.length_cons] at hlength
  omega

theorem declines_symbol {c : Char} (h : Follows (· ≠ c) us) (hspans : Spans us s []) :
    Declines (symbol c) s := by
  refine declines_symbol_of_head? fun hhead => ?_
  exact h.head?_skip hspans c hhead rfl

theorem name_of_spans {x : String} (hx : IsName x) (h : Spans (x.toList :: us) s []) :
    ∃ rest, name (skip s) = .done x rest ∧ Spans us rest [] ∧ rest.length < s.length := by
  obtain ⟨c, t', s', htoken, -, hskip, hapart, hs'⟩ := h.exists_of_cons
  obtain ⟨d, hlast, hd⟩ := hx.getLast?
  rw [← htoken] at hskip
  refine ⟨s', name_eq_done_iff.2 ⟨hx, hskip, hapart.head? hlast hd⟩, hs', ?_⟩
  have hlength := length_skip_le s
  rw [hskip, htoken] at hlength
  simp only [List.cons_append, List.length_cons, List.length_append] at hlength
  omega

theorem token_name_of_spans {x : String} (hx : IsName x) (h : Spans (x.toList :: us) s []) :
    ∃ rest, token name s = .done x rest ∧ Spans us rest [] ∧ rest.length < s.length := by
  obtain ⟨middle, hname, hspans, hlength⟩ := name_of_spans hx h
  have hle := length_skip_le middle
  exact ⟨skip middle, token_eq_done_iff.2 ⟨middle, hname, rfl⟩, hspans.skip, by omega⟩

theorem declines_token_name (h : Follows (isNameStart · = false) us) (hspans : Spans us s []) :
    Declines (token name) s :=
  declines_bind_of_done rfl ((declines_name (h.head?_skip hspans)).bind _)

end Lexeme

/-! ### Combining readers -/

theorem Row.follows {G : α → List Token → Prop} {as : List α} {ts : List Token} {P : Char → Prop}
    (h : Row G as ts) (hfirst : ∀ a ts us, G a ts → Follows P (ts ++ us)) (hus : Follows P us) :
    Follows P (ts ++ us) := by
  cases h with
  | nil => exact hus
  | cons ha =>
    rw [List.append_assoc]
    exact hfirst _ _ _ ha

namespace Reader

/-- On texts of less than `n` characters, the reader reads what is written in front of tokens that
may follow, and it declines at certain characters. -/
structure Finds (n : Nat) (p : Reader α) (G : α → List Token → Prop) (follow stop : Char → Prop) :
    Prop where
  reads : ∀ a ts us s, s.length < n → G a ts → Follows follow us → Spans (ts ++ us) s [] →
    ∃ rest, p s = .done a rest ∧ Spans us rest [] ∧ rest.length < s.length
  declines : ∀ us s, s.length < n → Follows stop us → Spans us s [] → Declines p s

namespace Finds

variable {n : Nat} {p : Reader α} {G : α → List Token → Prop} {follow stop : Char → Prop}

theorem unroll {body : Reader α → Reader α}
    (h : ∀ n q, q.Finds n G follow stop → (body q).Finds (n + 1) G follow stop) (n : Nat) :
    (unroll body n).Finds (n + 1) G follow stop := by
  induction n with
  | zero =>
    refine h 0 _ ⟨?_, ?_⟩
    · exact fun _ _ _ s hs => absurd hs (Nat.not_lt_zero _)
    · exact fun _ s hs => absurd hs (Nat.not_lt_zero _)
  | succ n ih => exact h (n + 1) _ ih

/-- A reader that calls itself finds what its body finds with a reader for shorter texts. -/
theorem nest {body : Reader α → Reader α}
    (h : ∀ n q, q.Finds n G follow stop → (body q).Finds (n + 1) G follow stop) :
    (nest body).Finds n G follow stop where
  reads a ts us s _ := (unroll h s.length).reads a ts us s (Nat.lt_succ_self _)
  declines us s _ := (unroll h s.length).declines us s (Nat.lt_succ_self _)

theorem token (h : p.Finds n G follow stop) : (token p).Finds n G follow stop where
  reads a ts us s hs ha hus hspans := by
    have hle := length_skip_le s
    obtain ⟨middle, hdone, hmiddle, hlength⟩ :=
      h.reads a ts us (skip s) (by omega) ha hus hspans.skip
    have hle' := length_skip_le middle
    exact ⟨skip middle, token_eq_done_iff.2 ⟨middle, hdone, rfl⟩, hmiddle.skip, by omega⟩
  declines us s hs hus hspans := by
    have hle := length_skip_le s
    exact declines_bind_of_done rfl ((h.declines us _ (by omega) hus hspans.skip).bind _)

/-- Repetition reads a row of things, up to a token at which it stops. -/
theorem many {as : List α} {ts : List Token} (h : p.Finds n G follow stop)
    (hfirst : ∀ a ts us, G a ts → Follows follow (ts ++ us)) (hfollow : Follows follow us)
    (hstop : Follows stop us) (hrow : Row G as ts) (hs : s.length < n)
    (hspans : Spans (ts ++ us) s []) :
    ∃ rest, many p s = .done as rest ∧ Spans us rest [] ∧ rest.length ≤ s.length := by
  -- Along the row: what follows an element is the next element or the token at which `p` declines.
  induction hrow generalizing s with
  | nil =>
    obtain ⟨trail, htrail⟩ := h.declines us s hs hstop hspans
    refine ⟨s, ?_, hspans, Nat.le_refl _⟩
    rw [many_eq, manyStep, htrail]
  | @cons a as ts ts' ha hrow ih =>
    rw [List.append_assoc] at hspans
    obtain ⟨middle, hdone, hmiddle, hlength⟩ :=
      h.reads a ts _ s hs ha (hrow.follows hfirst hfollow) hspans
    obtain ⟨rest, hmany, hrest, hlength'⟩ := ih (by omega) hmiddle
    refine ⟨rest, ?_, hrest, by omega⟩
    rw [many_eq, manyStep, hdone]
    simp only [if_pos hlength]
    exact bind_eq_done_iff.2 ⟨as, rest, hmany, pure_eq_done_iff.2 ⟨rfl, rfl⟩⟩

/-- A row of things between brackets. -/
theorem between {opening closing : Char} {as : List α} {ts : List Token}
    (h : p.Finds n G follow stop) (hfirst : ∀ a ts us, G a ts → Follows follow (ts ++ us))
    (hfollow : follow closing) (hstop : stop closing) (hrow : Row G as ts) (hs : s.length < n + 1)
    (hspans : Spans ([opening] :: (ts ++ [[closing]]) ++ us) s []) :
    ∃ s₁ s₂ rest, symbol opening s = .done opening s₁ ∧ Reader.many p s₁ = .done as s₂ ∧
      symbol closing s₂ = .done closing rest ∧ Spans us rest [] ∧ rest.length < s.length := by
  rw [List.cons_append, List.append_assoc] at hspans
  obtain ⟨s₁, hopen, hspans₁, hlength₁, -⟩ := symbol_of_spans hspans
  obtain ⟨s₂, hmany, hspans₂, hlength₂⟩ := h.many hfirst (follows_cons hfollow)
    (follows_cons hstop) hrow (by omega) hspans₁
  obtain ⟨rest, hclose, hrest, hlength, -⟩ := symbol_of_spans hspans₂
  exact ⟨s₁, s₂, rest, hopen, hmany, hclose, hrest, by omega⟩

theorem grouped {opening closing : Char} {cause cause' : String} (h : p.Finds n G follow stop)
    (hfirst : ∀ a ts us, G a ts → Follows follow (ts ++ us)) (hfollow : follow closing)
    (hstop : stop closing) :
    (enclosed (symbol opening) (expecting cause (commit (many1 p)))
      (expecting cause' (commit (symbol closing)))).Finds n (Grouped opening closing G)
      (fun _ => True) (· ≠ opening) where
  reads as ts us s hs hgroup _ hspans := by
    obtain ⟨hrow⟩ := hgroup
    obtain ⟨s₁, s₂, rest, hopen, hmany, hclose, hrest, hlength⟩ :=
      h.between hfirst hfollow hstop hrow (by omega) hspans
    refine ⟨rest, ?_, hrest, hlength⟩
    simp only [enclosed, bind_eq_done_iff, pure_eq_done_iff, expecting_eq_done_iff,
      commit_eq_done_iff]
    exact ⟨_, s₁, hopen, _, s₂, many1_of_many hmany, _, rest, hclose, rfl, rfl⟩
  declines us s _ hus hspans := (declines_symbol hus hspans).bind _

/-- A group that may be missing. -/
theorem optionallyGrouped {opening closing : Char} {items : Reader (List α)} {as : List α}
    {ts : List Token} (h : items.Finds n (Grouped opening closing G) (fun _ => True) (· ≠ opening))
    (hgroup : OptionallyGrouped opening closing G as ts) (hus : Follows (· ≠ opening) us)
    (hs : s.length < n) (hspans : Spans (ts ++ us) s []) :
    ∃ as? rest, optional items s = .done as? rest ∧ as?.getD [] = as ∧ Spans us rest [] ∧
      rest.length ≤ s.length := by
  cases hgroup with
  | absent =>
    have hdeclines := h.declines us s hs hus hspans
    exact ⟨none, s, optional_eq_done_iff.2 (.inr ⟨rfl, rfl, hdeclines⟩), rfl, hspans, Nat.le_refl _⟩
  | present hgroup =>
    obtain ⟨rest, hdone, hrest, hlength⟩ :=
      h.reads as ts us s hs hgroup (fun _ _ => trivial) hspans
    exact ⟨some as, rest, optional_eq_done_iff.2 (.inl ⟨as, rfl, hdone⟩), rfl, hrest,
      Nat.le_of_lt hlength⟩

end Finds

end Reader

theorem OptionallyGrouped.follows {opening closing : Char} {G : α → List Token → Prop} {as : List α}
    {ts : List Token} {P : Char → Prop} (h : OptionallyGrouped opening closing G as ts)
    (hopening : P opening) (hus : Follows P us) : Follows P (ts ++ us) := by
  cases h with
  | absent => exact hus
  | present hgroup =>
    cases hgroup
    exact follows_cons hopening

/-! ### Values -/

namespace Value

/-- What begins neither like a variable nor like a string, a list or an object is a number or a
name. -/
theorem dispatch_of_notMem (constant : Bool) (item : Reader Value) {c : Char}
    (hc : c ∉ ['$', '"', '[', '\x7b']) (s : List Char) :
    dispatch constant item (c :: s) =
      if c == '-' || c.isDigit then numberReader (c :: s) else nameReader (c :: s) := by
  simp only [List.mem_cons, List.not_mem_nil, or_false, not_or] at hc
  simp [dispatch, hc]

theorem ofName_of_notMem {x : String} (hx : x ∉ ["true", "false", "null"]) :
    ofName x = .enum x := by
  simp only [List.mem_cons, List.not_mem_nil, or_false, not_or] at hx
  simp [ofName, hx]

theorem dispatch_of_name (constant : Bool) (item : Reader Value) {x : String} (hx : IsName x)
    (hrest : ∀ c ∈ rest.head?, isNameChar c = false) :
    dispatch constant item (x.toList ++ rest) = .done (ofName x) rest := by
  have hname : nameReader (x.toList ++ rest) = .done (ofName x) rest :=
    bind_eq_done_iff.2 ⟨x, rest, name_eq_done_iff.2 ⟨hx, rfl, hrest⟩,
      pure_eq_done_iff.2 ⟨rfl, rfl⟩⟩
  obtain ⟨c, cs, hchars, hc, -⟩ := hx
  have hnotMem : c ∉ ['$', '"', '[', '\x7b'] := notMem_of_all isNameStart (by decide) hc
  have hminus : c ∉ ['-'] := notMem_of_all isNameStart (by decide) hc
  rw [hchars, List.cons_append] at hname ⊢
  rw [dispatch_of_notMem constant item hnotMem, hname, if_neg]
  simpa [isDigit_of_isNameStart hc] using hminus

theorem numberReader_append {n : Numeral} {t : Token} {v : Value} (ht : n.Spelled t)
    (hv : ofNumeral n = .ok v) (hrest : ∀ c ∈ rest.head?, isNameChar c = false ∧ c ≠ '.') :
    numberReader (t ++ rest) = .done v rest := by
  have hruns : rest.head?.any (fun c => isNameChar c || c == '.') = false := by
    cases rest with
    | nil => rfl
    | cons c rest => simp [hrest c rfl]
  rw [numberReader, numeral_append ht hrest]
  simp only [hruns, hv]
  rfl

theorem dispatch_of_numeral (constant : Bool) (item : Reader Value) {n : Numeral} {t : Token}
    {v : Value} (ht : n.Spelled t) (hv : ofNumeral n = .ok v)
    (hrest : ∀ c ∈ rest.head?, isNameChar c = false ∧ c ≠ '.') :
    dispatch constant item (t ++ rest) = .done v rest := by
  have hnumber := numberReader_append ht hv hrest
  obtain ⟨c, t, rfl, hc⟩ := ht.exists_cons
  have hnotMem : c ∉ ['$', '"', '[', '\x7b'] :=
    notMem_of_all (fun c => c == '-' || c.isDigit) (by decide) hc
  rw [List.cons_append] at hnumber ⊢
  rw [dispatch_of_notMem constant item hnotMem, if_pos hc, hnumber]

theorem ofNumeral_of_toInt {n : Numeral} {i : Int64} (hwhole : n.isWhole = true)
    (hi : i.toInt = n.toInt) : ofNumeral n = .ok (.int i) := by
  have hrange : Int64.minValue.toInt ≤ n.toInt ∧ n.toInt ≤ Int64.maxValue.toInt := by
    rw [← hi]
    exact ⟨i.minValue_le_toInt, i.toInt_le⟩
  simp only [ofNumeral, if_pos hwhole, if_pos hrange]
  rw [← hi, Int64.ofInt_toInt]

/-- A value of one token is read, up to what does not belong to the token. -/
theorem dispatch_of_spelled {constant : Bool} (item : Reader Value) {v : Value} {t : Token}
    (h : v.Spelled constant t) (hapart : Apart t rest) (hpoint : rest.head? ≠ some '.') :
    dispatch constant item (t ++ rest) = .done v rest := by
  have hname {x : String} (hx : IsName x) (hapart : Apart x.toList rest) :
      dispatch constant item (x.toList ++ rest) = .done (ofName x) rest := by
    obtain ⟨c, hlast, hc⟩ := hx.getLast?
    exact dispatch_of_name constant item hx (hapart.head? hlast hc)
  have hnumber {n : Numeral} (ht : n.Spelled t) :
      ∀ c ∈ rest.head?, isNameChar c = false ∧ c ≠ '.' := by
    obtain ⟨c, hlast, hc⟩ := ht.getLast?
    refine fun d hd => ⟨hapart.head? hlast hc d hd, ?_⟩
    rintro rfl
    exact hpoint hd
  cases h with
  | @var x hx hconstant =>
    subst hconstant
    obtain ⟨c, hlast, hc⟩ := hx.getLast?
    have hrest := hapart.head? (by rw [List.getLast?_cons, hlast]; rfl) hc
    have hdone : variableReader ('$' :: x.toList ++ rest) = .done (.var x) rest := by
      simp only [variableReader, bind_eq_done_iff, pure_eq_done_iff, expecting_eq_done_iff,
        commit_eq_done_iff, char_eq_done_iff, name_eq_done_iff]
      exact ⟨'$', _, ⟨rfl, rfl⟩, x, rest, ⟨hx, rfl, hrest⟩, rfl, rfl⟩
    exact hdone
  | int ht hwhole hi =>
    exact dispatch_of_numeral constant item ht (ofNumeral_of_toInt hwhole hi) (hnumber ht)
  | @float n _ ht hwhole hfinite =>
    refine dispatch_of_numeral constant item ht ?_ (hnumber ht)
    simp only [ofNumeral, hwhole, hfinite]
    rfl
  | @string x written hwritten =>
    have hdone : Lexeme.string ('"' :: (written ++ ['"']) ++ rest) = .done x rest :=
      string_eq_done_iff.2 ⟨written, hwritten, by simp⟩
    exact bind_eq_done_iff.2 ⟨x, rest, hdone, pure_eq_done_iff.2 ⟨rfl, rfl⟩⟩
  | boolean b =>
    cases b with
    | true => exact hname (isName_of_toList rfl (by decide) (by decide)) hapart
    | false => exact hname (isName_of_toList rfl (by decide) (by decide)) hapart
  | null => exact hname (isName_of_toList rfl (by decide) (by decide)) hapart
  | @enum x hx hword =>
    rw [← ofName_of_notMem hword]
    exact hname hx hapart

theorem finds_readerStep {constant : Bool} {n : Nat} {item : Reader Value}
    (hitem : item.Finds n (Written constant) (fun _ => True) (· = ']')) :
    (readerStep constant item).Finds (n + 1) (Written constant) (fun _ => True) (· = ']') where
  reads v ts us s hs hv _ hspans := by
    have hle := length_skip_le s
    cases hv with
    | token ht =>
      obtain ⟨c, t, s', rfl, -, hskip, hapart, hs'⟩ := hspans.exists_of_cons
      have hpoint := hs'.head?_ne (by decide : beginsToken '.' = false) (by decide) (by decide)
      refine ⟨s', bind_eq_done_iff.2 ⟨(), skip s, rfl, ?_⟩, hs', ?_⟩
      · rw [hskip]
        exact dispatch_of_spelled item ht hapart hpoint
      · rw [hskip] at hle
        simp only [List.cons_append, List.length_cons, List.length_append] at hle
        omega
    | @list items ts hrow =>
      obtain ⟨s₁, s₂, rest, hopen, hmany, hclose, hrest, hlength⟩ :=
        hitem.token.between (fun _ _ _ _ _ _ => trivial) trivial rfl hrow (by omega) hspans.skip
      have hlist : listReader item (skip s) = .done (.list items) rest := by
        simp only [listReader, bind_eq_done_iff, pure_eq_done_iff, expecting_eq_done_iff,
          commit_eq_done_iff]
        exact ⟨_, s₁, hopen, items, s₂, hmany, _, rest, hclose, rfl, rfl⟩
      refine ⟨rest, bind_eq_done_iff.2 ⟨(), skip s, rfl, ?_⟩, hrest, by omega⟩
      obtain ⟨c, t, s', htoken, -, hskip, -⟩ := hspans.exists_of_cons
      cases htoken
      rw [hskip] at hlist ⊢
      exact hlist
  declines us s _ hus hspans := by
    have hhead := hus.head?_skip hspans
    refine declines_bind_of_done rfl ?_
    have hname : Declines nameReader (skip s) :=
      (declines_name fun c hc => by rw [hhead c hc]; rfl).bind _
    cases hskip : skip s with
    | nil =>
      rw [hskip] at hname
      exact hname
    | cons c s' =>
      rw [hskip] at hname hhead
      obtain rfl := hhead c rfl
      exact hname

/-- Every value that is written is read. -/
theorem finds_reader (constant : Bool) (n : Nat) :
    (reader constant).Finds n (Written constant) (fun _ => True) (· = ']') :=
  .nest fun _ _ hitem => finds_readerStep hitem

end Value

/-! ### Types -/

namespace TypeRef

/-- No type begins with the character. -/
def Stops (c : Char) : Prop := isNameStart c = false ∧ c ≠ '['

/-- A type without its exclamation mark is read, whatever follows. -/
theorem oneOf_of_written {n : Nat} {inner : Reader TypeRef}
    (hinner : inner.Finds n Written (· ≠ '!') Stops) {type : TypeRef} {ts : List Token}
    (htype : type.Written ts) (hne : ∀ t, type ≠ .nonNull t) (hs : s.length < n + 1)
    (hspans : Spans (ts ++ us) s []) :
    ∃ rest, oneOf [listReader inner, namedReader] s = .done type rest ∧ Spans us rest [] ∧
      rest.length < s.length := by
  cases htype with
  | @named x hx =>
    obtain ⟨rest, hname, hrest, hlength⟩ := token_name_of_spans hx hspans
    have hnamed : namedReader s = .done (.named x) rest :=
      bind_eq_done_iff.2 ⟨x, rest, hname, pure_eq_done_iff.2 ⟨rfl, rfl⟩⟩
    have hbracket : Declines (listReader inner) s :=
      (declines_symbol (hx.follows.ne (by decide)) hspans).bind _
    obtain ⟨trail, htrail⟩ := oneOfFrom_cons_of_declines hbracket
    exact ⟨rest, htrail.trans (oneOfFrom_cons_of_done hnamed), hrest, hlength⟩
  | @list item ts hitem =>
    rw [List.cons_append, List.append_assoc] at hspans
    obtain ⟨s₁, hopen, hspans₁, hlength₁, -⟩ := symbol_of_spans hspans
    obtain ⟨s₂, hdone, hspans₂, hlength₂⟩ := hinner.reads item ts _ s₁ (by omega) hitem
      (follows_cons (by decide)) hspans₁
    obtain ⟨rest, hclose, hrest, hlength, -⟩ := symbol_of_spans hspans₂
    have hlist : listReader inner s = .done (.list item) rest := by
      simp only [listReader, bind_eq_done_iff, pure_eq_done_iff, expecting_eq_done_iff,
        commit_eq_done_iff]
      exact ⟨_, s₁, hopen, item, s₂, hdone, _, rest, hclose, rfl, rfl⟩
    exact ⟨rest, oneOfFrom_cons_of_done hlist, hrest, by omega⟩
  | @nonNull inner => exact absurd rfl (hne inner)

theorem finds_readerStep {n : Nat} {inner : Reader TypeRef}
    (hinner : inner.Finds n Written (· ≠ '!') Stops) :
    (readerStep inner).Finds (n + 1) Written (· ≠ '!') Stops where
  reads type ts us s hs htype hus hspans := by
    -- An exclamation mark behind the type belongs to it, so it must be looked for in both cases.
    by_cases hplain : ∀ t, type ≠ .nonNull t
    · obtain ⟨rest, hbase, hrest, hlength⟩ := oneOf_of_written hinner htype hplain hs hspans
      have hmark : optional (symbol '!') rest = .done none rest :=
        optional_eq_done_iff.2 (.inr ⟨rfl, rfl, declines_symbol hus hrest⟩)
      refine ⟨rest, ?_, hrest, hlength⟩
      exact bind_eq_done_iff.2 ⟨type, rest, hbase, bind_eq_done_iff.2 ⟨none, rest, hmark, rfl⟩⟩
    · cases htype with
      | @nonNull type ts htype hne =>
        rw [List.append_assoc] at hspans
        obtain ⟨middle, hbase, hmiddle, hlength⟩ := oneOf_of_written hinner htype hne hs hspans
        obtain ⟨rest, hsymbol, hrest, hlength', -⟩ := symbol_of_spans hmiddle
        have hmark : optional (symbol '!') middle = .done (some '!') rest :=
          optional_eq_done_iff.2 (.inl ⟨'!', rfl, hsymbol⟩)
        refine ⟨rest, ?_, hrest, by omega⟩
        exact bind_eq_done_iff.2 ⟨type, middle, hbase,
          bind_eq_done_iff.2 ⟨some '!', rest, hmark, rfl⟩⟩
      | _ => exact absurd (fun t ht => by cases ht) hplain
  declines us s _ hus hspans := by
    refine (declines_oneOfFrom (List.forall_mem_cons.2 ⟨?_, List.forall_mem_singleton.2 ?_⟩)).bind _
    · exact (declines_symbol (hus.mono fun _ hc => hc.2) hspans).bind _
    · exact (declines_token_name (hus.mono fun _ hc => hc.1) hspans).bind _

/-- Every type that is written is read. -/
theorem finds_reader (n : Nat) : reader.Finds n Written (· ≠ '!') Stops :=
  .nest fun _ _ hinner => finds_readerStep hinner

end TypeRef

/-! ### Selections -/

namespace Argument

theorem finds_reader (constant : Bool) (n : Nat) :
    (reader constant).Finds n (Written constant) (fun _ => True) (· = ')') where
  reads a ts us s hs ha hus hspans := by
    obtain @⟨x, v, ts, hx, hv⟩ := ha
    obtain ⟨s₁, hname, hspans₁, hlength₁⟩ := token_name_of_spans hx hspans
    obtain ⟨s₂, hcolon, hspans₂, hlength₂, -⟩ := symbol_of_spans hspans₁
    obtain ⟨rest, hvalue, hrest, hlength⟩ := (Value.finds_reader constant n).token.reads v ts us s₂
      (by omega) hv hus hspans₂
    refine ⟨rest, ?_, hrest, by omega⟩
    simp only [reader, bind_eq_done_iff, pure_eq_done_iff, expecting_eq_done_iff,
      commit_eq_done_iff]
    exact ⟨x, s₁, hname, _, s₂, hcolon, v, rest, hvalue, rfl, rfl⟩
  declines us s _ hus hspans := (declines_token_name (hus.of_eq (by decide)) hspans).bind _

theorem finds_listReader (constant : Bool) (n : Nat) :
    (listReader constant).Finds n (Grouped '(' ')' (Written constant)) (fun _ => True) (· ≠ '(') :=
  (finds_reader constant n).grouped (fun _ _ _ _ _ _ => trivial) trivial rfl

end Argument

namespace Selection

theorem refuseAt_of_head? {c : Char} (word : List Char) (cause : String) (h : s.head? ≠ some c) :
    refuseAt (c :: word) cause s = .done () s := by
  rw [refuseAt, if_neg]
  cases s with
  | nil => simp
  | cons d s =>
    have hne : c ≠ d := by
      rintro rfl
      exact h rfl
    simp [hne]

theorem refuseAt_of_spans {c : Char} (word : List Char) (cause : String) (h : Spans us s [])
    (hc : beginsToken c = false) (hseparator : isSeparator c = false) (hcomment : c ≠ '#') :
    refuseAt (c :: word) cause s = .done () s :=
  refuseAt_of_head? word cause (h.head?_ne hc hseparator hcomment)

/-- The name of a field is read with its alias, unless a colon follows. -/
theorem exists_aliased_of_named {aliasName : Option String} {x : String} {ts : List Token}
    (h : Named aliasName x ts) (hus : Follows (· ≠ ':') us) (hspans : Spans (ts ++ us) s []) :
    ∃ first s₁ aliased rest, token Lexeme.name s = .done first s₁ ∧
      optional aliasedName s₁ = .done aliased rest ∧ (aliased.map fun _ => first) = aliasName ∧
      aliased.getD first = x ∧ Spans us rest [] ∧ rest.length < s.length := by
  cases h with
  | plain hx =>
    obtain ⟨s₁, hname, hspans₁, hlength₁⟩ := token_name_of_spans hx hspans
    have hdeclines := (declines_symbol hus hspans₁).bind fun _ =>
      expecting "Expected field name after alias" (commit (token Lexeme.name))
    exact ⟨x, s₁, none, s₁, hname, optional_eq_done_iff.2 (.inr ⟨rfl, rfl, hdeclines⟩), rfl, rfl,
      hspans₁, hlength₁⟩
  | @aliased key _ hkey hx =>
    obtain ⟨s₁, hname, hspans₁, hlength₁⟩ := token_name_of_spans hkey hspans
    obtain ⟨s₂, hcolon, hspans₂, hlength₂, -⟩ := symbol_of_spans hspans₁
    obtain ⟨rest, hfield, hrest, hlength⟩ := token_name_of_spans hx hspans₂
    have haliased : aliasedName s₁ = .done x rest := by
      simp only [aliasedName, bind_eq_done_iff, expecting_eq_done_iff, commit_eq_done_iff]
      exact ⟨_, s₂, hcolon, hfield⟩
    exact ⟨key, s₁, some x, rest, hname, optional_eq_done_iff.2 (.inl ⟨x, rfl, haliased⟩), rfl, rfl,
      hrest, by omega⟩

/-- The characters with which a selection would go on behind its name. -/
def continuations : List Char := [':', '(', '\x7b', '@']

theorem Written.follows {selection : Selection} {ts : List Token} (h : selection.Written ts)
    (us : List Token) : Follows (· ∉ continuations) (ts ++ us) := by
  obtain @⟨_, _, _, _, ts₁, ts₂, ts₃, hname, -, -⟩ := h
  have hstart : Follows (isNameStart · = true) (ts₁ ++ (ts₂ ++ ts₃) ++ us) := by
    cases hname with
    | plain hx => exact hx.follows
    | aliased hkey => exact hkey.follows
  exact hstart.notMem (by decide)

theorem finds_reader {n : Nat} {below : Reader (List Selection)}
    (hbelow : below.Finds n (Grouped '\x7b' '\x7d' Written) (fun _ => True) (· ≠ '\x7b')) :
    (reader below).Finds n Written (· ∉ continuations) (· = '\x7d') where
  reads selection ts us s hs hselection hus hspans := by
    obtain @⟨aliasName, name, arguments, selections, ts₁, ts₂, ts₃, hname, harguments,
      hselections⟩ := hselection
    rw [List.append_assoc, List.append_assoc] at hspans
    -- A part that is missing is not mistaken for one that comes later.
    have hcolon : Follows (· ≠ ':') (ts₂ ++ (ts₃ ++ us)) :=
      harguments.follows (by decide) (hselections.follows (by decide) (hus.ne (by decide)))
    have hparenthesis : Follows (· ≠ '(') (ts₃ ++ us) :=
      hselections.follows (by decide) (hus.ne (by decide))
    have hat : Follows (· ≠ '@') (ts₃ ++ us) :=
      hselections.follows (by decide) (hus.ne (by decide))
    have hle := length_skip_le s
    obtain ⟨first, s₁, aliased, s₂, hfirst, haliased, haliasName, hfield, hspans₂, hlength₂⟩ :=
      exists_aliased_of_named hname hcolon hspans.skip
    obtain ⟨arguments?, s₃, hdone₃, harguments?, hspans₃, hlength₃⟩ :=
      (Argument.finds_listReader false n).optionallyGrouped harguments hparenthesis (by omega)
        hspans₂
    obtain ⟨selections?, rest, hdone, hselections?, hrest, hlength⟩ :=
      hbelow.optionallyGrouped hselections (hus.ne (by decide)) (by omega) hspans₃
    have hfragment := refuseAt_of_spans (c := '.') ['.', '.'] "Fragments are not supported"
      hspans.skip (by decide) (by decide) (by decide)
    have hdirective := refuseAt_of_head? [] "Directives are not supported in queries"
      (hat.head?_ne hspans₃ (by decide))
    refine ⟨rest, ?_, hrest, by omega⟩
    simp only [reader, bind_eq_done_iff, pure_eq_done_iff]
    refine ⟨(), skip s, rfl, (), _, hfragment, first, s₁, hfirst, aliased, s₂, haliased, arguments?,
      s₃, hdone₃, (), _, hdirective, selections?, rest, hdone, ?_, rfl⟩
    rw [haliasName, hfield, harguments?, hselections?]
  declines us s _ hus hspans := by
    have hfragment := refuseAt_of_spans (c := '.') ['.', '.'] "Fragments are not supported"
      hspans.skip (by decide) (by decide) (by decide)
    refine declines_bind_of_done rfl (declines_bind_of_done hfragment ?_)
    exact (declines_token_name (hus.of_eq (by decide)) hspans.skip).bind _

theorem finds_setReaderStep {n : Nat} {below : Reader (List Selection)}
    (hbelow : below.Finds n (Grouped '\x7b' '\x7d' Written) (fun _ => True) (· ≠ '\x7b')) :
    (setReaderStep below).Finds (n + 1) (Grouped '\x7b' '\x7d' Written) (fun _ => True)
      (· ≠ '\x7b') where
  reads selections ts us s hs hgroup _ hspans := by
    obtain @⟨selection, selections, ts, hrow⟩ := hgroup
    obtain ⟨s₁, s₂, rest, hopen, hmany, hclose, hrest, hlength⟩ :=
      (finds_reader hbelow).between (fun _ _ us h => h.follows us) (by decide) rfl hrow hs hspans
    refine ⟨rest, ?_, hrest, hlength⟩
    simp only [setReaderStep, bind_eq_done_iff, expecting_eq_done_iff, commit_eq_done_iff]
    exact ⟨_, s₁, hopen, _, s₂, hmany, _, rest, hclose, rfl⟩
  declines us s _ hus hspans := (declines_symbol hus hspans).bind _

/-- Selections that are written between braces are read. -/
theorem finds_setReader (n : Nat) :
    setReader.Finds n (Grouped '\x7b' '\x7d' Written) (fun _ => True) (· ≠ '\x7b') :=
  .nest fun _ _ hbelow => finds_setReaderStep hbelow

end Selection

/-! ### Queries -/

namespace VariableDefinition

theorem DefaultWritten.follows {v? : Option Value} {ts : List Token} {P : Char → Prop}
    (h : DefaultWritten v? ts) (hequals : P '=') (hus : Follows P us) : Follows P (ts ++ us) := by
  cases h with
  | absent => exact hus
  | present => exact follows_cons hequals

theorem optional_default_of_written {n : Nat} {v? : Option Value} {ts : List Token}
    (h : DefaultWritten v? ts) (hus : Follows (· ≠ '=') us) (hs : s.length < n)
    (hspans : Spans (ts ++ us) s []) :
    ∃ rest, optional defaultReader s = .done v? rest ∧ Spans us rest [] ∧
      rest.length ≤ s.length := by
  cases h with
  | absent =>
    have hdeclines : Declines defaultReader s := (declines_symbol hus hspans).bind _
    exact ⟨s, optional_eq_done_iff.2 (.inr ⟨rfl, rfl, hdeclines⟩), hspans, Nat.le_refl _⟩
  | @present v ts hv =>
    obtain ⟨s₁, hequals, hspans₁, hlength₁, -⟩ := symbol_of_spans hspans
    obtain ⟨rest, hvalue, hrest, hlength⟩ := (Value.finds_reader true n).token.reads v ts us s₁
      (by omega) hv (fun _ _ => trivial) hspans₁
    have hdefault : defaultReader s = .done v rest := by
      simp only [defaultReader, bind_eq_done_iff, expecting_eq_done_iff, commit_eq_done_iff]
      exact ⟨_, s₁, hequals, hvalue⟩
    exact ⟨rest, optional_eq_done_iff.2 (.inl ⟨v, rfl, hdefault⟩), hrest, by omega⟩

theorem finds_reader (n : Nat) : reader.Finds n Written (· ∉ ['!', '=']) (· = ')') where
  reads d ts us s hs hd hus hspans := by
    obtain @⟨x, type, default?, ts₁, ts₂, hx, htype, hdefault⟩ := hd
    simp only [List.cons_append, List.append_assoc] at hspans
    have hmark : Follows (· ≠ '!') (ts₂ ++ us) :=
      hdefault.follows (by decide) (hus.ne (by decide))
    obtain ⟨s₁, hdollar, hspans₁, hlength₁, hskip₁⟩ := symbol_of_spans hspans
    obtain ⟨s₂, hname, hspans₂, hlength₂⟩ := name_of_spans hx hspans₁
    obtain ⟨s₃, hcolon, hspans₃, hlength₃, -⟩ := symbol_of_spans hspans₂
    obtain ⟨s₄, hdone, hspans₄, hlength₄⟩ := (TypeRef.finds_reader n).reads type ts₁ _ s₃ (by omega)
      htype hmark hspans₃
    obtain ⟨rest, hoptional, hrest, hlength⟩ := optional_default_of_written hdefault
      (hus.ne (by decide)) (by omega : s₄.length < n) hspans₄
    -- The name is read where the dollar sign ended, which is behind everything that is ignored.
    rw [hskip₁] at hname
    refine ⟨rest, ?_, hrest, by omega⟩
    simp only [reader, bind_eq_done_iff, pure_eq_done_iff, expecting_eq_done_iff,
      commit_eq_done_iff]
    exact ⟨_, s₁, hdollar, x, s₂, hname, _, s₃, hcolon, type, s₄, hdone, default?, rest, hoptional,
      rfl, rfl⟩
  declines us s _ hus hspans := (declines_symbol (hus.ne (by decide)) hspans).bind _

theorem Written.follows {d : VariableDefinition} {ts : List Token} (h : d.Written ts)
    (us : List Token) : Follows (· ∉ ['!', '=']) (ts ++ us) := by
  obtain ⟨⟩ := h
  exact follows_cons (by decide)

theorem finds_listReader (n : Nat) :
    listReader.Finds n (Grouped '(' ')' Written) (fun _ => True) (· ≠ '(') :=
  (finds_reader n).grouped (fun _ _ us h => h.follows us) (by decide) rfl

end VariableDefinition

namespace OperationKind

theorem isName_word (kind : OperationKind) : IsName kind.word := by
  cases kind <;> exact isName_of_toList rfl (by decide) (by decide)

theorem reader_of_name {kind : OperationKind} (h : Lexeme.name s = .done kind.word rest) :
    reader s = .done kind rest := by
  have hword (other : OperationKind) : wordReader other s =
      if kind.word == other.word then .done other rest else .declined [⟨s, unexpected⟩] := by
    change Reader.bind (keyword other.word) _ s = _
    simp only [Reader.bind, keyword, filter, h]
    split_ifs <;> rfl
  cases kind <;> simp [reader, oneOf, oneOfFrom, hword, word]

/-- The word of an operation is read as its kind. -/
theorem token_of_spans (kind : OperationKind) (h : Spans (kind.word.toList :: us) s []) :
    ∃ rest, token reader s = .done kind rest ∧ Spans us rest [] ∧ rest.length < s.length := by
  obtain ⟨middle, hname, hmiddle, hlength⟩ := name_of_spans kind.isName_word h
  have hle := length_skip_le middle
  exact ⟨skip middle, token_eq_done_iff.2 ⟨middle, reader_of_name hname, rfl⟩, hmiddle.skip,
    by omega⟩

end OperationKind

namespace Document

theorem optional_name_of_named {x? : Option String} {ts : List Token} (h : Named x? ts)
    (hus : Follows (isNameStart · = false) us) (hspans : Spans (ts ++ us) s []) :
    ∃ rest, optional (token Lexeme.name) s = .done x? rest ∧ Spans us rest [] := by
  cases h with
  | absent =>
    exact ⟨s, optional_eq_done_iff.2 (.inr ⟨rfl, rfl, declines_token_name hus hspans⟩), hspans⟩
  | @present x hx =>
    obtain ⟨rest, hname, hrest, -⟩ := token_name_of_spans hx hspans
    exact ⟨rest, optional_eq_done_iff.2 (.inl ⟨x, rfl, hname⟩), hrest⟩

theorem shorthandReader_of_written {selections : List Selection} {ts : List Token}
    (h : Grouped '\x7b' '\x7d' Selection.Written selections ts) (hspans : Spans ts s []) :
    ∃ rest, shorthandReader s = .done ⟨.query, none, [], selections⟩ rest ∧ Spans [] rest [] := by
  obtain ⟨rest, hdone, hrest, -⟩ := (Selection.finds_setReader (s.length + 1)).reads selections ts
    [] s (Nat.lt_succ_self _) h (fun _ _ => trivial) (by rwa [List.append_nil])
  exact ⟨rest, bind_eq_done_iff.2 ⟨selections, rest, hdone, pure_eq_done_iff.2 ⟨rfl, rfl⟩⟩, hrest⟩

theorem operationReader_of_written {x? : Option String} {definitions : List VariableDefinition}
    {selections : List Selection} {ts₁ ts₂ ts₃ : List Token} (hname : Named x? ts₁)
    (hdefinitions : OptionallyGrouped '(' ')' VariableDefinition.Written definitions ts₂)
    (hselections : Grouped '\x7b' '\x7d' Selection.Written selections ts₃)
    (hspans : Spans ("query".toList :: (ts₁ ++ (ts₂ ++ ts₃))) s []) :
    ∃ rest, operationReader s = .done ⟨.query, x?, definitions, selections⟩ rest ∧
      Spans [] rest [] := by
  have hbrace : Follows (· = '\x7b') ts₃ := by
    cases hselections
    exact follows_cons rfl
  have hstart : Follows (isNameStart · = false) (ts₂ ++ ts₃) :=
    hdefinitions.follows (by decide) (hbrace.of_eq (by decide))
  obtain ⟨s₁, hquery, hspans₁, -⟩ := OperationKind.token_of_spans .query hspans
  obtain ⟨s₂, hoptional, hspans₂⟩ := optional_name_of_named hname hstart hspans₁
  obtain ⟨definitions?, s₃, hdone₃, hgetD, hspans₃, -⟩ :=
    (VariableDefinition.finds_listReader (s₂.length + 1)).optionallyGrouped hdefinitions
      (hbrace.ne (by decide)) (Nat.lt_succ_self _) hspans₂
  obtain ⟨rest, hdone, hrest, -⟩ := (Selection.finds_setReader (s₃.length + 1)).reads selections ts₃
    [] s₃ (Nat.lt_succ_self _) hselections (fun _ _ => trivial) (by rwa [List.append_nil])
  refine ⟨rest, ?_, hrest⟩
  simp only [operationReader, bind_eq_done_iff, pure_eq_done_iff, expecting_eq_done_iff,
    commit_eq_done_iff]
  refine ⟨_, s₁, hquery, x?, s₂, hoptional, definitions?, s₃, hdone₃, selections, rest, hdone, ?_,
    rfl⟩
  rw [hgetD]

/-- Every query that is written is read, up to what is ignored. -/
theorem reader_of_written {d : Document} {ts : List Token} (h : d.Written ts)
    (hspans : Spans ts s []) : ∃ rest, reader s = .done d rest ∧ Spans [] rest [] := by
  cases h with
  | @shorthand selections ts hselections =>
    obtain ⟨rest, hdone, hrest⟩ := shorthandReader_of_written hselections hspans.skip
    refine ⟨rest, ?_, hrest⟩
    have hbrace : (skip s).head? = some '\x7b' := by
      cases hselections
      exact hspans.head?_skip
    simp only [reader, bind_eq_done_iff]
    exact ⟨(), skip s, rfl, skip s, skip s, rfl, by rwa [if_pos (beq_iff_eq.2 hbrace)]⟩
  | operation hname hdefinitions hselections =>
    obtain ⟨rest, hdone, hrest⟩ :=
      operationReader_of_written hname hdefinitions hselections hspans.skip
    refine ⟨rest, ?_, hrest⟩
    have hword : (skip s).head? ≠ some '\x7b' := by
      intro hbrace
      have hname : IsName "query" := OperationKind.query.isName_word
      exact (hname.follows.ne (by decide)).head?_skip hspans _ hbrace rfl
    simp only [reader, bind_eq_done_iff]
    exact ⟨(), skip s, rfl, skip s, skip s, rfl, by rwa [if_neg (by simpa using hword)]⟩

end Document

end GraphQuery
