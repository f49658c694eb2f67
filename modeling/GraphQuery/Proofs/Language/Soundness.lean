import GraphQuery.Proofs.Language.Grammar

/-!
# What is read is written

Whatever a reader reads has been laid out in front of what it leaves: the value is written with some
tokens, and these span the text up to the rest. Each way of combining readers keeps this, so it
comes down to the readers of single tokens.

## Main definitions

* `Reader.Reads`: what a reader reads is laid out in front of the rest.

## Main results

* `Reader.Reads.nest`, `Reader.Reads.many`: recursion and repetition.
* `Value.reads_reader`, `Selection.reads_setReader`: the readers of values and of selections.
* `Document.reads_reader`: the reader of queries.
-/

namespace GraphQuery

open Reader Lexeme

variable {α : Type} {s rest : List Char}

/-! ### Single tokens -/

namespace Lexeme

theorem Spans.singleton {c : Char} {t : Token} (hc : beginsToken c = true)
    (hapart : Apart (c :: t) rest) : Spans [c :: t] (c :: t ++ rest) rest :=
  .token hc hapart (.nil rest)

/-- Skipping on both sides does not change the tokens. -/
theorem Spans.around {ts : List Token} (h : Spans ts (Lexeme.skip s) rest) :
    Spans ts s (Lexeme.skip rest) := by
  have hall := ((spans_skip s).append h).append (spans_skip rest)
  rwa [List.nil_append, List.append_nil] at hall

theorem token_eq_done_iff {p : Reader α} {a : α} :
    token p s = .done a rest ↔ ∃ middle, p (skip s) = .done a middle ∧ rest = skip middle := by
  simp only [token, bind_eq_done_iff, pure_eq_done_iff]
  constructor
  · rintro ⟨_, _, ⟨⟩, _, middle, hp, _, _, ⟨⟩, rfl, rfl⟩
    exact ⟨middle, hp, rfl⟩
  · rintro ⟨middle, hp, rfl⟩
    exact ⟨(), _, rfl, a, middle, hp, (), _, rfl, rfl, rfl⟩

/-- Punctuation is read where it stands in front. -/
theorem symbol_cons {c : Char} (hc : beginsToken c = true) (s : List Char) :
    symbol c (c :: s) = .done c (skip s) := by
  refine token_eq_done_iff.2 ⟨s, ?_, rfl⟩
  rw [skip_of_beginsToken hc]
  exact char_eq_done_iff.2 ⟨rfl, rfl⟩

theorem declines_symbol_of_head? {c : Char} (h : (skip s).head? ≠ some c) :
    Declines (symbol c) s :=
  declines_bind_of_done rfl ((declines_char_iff.2 h).bind _)

/-- A character that is no part of a name never joins what follows. -/
theorem apart_of_getLast? {t : Token} {c : Char} (h : t.getLast? = some c)
    (hc : isNameChar c = false) : Apart t rest := by
  intro d hd e _ hname
  rw [h] at hd
  cases hd
  rw [hc] at hname
  cases hname

/-- Nothing joins a text that does not go on with a part of a name. -/
theorem apart_of_head? {t : Token} (h : ∀ c ∈ rest.head?, isNameChar c = false) : Apart t rest :=
  fun _ _ d hd _ => h d hd

theorem isNameChar_beginsToken {c : Char} (h : isNameChar c = true) : beginsToken c = true := by
  rw [beginsToken, h, Bool.true_or]

/-- The first character of the token can begin one. -/
def BeginsToken (t : Token) : Prop := ∃ c t', t = c :: t' ∧ beginsToken c = true

theorem IsName.beginsToken {x : String} (h : IsName x) : BeginsToken x.toList := by
  obtain ⟨c, cs, hchars, hc, -⟩ := h
  exact ⟨c, cs, hchars, isNameChar_beginsToken (isNameChar_of_isNameStart hc)⟩

/-- Nothing is skipped in front of a name. -/
theorem IsName.skip_append {x : String} (hx : IsName x) (rest : List Char) :
    skip (x.toList ++ rest) = x.toList ++ rest := by
  obtain ⟨c, t, hchars, hc⟩ := hx.beginsToken
  rw [hchars]
  exact skip_of_beginsToken hc _

theorem spans_name {x : String} (h : name s = .done x rest) :
    IsName x ∧ Spans [x.toList] s rest := by
  obtain ⟨hx, rfl, hrest⟩ := name_eq_done_iff.1 h
  obtain ⟨c, t, hchars, hc⟩ := hx.beginsToken
  refine ⟨hx, ?_⟩
  rw [hchars]
  exact .singleton hc (apart_of_head? hrest)

theorem spans_token_name {x : String} (h : token name s = .done x rest) :
    IsName x ∧ Spans [x.toList] s rest := by
  obtain ⟨middle, hname, rfl⟩ := token_eq_done_iff.1 h
  obtain ⟨hx, hspans⟩ := spans_name hname
  exact ⟨hx, hspans.around⟩

/-- Punctuation: the character can begin a token, and is no part of a name. -/
def IsPunctuation (c : Char) : Prop := beginsToken c = true ∧ isNameChar c = false

instance (c : Char) : Decidable (IsPunctuation c) := inferInstanceAs (Decidable (_ ∧ _))

namespace Spans

variable {c : Char} {t : Token} {ts : List Token}

theorem separator (hc : c ∈ [' ', '\t', '\r', '\n', ',']) (h : Spans ts s rest) :
    Spans ts (c :: s) rest :=
  .ignored (.separator hc s) h

theorem punctuation (hc : IsPunctuation c) (h : Spans ts s rest) :
    Spans ([c] :: ts) (c :: s) rest :=
  .token hc.1 (apart_of_getLast? rfl hc.2) h

/-- A token in front of a character that belongs to no name. -/
theorem before (ht : BeginsToken t) (hc : isNameChar c = false) (h : Spans ts (c :: s) rest) :
    Spans (t :: ts) (t ++ c :: s) rest := by
  obtain ⟨d, t, rfl, hd⟩ := ht
  refine .token hd (apart_of_head? ?_) h
  rintro _ ⟨⟩
  exact hc

end Spans

theorem spans_symbol {c d : Char} (hc : IsPunctuation c) (h : symbol c s = .done d rest) :
    Spans [[c]] s rest := by
  obtain ⟨middle, hchar, rfl⟩ := token_eq_done_iff.1 h
  obtain ⟨-, hskip⟩ := char_eq_done_iff.1 hchar
  refine Spans.around ?_
  rw [hskip]
  exact .singleton hc.1 (apart_of_getLast? rfl hc.2)

theorem spans_enclosed {opening closing c d : Char} {ts : List Token} {s₁ s₂ : List Char}
    (hopening : IsPunctuation opening) (hopen : symbol opening s = .done c s₁)
    (h : Spans ts s₁ s₂) (hclosing : IsPunctuation closing)
    (hclose : symbol closing s₂ = .done d rest) :
    Spans ([opening] :: (ts ++ [[closing]])) s rest :=
  (spans_symbol hopening hopen).append (h.append (spans_symbol hclosing hclose))

theorem spans_string {x : String} (h : string s = .done x rest) :
    ∃ written, Spells x.toList written ∧ Spans ['"' :: (written ++ ['"'])] s rest := by
  obtain ⟨written, hwritten, rfl⟩ := string_eq_done_iff.1 h
  have hlast : ('"' :: (written ++ ['"'])).getLast? = some '"' := by
    rw [← List.cons_append, List.getLast?_concat]
  refine ⟨written, hwritten, ?_⟩
  have hspans : Spans ['"' :: (written ++ ['"'])] ('"' :: (written ++ ['"']) ++ rest) rest :=
    .singleton (by decide) (apart_of_getLast? hlast (by decide))
  simpa using hspans

end Lexeme

/-! ### Combining readers -/

namespace Reader

variable {β : Type} {p : Reader α} {G : α → List Token → Prop}

/-- What the reader reads is written with tokens that span the text up to the rest. -/
def Reads (p : Reader α) (G : α → List Token → Prop) : Prop :=
  ∀ s a rest, p s = .done a rest → ∃ ts, G a ts ∧ Spans ts s rest

namespace Reads

theorem unroll {body : Reader α → Reader α} (h : ∀ q, q.Reads G → (body q).Reads G) (n : Nat) :
    (unroll body n).Reads G := by
  induction n with
  | zero =>
    refine h _ ?_
    intro s a rest hdeclined
    cases hdeclined
  | succ n ih => exact h _ ih

/-- A reader that calls itself reads what its body reads with every such reader. -/
theorem nest {body : Reader α → Reader α} (h : ∀ q, q.Reads G → (body q).Reads G) :
    (nest body).Reads G :=
  fun s => unroll h s.length s

theorem token (h : p.Reads G) : (token p).Reads G := by
  intro s a rest hdone
  obtain ⟨middle, hp, rfl⟩ := token_eq_done_iff.1 hdone
  obtain ⟨ts, hts, hspans⟩ := h _ a middle hp
  exact ⟨ts, hts, hspans.around⟩

theorem many (h : p.Reads G) : (many p).Reads (Row G) := by
  refine nest fun again hagain => ?_
  intro s as rest hdone
  unfold manyStep at hdone
  split at hdone
  · next a middle hp =>
    split_ifs at hdone
    obtain ⟨as', _, hrest, heq⟩ := bind_eq_done_iff.1 hdone
    obtain ⟨rfl, rfl⟩ := pure_eq_done_iff.1 heq
    obtain ⟨ts, hts, hspans⟩ := h s a middle hp
    obtain ⟨us, hus, hspans'⟩ := hagain middle as' _ hrest
    exact ⟨ts ++ us, .cons hts hus, hspans.append hspans'⟩
  · cases hdone
    exact ⟨[], .nil, .nil s⟩
  · cases hdone

theorem many1 (h : p.Reads G) :
    (many1 p).Reads fun as ts => as ≠ [] ∧ Row G as ts := by
  intro s as rest hdone
  unfold Reader.many1 at hdone
  split at hdone
  · next a middle hp =>
    obtain ⟨as', _, hrest, heq⟩ := bind_eq_done_iff.1 hdone
    obtain ⟨rfl, rfl⟩ := pure_eq_done_iff.1 heq
    obtain ⟨ts, hts, hspans⟩ := h s a middle hp
    obtain ⟨us, hus, hspans'⟩ := h.many middle as' _ hrest
    exact ⟨ts ++ us, ⟨List.cons_ne_nil a as', .cons hts hus⟩, hspans.append hspans'⟩
  · cases hdone
  · cases hdone

theorem grouped {opening closing : Char} {cause cause' : String} (h : p.Reads G)
    (hopening : IsPunctuation opening) (hclosing : IsPunctuation closing) :
    (enclosed (symbol opening) (expecting cause (commit (Reader.many1 p)))
      (expecting cause' (commit (symbol closing)))).Reads (Grouped opening closing G) := by
  intro s as rest hdone
  simp only [enclosed, bind_eq_done_iff, pure_eq_done_iff, expecting_eq_done_iff,
    commit_eq_done_iff] at hdone
  obtain ⟨_, s₁, hopen, as, s₂, hmany, _, _, hclose, rfl, rfl⟩ := hdone
  obtain ⟨ts, ⟨hne, hrow⟩, hspans⟩ := h.many1 s₁ as s₂ hmany
  obtain ⟨a, as, rfl⟩ := List.exists_cons_of_ne_nil hne
  exact ⟨_, .intro hrow, spans_enclosed hopening hopen hspans hclosing hclose⟩

/-- A group that may be missing. -/
theorem optionallyGrouped {opening closing : Char} {items : Reader (List α)}
    (h : items.Reads (Grouped opening closing G)) {as? : Option (List α)}
    (hdone : optional items s = .done as? rest) :
    ∃ ts, OptionallyGrouped opening closing G (as?.getD []) ts ∧ Spans ts s rest := by
  rcases optional_eq_done_iff.1 hdone with ⟨as, rfl, hitems⟩ | ⟨rfl, rfl, -⟩
  · obtain ⟨ts, hts, hspans⟩ := h s as rest hitems
    exact ⟨ts, .present hts, hspans⟩
  · exact ⟨[], .absent, .nil _⟩

end Reads

end Reader

/-! ### Values -/

namespace Value

theorem spelled_ofName (constant : Bool) {x : String} (hx : IsName x) :
    (ofName x).Spelled constant x.toList := by
  unfold ofName
  split_ifs with htrue hfalse hnull
  · rw [beq_iff_eq.1 htrue]
    exact .boolean true
  · rw [beq_iff_eq.1 hfalse]
    exact .boolean false
  · rw [beq_iff_eq.1 hnull]
    exact .null
  · refine .enum hx ?_
    simp_all

theorem reads_nameReader (constant : Bool) : nameReader.Reads (Written constant) := by
  intro s v rest h
  obtain ⟨x, middle, hname, heq⟩ := bind_eq_done_iff.1 h
  obtain ⟨rfl, rfl⟩ := pure_eq_done_iff.1 heq
  obtain ⟨hx, hspans⟩ := spans_name hname
  exact ⟨_, .token (spelled_ofName constant hx), hspans⟩

theorem reads_variableReader : variableReader.Reads (Written false) := by
  intro s v rest h
  simp only [variableReader, bind_eq_done_iff, pure_eq_done_iff, expecting_eq_done_iff,
    commit_eq_done_iff, char_eq_done_iff, name_eq_done_iff] at h
  obtain ⟨_, _, ⟨rfl, rfl⟩, x, _, ⟨hx, rfl, hrest⟩, rfl, rfl⟩ := h
  exact ⟨_, .token (.var hx rfl), .singleton (by decide) (apart_of_head? hrest)⟩

theorem spelled_of_ofNumeral (constant : Bool) {n : Numeral} {t : Token} {v : Value}
    (ht : n.Spelled t) (h : ofNumeral n = .ok v) : v.Spelled constant t := by
  simp only [ofNumeral] at h
  split_ifs at h with hwhole hrange hfinite
  · cases h
    exact .int ht hwhole
      (Int64.toInt_ofInt_of_le hrange.1 (Int.lt_of_le_of_lt hrange.2 (by decide)))
  · cases h
    exact .float ht (by simpa using hwhole) hfinite

/-- A minus sign or none, and digits, spell the integer that they denote. -/
theorem spelled_of_isDigits (constant negative : Bool) {ds : List Char} {i : Int64}
    (hds : IsDigits ds) (hi : i.toInt = Numeral.toInt ⟨negative, ds, none, none⟩) :
    Spelled constant (.int i) ((if negative then ['-'] else []) ++ ds) := by
  have ht : Numeral.Spelled ⟨negative, ds, none, none⟩ _ := .intro hds .absent .absent
  rw [List.append_nil, List.append_nil] at ht
  exact .int ht rfl hi

theorem beginsToken_of_isNumeral {c : Char} (h : (c == '-' || c.isDigit) = true) :
    beginsToken c = true := by
  rw [Bool.or_eq_true, beq_iff_eq] at h
  rcases h with rfl | hdigit
  · decide
  · exact isNameChar_beginsToken (by simp [isNameChar, Char.isAlphanum, hdigit])

theorem reads_numberReader (constant : Bool) : numberReader.Reads (Written constant) := by
  intro s v rest h
  unfold numberReader at h
  split at h
  · next n middle hnumeral =>
    split_ifs at h with hruns
    split at h
    · next hv =>
      cases h
      obtain ⟨t, ht, rfl⟩ := exists_spelled_of_numeral hnumeral
      refine ⟨[t], .token (spelled_of_ofNumeral constant ht hv), ?_⟩
      obtain ⟨c, t, rfl, hc⟩ := ht.exists_cons
      refine .singleton (beginsToken_of_isNumeral hc) (apart_of_head? fun d hd => ?_)
      simp_all
    · cases h
  · cases h
  · cases h

theorem reads_listReader {constant : Bool} {item : Reader Value}
    (hitem : item.Reads (Written constant)) : (listReader item).Reads (Written constant) := by
  intro s v rest h
  simp only [listReader, bind_eq_done_iff, pure_eq_done_iff, expecting_eq_done_iff,
    commit_eq_done_iff] at h
  obtain ⟨_, s₁, hopen, items, s₂, hitems, _, _, hclose, rfl, rfl⟩ := h
  obtain ⟨ts, hrow, hspans⟩ := hitem.token.many s₁ items s₂ hitems
  exact ⟨_, .list hrow, spans_enclosed (by decide) hopen hspans (by decide) hclose⟩

theorem reads_dispatch {constant : Bool} {item : Reader Value}
    (hitem : item.Reads (Written constant)) :
    (dispatch constant item).Reads (Written constant) := by
  intro s v rest h
  unfold dispatch at h
  split at h
  · exact reads_nameReader constant _ v rest h
  · split_ifs at h with hdollar hconstant hquote hbracket hbrace hnumber
    · cases h
    · rw [Bool.not_eq_true] at hconstant
      subst hconstant
      exact reads_variableReader _ v rest h
    · obtain ⟨x, _, hstring, heq⟩ := bind_eq_done_iff.1 h
      obtain ⟨rfl, rfl⟩ := pure_eq_done_iff.1 heq
      obtain ⟨written, hwritten, hspans⟩ := spans_string hstring
      exact ⟨_, .token (.string hwritten), hspans⟩
    · exact reads_listReader hitem _ v rest h
    · cases h
    · exact reads_numberReader constant _ v rest h
    · exact reads_nameReader constant _ v rest h

/-- What is read as a value is written as one. -/
theorem reads_reader (constant : Bool) : (reader constant).Reads (Written constant) := by
  refine Reads.nest fun item hitem => ?_
  intro s v rest h
  obtain ⟨_, _, ⟨⟩, hdispatch⟩ := bind_eq_done_iff.1 h
  obtain ⟨ts, hts, hspans⟩ := reads_dispatch hitem _ v rest hdispatch
  exact ⟨ts, hts, (spans_skip s).append hspans⟩

end Value

/-! ### Types -/

namespace TypeRef

theorem reads_listReader {inner : Reader TypeRef} (hinner : inner.Reads Written) :
    (listReader inner).Reads fun type ts => type.Written ts ∧ ∀ t, type ≠ .nonNull t := by
  intro s type rest h
  simp only [listReader, bind_eq_done_iff, pure_eq_done_iff, expecting_eq_done_iff,
    commit_eq_done_iff] at h
  obtain ⟨_, s₁, hopen, item, s₂, hitem, _, _, hclose, rfl, rfl⟩ := h
  obtain ⟨ts, hts, hspans⟩ := hinner s₁ item s₂ hitem
  exact ⟨_, ⟨.list hts, fun t ht => by cases ht⟩,
    spans_enclosed (by decide) hopen hspans (by decide) hclose⟩

theorem reads_namedReader :
    namedReader.Reads fun type ts => type.Written ts ∧ ∀ t, type ≠ .nonNull t := by
  intro s type rest h
  obtain ⟨x, _, hname, heq⟩ := bind_eq_done_iff.1 h
  obtain ⟨rfl, rfl⟩ := pure_eq_done_iff.1 heq
  obtain ⟨hx, hspans⟩ := spans_token_name hname
  exact ⟨_, ⟨.named hx, fun t ht => by cases ht⟩, hspans⟩

/-- What is read as a type is written as one. -/
theorem reads_reader : reader.Reads Written := by
  refine Reads.nest fun inner hinner => ?_
  intro s type rest h
  simp only [readerStep, bind_eq_done_iff] at h
  obtain ⟨base, s₁, hbase, mark, s₂, hmark, h⟩ := h
  have hwritten : ∃ ts, (base.Written ts ∧ ∀ t, base ≠ .nonNull t) ∧ Spans ts s s₁ := by
    obtain ⟨p, hp, hdone⟩ := exists_of_oneOfFrom hbase
    rcases List.mem_cons.1 hp with rfl | hp
    · exact reads_listReader hinner s base s₁ hdone
    · rw [List.mem_singleton.1 hp] at hdone
      exact reads_namedReader s base s₁ hdone
  obtain ⟨ts, ⟨hts, hne⟩, hspans⟩ := hwritten
  rcases optional_eq_done_iff.1 hmark with ⟨_, rfl, hsymbol⟩ | ⟨rfl, rfl, -⟩
  · obtain ⟨rfl, rfl⟩ := pure_eq_done_iff.1 h
    exact ⟨_, .nonNull hts hne, hspans.append (spans_symbol (by decide) hsymbol)⟩
  · obtain ⟨rfl, rfl⟩ := pure_eq_done_iff.1 h
    exact ⟨ts, hts, hspans⟩

end TypeRef

/-! ### Selections -/

namespace Argument

theorem reads_reader (constant : Bool) : (reader constant).Reads (Written constant) := by
  intro s a rest h
  simp only [reader, bind_eq_done_iff, pure_eq_done_iff, expecting_eq_done_iff,
    commit_eq_done_iff] at h
  obtain ⟨x, s₁, hname, _, s₂, hcolon, v, _, hvalue, rfl, rfl⟩ := h
  obtain ⟨hx, hspans⟩ := spans_token_name hname
  obtain ⟨ts, hts, hspans'⟩ := (Value.reads_reader constant).token s₂ v _ hvalue
  exact ⟨_, .intro hx hts, hspans.append ((spans_symbol (by decide) hcolon).append hspans')⟩

theorem reads_listReader (constant : Bool) :
    (listReader constant).Reads (Grouped '(' ')' (Written constant)) :=
  (reads_reader constant).grouped (by decide) (by decide)

end Argument

namespace Selection

theorem refuseAt_eq_done {word : List Char} {cause : String} {u : Unit}
    (h : refuseAt word cause s = .done u rest) : rest = s := by
  unfold refuseAt at h
  split_ifs at h
  · cases h
  · cases h
    rfl

theorem reads_reader {below : Reader (List Selection)}
    (hbelow : below.Reads (Grouped '\x7b' '\x7d' Written)) : (reader below).Reads Written := by
  intro s selection rest h
  simp only [reader, bind_eq_done_iff, pure_eq_done_iff] at h
  obtain ⟨_, _, ⟨⟩, _, s₁, hfragment, first, s₂, hfirst, aliased, s₃, haliased, arguments, s₄,
    harguments, _, s₅, hdirective, selections, _, hselections, rfl, rfl⟩ := h
  obtain rfl := refuseAt_eq_done hfragment
  obtain rfl := refuseAt_eq_done hdirective
  obtain ⟨us, hus, hspans'⟩ := (Argument.reads_listReader false).optionallyGrouped harguments
  obtain ⟨vs, hvs, hspans''⟩ := hbelow.optionallyGrouped hselections
  obtain ⟨hx, hspans⟩ := spans_token_name hfirst
  have hnamed : ∃ ts, Named (aliased.map fun _ => first) (aliased.getD first) ts ∧
      Spans ts s s₃ := by
    rcases optional_eq_done_iff.1 haliased with ⟨field, rfl, hfield⟩ | ⟨rfl, rfl, -⟩
    · simp only [aliasedName, bind_eq_done_iff, expecting_eq_done_iff, commit_eq_done_iff] at hfield
      obtain ⟨_, s', hcolon, hname⟩ := hfield
      obtain ⟨hfield, hname⟩ := spans_token_name hname
      refine ⟨_, .aliased hx hfield, (spans_skip _).append (hspans.append ?_)⟩
      exact (spans_symbol (by decide) hcolon).append hname
    · exact ⟨_, .plain hx, (spans_skip _).append hspans⟩
  obtain ⟨ts, hts, hspans⟩ := hnamed
  exact ⟨_, .intro hts hus hvs, hspans.append (hspans'.append hspans'')⟩

/-- What is read as selections between braces is written as such. -/
theorem reads_setReader : setReader.Reads (Grouped '\x7b' '\x7d' Written) := by
  refine Reads.nest fun below hbelow => ?_
  intro s selections rest h
  simp only [setReaderStep, bind_eq_done_iff, expecting_eq_done_iff, commit_eq_done_iff] at h
  obtain ⟨_, s₁, hopen, ss, s₂, hselections, _, s₃, hclose, h⟩ := h
  obtain ⟨ts, hrow, hspans⟩ := (reads_reader hbelow).many s₁ ss s₂ hselections
  cases ss with
  | nil => cases h
  | cons s ss =>
    obtain ⟨rfl, rfl⟩ := pure_eq_done_iff.1 h
    exact ⟨_, .intro hrow, spans_enclosed (by decide) hopen hspans (by decide) hclose⟩

end Selection

/-! ### Queries -/

namespace VariableDefinition

theorem exists_defaultWritten_of_optional {v? : Option Value}
    (h : optional defaultReader s = .done v? rest) :
    ∃ ts, DefaultWritten v? ts ∧ Spans ts s rest := by
  rcases optional_eq_done_iff.1 h with ⟨v, rfl, hv⟩ | ⟨rfl, rfl, -⟩
  · simp only [defaultReader, bind_eq_done_iff, expecting_eq_done_iff, commit_eq_done_iff] at hv
    obtain ⟨_, s', hequals, hv⟩ := hv
    obtain ⟨ts, hts, hspans⟩ := (Value.reads_reader true).token s' v _ hv
    exact ⟨_, .present hts, (spans_symbol (by decide) hequals).append hspans⟩
  · exact ⟨[], .absent, .nil _⟩

theorem reads_reader : reader.Reads Written := by
  intro s d rest h
  simp only [reader, bind_eq_done_iff, pure_eq_done_iff, expecting_eq_done_iff,
    commit_eq_done_iff] at h
  obtain ⟨_, s₁, hdollar, x, s₂, hname, _, s₃, hcolon, type, s₄, htype, default?, s₅, hdefault, rfl,
    rfl⟩ := h
  obtain ⟨hx, hspans⟩ := spans_name hname
  obtain ⟨ts, hts, hspans'⟩ := TypeRef.reads_reader s₃ type s₄ htype
  obtain ⟨us, hus, hspans''⟩ := exists_defaultWritten_of_optional hdefault
  refine ⟨_, .intro hx hts hus, ?_⟩
  exact (spans_symbol (by decide) hdollar).append (hspans.append
    ((spans_symbol (by decide) hcolon).append (hspans'.append hspans'')))

theorem reads_listReader : listReader.Reads (Grouped '(' ')' Written) :=
  reads_reader.grouped (by decide) (by decide)

end VariableDefinition

namespace OperationKind

/-- What is read as the word of an operation is the word of its kind. -/
theorem reads_reader : reader.Reads fun kind ts => ts = [kind.word.toList] := by
  intro s kind rest h
  obtain ⟨p, hp, hdone⟩ := exists_of_oneOfFrom h
  have hword : ∃ kind', p = wordReader kind' := by
    simp only [List.mem_cons, List.not_mem_nil, or_false] at hp
    rcases hp with rfl | rfl | rfl
    all_goals exact ⟨_, rfl⟩
  obtain ⟨kind', rfl⟩ := hword
  simp only [wordReader, keyword, bind_eq_done_iff, pure_eq_done_iff, filter_eq_done_iff,
    beq_iff_eq] at hdone
  obtain ⟨_, _, ⟨hname, rfl⟩, rfl, rfl⟩ := hdone
  exact ⟨_, rfl, (spans_name hname).2⟩

end OperationKind

namespace Document

theorem exists_named_of_optional {x? : Option String}
    (h : optional (token Lexeme.name) s = .done x? rest) :
    ∃ ts, Named x? ts ∧ Spans ts s rest := by
  rcases optional_eq_done_iff.1 h with ⟨x, rfl, hname⟩ | ⟨rfl, rfl, -⟩
  · obtain ⟨hx, hspans⟩ := spans_token_name hname
    exact ⟨_, .present hx, hspans⟩
  · exact ⟨[], .absent, .nil _⟩

theorem reads_shorthandReader : shorthandReader.Reads Written := by
  intro s d rest h
  obtain ⟨selections, _, hselections, heq⟩ := bind_eq_done_iff.1 h
  obtain ⟨rfl, rfl⟩ := pure_eq_done_iff.1 heq
  obtain ⟨ts, hts, hspans⟩ := Selection.reads_setReader s selections _ hselections
  exact ⟨ts, .shorthand hts, hspans⟩

/-- An operation of any kind is written like a query, but for the word that introduces it. -/
theorem reads_operationReader :
    operationReader.Reads fun d ts => ∃ us, ts = d.kind.word.toList :: us ∧
      Written { d with kind := .query } ("query".toList :: us) := by
  intro s d rest h
  simp only [operationReader, bind_eq_done_iff, pure_eq_done_iff, expecting_eq_done_iff,
    commit_eq_done_iff] at h
  obtain ⟨kind, s₁, hkind, x?, s₂, hname, definitions, s₃, hdefinitions, selections, _, hselections,
    rfl, rfl⟩ := h
  obtain ⟨_, rfl, hspans⟩ := OperationKind.reads_reader.token s kind s₁ hkind
  obtain ⟨ts, hts, hspans₁⟩ := exists_named_of_optional hname
  obtain ⟨us, hus, hspans₂⟩ := VariableDefinition.reads_listReader.optionallyGrouped hdefinitions
  obtain ⟨vs, hvs, hspans₃⟩ := Selection.reads_setReader s₃ selections _ hselections
  exact ⟨_, ⟨ts ++ (us ++ vs), rfl, .operation hts hus hvs⟩,
    hspans.append (hspans₁.append (hspans₂.append hspans₃))⟩

theorem reader_eq_done {d : Document} (h : reader s = .done d rest) :
    shorthandReader (skip s) = .done d rest ∨ operationReader (skip s) = .done d rest := by
  simp only [reader, bind_eq_done_iff] at h
  obtain ⟨_, _, ⟨⟩, _, _, ⟨⟩, h⟩ := h
  split_ifs at h
  · exact .inl h
  · exact .inr h

/-- What is read as a query is written as one. -/
theorem reads_reader : reader.Reads fun d ts => d.kind = .query → d.Written ts := by
  intro s d rest h
  rcases reader_eq_done h with h | h
  · obtain ⟨ts, hts, hspans⟩ := reads_shorthandReader _ d rest h
    exact ⟨ts, fun _ => hts, (spans_skip s).append hspans⟩
  · obtain ⟨_, ⟨us, rfl, hus⟩, hspans⟩ := reads_operationReader _ d rest h
    refine ⟨_, ?_, (spans_skip s).append hspans⟩
    obtain ⟨kind, _, _, _⟩ := d
    rintro rfl
    exact hus

/-- What is read, of whatever kind, could have been written as a query. -/
theorem exists_written_of_reader {d : Document} (h : reader s = .done d rest) :
    ∃ ts, Written { d with kind := .query } ts := by
  rcases reader_eq_done h with h | h
  · obtain ⟨ts, hts, -⟩ := reads_shorthandReader _ d rest h
    cases hts with
    | shorthand hselections => exact ⟨_, .shorthand hselections⟩
    | operation hname hdefinitions hselections =>
      exact ⟨_, .operation hname hdefinitions hselections⟩
  · obtain ⟨_, ⟨us, -, hus⟩, -⟩ := reads_operationReader _ d rest h
    exact ⟨_, hus⟩

end Document

end GraphQuery
