import GraphQuery.Language.Definition
import GraphQuery.Proofs.Language.Completeness

/-!
# Descriptions

A definition and its parts may have a description before them: a string, or a block that stands
between triple quotes. A block is taken as it stands, so it ends with the first three quotes in a
row. Two quotes alone are an empty string, unless a third follows; no description is followed by
one.

## Main definitions

* `Lexeme.ClosesBlock`: the first three quotes in a row are the ones behind the block.
* `Lexeme.Description`: the tokens that are descriptions.
* `Described`: something with or without a description.

## Main results

* `Lexeme.splitBefore?_tripleQuote_eq_some_iff`, `Lexeme.blockString_eq_done_iff`: how blocks are
  read.
* `Reader.Reads.described`: what is read behind a description is written behind one.
* `Reader.Finds.described`: what is written behind a description is read behind it.
-/

namespace GraphQuery

open Reader Lexeme

variable {α : Type} {s rest : List Char} {us : List Token}

/-! ### Blocks -/

namespace Lexeme

/-- Three quotes in a row stand behind the block and nowhere before. -/
def ClosesBlock (body : List Char) : Prop :=
  ∀ front back, body ++ tripleQuote = front ++ (tripleQuote ++ back) → back = []

theorem closesBlock_nil : ClosesBlock [] := by
  intro front back heq
  have hlength := congrArg List.length heq
  simp only [List.length_append, List.length_nil] at hlength
  exact List.length_eq_zero_iff.1 (by omega)

theorem closesBlock_cons_iff {c : Char} {body : List Char} :
    ClosesBlock (c :: body) ↔ ¬ tripleQuote <+: c :: body ++ tripleQuote ∧ ClosesBlock body := by
  constructor
  · intro h
    refine ⟨?_, fun front back heq => h (c :: front) back ?_⟩
    · rintro ⟨back, heq⟩
      obtain rfl := h [] back heq.symm
      have hlength := congrArg List.length heq
      simp only [List.length_append, List.length_cons, List.length_nil] at hlength
      omega
    · rw [List.cons_append, heq, List.cons_append]
  · rintro ⟨hfirst, hbody⟩ front back heq
    cases front with
    | nil => exact absurd ⟨back, heq.symm⟩ hfirst
    | cons d front => exact hbody front back (List.cons.inj heq).2

/-- Whether three quotes stand in front of a block is decided before it is closed. -/
theorem tripleQuote_prefix_iff {body : List Char} :
    tripleQuote <+: body ++ (tripleQuote ++ rest) ↔ tripleQuote <+: body ++ tripleQuote := by
  rw [← List.append_assoc]
  constructor
  · intro h
    exact List.prefix_of_prefix_length_le h (List.prefix_append _ _) (by simp)
  · exact fun h => h.trans (List.prefix_append _ _)

/-- A text is split where three quotes stand for the first time. -/
theorem splitBefore?_tripleQuote_eq_some_iff {body : List Char} :
    splitBefore? tripleQuote s = some (body, rest) ↔
      ∃ back, rest = tripleQuote ++ back ∧ s = body ++ rest ∧ ClosesBlock body := by
  induction s generalizing body with
  | nil =>
    constructor
    · intro h
      cases h
    · rintro ⟨back, rfl, heq, -⟩
      cases body <;> cases heq
  | cons c s ih =>
    rw [splitBefore?]
    by_cases hprefix : tripleQuote <+: c :: s
    · rw [if_pos (List.isPrefixOf_iff_prefix.2 hprefix), Option.some.injEq, Prod.mk.injEq]
      constructor
      · rintro ⟨rfl, rfl⟩
        obtain ⟨back, hback⟩ := hprefix
        exact ⟨back, hback.symm, rfl, closesBlock_nil⟩
      · rintro ⟨back, rfl, heq, hcloses⟩
        cases body with
        | nil => exact ⟨rfl, heq⟩
        | cons d body =>
          -- The block would go on behind three quotes.
          rw [heq, tripleQuote_prefix_iff] at hprefix
          exact absurd hprefix (closesBlock_cons_iff.1 hcloses).1
    · rw [if_neg (by rwa [List.isPrefixOf_iff_prefix]), Option.map_eq_some_iff]
      constructor
      · rintro ⟨⟨front, rest'⟩, hsplit, heq⟩
        cases heq
        obtain ⟨back, rfl, rfl, hcloses⟩ := ih.1 hsplit
        refine ⟨back, rfl, rfl, closesBlock_cons_iff.2 ⟨?_, hcloses⟩⟩
        rwa [← tripleQuote_prefix_iff]
      · rintro ⟨back, rfl, heq, hcloses⟩
        cases body with
        | nil => exact absurd ⟨back, heq.symm⟩ hprefix
        | cons d body =>
          cases heq
          exact ⟨(body, _), ih.2 ⟨back, rfl, rfl, (closesBlock_cons_iff.1 hcloses).2⟩, rfl⟩

theorem blockString_eq_done_iff {x : String} :
    blockString s = .done x rest ↔ ∃ body, x = String.ofList body ∧ ClosesBlock body ∧
      s = tripleQuote ++ (body ++ (tripleQuote ++ rest)) := by
  have htakeUntil {s rest body : List Char} : takeUntil tripleQuote s = .done body rest ↔
      splitBefore? tripleQuote s = some (body, rest) := by
    unfold takeUntil
    cases splitBefore? tripleQuote s <;> simp [Prod.ext_iff]
  simp only [blockString, bind_eq_done_iff, pure_eq_done_iff, expecting_eq_done_iff,
    commit_eq_done_iff, literal_eq_done_iff, htakeUntil, splitBefore?_tripleQuote_eq_some_iff]
  constructor
  · rintro ⟨_, _, rfl, body, _, ⟨back, rfl, rfl, hcloses⟩, _, _, heq, rfl, rfl⟩
    rw [List.append_cancel_left heq]
    exact ⟨body, rfl, hcloses, rfl⟩
  · rintro ⟨body, rfl, hcloses, rfl⟩
    exact ⟨(), _, rfl, body, _, ⟨rest, rfl, rfl, hcloses⟩, (), rest, rfl, rfl, rfl⟩

/-! ### Descriptions -/

/-- A description: a string, or a block between triple quotes. -/
inductive Description : Token → Prop
  | string {text written : List Char} (h : Spells text written) :
    Description ('"' :: (written ++ ['"']))
  | block {body : List Char} (h : ClosesBlock body) :
    Description (tripleQuote ++ (body ++ tripleQuote))

/-- The token is laid out whatever follows, because it ends with a quote. -/
theorem Description.spans {t : Token} (h : Description t) (rest : List Char) :
    Spans [t] (t ++ rest) rest := by
  cases h with
  | @string _ written =>
    have hlast : ('"' :: (written ++ ['"'])).getLast? = some '"' := by
      rw [← List.cons_append, List.getLast?_concat]
    exact .singleton (by decide) (apart_of_getLast? hlast (by decide))
  | @block body =>
    have hlast : (tripleQuote ++ (body ++ tripleQuote)).getLast? = some '"' := by
      rw [List.getLast?_append, List.getLast?_append]
      rfl
    exact .singleton (by decide) (apart_of_getLast? hlast (by decide))

/-- What is read as a description is one. -/
theorem exists_description_of_oneOf {x : String}
    (h : oneOf [blockString, Lexeme.string] s = .done x rest) :
    ∃ t, Description t ∧ s = t ++ rest := by
  obtain ⟨p, hp, hdone⟩ := exists_of_oneOfFrom h
  rcases List.mem_cons.1 hp with rfl | hp
  · obtain ⟨body, -, hbody, rfl⟩ := blockString_eq_done_iff.1 hdone
    exact ⟨_, .block hbody, by simp⟩
  · rw [List.mem_singleton.1 hp] at hdone
    obtain ⟨written, hwritten, rfl⟩ := string_eq_done_iff.1 hdone
    exact ⟨_, .string hwritten, by simp⟩

/-- Where no quote stands, there is no description. -/
theorem declines_description (h : s.head? ≠ some '"') :
    Declines (oneOf [blockString, Lexeme.string]) s := by
  apply declines_oneOfFrom
  intro p hp
  rcases List.mem_cons.1 hp with rfl | hp
  · refine (declines_literal_iff.2 ?_).bind _
    rintro ⟨rest, rfl⟩
    exact h rfl
  · rw [List.mem_singleton.1 hp]
    cases s with
    | nil => exact ⟨_, rfl⟩
    | cons c s =>
      have hc : c ≠ '"' := by
        rintro rfl
        exact h rfl
      exact ⟨_, if_neg (by simpa using hc)⟩

/-- A description is read, unless a quote follows. -/
theorem Description.oneOf_append {t : Token} (h : Description t) (hrest : rest.head? ≠ some '"') :
    ∃ x, oneOf [blockString, Lexeme.string] (t ++ rest) = .done x rest := by
  cases h with
  | @block body hbody =>
    refine ⟨String.ofList body, oneOfFrom_cons_of_done (blockString_eq_done_iff.2 ?_)⟩
    exact ⟨body, rfl, hbody, by simp⟩
  | @string text written hwritten =>
    have hstring : Lexeme.string ('"' :: (written ++ ['"']) ++ rest) =
        .done (String.ofList text) rest :=
      string_eq_done_iff.2 ⟨written, by rwa [String.toList_ofList], by simp⟩
    -- Only an empty string begins with two quotes, and no third one follows it.
    have hblock : ¬ tripleQuote <+: '"' :: (written ++ ['"']) ++ rest := by
      rintro ⟨back, heq⟩
      cases hwritten with
      | nil =>
        cases heq
        exact hrest rfl
      | plain hc =>
        obtain rfl := (List.cons.inj (List.cons.inj heq).2).1
        exact absurd List.mem_cons_self hc
      | short => cases heq
      | code => cases heq
    obtain ⟨trail, htrail⟩ := oneOfFrom_cons_of_declines
      ((declines_literal_iff.2 hblock).bind _ : Declines blockString _)
    exact ⟨_, htrail.trans (oneOfFrom_cons_of_done hstring)⟩

end Lexeme

/-- Something with a description before it, or without one. -/
inductive Described (G : α → List Token → Prop) : α → List Token → Prop
  | plain {a : α} {ts : List Token} (h : G a ts) : Described G a ts
  | described {a : α} {t : Token} {ts : List Token} (ht : Description t) (h : G a ts) :
    Described G a (t :: ts)

/-- Behind its description, or without one, the thing itself is written. -/
theorem Described.exists_written {G : α → List Token → Prop} {a : α} {ts : List Token}
    (h : Described G a ts) : ∃ us, G a us := by
  cases h with
  | plain h => exact ⟨ts, h⟩
  | described _ h => exact ⟨_, h⟩

namespace Reader

variable {p : Reader α} {G : α → List Token → Prop}

theorem skipDescription_eq_done_iff {u : Unit} :
    skipDescription s = .done u rest ↔
      ∃ x?, optional (token (oneOf [blockString, Lexeme.string])) s = .done x? rest := by
  rw [skipDescription, bind_eq_done_iff]
  constructor
  · rintro ⟨x?, _, hoptional, heq⟩
    obtain ⟨-, rfl⟩ := pure_eq_done_iff.1 heq
    exact ⟨x?, hoptional⟩
  · rintro ⟨x?, hoptional⟩
    exact ⟨x?, rest, hoptional, rfl⟩

/-- What is read behind a description is written behind one. -/
theorem Reads.described (h : p.Reads G) : (skipDescription >>= fun _ => p).Reads (Described G) := by
  intro s a rest hdone
  obtain ⟨_, middle, hskip, hp⟩ := bind_eq_done_iff.1 hdone
  obtain ⟨ts, hts, hspans⟩ := h middle a rest hp
  obtain ⟨x?, hoptional⟩ := skipDescription_eq_done_iff.1 hskip
  rcases optional_eq_done_iff.1 hoptional with ⟨x, rfl, htoken⟩ | ⟨rfl, rfl, -⟩
  · obtain ⟨behind, hx, rfl⟩ := token_eq_done_iff.1 htoken
    obtain ⟨t, ht, htext⟩ := exists_description_of_oneOf hx
    have hdescription : Spans [t] (skip s) behind := by
      rw [htext]
      exact ht.spans behind
    exact ⟨t :: ts, .described ht hts, hdescription.around.append hspans⟩
  · exact ⟨ts, .plain hts, hspans⟩

/-- Where no description can begin, none is skipped. -/
theorem skipDescription_of_follows (hus : Follows (· ≠ '"') us) (hspans : Spans us s []) :
    skipDescription s = .done () s := by
  have hdeclines : Declines (oneOf [blockString, Lexeme.string]) (skip s) :=
    declines_description fun hhead => hus.head?_skip hspans '"' hhead rfl
  refine skipDescription_eq_done_iff.2 ⟨none, optional_eq_done_iff.2 (.inr ⟨rfl, rfl, ?_⟩)⟩
  exact declines_bind_of_done rfl (hdeclines.bind _)

/-- A description is skipped, up to what follows it. -/
theorem skipDescription_of_description {t : Token} (ht : Description t)
    (hus : Follows (· ≠ '"') us) (hspans : Spans (t :: us) s []) :
    ∃ rest, skipDescription s = .done () rest ∧ Spans us rest [] ∧ rest.length < s.length := by
  obtain ⟨c, t', s', rfl, -, hskip, -, hs'⟩ := hspans.exists_of_cons
  obtain ⟨x, hx⟩ := ht.oneOf_append (hus.head?_ne hs' (by decide))
  rw [← hskip] at hx
  refine ⟨skip s', skipDescription_eq_done_iff.2 ⟨some x, ?_⟩, hs'.skip, ?_⟩
  · exact optional_eq_done_iff.2 (.inl ⟨x, rfl, token_eq_done_iff.2 ⟨s', hx, rfl⟩⟩)
  · have hlength := length_skip_le s
    have hlength' := length_skip_le s'
    rw [hskip] at hlength
    simp only [List.cons_append, List.length_cons, List.length_append] at hlength
    omega

/-- What is written behind a description is read behind it, if neither what is described nor what
stops the reader begins with a quote. -/
theorem Finds.described {n : Nat} {follow stop : Char → Prop} (h : p.Finds n G follow stop)
    (hfirst : ∀ a ts us, G a ts → Follows (· ≠ '"') (ts ++ us)) (hstop : ∀ c, stop c → c ≠ '"') :
    (skipDescription >>= fun _ => p).Finds n (Described G) follow stop where
  reads a ts us s hs ha hus hspans := by
    cases ha with
    | plain ha =>
      have hskip := skipDescription_of_follows (hfirst a ts us ha) hspans
      obtain ⟨rest, hdone, hrest⟩ := h.reads a ts us s hs ha hus hspans
      exact ⟨rest, bind_eq_done_iff.2 ⟨(), s, hskip, hdone⟩, hrest⟩
    | @described t ts ht ha =>
      obtain ⟨middle, hskip, hmiddle, hlength⟩ :=
        skipDescription_of_description ht (hfirst a ts us ha) hspans
      obtain ⟨rest, hdone, hrest, hlength'⟩ := h.reads a ts us middle (by omega) ha hus hmiddle
      exact ⟨rest, bind_eq_done_iff.2 ⟨(), middle, hskip, hdone⟩, hrest, by omega⟩
  declines us s hs hus hspans := by
    have hskip := skipDescription_of_follows (hus.mono hstop) hspans
    exact declines_bind_of_done hskip (h.declines us s hs hus hspans)

end Reader

end GraphQuery
