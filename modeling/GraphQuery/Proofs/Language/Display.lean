import GraphQuery.Proofs.Cypher.LiteralReader
import GraphQuery.Proofs.Language.Invariants
import GraphQuery.Proofs.Language.Recursion

/-!
# Values that are read back from their text

The text that a value is shown with in messages looks like a value of a query, but it is made for
messages. Strings are the only place where the two differ: some characters are shown by an escape
that queries do not have. A string with such a character is refused by the reader, at any depth of
lists, and everything else is read back.

What the reader makes of a shown value is therefore always one of two things, and which one depends
on the characters of its strings alone.

## Main definitions

* `Text.Quoted.Legible`: a character is shown as it could be written in a query.
* `Reading.Settles`: a reading gives a value if something holds, and refuses otherwise.
* `Value.Textual`: the values without floats whose variables and enum symbols are names.
* `Value.ShownTo`: what a reader makes of a value that is shown to it.

## Main results

* `Lexeme.settles_string_encode`: strings in quotes.
* `Value.settles_listReader`: lists, item by item.
* `Value.text_reads_back_iff`: which values are read back from their text.
-/

namespace GraphQuery

open Reader Lexeme

variable {α β : Type} {s rest : List Char}

/-! ### Two outcomes -/

/-- The reading gives the value and the rest if `P` holds, and is a refusal otherwise. -/
inductive Reading.Settles (P : Prop) (a : α) (rest : List Char) : Reading α → Prop
  | done (h : P) : Settles P a rest (.done a rest)
  | refused (h : ¬ P) (trail : Trail) : Settles P a rest (.refused trail)

namespace Reading.Settles

variable {P Q : Prop} {a : α} {r : Reading α}

theorem congr (h : r.Settles P a rest) (hPQ : P ↔ Q) : r.Settles Q a rest := by
  rwa [← hPQ]

theorem eq_done_iff (h : r.Settles P a rest) : r = .done a rest ↔ P := by
  cases h with
  | done h => simp [h]
  | refused h trail => simp [h]

/-- A sequence is refused if its first or its second part is. -/
theorem bind {p : Reader α} {f : α → Reader β} {b : β} {rest' : List Char}
    (hp : (p s).Settles P a rest) (hf : (f a rest).Settles Q b rest') :
    ((p >>= f) s).Settles (P ∧ Q) b rest' := by
  change (Reader.bind p f s).Settles (P ∧ Q) b rest'
  unfold Reader.bind
  generalize p s = r at hp ⊢
  cases hp with
  | done hP => exact hf.congr (and_iff_right hP).symm
  | refused hP trail => exact .refused (fun h => hP h.1) trail

/-- What certainly happens in front can be left out. -/
theorem of_done {p : Reader α} {f : α → Reader β} {b : β} {rest' : List Char}
    (hp : p s = .done a rest) (hf : (f a rest).Settles Q b rest') :
    ((p >>= f) s).Settles Q b rest' := by
  have hdone : (p s).Settles True a rest := by
    rw [hp]
    exact .done trivial
  exact (hdone.bind hf).congr (and_iff_right trivial)

/-- What certainly happens behind it makes no difference. -/
theorem bind_done {p : Reader α} {f : α → Reader β} {b : β} {rest' : List Char}
    (hp : (p s).Settles P a rest) (hf : f a rest = .done b rest') :
    ((p >>= f) s).Settles P b rest' := by
  have hdone : (f a rest).Settles True b rest' := by
    rw [hf]
    exact .done trivial
  exact (hp.bind hdone).congr (and_iff_left trivial)

end Reading.Settles

/-! ### Strings -/

namespace Text.Quoted

/-- The character is shown as it is, or by an escape that queries have as well. -/
def Legible (c : Char) : Prop :=
  escape c = [c] ∨ escape c ∈ [['\\', '"'], ['\\', '\\'], ['\\', 'n'], ['\\', 'r'], ['\\', 't']]

instance : DecidablePred Legible := fun _ => instDecidableOr

/-- The ways in which a character is shown. Only the first two can be written in a query. -/
inductive Shown (c : Char) : List Char → Prop
  | raw (hc : c ∉ ['"', '\\', '\n', '\r']) : Shown c [c]
  | short {letter : Char} (hletter : letter ∈ ['"', '\\', 'n', 'r', 't'])
    (hc : (letter, c) ∈ shortEscapes) : Shown c ['\\', letter]
  | zero : Shown c ['\\', '0']
  | code (digits : List Char) : Shown c ('\\' :: 'u' :: '\x7b' :: digits)

theorem shown_escape (c : Char) : Shown c (escape c) := by
  unfold escape
  cases hshort : shortEscape? c with
  | some letter =>
    unfold shortEscape? at hshort
    split_ifs at hshort with hzero htab hreturn hfeed hbackslash hquote
    all_goals obtain rfl := Option.some.inj hshort
    · exact .zero
    · exact .short (by decide) (by rw [beq_iff_eq.1 htab]; decide)
    · exact .short (by decide) (by rw [beq_iff_eq.1 hreturn]; decide)
    · exact .short (by decide) (by rw [beq_iff_eq.1 hfeed]; decide)
    · exact .short (by decide) (by rw [beq_iff_eq.1 hbackslash]; decide)
    · exact .short (by decide) (by rw [beq_iff_eq.1 hquote]; decide)
  | none =>
    have hraw : c ∉ ['"', '\\', '\n', '\r'] :=
      notMem_of_all (fun d => (shortEscape? d).isNone) (by decide) (by rw [hshort]; rfl)
    dsimp only
    split_ifs
    · exact .code _
    · exact .raw hraw

end Text.Quoted

namespace Lexeme

open Text.Quoted

theorem exists_place?_brace (s : List Char) :
    ∃ place, (stringBody ('\\' :: 'u' :: '\x7b' :: s)).place? = some place := by
  rcases s with _ | ⟨a, _ | ⟨b, _ | ⟨c, s⟩⟩⟩
  · exact ⟨_, rfl⟩
  · exact ⟨_, rfl⟩
  · exact ⟨_, rfl⟩
  -- A brace is no hexadecimal digit.
  · have hvalue : Text.hexValue? '\x7b' a b c = none := rfl
    exact ⟨_, by rw [stringBody, hvalue]; rfl⟩

/-- A character is read as it is shown, or the reader stops at its escape. -/
theorem stringBody_escape (c : Char) (s : List Char) :
    Legible c ∧ stringBody (escape c ++ s) = (stringBody s).push c ∨
      ¬ Legible c ∧ ∃ place, (stringBody (escape c ++ s)).place? = some place := by
  have hshown := shown_escape c
  -- Only how the character is shown matters from here on.
  unfold Legible
  generalize escape c = shown at hshown ⊢
  cases hshown with
  | raw hc => exact .inl ⟨.inl rfl, stringBody_plain hc s⟩
  | short hletter hc => exact .inl ⟨.inr (by simpa using hletter), stringBody_short hc s⟩
  | zero => exact .inr ⟨by simp, _, rfl⟩
  | code digits => exact .inr ⟨by simp, exists_place?_brace _⟩

/-- A text is read as it is shown if all its characters are legible. Otherwise the reader stops at
the first one that is not. -/
theorem stringBody_flatMap_escape (text rest : List Char) :
    (∀ c ∈ text, Legible c) ∧
        stringBody (text.flatMap escape ++ '"' :: rest) = .closed text rest ∨
      ¬ (∀ c ∈ text, Legible c) ∧
        ∃ place, (stringBody (text.flatMap escape ++ '"' :: rest)).place? = some place := by
  induction text with
  | nil => exact .inl ⟨fun c hc => absurd hc List.not_mem_nil, rfl⟩
  | cons c text ih =>
    rw [List.flatMap_cons, List.append_assoc, List.forall_mem_cons]
    rcases stringBody_escape c (text.flatMap escape ++ '"' :: rest) with ⟨hc, hread⟩ | ⟨hc, hplace⟩
    · rw [hread, StringReading.place?_push]
      rcases ih with ⟨htext, hclosed⟩ | ⟨htext, hplace⟩
      · exact .inl ⟨⟨hc, htext⟩, push_eq_closed_iff.2 ⟨text, rfl, hclosed⟩⟩
      · exact .inr ⟨fun h => htext h.2, hplace⟩
    · exact .inr ⟨fun h => hc h.1, hplace⟩

/-- A string in quotes is read if all its characters are legible, and refused otherwise. -/
theorem settles_string_encode (x : String) (rest : List Char) :
    (string (encode x.toList ++ rest)).Settles (∀ c ∈ x.toList, Legible c) x rest := by
  have hencode : encode x.toList ++ rest = '"' :: (x.toList.flatMap escape ++ '"' :: rest) := by
    simp [encode]
  rw [hencode, string, if_pos (beq_self_eq_true '"')]
  rcases stringBody_flatMap_escape x.toList rest with ⟨hlegible, hclosed⟩ | ⟨hillegible, _, hplace⟩
  · rw [hclosed]
    dsimp only
    rw [String.ofList_toList]
    exact .done hlegible
  · generalize stringBody _ = r at hplace ⊢
    cases r with
    | closed text rest => cases hplace
    | unterminated => cases hplace
    | badCodePoint place => exact .refused hillegible _
    | badEscape place => exact .refused hillegible _

/-- A tab has the same letter in queries. The letter for the character zero is not known there. -/
example : Legible '\t' ∧ ¬ Legible '\x00' := by decide

end Lexeme

/-! ### Values of one token -/

namespace Value

variable {v : Value}

/-- All characters of all strings in the value are legible. -/
def Legible (v : Value) : Prop :=
  ∀ x, v.Contains (.string x) → ∀ c ∈ x.toList, Text.Quoted.Legible c

theorem legible_string_iff {x : String} :
    Legible (.string x) ↔ ∀ c ∈ x.toList, Text.Quoted.Legible c := by
  constructor
  · exact fun h => h x (.self _)
  · rintro h y ⟨⟩
    exact h

theorem legible_list_iff {items : List Value} :
    Legible (.list items) ↔ ∀ v ∈ items, v.Legible := by
  constructor
  · exact fun h v hv x hx => h x (.item hv hx)
  · intro h x hx
    cases hx with
    | item hv hx => exact h _ hv x hx

/-- The value holds no float, its variables and enum symbols are names, and no enum symbol is a
reserved word. -/
inductive Textual : Value → Prop
  | var {x : String} (hx : IsName x) : Textual (.var x)
  | int (i : Int64) : Textual (.int i)
  | string (x : String) : Textual (.string x)
  | boolean (b : Bool) : Textual (.boolean b)
  | null : Textual .null
  | enum {x : String} (hx : IsName x) (hword : x ∉ ["true", "false", "null"]) : Textual (.enum x)
  | list {items : List Value} (h : ∀ v ∈ items, v.Textual) : Textual (.list items)

/-- The text of a value begins with the first character of a token. -/
theorem Textual.exists_cons (h : v.Textual) :
    ∃ c cs, v.text.toList = c :: cs ∧ beginsToken c = true := by
  have hname {x : String} (hx : IsName x) : ∃ c cs, x.toList = c :: cs ∧ beginsToken c = true := by
    obtain ⟨c, cs, hchars, hc, -⟩ := hx
    exact ⟨c, cs, hchars, isNameChar_beginsToken (isNameChar_of_isNameStart hc)⟩
  cases h with
  | @var x hx => exact ⟨'$', x.toList, by simp [text], by decide⟩
  | int i =>
    obtain ⟨c, cs, hchars, hc⟩ := Cypher.exists_cons_toString i.toInt
    exact ⟨c, cs, hchars, beginsToken_of_isNumeral hc⟩
  | string x => exact ⟨'"', _, by rw [text, String.toList_ofList, Text.Quoted.encode], by decide⟩
  | boolean b =>
    cases b with
    | true => exact hname (isName_of_toList rfl (by decide) (by decide))
    | false => exact hname (isName_of_toList rfl (by decide) (by decide))
  | null => exact hname (isName_of_toList rfl (by decide) (by decide))
  | enum hx => exact hname hx
  | @list items => exact ⟨'[', (textOfAll items).toList ++ [']'], by simp [text], by decide⟩

theorem Textual.skip_append (h : v.Textual) (rest : List Char) :
    skip (v.text.toList ++ rest) = v.text.toList ++ rest := by
  obtain ⟨c, cs, hchars, hc⟩ := h.exists_cons
  rw [hchars, List.cons_append, skip_of_beginsToken hc]

/-- The reader gives the value for its text if the value is legible, and refuses the text otherwise.
What follows is skipped or not, depending on the value. -/
def ShownTo (v : Value) (p : Reader Value) : Prop :=
  ∀ rest, (∀ c ∈ rest.head?, c ∈ [',', ']']) →
    ∃ rest', (rest' = rest ∨ rest' = skip rest) ∧
      (p (v.text.toList ++ rest)).Settles v.Legible v rest'

theorem shownTo_of_dispatch (hv : v.Textual)
    (h : ∀ rest, (∀ c ∈ rest.head?, c ∈ [',', ']']) →
      (dispatch false (reader false) (v.text.toList ++ rest)).Settles v.Legible v rest) :
    v.ShownTo (reader false) := by
  intro rest hrest
  refine ⟨rest, .inl rfl, ?_⟩
  rw [reader_eq, hv.skip_append]
  exact h rest hrest

theorem spelled_int (i : Int64) : Spelled false (.int i) (text (.int i)).toList := by
  rw [text, Cypher.toList_toString]
  refine spelled_of_isDigits false _ (Cypher.isDigits_toDigits i.toInt.natAbs) ?_
  simp only [Numeral.toInt, Cypher.digitsValue_toDigits]
  by_cases hnegative : i.toInt < 0
  · simp only [hnegative, decide_true, if_true]
    omega
  · simp only [hnegative, decide_false, Bool.false_eq_true, if_false]
    omega

/-- A value that is shown as one of its spellings is read back. -/
theorem shownTo_of_spelled (hv : v.Textual) (h : v.Spelled false v.text.toList)
    (hlegible : v.Legible) : v.ShownTo (reader false) := by
  refine shownTo_of_dispatch hv fun rest hrest => ?_
  have hname (c : Char) (hc : c ∈ rest.head?) : isNameChar c = false ∧ c ≠ '.' := by
    have hmem := hrest c hc
    rw [List.mem_cons, List.mem_singleton] at hmem
    rcases hmem with rfl | rfl <;> decide
  rw [dispatch_of_spelled (reader false) h (fun _ _ d hd _ => (hname d hd).1)
    fun hpoint => (hname '.' hpoint).2 rfl]
  exact .done hlegible

theorem shownTo_string (x : String) : (string x).ShownTo (reader false) := by
  refine shownTo_of_dispatch (.string x) fun rest _ => ?_
  have hencode : (string x).text.toList ++ rest = Text.Quoted.encode x.toList ++ rest := by
    rw [text, String.toList_ofList]
  have hdispatch : dispatch false (reader false) (Text.Quoted.encode x.toList ++ rest) =
      (Lexeme.string >>= fun x => pure (.string x)) (Text.Quoted.encode x.toList ++ rest) := rfl
  rw [hencode, hdispatch]
  refine .congr ?_ legible_string_iff.symm
  exact (settles_string_encode x rest).bind_done rfl

/-! ### Lists -/

/-- What stands behind an item: nothing behind the last one, else a comma, a blank and the items
that follow. -/
def tailText : List Value → List Char
  | [] => []
  | v :: vs => ',' :: ' ' :: (textOfAll (v :: vs)).toList

theorem toList_textOfAll_cons (v : Value) (vs : List Value) :
    (textOfAll (v :: vs)).toList = v.text.toList ++ tailText vs := by
  cases vs with
  | nil => simp [textOfAll, tailText]
  | cons w vs => simp [textOfAll, tailText]

theorem toList_text_list_append (items : List Value) (rest : List Char) :
    (list items).text.toList ++ rest = '[' :: ((textOfAll items).toList ++ ']' :: rest) := by
  simp [text]

theorem head?_tailText (vs : List Value) (rest : List Char) :
    ∀ c ∈ (tailText vs ++ ']' :: rest).head?, c ∈ [',', ']'] := by
  cases vs with
  | nil =>
    rintro _ ⟨⟩
    simp
  | cons v vs =>
    rintro _ ⟨⟩
    simp

theorem skip_textOfAll {vs : List Value} (h : ∀ v ∈ vs, v.Textual) (rest : List Char) :
    skip ((textOfAll vs).toList ++ ']' :: rest) = (textOfAll vs).toList ++ ']' :: rest := by
  cases vs with
  | nil => exact skip_of_beginsToken (by decide) rest
  | cons v vs =>
    rw [toList_textOfAll_cons, List.append_assoc]
    exact (h v List.mem_cons_self).skip_append _

/-- The comma and the blank between items are skipped. -/
theorem skip_tailText {vs : List Value} (h : ∀ v ∈ vs, v.Textual) (rest : List Char) :
    skip (tailText vs ++ ']' :: rest) = (textOfAll vs).toList ++ ']' :: rest := by
  rw [← skip_textOfAll h]
  cases vs with
  | nil => rfl
  | cons v vs => simp [tailText, skip, isSeparator]

section Lists

variable {p : Reader Value} {items : List Value}

theorem ShownTo.token (h : v.ShownTo p) (hv : v.Textual)
    (hrest : ∀ c ∈ rest.head?, c ∈ [',', ']']) :
    (token p (v.text.toList ++ rest)).Settles v.Legible v (skip rest) := by
  obtain ⟨rest', hrest', hsettles⟩ := h rest hrest
  have hskip : skip rest' = skip rest := by
    rcases hrest' with rfl | rfl
    · rfl
    · exact skip_skip rest
  refine .of_done (a := ()) rfl ?_
  rw [hv.skip_append, ← hskip]
  exact hsettles.bind_done rfl

/-- The items of a list are read one after the other, up to the first that is not legible. -/
theorem settles_many (hitems : ∀ v ∈ items, v.Textual) (h : ∀ v ∈ items, v.ShownTo p)
    (hstop : ∀ s, Declines p (']' :: s)) (rest : List Char) :
    (many (token p) ((textOfAll items).toList ++ ']' :: rest)).Settles
      (∀ v ∈ items, v.Legible) items (']' :: rest) := by
  induction items with
  | nil =>
    have hdeclines : Declines (Lexeme.token p) (']' :: rest) := by
      refine declines_bind_of_done rfl ?_
      rw [skip_of_beginsToken (by decide)]
      exact (hstop rest).bind _
    obtain ⟨trail, htrail⟩ := hdeclines
    have hdone : many (token p) (']' :: rest) = .done [] (']' :: rest) := by
      rw [many_eq, manyStep, htrail]
    exact hdone ▸ .done fun v hv => absurd hv List.not_mem_nil
  | cons v vs ih =>
    obtain ⟨hv, hvs⟩ := List.forall_mem_cons.1 hitems
    obtain ⟨hshown, hothers⟩ := List.forall_mem_cons.1 h
    have hfirst := hshown.token hv (head?_tailText vs rest)
    have hlength : (skip (tailText vs ++ ']' :: rest)).length <
        (v.text.toList ++ (tailText vs ++ ']' :: rest)).length := by
      obtain ⟨c, cs, hchars, -⟩ := hv.exists_cons
      have hle := length_skip_le (tailText vs ++ ']' :: rest)
      rw [hchars, List.length_append, List.length_cons]
      omega
    rw [toList_textOfAll_cons, List.append_assoc, many_eq, manyStep, List.forall_mem_cons]
    -- Either the first item ends the reading, or the others decide.
    generalize token p (v.text.toList ++ (tailText vs ++ ']' :: rest)) = r at hfirst ⊢
    cases hfirst with
    | done hlegible =>
      simp only [if_pos hlength]
      rw [skip_tailText hvs]
      refine .congr ?_ (and_iff_right hlegible).symm
      exact (ih hvs hothers).bind_done rfl
    | refused hillegible trail => exact .refused (fun hall => hillegible hall.1) trail

/-- A list is read up to its closing bracket and what is skipped behind it. -/
theorem settles_listReader (hitems : ∀ v ∈ items, v.Textual) (h : ∀ v ∈ items, v.ShownTo p)
    (hstop : ∀ s, Declines p (']' :: s)) (rest : List Char) :
    (listReader p ((list items).text.toList ++ rest)).Settles (Legible (.list items))
      (.list items) (skip rest) := by
  have hopening : symbol '[' ('[' :: ((textOfAll items).toList ++ ']' :: rest)) =
      .done '[' ((textOfAll items).toList ++ ']' :: rest) := by
    rw [symbol_cons (by decide), skip_textOfAll hitems]
  have hclosing : symbol ']' (']' :: rest) = .done ']' (skip rest) := symbol_cons (by decide) rest
  rw [toList_text_list_append]
  refine .of_done hopening (.congr (.bind_done (settles_many hitems h hstop rest) ?_)
    legible_list_iff.symm)
  refine bind_eq_done_iff.2 ⟨']', skip rest, ?_, rfl⟩
  exact expecting_eq_done_iff.2 (commit_eq_done_iff.2 hclosing)

end Lists

/-! ### All values -/

theorem declines_reader_bracket (constant : Bool) (s : List Char) :
    Declines (reader constant) (']' :: s) := by
  have hname : Declines nameReader (']' :: s) :=
    (declines_name fun c hc => by cases hc; rfl).bind _
  unfold Declines
  rw [reader_eq, skip_of_beginsToken (by decide)]
  exact hname

/-- What the reader makes of a value that is shown to it. -/
theorem Textual.shownTo (h : v.Textual) : v.ShownTo (reader false) := by
  induction h with
  | @var x hx =>
    refine shownTo_of_spelled (.var hx) ?_ (by rintro _ ⟨⟩)
    simpa [text] using Spelled.var hx rfl
  | int i => exact shownTo_of_spelled (.int i) (spelled_int i) (by rintro _ ⟨⟩)
  | string x => exact shownTo_string x
  | boolean b => exact shownTo_of_spelled (.boolean b) (.boolean b) (by rintro _ ⟨⟩)
  | null => exact shownTo_of_spelled .null .null (by rintro _ ⟨⟩)
  | enum hx hword =>
    exact shownTo_of_spelled (.enum hx hword) (.enum hx hword) (by rintro _ ⟨⟩)
  | @list items hitems ih =>
    intro rest _
    have htextual : (Value.list items).Textual := .list hitems
    have hdispatch : dispatch false (reader false) ((Value.list items).text.toList ++ rest) =
        listReader (reader false) ((Value.list items).text.toList ++ rest) := by
      rw [toList_text_list_append]
      rfl
    refine ⟨skip rest, .inr rfl, ?_⟩
    rw [reader_eq, htextual.skip_append, hdispatch]
    exact settles_listReader hitems ih (declines_reader_bracket false) rest

/-- A value that is written without floats has names where names are due. -/
theorem Written.textual {constant : Bool} {ts : List Token} (h : v.Written constant ts)
    (hfloat : ∀ x, ¬ v.Contains (.float x)) : v.Textual := by
  -- The items of a list are smaller than the list.
  induction hsize : sizeOf v using Nat.strongRecOn generalizing v ts with
  | ind n ih =>
    subst hsize
    cases h with
    | token hspelled =>
      cases hspelled with
      | var hx => exact .var hx
      | int => exact .int _
      | float => exact absurd (.self _) (hfloat _)
      | string => exact .string _
      | boolean b => exact .boolean b
      | null => exact .null
      | enum hx hword => exact .enum hx hword
    | @list items _ hrow =>
      refine .list fun w hw => ?_
      obtain ⟨us, hus⟩ := hrow.exists_of_mem hw
      have hlt : sizeOf w < sizeOf (Value.list items) :=
        Nat.lt_of_lt_of_le (List.sizeOf_lt_of_mem hw) (by simp)
      exact ih (sizeOf w) hlt hus (fun x hx => hfloat x (.item hw hx)) rfl

/-- A value without floats that was read is read again from the text it is shown with, and nothing
is left, exactly if each character of each of its strings is shown as it is or by one of the escapes
for quotes, backslashes, line feeds, carriage returns and tabs. -/
theorem text_reads_back_iff (h : reader false s = .done v rest)
    (hfloat : ∀ x, ¬ v.Contains (.float x)) :
    reader false v.text.toList = .done v [] ↔
      ∀ x, v.Contains (.string x) → ∀ c ∈ x.toList, Text.Quoted.Legible c := by
  obtain ⟨ts, hwritten, -⟩ := reads_reader false s v rest h
  have hshown := (hwritten.textual hfloat).shownTo
  -- Nothing follows, so it makes no difference whether it is skipped.
  obtain ⟨rest', hrest', hsettles⟩ := hshown [] (by rintro _ ⟨⟩)
  have hnil : rest' = [] := hrest'.elim id id
  rw [List.append_nil, hnil] at hsettles
  exact hsettles.eq_done_iff

/-- The least whole number, and a string with a tab in an inner list. -/
def specimen : Value :=
  .list [.int Int64.minValue, .list [.string "a\tb", .enum "A"], .var "x", .null]

/-- A tab is written by its code point and shown by a letter. -/
theorem text_reads_back_iff_specimen :
    reader false "[-9223372036854775808 [\"a\\u0009b\" A] $x null]".toList = .done specimen [] ∧
      (∀ x, ¬ specimen.Contains (.float x)) ∧
      (reader false specimen.text.toList = .done specimen [] ↔
        ∀ x, specimen.Contains (.string x) → ∀ c ∈ x.toList, Text.Quoted.Legible c) := by
  have hread : reader false "[-9223372036854775808 [\"a\\u0009b\" A] $x null]".toList =
      .done specimen [] := by
    simp only [String.reduceToList]
    rfl
  have hfloat (x : Float) : ¬ specimen.Contains (.float x) := by
    intro h
    unfold specimen at h
    cases h with
    | item hv hw =>
      simp only [List.mem_cons, List.not_mem_nil, or_false] at hv
      rcases hv with rfl | rfl | rfl | rfl
      · cases hw
      · cases hw with
        | item hv hw =>
          simp only [List.mem_cons, List.not_mem_nil, or_false] at hv
          rcases hv with rfl | rfl <;> cases hw
      · cases hw
      · cases hw
  exact ⟨hread, hfloat, text_reads_back_iff hread hfloat⟩

end Value

end GraphQuery
