import Mathlib.Data.List.Flatten
import GraphQuery.Cypher.Literal
import GraphQuery.Proofs.Language.Spelling

/-!
# Literals are read back

A reader of Cypher literals: strings in single quotes, whole numbers, parameters, the three reserved
words, and lists with a comma and a blank between the items. It looks at the text alone and knows
nothing of how the text was made.

Applied to the text of a literal it gives the literal again. Strings may hold quotes, brackets and
commas; the reader never mistakes one of these for the end of the string, since inside a string only
a quote without a backslash ends it.

## Main definitions

* `Cypher.Literal.reader`, `Cypher.Literal.read?`: the reader, and what a whole text denotes.
* `Cypher.Literal.Readable`: the literals without floats whose parameters have names.
* `Cypher.Literal.ReadBy`: a reader gives a literal for its text, whatever stands behind it.

## Main results

* `Cypher.quotedReader_quote`: a string is read up to its closing quote.
* `Cypher.quote_delimits_itself`: what follows a string in quotes never belongs to it.
* `Cypher.integer_append`: a whole number is read up to its last digit.
* `Cypher.Literal.Readable.read?_text`: a literal is read back from its text.
-/

namespace GraphQuery.Cypher

open Reader Lexeme

/-- Declines whatever stands here. -/
def decline {α : Type} : Reader α := fun s => .declined [⟨s, unexpected⟩]

/-- What a reader makes of a whole text. -/
def wholeText? {α : Type} (p : Reader α) (text : String) : Option α :=
  match p text.toList with
  | .done a [] => some a
  | _ => none

theorem wholeText?_eq_some {α : Type} {p : Reader α} {text : String} {a : α}
    (h : p text.toList = .done a []) : wholeText? p text = some a := by
  rw [wholeText?, h]

/-! ### Strings -/

/-- The inside of a string up to the closing quote, and what follows it. A character that is escaped
by a backslash before it is taken as it stands. -/
def unquote (escaped : Bool) : List Char → Option (List Char × List Char)
  | [] => none
  | c :: s =>
    if escaped then (unquote false s).map (Prod.map (c :: ·) id)
    else if c == '\'' then some ([], s)
    else if c == '\\' then unquote true s
    else (unquote false s).map (Prod.map (c :: ·) id)

/-- A string in single quotes. -/
def quotedReader : Reader String := do
  let _ ← char '\''
  match unquote false (← peek) with
  | some (text, rest) => fun _ => .done (String.ofList text) rest
  | none => decline

theorem unquote_escape (c : Char) (s : List Char) :
    unquote false (escape c ++ s) = (unquote false s).map (Prod.map (c :: ·) id) := by
  unfold escape
  split
  -- Behind a backslash the character is taken as it stands, also if it is a quote.
  · rfl
  · next h =>
    simp only [Bool.or_eq_true, not_or, Bool.not_eq_true] at h
    rw [List.singleton_append, unquote, if_neg (by simp), if_neg (by simp [h.2]),
      if_neg (by simp [h.1])]

/-- What was escaped is read as it was, up to the closing quote. -/
theorem unquote_flatMap_escape (cs rest : List Char) :
    unquote false (cs.flatMap escape ++ '\'' :: rest) = some (cs, rest) := by
  induction cs with
  | nil => rfl
  | cons c cs ih =>
    rw [List.flatMap_cons, List.append_assoc, unquote_escape, ih]
    rfl

theorem toList_quote_append (s : String) (rest : List Char) :
    (quote s).toList ++ rest = '\'' :: (s.toList.flatMap escape ++ '\'' :: rest) := by
  simp [quote]

theorem quotedReader_eq_done_iff {s rest : List Char} {x : String} :
    quotedReader s = .done x rest ↔
      ∃ body, s = '\'' :: body ∧ unquote false body = some (x.toList, rest) := by
  simp only [quotedReader, bind_eq_done_iff, char_eq_done_iff]
  constructor
  · rintro ⟨_, body, ⟨-, rfl⟩, _, _, ⟨⟩, h⟩
    refine ⟨body, rfl, ?_⟩
    cases hbody : unquote false body with
    | none =>
      rw [hbody] at h
      cases h
    | some parts =>
      rw [hbody] at h
      cases h
      rw [String.toList_ofList]
  · rintro ⟨body, rfl, hbody⟩
    refine ⟨'\'', body, ⟨rfl, rfl⟩, body, body, rfl, ?_⟩
    simp [hbody]

theorem quotedReader_quote (s : String) (rest : List Char) :
    quotedReader ((quote s).toList ++ rest) = .done s rest :=
  quotedReader_eq_done_iff.2 ⟨_, toList_quote_append s rest, unquote_flatMap_escape _ rest⟩

/-- Once the closing quote has been found, nothing behind it makes a difference. -/
theorem unquote_append {escaped : Bool} {s text rest : List Char}
    (h : unquote escaped s = some (text, rest)) (more : List Char) :
    unquote escaped (s ++ more) = some (text, rest ++ more) := by
  -- Whether the last character was a backslash changes along the text.
  induction s generalizing escaped text with
  | nil => cases h
  | cons c s ih =>
    have htaken (h : (unquote false s).map (Prod.map (c :: ·) id) = some (text, rest)) :
        (unquote false (s ++ more)).map (Prod.map (c :: ·) id) = some (text, rest ++ more) := by
      obtain ⟨⟨text', _⟩, hfound, heq⟩ := Option.map_eq_some_iff.1 h
      cases heq
      rw [ih hfound]
      rfl
    rw [unquote] at h
    rw [List.cons_append, unquote]
    split_ifs at h ⊢ with hescaped hquote hbackslash
    · exact htaken h
    · cases h
      rfl
    · exact ih h
    · exact htaken h

theorem quotedReader_append {s rest : List Char} {x : String} (h : quotedReader s = .done x rest)
    (more : List Char) : quotedReader (s ++ more) = .done x (rest ++ more) := by
  obtain ⟨body, rfl, hbody⟩ := quotedReader_eq_done_iff.1 h
  exact quotedReader_eq_done_iff.2 ⟨body ++ more, rfl, unquote_append hbody more⟩

/-- A string in quotes says itself where it ends. Whatever follows, the reader takes it up to its
last character and gives the string that was quoted. Of all that a text could begin with, it is
therefore the only literal. -/
theorem quote_delimits_itself (s : String) (t : List Char) :
    quotedReader ((quote s).toList ++ t) = .done s t ∧
      ∀ front, front <+: (quote s).toList ++ t ∧ (∃ x, quotedReader front = .done x []) ↔
        front = (quote s).toList := by
  refine ⟨quotedReader_quote s t, fun front => ⟨?_, ?_⟩⟩
  · rintro ⟨⟨back, htext⟩, x, hx⟩
    -- What the front is read as does not depend on the back, so the back is what follows the quote.
    have hfront := quotedReader_append hx back
    rw [htext, quotedReader_quote, List.nil_append] at hfront
    cases hfront
    exact List.append_cancel_right htext
  · rintro rfl
    refine ⟨List.prefix_append _ t, s, ?_⟩
    simpa using quotedReader_quote s []

/-- A backslash at the end does not escape the closing quote, nor does a quote that follows it go on
with the string. -/
example : quotedReader "'a\\\\''b'".toList = .done "a\\" "'b'".toList := by
  simp only [String.reduceToList]
  rfl

/-! ### Numbers and names -/

/-- A whole number: a minus sign or none, and digits. -/
def integer : Reader Int := do
  let sign ← optional (char '-')
  let magnitude : Int := Text.digitsValue (← digits)
  return if sign.isSome then -magnitude else magnitude

/-- A dollar sign and the name of a parameter. -/
def parameterReader : Reader String := do
  let _ ← char '$'
  name

theorem digitsValue_toDigits (n : Nat) : Text.digitsValue (Nat.toDigits 10 n) = n := by
  have hvalue : Nat.ofDigitChars 10 (Nat.toDigits 10 n) 0 = n := by simp
  exact hvalue

theorem isDigits_toDigits (n : Nat) : IsDigits (Nat.toDigits 10 n) :=
  ⟨Nat.toDigits_ne_nil, fun d hd => Nat.isDigit_of_mem_toDigits (by decide) (by decide) hd⟩

theorem toList_toString (i : Int) :
    (toString i).toList = (if decide (i < 0) then ['-'] else []) ++ Nat.toDigits 10 i.natAbs := by
  cases i with
  | ofNat n => simp [toString, Int.repr, Nat.repr]
  | negSucc n => simp [toString, Int.repr, Nat.repr]

/-- A whole number begins with a minus sign or a digit. -/
theorem exists_cons_toString (i : Int) :
    ∃ c s, (toString i).toList = c :: s ∧ (c == '-' || c.isDigit) = true := by
  obtain ⟨hne, hdigits⟩ := isDigits_toDigits i.natAbs
  obtain ⟨d, ds, hds⟩ := List.exists_cons_of_ne_nil hne
  rw [toList_toString, hds]
  rw [hds] at hdigits
  by_cases hnegative : i < 0
  · exact ⟨'-', d :: ds, by simp [hnegative], rfl⟩
  · exact ⟨d, ds, by simp [hnegative], by simp [hdigits d List.mem_cons_self]⟩

/-- A whole number is read up to its last digit. -/
theorem integer_append (i : Int) {rest : List Char} (hrest : ∀ c ∈ rest.head?, c.isDigit = false) :
    integer ((toString i).toList ++ rest) = .done i rest := by
  have hds := isDigits_toDigits i.natAbs
  have hdigits : digits (Nat.toDigits 10 i.natAbs ++ rest) = .done _ rest :=
    digits_eq_done_iff.2 ⟨hds, rfl, hrest⟩
  simp only [integer, bind_eq_done_iff, pure_eq_done_iff, toList_toString, List.append_assoc]
  refine ⟨_, _, optional_minus_append hds, _, rest, hdigits, ?_, rfl⟩
  rw [digitsValue_toDigits]
  by_cases hnegative : i < 0
  · simp only [hnegative, decide_true, if_true, Option.isSome_some]
    omega
  · simp only [hnegative, decide_false, Bool.false_eq_true, if_false, Option.isSome_none]
    omega

theorem declines_parameterReader {s : List Char} (h : s.head? ≠ some '$') :
    Declines parameterReader s :=
  (declines_char_iff.2 h).bind _

theorem parameterReader_append {x : String} (hx : IsName x) {rest : List Char}
    (hrest : ∀ c ∈ rest.head?, isNameChar c = false) :
    parameterReader (("$" ++ x).toList ++ rest) = .done x rest := by
  have hname : name (x.toList ++ rest) = .done x rest := name_eq_done_iff.2 ⟨hx, rfl, hrest⟩
  rw [parameterReader, bind_eq_done_iff]
  exact ⟨'$', x.toList ++ rest, char_eq_done_iff.2 ⟨rfl, by simp⟩, hname⟩

/-! ### Literals -/

namespace Literal

/-- The literal of a reserved word. -/
def ofWord? (word : String) : Option Literal :=
  if word == "null" then some .null
  else if word == "true" then some (.boolean true)
  else if word == "false" then some (.boolean false)
  else none

/-- A reserved word. -/
def wordReader : Reader Literal := do
  match ofWord? (← name) with
  | some l => return l
  | none => decline

/-- A whole number of 64 bits. -/
def intReader : Reader Literal := do
  let i ← integer
  if Int64.minValue.toInt ≤ i ∧ i ≤ Int64.maxValue.toInt then return .int (Int64.ofInt i)
  else decline

/-- A comma, a blank and an item. -/
def nextReader (item : Reader Literal) : Reader Literal := do
  let _ ← char ','
  let _ ← char ' '
  item

/-- Items with a comma and a blank between them. -/
def itemsReader (item : Reader Literal) : Reader (List Literal) := do
  let first ← item
  let others ← many (nextReader item)
  return first :: others

/-- A list in brackets. -/
def listReader (item : Reader Literal) : Reader Literal := do
  let _ ← char '['
  let items ← optional (itemsReader item)
  let _ ← char ']'
  return .list (items.getD [])

/-- The reader that fits the first character of a literal, with the literals inside it read by
`item`. -/
def readerStep (item : Reader Literal) : Reader Literal := fun s =>
  match s with
  | [] => decline s
  | c :: _ =>
    if c == '\'' then (do return .string (← quotedReader) : Reader Literal) s
    else if c == '$' then (do return .parameter (← parameterReader) : Reader Literal) s
    else if c == '[' then listReader item s
    else if c == '-' || c.isDigit then intReader s
    else wordReader s

/-- Reads a literal that holds no float. -/
def reader : Reader Literal := nest readerStep

/-- The literal that a whole text denotes, if it denotes one. -/
def read? : String → Option Literal := wholeText? reader

/-- The literal holds no float, and its parameters have names. -/
inductive Readable : Literal → Prop
  | null : Readable .null
  | boolean (b : Bool) : Readable (.boolean b)
  | int (i : Int64) : Readable (.int i)
  | string (s : String) : Readable (.string s)
  | parameter {name : String} (h : IsName name) : Readable (.parameter name)
  | list {items : List Literal} (h : ∀ l ∈ items, l.Readable) : Readable (.list items)

/-- The reader gives the literal for its text, if neither a letter nor a digit stands behind it. -/
def ReadBy (l : Literal) (p : Reader Literal) : Prop :=
  ∀ rest, (∀ c ∈ rest.head?, isNameChar c = false) → p (l.text.toList ++ rest) = .done l rest

/-! #### Lists -/

section Lists

variable {item : Reader Literal} {items : List Literal} {rest : List Char}

/-- What stands behind the first item: each of the others behind a comma and a blank. -/
def tailText (items : List Literal) : List Char :=
  items.flatMap fun l => ',' :: ' ' :: l.text.toList

theorem tailText_cons_append (l : Literal) (items : List Literal) (rest : List Char) :
    tailText (l :: items) ++ rest = ',' :: ' ' :: (l.text.toList ++ (tailText items ++ rest)) := by
  simp [tailText]

theorem toList_text_list_append (items : List Literal) (rest : List Char) :
    (list items).text.toList ++ rest =
      '[' :: ((joinWith ", " (texts items)).toList ++ ']' :: rest) := by
  simp [text]

theorem toList_joinWith_texts (first : Literal) (items : List Literal) :
    (joinWith ", " (texts (first :: items))).toList = first.text.toList ++ tailText items := by
  induction items generalizing first with
  | nil => simp [texts, joinWith, tailText]
  | cons l items ih =>
    simp only [texts, joinWith, String.toList_append] at ih ⊢
    rw [ih l]
    simp [tailText]

theorem head?_tailText (items : List Literal) (rest : List Char) :
    ∀ c ∈ (tailText items ++ ']' :: rest).head?, isNameChar c = false := by
  cases items with
  | nil =>
    rintro _ ⟨⟩
    decide
  | cons l items =>
    rintro _ ⟨⟩
    decide

/-- Items are read one after the other, up to the closing bracket. -/
theorem many_nextReader (h : ∀ l ∈ items, l.ReadBy item) (rest : List Char) :
    many (nextReader item) (tailText items ++ ']' :: rest) = .done items (']' :: rest) := by
  induction items with
  | nil =>
    have hdeclines : Declines (nextReader item) (']' :: rest) :=
      (declines_char_iff.2 (by simp)).bind _
    obtain ⟨trail, htrail⟩ := hdeclines
    rw [tailText, List.flatMap_nil, List.nil_append, many_eq, manyStep, htrail]
  | cons l items ih =>
    obtain ⟨hl, hitems⟩ := List.forall_mem_cons.1 h
    have hnext : nextReader item (tailText (l :: items) ++ ']' :: rest) =
        .done l (tailText items ++ ']' :: rest) := by
      simp only [tailText_cons_append, nextReader, bind_eq_done_iff, char_eq_done_iff]
      exact ⟨',', _, ⟨rfl, rfl⟩, ' ', _, ⟨rfl, rfl⟩, hl _ (head?_tailText items rest)⟩
    have hlength : (tailText items ++ ']' :: rest).length <
        (tailText (l :: items) ++ ']' :: rest).length := by
      simp only [tailText_cons_append, List.length_cons, List.length_append]
      omega
    rw [many_eq, manyStep, hnext]
    simp only [if_pos hlength, bind_eq_done_iff, pure_eq_done_iff]
    exact ⟨items, _, ih hitems, rfl, rfl⟩

/-- Where each item is read by a reader, the list of them is read. -/
theorem listReader_append (h : ∀ l ∈ items, l.ReadBy item)
    (hdeclines : ∀ s, Declines item (']' :: s)) : (list items).ReadBy (listReader item) := by
  intro rest _
  simp only [listReader, bind_eq_done_iff, char_eq_done_iff, pure_eq_done_iff]
  cases items with
  | nil =>
    -- No item stands here; it is the reader of items that has to find this out.
    have hnone : optional (itemsReader item) (']' :: rest) = .done none (']' :: rest) :=
      optional_eq_done_iff.2 (.inr ⟨rfl, rfl, (hdeclines rest).bind _⟩)
    exact ⟨'[', ']' :: rest, ⟨rfl, toList_text_list_append [] rest⟩, none, _, hnone, ']', rest,
      ⟨rfl, rfl⟩, rfl, rfl⟩
  | cons first items =>
    obtain ⟨hfirst, hothers⟩ := List.forall_mem_cons.1 h
    have hitems : itemsReader item (first.text.toList ++ (tailText items ++ ']' :: rest)) =
        .done (first :: items) (']' :: rest) := by
      simp only [itemsReader, bind_eq_done_iff, pure_eq_done_iff]
      exact ⟨first, _, hfirst _ (head?_tailText items rest), items, _,
        many_nextReader hothers rest, rfl, rfl⟩
    have htext : (list (first :: items)).text.toList ++ rest =
        '[' :: (first.text.toList ++ (tailText items ++ ']' :: rest)) := by
      rw [toList_text_list_append, toList_joinWith_texts, List.append_assoc]
    exact ⟨'[', _, ⟨rfl, htext⟩, some (first :: items), _,
      optional_eq_done_iff.2 (.inl ⟨_, rfl, hitems⟩), ']', rest, ⟨rfl, rfl⟩, rfl, rfl⟩

end Lists

/-! #### Literals of every kind -/

section Steps

variable (item : Reader Literal)

/-- A minus sign and a digit both begin a whole number. -/
theorem readerStep_number {c : Char} (hc : (c == '-' || c.isDigit) = true) (s : List Char) :
    readerStep item (c :: s) = intReader (c :: s) := by
  have hother : ∀ d : Char, (d == '-' || d.isDigit) = false → (c == d) = false := by
    intro d hd
    rw [beq_eq_false_iff_ne]
    rintro rfl
    rw [hc] at hd
    contradiction
  simp only [readerStep, hother '\'' (by decide), hother '$' (by decide), hother '[' (by decide),
    hc, Bool.false_eq_true, if_false, if_true]

theorem declines_readerStep (s : List Char) : Declines (readerStep item) (']' :: s) := by
  have hname : Declines name (']' :: s) := by
    apply declines_name
    rintro _ ⟨⟩
    decide
  exact hname.bind _

theorem wordReader_append {word : String} {l : Literal} (hname : IsName word)
    (hword : ofWord? word = some l) (rest : List Char)
    (hrest : ∀ c ∈ rest.head?, isNameChar c = false) :
    wordReader (word.toList ++ rest) = .done l rest := by
  rw [wordReader, bind_eq_done_iff]
  refine ⟨word, rest, name_eq_done_iff.2 ⟨hname, rfl, hrest⟩, ?_⟩
  simp only [hword]
  rfl

theorem intReader_append (i : Int64) {rest : List Char}
    (hrest : ∀ c ∈ rest.head?, isNameChar c = false) :
    intReader ((toString i.toInt).toList ++ rest) = .done (.int i) rest := by
  have hdigit : ∀ c ∈ rest.head?, c.isDigit = false := fun c hc => isDigit_eq_false (hrest c hc)
  rw [intReader, bind_eq_done_iff]
  refine ⟨i.toInt, rest, integer_append i.toInt hdigit, ?_⟩
  rw [if_pos ⟨i.minValue_le_toInt, i.toInt_le⟩, pure_eq_done_iff]
  exact ⟨by rw [Int64.ofInt_toInt], rfl⟩

/-- One step reads a list if the step below reads its items, and it reads all other literals by
itself. -/
theorem Readable.readBy_readerStep {l : Literal} (h : l.Readable)
    (hdeclines : ∀ s, Declines item (']' :: s))
    (hitems : ∀ items, l = .list items → ∀ i ∈ items, i.ReadBy item) :
    l.ReadBy (readerStep item) := by
  intro rest hrest
  cases h with
  | null => exact wordReader_append (isName_of_toList rfl rfl rfl) rfl rest hrest
  | boolean b =>
    cases b with
    | false => exact wordReader_append (isName_of_toList rfl rfl rfl) rfl rest hrest
    | true => exact wordReader_append (isName_of_toList rfl rfl rfl) rfl rest hrest
  | int i =>
    have hint := intReader_append i hrest
    obtain ⟨c, s, hs, hc⟩ := exists_cons_toString i.toInt
    simp only [text, hs, List.cons_append] at hint ⊢
    rw [readerStep_number item hc, hint]
  | string s =>
    have hquoted := quotedReader_quote s rest
    rw [text, toList_quote_append] at *
    exact bind_eq_done_iff.2 ⟨s, rest, hquoted, rfl⟩
  | @parameter name h =>
    have hparameter := parameterReader_append h hrest
    have htext : ("$" ++ name).toList ++ rest = '$' :: (name.toList ++ rest) := by simp
    rw [htext] at hparameter
    rw [text, htext]
    exact bind_eq_done_iff.2 ⟨name, rest, hparameter, rfl⟩
  | @list items h =>
    have hlist := listReader_append (hitems items rfl) hdeclines rest hrest
    rw [toList_text_list_append] at hlist ⊢
    exact hlist

end Steps

/-! #### Whole literals -/

/-- An item is shorter than the list that it stands in. -/
theorem length_text_lt {l : Literal} {items : List Literal} (h : l ∈ items) :
    l.text.toList.length < (list items).text.toList.length := by
  have hlength := congrArg List.length (toList_text_list_append items [])
  obtain ⟨first, items, rfl⟩ := List.exists_cons_of_ne_nil (List.ne_nil_of_mem h)
  rw [toList_joinWith_texts, List.append_nil] at hlength
  simp only [List.length_cons, List.length_append] at hlength
  rcases List.mem_cons.1 h with rfl | h
  · omega
  · have hle : (tailText [l]).length ≤ (tailText items).length :=
      ((List.singleton_sublist.2 h).flatMap _).length_le
    rw [tailText, List.flatMap_singleton, List.length_cons, List.length_cons] at hle
    omega

/-- A reader that is unfolded as often as the text of a literal has characters reads it. -/
theorem Readable.readBy_unroll {n : Nat} {l : Literal} (h : l.Readable)
    (hn : l.text.toList.length ≤ n) : l.ReadBy (unroll readerStep n) := by
  -- Each unfolding goes one list further down, and an item is shorter than its list.
  induction n generalizing l with
  | zero =>
    apply h.readBy_readerStep
    · exact fun s => ⟨[], rfl⟩
    · rintro items rfl i hi
      have hlt := length_text_lt hi
      omega
  | succ n ih =>
    apply h.readBy_readerStep
    · intro s
      cases n with
      | zero => exact declines_readerStep _ s
      | succ n => exact declines_readerStep _ s
    · rintro items rfl i hi
      have hlt := length_text_lt hi
      cases h with
      | list h => exact ih (h i hi) (by omega)

/-- A literal is read back from its text. -/
theorem Readable.read?_text {l : Literal} (h : l.Readable) : read? l.text = some l := by
  have hread : reader (l.text.toList ++ []) = .done l [] := by
    apply h.readBy_unroll
    · simp
    · simp
  rw [List.append_nil] at hread
  exact wholeText?_eq_some hread

/-- Different literals have different texts. -/
theorem Readable.text_inj {l m : Literal} (hl : l.Readable) (hm : m.Readable) :
    l.text = m.text ↔ l = m := by
  constructor
  · intro htext
    have hread := hl.read?_text
    rw [htext, hm.read?_text] at hread
    exact (Option.some.inj hread).symm
  · exact congrArg text

end Literal

end GraphQuery.Cypher
