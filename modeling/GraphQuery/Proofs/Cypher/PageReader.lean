import GraphQuery.Proofs.Cypher.LiteralReader
import GraphQuery.Proofs.Meaning.Evaluation

/-!
# Pages are read back

Two readers, one of slices behind a list and one of the clauses `SKIP` and `LIMIT` behind a
statement. Both look at the text alone. Numbers are read without a bound and sums are taken exactly,
so nothing of how the compiler adds up its bounds is presupposed.

A page has both forms. This file shows that both can be read, and that they cut the same items out
of every list.

## Main definitions

* `Cypher.Amount`, `Cypher.Total`: a number or a parameter, and a sum of at most two of them.
* `Cypher.SliceTerm`, `Cypher.Window`: what the two forms say.
* `Cypher.Page.Readable`: no number is negative, and parameters have names.

## Main results

* `Cypher.Page.Readable.slice?_read`, `Cypher.Page.Readable.skipLimit_read`: both forms are read.
* `Cypher.Page.Readable.cut_eq`: both forms cut alike.
* `Cypher.Page.Readable.stop_eq_number_iff`: when the end of a slice is a single number.
-/

namespace GraphQuery.Cypher

open Reader Lexeme

/-! ### What texts say -/

/-- A number of items: a number, of any size, or a parameter. -/
inductive Amount where
  | number (n : Nat)
  | parameter (name : String)
deriving Repr, DecidableEq

/-- A single amount, or the sum of two. -/
inductive Total where
  | single (a : Amount)
  | sum (a b : Amount)
deriving Repr, DecidableEq

/-- The items of a list from a place on, up to another place if it is given. -/
structure SliceTerm where
  start : Total
  stop : Option Total
deriving Repr, DecidableEq

/-- How many items are skipped, and how many of the others are kept. -/
structure Window where
  skip : Option Amount
  limit : Option Amount
deriving Repr, DecidableEq

section Values

variable (values : String → Nat) {α : Type}

/-- The number that an amount stands for. -/
def Amount.count : Amount → Nat
  | .number n => n
  | .parameter name => values name

/-- The number that a total stands for. -/
def Total.count : Total → Nat
  | .single a => a.count values
  | .sum a b => a.count values + b.count values

/-- The items that a slice takes. -/
def SliceTerm.cut (t : SliceTerm) (items : List α) : List α :=
  match t.stop with
  | none => items.drop (t.start.count values)
  | some stop => (items.take (stop.count values)).drop (t.start.count values)

/-- The items that are taken behind a list; without a slice these are all. -/
def SliceTerm.cut? (t? : Option SliceTerm) (items : List α) : List α :=
  t?.elim items fun t => t.cut values items

/-- The items that are left when some are skipped and then some are kept. -/
def Window.cut (w : Window) (items : List α) : List α :=
  let rest := items.drop (w.skip.elim 0 (Amount.count values))
  w.limit.elim rest fun limit => rest.take (limit.count values)

end Values

/-! ### Reading -/

/-- A parameter or a number. -/
def Amount.reader : Reader Amount := do
  match ← optional parameterReader with
  | some name => return .parameter name
  | none => return .number (Text.digitsValue (← digits))

/-- A plus sign between blanks, and an amount. -/
def Amount.addendReader : Reader Amount := do
  literal " + ".toList
  Amount.reader

/-- One amount, or two with a plus sign between them. -/
def Total.reader : Reader Total := do
  let a ← Amount.reader
  match ← optional Amount.addendReader with
  | some b => return .sum a b
  | none => return .single a

/-- Brackets around a place, two points, and another place or nothing. -/
def SliceTerm.reader : Reader SliceTerm := do
  literal "[".toList
  let start ← Total.reader
  literal "..".toList
  let stop ← optional Total.reader
  literal "]".toList
  return { start, stop }

/-- A keyword and an amount. -/
def Amount.clauseReader (keyword : String) : Reader Amount := do
  literal keyword.toList
  Amount.reader

/-- The clauses behind a statement, of which each may be missing. -/
def Window.reader : Reader Window := do
  let skip ← optional (Amount.clauseReader " SKIP ")
  let limit ← optional (Amount.clauseReader " LIMIT ")
  return { skip, limit }

/-- What the text of a slice says. -/
def SliceTerm.read? : String → Option SliceTerm := wholeText? SliceTerm.reader

/-- What the text of the clauses says. -/
def Window.read? : String → Option Window := wholeText? Window.reader

/-! ### Bounds -/

/-- The number is not negative, or the parameter has a name. -/
inductive Bound.Readable : Bound → Prop
  | literal {n : Int64} (h : 0 ≤ n.toInt) : Readable (.literal n)
  | parameter {name : String} (h : IsName name) : Readable (.parameter name)

/-- What the text of a bound says. -/
def Bound.amount : Bound → Amount
  | .literal n => .number n.toInt.toNat
  | .parameter name => .parameter name

section Bounds

variable {rest : List Char}

theorem Amount.reader_number {i : Int} (hi : 0 ≤ i)
    (hrest : ∀ c ∈ rest.head?, isNameChar c = false) :
    reader ((toString i).toList ++ rest) = .done (.number i.toNat) rest := by
  have hds := isDigits_toDigits i.natAbs
  have htext : (toString i).toList = Nat.toDigits 10 i.natAbs := by
    rw [toList_toString, decide_eq_false (Int.not_lt.2 hi)]
    rfl
  -- A parameter is tried first, and declined at the first digit.
  have hparameter : Declines parameterReader (Nat.toDigits 10 i.natAbs ++ rest) := by
    apply declines_parameterReader
    intro hhead
    have hdigit := hds.head? rest '$' hhead
    contradiction
  have hdigits : digits (Nat.toDigits 10 i.natAbs ++ rest) = .done _ rest :=
    digits_eq_done_iff.2 ⟨hds, rfl, fun c hc => isDigit_eq_false (hrest c hc)⟩
  rw [htext, reader, bind_eq_done_iff]
  refine ⟨none, _, optional_eq_done_iff.2 (.inr ⟨rfl, rfl, hparameter⟩), ?_⟩
  simp only [bind_eq_done_iff, pure_eq_done_iff]
  refine ⟨_, rest, hdigits, ?_, rfl⟩
  rw [digitsValue_toDigits]
  congr
  omega

/-- A bound is read up to its last letter or digit. -/
theorem Bound.Readable.reader_append {b : Bound} (h : b.Readable)
    (hrest : ∀ c ∈ rest.head?, isNameChar c = false) :
    Amount.reader (b.text.toList ++ rest) = .done b.amount rest := by
  cases h with
  | literal h => exact Amount.reader_number h hrest
  | @parameter name h =>
    have hparameter := parameterReader_append h hrest
    rw [Amount.reader, bind_eq_done_iff]
    exact ⟨some name, rest, optional_eq_done_iff.2 (.inl ⟨name, rfl, hparameter⟩), rfl⟩

/-- Neither a letter, a digit nor a blank begins the text. -/
def EndsTotal (rest : List Char) : Prop :=
  (∀ c ∈ rest.head?, isNameChar c = false) ∧ rest.head? ≠ some ' '

theorem endsTotal_cons {c : Char} (s : List Char) (hc : isNameChar c = false) (hblank : c ≠ ' ') :
    EndsTotal (c :: s) := by
  constructor
  · rintro _ ⟨⟩
    exact hc
  · rintro ⟨⟩
    exact hblank rfl

theorem Amount.declines_addendReader (hrest : EndsTotal rest) : Declines addendReader rest := by
  refine (declines_literal_iff.2 ?_).bind _
  rintro ⟨s, rfl⟩
  exact hrest.2 rfl

end Bounds

/-! ### Slices -/

/-- The number is not negative, or the bounds can be read. -/
inductive Extent.Readable : Extent → Prop
  | number {n : Int} (h : 0 ≤ n) : Readable (.number n)
  | bound {b : Bound} (h : b.Readable) : Readable (.bound b)
  | sum {a b : Bound} (ha : a.Readable) (hb : b.Readable) : Readable (.sum a b)

/-- What the text of an end of a slice says. -/
def Extent.total : Extent → Total
  | .number n => .single (.number n.toNat)
  | .bound b => .single b.amount
  | .sum a b => .sum a.amount b.amount

/-- Both ends of a slice can be read. -/
structure Slice.Readable (s : Slice) : Prop where
  start : s.start.Readable
  stop : ∀ e ∈ s.stop, e.Readable

/-- What the text of a slice says. -/
def Slice.term (s : Slice) : SliceTerm := ⟨s.start.total, s.stop.map Extent.total⟩

section Slices

variable {rest : List Char}

theorem Total.reader_single {a : Amount} {t : List Char}
    (ht : Amount.reader (t ++ rest) = .done a rest) (hrest : EndsTotal rest) :
    reader (t ++ rest) = .done (.single a) rest := by
  rw [reader, bind_eq_done_iff]
  refine ⟨a, rest, ht, ?_⟩
  rw [bind_eq_done_iff]
  exact ⟨none, rest,
    optional_eq_done_iff.2 (.inr ⟨rfl, rfl, Amount.declines_addendReader hrest⟩), rfl⟩

/-- An end of a slice is read up to its last letter or digit. -/
theorem Extent.Readable.reader_append {e : Extent} (h : e.Readable) (hrest : EndsTotal rest) :
    Total.reader (e.text.toList ++ rest) = .done e.total rest := by
  cases h with
  | number h => exact Total.reader_single (Amount.reader_number h hrest.1) hrest
  | bound h => exact Total.reader_single (h.reader_append hrest.1) hrest
  | @sum a b ha hb =>
    have hblank : ∀ c ∈ (" + ".toList ++ (b.text.toList ++ rest)).head?, isNameChar c = false := by
      rintro _ ⟨⟩
      decide
    have hsecond : Amount.addendReader (" + ".toList ++ (b.text.toList ++ rest)) =
        .done b.amount rest := by
      rw [Amount.addendReader, bind_eq_done_iff]
      exact ⟨(), _, literal_eq_done_iff.2 rfl, hb.reader_append hrest.1⟩
    simp only [text, String.toList_append, List.append_assoc]
    rw [Total.reader, bind_eq_done_iff]
    refine ⟨a.amount, _, ha.reader_append hblank, ?_⟩
    rw [bind_eq_done_iff]
    exact ⟨some b.amount, rest, optional_eq_done_iff.2 (.inl ⟨_, rfl, hsecond⟩), rfl⟩

theorem Amount.declines_reader (hrest : ∀ c ∈ rest.head?, c ≠ '$' ∧ c.isDigit = false) :
    Declines reader rest := by
  have hparameter : Declines parameterReader rest :=
    declines_parameterReader fun hhead => (hrest '$' hhead).1 rfl
  have hdigits : Declines digits rest := declines_takeWhile1_iff.2 fun c hc => (hrest c hc).2
  exact declines_bind_of_done (optional_eq_done_iff.2 (.inr ⟨rfl, rfl, hparameter⟩))
    (hdigits.bind _)

/-- The second end of a slice is read up to the closing bracket, also if there is none. -/
theorem Slice.Readable.optional_reader {s : Slice} (h : s.Readable) :
    optional Total.reader ((s.stop.elim "" Extent.text).toList ++ "]".toList) =
      .done (s.stop.map Extent.total) "]".toList := by
  have hends : EndsTotal "]".toList := endsTotal_cons [] (by decide) (by decide)
  rw [optional_eq_done_iff]
  cases hstop : s.stop with
  | none =>
    refine .inr ⟨rfl, rfl, Declines.bind (Amount.declines_reader ?_) _⟩
    rintro _ ⟨⟩
    decide
  | some e => exact .inl ⟨e.total, rfl, (h.stop e hstop).reader_append hends⟩

/-- A slice is read back from its text. -/
theorem Slice.Readable.read?_text {s : Slice} (h : s.Readable) :
    SliceTerm.read? s.text = some s.term := by
  have hends : EndsTotal ("..".toList ++ ((s.stop.elim "" Extent.text).toList ++ "]".toList)) :=
    endsTotal_cons _ (by decide) (by decide)
  apply wholeText?_eq_some
  simp only [text, String.toList_append, List.append_assoc, SliceTerm.reader, bind_eq_done_iff,
    literal_eq_done_iff, pure_eq_done_iff]
  exact ⟨(), _, rfl, s.start.total, _, h.start.reader_append hends, (), _, rfl, _, _,
    h.optional_reader, (), [], rfl, rfl, rfl⟩

end Slices

/-! ### Pages -/

namespace Page

/-- The bounds of a page can be read. -/
structure Readable (p : Page) : Prop where
  first : ∀ b ∈ p.first, b.Readable
  offset : ∀ b ∈ p.offset, b.Readable

/-- What the clauses of a page say. -/
def window (p : Page) : Window := ⟨p.offset.map Bound.amount, p.first.map Bound.amount⟩

/-- A clause of a page, if its bound is given. -/
def clauseText (keyword : String) (b? : Option Bound) : String :=
  b?.elim "" fun b => keyword ++ b.text

theorem skipLimit_eq_clauseText (p : Page) :
    p.skipLimit = clauseText " SKIP " p.offset ++ clauseText " LIMIT " p.first := by
  obtain ⟨_ | first, _ | offset⟩ := p <;> rfl

theorem optional_clauseReader (keyword : String) {b? : Option Bound} {rest : List Char}
    (hb : ∀ b ∈ b?, b.Readable) (hdeclines : Declines (literal keyword.toList) rest)
    (hrest : ∀ c ∈ rest.head?, isNameChar c = false) :
    optional (Amount.clauseReader keyword) ((clauseText keyword b?).toList ++ rest) =
      .done (b?.map Bound.amount) rest := by
  rw [optional_eq_done_iff]
  cases b? with
  | none => exact .inr ⟨rfl, rfl, hdeclines.bind _⟩
  | some b =>
    refine .inl ⟨b.amount, rfl, ?_⟩
    simp only [clauseText, Option.elim_some, String.toList_append, List.append_assoc,
      Amount.clauseReader, bind_eq_done_iff, literal_eq_done_iff]
    exact ⟨(), _, rfl, (hb b rfl).reader_append hrest⟩

/-- Where the slice of a page ends: at the exact sum of its bounds if they are numbers and it fits
into 64 bits, and otherwise at the sum of both. -/
inductive StopOk : Bound → Bound → Extent → Prop
  | number {f o : Int64} (hf : 0 ≤ f.toInt) (ho : 0 ≤ o.toInt)
    (hfits : o.toInt + f.toInt ≤ Int64.maxValue.toInt) :
    StopOk (.literal f) (.literal o) (.number (o.toInt + f.toInt))
  | sum {first offset : Bound} (hfirst : first.Readable) (hoffset : offset.Readable)
    (hexceeds : ∀ f o, first = .literal f → offset = .literal o →
      Int64.maxValue.toInt < o.toInt + f.toInt) :
    StopOk first offset (.sum offset first)

section Stop

variable {first offset : Bound}

theorem stopOk (hfirst : first.Readable) (hoffset : offset.Readable) :
    StopOk first offset (stop first offset) := by
  cases first with
  | parameter x => exact .sum hfirst hoffset (fun _ _ hf _ => by cases hf)
  | literal f =>
    cases offset with
    | parameter x => exact .sum hfirst hoffset (fun _ _ _ ho => by cases ho)
    | literal o =>
      cases hfirst with
      | literal hf =>
        cases hoffset with
        | literal ho =>
          -- Neither number is negative, so the sum can only be too large.
          have hmin : Int64.minValue.toInt ≤ o.toInt + f.toInt := by
            have hle := o.minValue_le_toInt
            omega
          by_cases hfits : o.toInt + f.toInt ≤ Int64.maxValue.toInt
          · rw [stop, if_pos ⟨hmin, hfits⟩]
            exact .number hf ho hfits
          · rw [stop, if_neg (fun h => hfits h.2)]
            apply StopOk.sum (.literal hf) (.literal ho)
            rintro _ _ ⟨⟩ ⟨⟩
            exact Int.not_le.1 hfits

theorem StopOk.readable {e : Extent} (h : StopOk first offset e) : e.Readable := by
  cases h with
  | number hf ho _ => exact .number (Int.add_nonneg ho hf)
  | sum hfirst hoffset _ => exact .sum hoffset hfirst

/-- The end of the slice stands for the exact sum of the bounds. -/
theorem StopOk.count_eq (values : String → Nat) {e : Extent} (h : StopOk first offset e) :
    e.total.count values = offset.amount.count values + first.amount.count values := by
  cases h with
  | number hf ho _ =>
    simp only [Extent.total, Total.count, Bound.amount, Amount.count]
    omega
  | sum => rfl

/-- The end of the slice is a number only if both bounds are, and it is their exact sum. -/
theorem StopOk.total_eq_number_iff {e : Extent} {n : Nat} (h : StopOk first offset e) :
    e.total = .single (.number n) ↔
      ∃ f o : Int64, first = .literal f ∧ offset = .literal o ∧
        (n : Int) = o.toInt + f.toInt ∧ (n : Int) ≤ Int64.maxValue.toInt := by
  cases h with
  | @number f o hf ho hfits =>
    simp only [Extent.total, Total.single.injEq, Amount.number.injEq]
    constructor
    · intro hn
      exact ⟨f, o, rfl, rfl, by omega, by omega⟩
    · rintro ⟨_, _, ⟨⟩, ⟨⟩, hn, -⟩
      omega
  | sum _ _ hexceeds =>
    simp only [Extent.total, reduceCtorEq, false_iff]
    rintro ⟨f, o, hf, ho, hn, hfits⟩
    have hlt := hexceeds f o hf ho
    omega

end Stop

/-- A bound says a number only if it is one. -/
theorem amount_eq_number_iff {b : Bound} {n : Nat} (h : b.Readable) :
    b.amount = .number n ↔ ∃ f : Int64, b = .literal f ∧ (n : Int) = f.toInt := by
  cases h with
  | @literal f hf =>
    simp only [Bound.amount, Amount.number.injEq, Bound.literal.injEq, exists_eq_left']
    omega
  | parameter => simp [Bound.amount]

section Readable

variable {p : Page}

theorem Readable.toSlice? (h : p.Readable) : ∀ s ∈ p.toSlice?, s.Readable := by
  obtain ⟨first?, offset?⟩ := p
  obtain ⟨hfirst, hoffset⟩ := h
  cases first? with
  | none =>
    cases offset? with
    | none => rintro _ ⟨⟩
    | some offset =>
      rintro _ ⟨⟩
      exact ⟨.bound (hoffset offset rfl), fun _ he => by cases he⟩
  | some first =>
    cases offset? with
    | none =>
      rintro _ ⟨⟩
      refine ⟨.number (Int.le_refl 0), ?_⟩
      rintro _ ⟨⟩
      exact .bound (hfirst first rfl)
    | some offset =>
      rintro _ ⟨⟩
      refine ⟨.bound (hoffset offset rfl), ?_⟩
      rintro _ ⟨⟩
      exact (stopOk (hfirst first rfl) (hoffset offset rfl)).readable

/-- The slice of a page is read, if there is one. -/
theorem Readable.slice?_read (h : p.Readable) :
    p.slice?.map SliceTerm.read? = (p.toSlice?.map Slice.term).map some := by
  rw [slice?_eq_text, Option.map_map, Option.map_map]
  apply Option.map_congr
  exact fun s hs => (h.toSlice? s hs).read?_text

/-- The clauses of a page are read. -/
theorem Readable.skipLimit_read (h : p.Readable) : Window.read? p.skipLimit = some p.window := by
  have hlimit : optional (Amount.clauseReader " LIMIT ")
      ((clauseText " LIMIT " p.first).toList ++ []) = .done (p.first.map Bound.amount) [] := by
    apply optional_clauseReader " LIMIT " h.first
    · simp [declines_literal_iff]
    · simp
  -- What follows the first clause is the second one, which begins with another word.
  have hskip : optional (Amount.clauseReader " SKIP ")
      ((clauseText " SKIP " p.offset).toList ++ (clauseText " LIMIT " p.first).toList) =
        .done (p.offset.map Bound.amount) (clauseText " LIMIT " p.first).toList := by
    apply optional_clauseReader " SKIP " h.offset
    · cases p.first with
      | none => simp [declines_literal_iff, clauseText]
      | some first => simp [declines_literal_iff, clauseText]
    · cases p.first with
      | none => simp [clauseText]
      | some first =>
        simp [clauseText]
        decide
  rw [List.append_nil] at hlimit
  apply wholeText?_eq_some
  simp only [skipLimit_eq_clauseText, String.toList_append, Window.reader, bind_eq_done_iff,
    pure_eq_done_iff]
  exact ⟨_, _, hskip, _, _, hlimit, rfl, rfl⟩

/-- Both forms of a page cut the same items out of a list. -/
theorem Readable.cut_eq (values : String → Nat) {α : Type} (h : p.Readable) (items : List α) :
    SliceTerm.cut? values (p.toSlice?.map Slice.term) items = p.window.cut values items := by
  obtain ⟨first?, offset?⟩ := p
  obtain ⟨hfirst, hoffset⟩ := h
  cases first? with
  | none =>
    cases offset? with
    | none => rfl
    | some offset => rfl
  | some first =>
    cases offset? with
    | none => rfl
    | some offset =>
      have hcount := (stopOk (hfirst first rfl) (hoffset offset rfl)).count_eq values
      calc (items.take ((stop first offset).total.count values)).drop (offset.amount.count values)
        _ = (items.drop (offset.amount.count values)).take (first.amount.count values) := by
          rw [hcount, List.drop_take, Nat.add_sub_cancel_left]

/-- The end of a slice is a single number exactly if both bounds are numbers, an offset that is
not given being zero, and their exact sum fits into 64 bits. The number is this sum. -/
theorem Readable.stop_eq_number_iff (h : p.Readable) {n : Nat} :
    (∃ t ∈ p.toSlice?.map Slice.term, t.stop = some (.single (.number n))) ↔
      ∃ f o : Int64, p.first = some (.literal f) ∧
        (p.offset = some (.literal o) ∨ p.offset = none ∧ o = 0) ∧
        (n : Int) = o.toInt + f.toInt ∧ (n : Int) ≤ Int64.maxValue.toInt := by
  obtain ⟨first?, offset?⟩ := p
  obtain ⟨hfirst, hoffset⟩ := h
  cases first? with
  | none =>
    cases offset? with
    | none => simp [Page.toSlice?]
    | some offset => simp [Page.toSlice?, Slice.term]
  | some first =>
    cases offset? with
    | none =>
      have hnumber := amount_eq_number_iff (n := n) (hfirst first rfl)
      simp only [Page.toSlice?, Slice.term, Extent.total, Option.map_some, Option.mem_some_iff,
        exists_eq_left', Option.some.injEq, Total.single.injEq, hnumber, reduceCtorEq, false_or,
        true_and]
      constructor
      · rintro ⟨f, rfl, hn⟩
        exact ⟨f, 0, rfl, rfl, by simpa using hn, hn ▸ f.toInt_le⟩
      · rintro ⟨f, _, rfl, rfl, hn, -⟩
        exact ⟨f, rfl, by simpa using hn⟩
    | some offset =>
      have hnumber := (stopOk (hfirst first rfl) (hoffset offset rfl)).total_eq_number_iff (n := n)
      simp only [Page.toSlice?, Slice.term, Option.map_some, Option.mem_some_iff, exists_eq_left',
        Option.some.injEq, hnumber, reduceCtorEq, false_and, or_false]

end Readable

end Page

end GraphQuery.Cypher
