import Mathlib.Data.List.Forall2
import GraphQuery.Cypher.Statement
import GraphQuery.Proofs.Language.Plain

/-!
# Skeletons of statements

The skeleton of a text is what is left when the inside of each of its string literals is removed. A
scanner goes through the text from left to right; a quote opens a literal, the next quote closes it,
and a backslash inside takes the character behind it along.

The quotes in a statement are those around its strings, if no name brings in others: emptying the
strings of a statement gives its skeleton.

## Main definitions

* `Cypher.skeleton`: the text without the inside of its literals.
* `Cypher.Leaves`: a text that the scanner enters and leaves outside of literals, and what it keeps.
* `Cypher.Statement.blank`: the statement with empty strings.
* `Cypher.Statement.Plain`: all names in the statement are plain.

## Main results

* `Cypher.leaves_quote`: of a string in quotes only the quotes are left.
* `Cypher.IsForeign.notMem_toString`, `Cypher.IsForeign.notMem_layoutText`: what stands in no
  number.
* `Cypher.Statement.skeleton_text`: the skeleton of a statement is the text of the blank one.
-/

namespace GraphQuery.Cypher

/-! ### Scanning -/

/-- Where a scanner stands: outside of literals, inside one, or there behind a backslash. -/
inductive Mode where
  | outside
  | inside
  | escaped

/-- What is left of a text that is scanned from a mode on. -/
def skeletonFrom : Mode → List Char → List Char
  | _, [] => []
  | .outside, c :: s => c :: skeletonFrom (if c == '\'' then .inside else .outside) s
  | .inside, c :: s =>
    if c == '\'' then c :: skeletonFrom .outside s
    else skeletonFrom (if c == '\\' then .escaped else .inside) s
  | .escaped, _ :: s => skeletonFrom .inside s

/-- A text without the inside of its string literals. -/
def skeleton (t : String) : String := String.ofList (skeletonFrom .outside t.toList)

/-- Outside of literals, the text `t` is scanned to `kept`, and the scanner is outside again. -/
def Leaves (t kept : String) : Prop :=
  ∀ rest, skeletonFrom .outside (t.toList ++ rest) = kept.toList ++ skeletonFrom .outside rest

/-- No quote stands in the text. -/
def QuoteFree (t : String) : Prop := '\'' ∉ t.toList

instance (t : String) : Decidable (QuoteFree t) := inferInstanceAs (Decidable (_ ∉ t.toList))

@[simp] theorem quoteFree_append {a b : String} :
    QuoteFree (a ++ b) ↔ QuoteFree a ∧ QuoteFree b := by
  simp [QuoteFree]

theorem Leaves.skeleton_eq {t kept : String} (h : Leaves t kept) : skeleton t = kept := by
  have hall := h []
  rw [List.append_nil] at hall
  rw [skeleton, hall]
  simp [skeletonFrom]

theorem Leaves.append {t u kept rest : String} (ht : Leaves t kept) (hu : Leaves u rest) :
    Leaves (t ++ u) (kept ++ rest) := by
  intro s
  rw [String.toList_append, String.toList_append, List.append_assoc, ht, hu, List.append_assoc]

theorem QuoteFree.leaves {t : String} (h : QuoteFree t) : Leaves t t := by
  intro rest
  unfold QuoteFree at h
  generalize t.toList = s at h
  -- Every character is kept, and none takes the scanner inside a literal.
  induction s with
  | nil => rfl
  | cons c s ih =>
    obtain ⟨hc, hs⟩ := List.ne_and_not_mem_of_not_mem_cons h
    have hbeq : (c == '\'') = false := beq_false_of_ne hc.symm
    rw [List.cons_append, skeletonFrom, hbeq, if_neg (by simp), ih hs, List.cons_append]

/-- Inside a literal a character is passed over, with the backslash in front of it if it has one. -/
theorem skeletonFrom_escape (c : Char) (s : List Char) :
    skeletonFrom .inside (escape c ++ s) = skeletonFrom .inside s := by
  unfold escape
  split
  -- A quote or a backslash is escaped, and the scanner passes over both characters.
  · rfl
  · next h =>
    simp only [Bool.or_eq_true, not_or, Bool.not_eq_true] at h
    simp [skeletonFrom, h.1, h.2]

/-- Of a string in quotes only the quotes are left. -/
theorem leaves_quote (s : String) : Leaves (quote s) (quote "") := by
  intro rest
  -- From the opening quote on, the scanner stays inside up to the closing one.
  have hinside : ∀ cs : List Char,
      skeletonFrom .inside (cs.flatMap escape ++ '\'' :: rest) =
        '\'' :: skeletonFrom .outside rest := by
    intro cs
    induction cs with
    | nil => rfl
    | cons c cs ih => rw [List.flatMap_cons, List.append_assoc, skeletonFrom_escape, ih]
  simp [quote, skeletonFrom, hinside]

theorem Leaves.joinWith {separator : String} (hseparator : QuoteFree separator)
    {ts kept : List String} (h : List.Forall₂ Leaves ts kept) :
    Leaves (joinWith separator ts) (joinWith separator kept) := by
  induction h with
  | nil =>
    have hempty : QuoteFree "" := by decide
    exact hempty.leaves
  | cons ht hts ih =>
    -- A single text has no separator behind it.
    cases hts with
    | nil => exact ht
    | cons => exact (ht.append hseparator.leaves).append ih

theorem quoteFree_of_isPlain {name : String} (h : IsPlain name) : QuoteFree name :=
  fun hquote => absurd (h '\'' hquote) (by decide)

/-! ### Numbers -/

/-- A character that stands in no number: neither a digit nor a sign, a point, an exponent mark or a
letter of the words for what is not finite. -/
def IsForeign (c : Char) : Prop :=
  c.isDigit = false ∧ c ∉ ['+', '-', '.', 'e', 'N', 'a', 'i', 'n', 'f']

instance (c : Char) : Decidable (IsForeign c) := inferInstanceAs (Decidable (_ ∧ _))

namespace IsForeign

variable {c : Char}

theorem notMem_toDigits (hc : IsForeign c) (n : Nat) : c ∉ Nat.toDigits 10 n := by
  intro h
  have hdigit := Nat.isDigit_of_mem_toDigits (by decide) (by decide) h
  rw [hc.1] at hdigit
  cases hdigit

theorem notMem_toString (hc : IsForeign c) (i : Int) : c ∉ (toString i).toList := by
  cases i with
  | ofNat n => simpa [toString, Int.repr, Nat.repr] using hc.notMem_toDigits n
  | negSucc n =>
    have hminus : c ≠ '-' := fun heq => hc.2 (by simp [heq])
    simpa [toString, Int.repr, Nat.repr, hminus] using hc.notMem_toDigits (n + 1)

section Layout

variable {layout : Decimal.Layout} {ds : List Char}

theorem notMem_positional (hc : IsForeign c) (h : c ∉ ds) (k : Int) :
    c ∉ layout.positional ds k := by
  have hpoint : c ≠ '.' := fun heq => hc.2 (by simp [heq])
  have hzero : c ≠ '0' := fun heq => absurd hc.1 (by rw [heq]; decide)
  have htake (n : Nat) : c ∉ ds.take n := fun hmem => h (List.mem_of_mem_take hmem)
  have hdrop (n : Nat) : c ∉ ds.drop n := fun hmem => h (List.mem_of_mem_drop hmem)
  simp only [Decimal.Layout.positional]
  split_ifs <;> simp [h, htake, hdrop, hpoint, hzero, List.mem_replicate]

theorem notMem_scientific (hc : IsForeign c) (h : c ∉ ds) (k : Int) :
    c ∉ layout.scientific ds k := by
  have hmarks := hc.2
  simp only [List.mem_cons, List.not_mem_nil, or_false, not_or] at hmarks
  obtain ⟨hplus, hminus, hpoint, he, -⟩ := hmarks
  have hexponent : c ∉ 'e' :: ((if (ds.length + k - 1 : Int) < 0 then ['-']
      else if layout.plusSign then ['+'] else []) ++
        Nat.toDigits 10 (ds.length + k - 1 : Int).natAbs) := by
    split_ifs <;> simp [hc.notMem_toDigits, hplus, hminus, he]
  rcases ds with _ | ⟨d, _ | ⟨e, ds⟩⟩
  · exact hexponent
  · obtain ⟨hd, -⟩ := List.ne_and_not_mem_of_not_mem_cons h
    exact List.not_mem_cons_of_ne_of_not_mem hd hexponent
  · obtain ⟨hd, hds⟩ := List.ne_and_not_mem_of_not_mem_cons h
    refine List.not_mem_cons_of_ne_of_not_mem hd ?_
    refine List.not_mem_cons_of_ne_of_not_mem hpoint ?_
    exact fun hmem => (List.mem_append.1 hmem).elim hds hexponent

end Layout

theorem notMem_layoutText (hc : IsForeign c) (layout : Decimal.Layout) (x : Float) :
    c ∉ (layout.text x).toList := by
  have hmagnitude (m : Nat) (q : Int) : c ∉ layout.magnitude m q := by
    have hzero : c ∉ ['0'] := fun hmem => absurd hc.1 (by rw [List.mem_singleton.1 hmem]; decide)
    simp only [Decimal.Layout.magnitude, Decimal.Layout.digits]
    split_ifs
    · exact hc.notMem_positional hzero 0
    · exact hc.notMem_positional (hc.notMem_toDigits _) _
    · exact hc.notMem_scientific (hc.notMem_toDigits _) _
  obtain ⟨-, hmarks⟩ := hc
  simp only [List.mem_cons, List.not_mem_nil, or_false, not_or] at hmarks
  simp only [Decimal.Layout.text]
  split
  · simp [hmarks]
  · split_ifs <;> simp [hmarks]
  · split_ifs <;> simp [hmarks, hmagnitude]

end IsForeign

theorem quoteFree_toString (i : Int) : QuoteFree (toString i) :=
  IsForeign.notMem_toString (by decide) i

/-- Digits, signs, points and exponent marks are no quotes. -/
theorem quoteFree_layoutText (layout : Decimal.Layout) (x : Float) : QuoteFree (layout.text x) :=
  IsForeign.notMem_layoutText (by decide) layout x

/-! ### Literals -/

namespace Literal

mutual

/-- A literal with empty strings. -/
def blank : Literal → Literal
  | .string _ => .string ""
  | .list items => .list (blankAll items)
  | .null => .null
  | .boolean b => .boolean b
  | .int i => .int i
  | .float x => .float x
  | .parameter name => .parameter name

/-- Some literals with empty strings. -/
def blankAll : List Literal → List Literal
  | [] => []
  | l :: ls => l.blank :: blankAll ls

end

mutual

/-- The parameters in a literal have plain names. -/
def Plain : Literal → Prop
  | .parameter name => IsPlain name
  | .list items => AllPlain items
  | _ => True

/-- The parameters in some literals have plain names. -/
def AllPlain : List Literal → Prop
  | [] => True
  | l :: ls => l.Plain ∧ AllPlain ls

end

theorem allPlain_iff {ls : List Literal} : AllPlain ls ↔ ∀ l ∈ ls, l.Plain := by
  induction ls with
  | nil => simp [AllPlain]
  | cons l ls ih => simp [AllPlain, ih]

theorem blankAll_eq_map (ls : List Literal) : blankAll ls = ls.map blank := by
  induction ls with
  | nil => rfl
  | cons l ls ih => rw [blankAll, List.map_cons, ih]

mutual

/-- Of a literal the quotes are left, and all that is no string. -/
theorem leaves_text (l : Literal) (h : l.Plain) : Leaves l.text l.blank.text := by
  cases l with
  | null => exact QuoteFree.leaves (by simp [QuoteFree, text])
  | boolean b => exact QuoteFree.leaves (by cases b <;> simp [QuoteFree, text])
  | int i => exact QuoteFree.leaves (quoteFree_toString i.toInt)
  | float x => exact QuoteFree.leaves (quoteFree_layoutText floatLayout x)
  | string s => exact leaves_quote s
  | parameter name =>
    have hname : QuoteFree name := quoteFree_of_isPlain h
    exact QuoteFree.leaves (by simpa [QuoteFree, text] using hname)
  | list items =>
    have hopen : QuoteFree "[" := by decide
    have hclose : QuoteFree "]" := by decide
    have hcomma : QuoteFree ", " := by decide
    exact (hopen.leaves.append (.joinWith hcomma (forall₂_leaves_texts items h))).append
      hclose.leaves

theorem forall₂_leaves_texts (ls : List Literal) (h : AllPlain ls) :
    List.Forall₂ Leaves (texts ls) (texts (blankAll ls)) := by
  cases ls with
  | nil => exact .nil
  | cons l ls => exact .cons (leaves_text l h.1) (forall₂_leaves_texts ls h.2)

end

end Literal

/-! ### Filters, patterns and pages -/

/-- A filter with empty strings. -/
def Equality.blank (e : Equality) : Equality := { e with value := e.value.blank }

/-- The names in a filter are plain. -/
structure Equality.Plain (e : Equality) : Prop where
  property : IsPlain e.property
  value : e.value.Plain

/-- The names in a pattern are plain. -/
structure Pattern.Plain (p : Pattern) : Prop where
  source : IsPlain p.source
  type : IsPlain p.relation.type
  bound : IsPlain p.bound
  label : IsPlain p.label

/-- The parameter of a bound has a plain name. -/
def Bound.Plain : Bound → Prop
  | .literal _ => True
  | .parameter name => IsPlain name

/-- The parameters of a page have plain names. -/
structure Page.Plain (p : Page) : Prop where
  first : ∀ b ∈ p.first, b.Plain
  offset : ∀ b ∈ p.offset, b.Plain

/-- The parameters of a slice have plain names. -/
def Pick.Plain : Pick → Prop
  | .single => True
  | .page p => p.Plain

theorem Equality.leaves_text {bound : String} (hbound : IsPlain bound) {e : Equality}
    (h : e.Plain) : Leaves (e.text bound) (e.blank.text bound) := by
  have hfront : QuoteFree (bound ++ "." ++ e.property ++ " = ") := by
    simp only [quoteFree_append, quoteFree_of_isPlain hbound, quoteFree_of_isPlain h.property]
    decide
  exact hfront.leaves.append (e.value.leaves_text h.value)

theorem leaves_whereClause {bound : String} (hbound : IsPlain bound) {filters : List Equality}
    (h : ∀ e ∈ filters, e.Plain) :
    Leaves (whereClause bound filters) (whereClause bound (filters.map Equality.blank)) := by
  have htexts : List.Forall₂ Leaves (filters.map (Equality.text bound))
      ((filters.map Equality.blank).map (Equality.text bound)) := by
    rw [List.map_map, List.forall₂_map_left_iff, List.forall₂_map_right_iff, List.forall₂_same]
    exact fun e he => Equality.leaves_text hbound (h e he)
  have hwhere : QuoteFree " WHERE " := by decide
  have hand : QuoteFree " AND " := by decide
  simp only [whereClause, List.isEmpty_map]
  split
  · have hempty : QuoteFree "" := by decide
    exact hempty.leaves
  · exact hwhere.leaves.append (.joinWith hand htexts)

theorem Pattern.quoteFree_text {p : Pattern} (h : p.Plain) : QuoteFree p.text := by
  simp only [Pattern.text]
  split <;>
    simp only [quoteFree_append, quoteFree_of_isPlain h.source, quoteFree_of_isPlain h.type,
      quoteFree_of_isPlain h.bound, quoteFree_of_isPlain h.label] <;>
    decide

theorem Bound.quoteFree_text {b : Bound} (h : b.Plain) : QuoteFree b.text := by
  cases b with
  | literal n => exact quoteFree_toString n.toInt
  | parameter name =>
    simp only [Bound.text, quoteFree_append, quoteFree_of_isPlain h]
    decide

theorem Page.quoteFree_sliceEnd {first offset : Bound} (hfirst : first.Plain)
    (hoffset : offset.Plain) : QuoteFree (Page.sliceEnd first offset) := by
  have hsum : QuoteFree (offset.text ++ " + " ++ first.text) := by
    simp only [quoteFree_append, Bound.quoteFree_text hfirst, Bound.quoteFree_text hoffset]
    decide
  unfold Page.sliceEnd
  split
  · simp only
    split
    · exact quoteFree_toString _
    · exact hsum
  · exact hsum

theorem Pick.quoteFree_text {pick : Pick} (h : pick.Plain) : QuoteFree pick.text := by
  cases pick with
  | single => decide
  | page p =>
    obtain ⟨hfirst, hoffset⟩ := h
    obtain ⟨_ | first, _ | offset⟩ := p
    · exact (by decide : QuoteFree "")
    · have hoffset := Bound.quoteFree_text (hoffset offset rfl)
      simp only [Pick.text, Page.slice?, Option.getD_some, quoteFree_append, hoffset]
      decide
    · have hfirst := Bound.quoteFree_text (hfirst first rfl)
      simp only [Pick.text, Page.slice?, Option.getD_some, quoteFree_append, hfirst]
      decide
    · have hend := Page.quoteFree_sliceEnd (hfirst first rfl) (hoffset offset rfl)
      have hoffset := Bound.quoteFree_text (hoffset offset rfl)
      simp only [Pick.text, Page.slice?, Option.getD_some, quoteFree_append, hoffset, hend]
      decide

theorem Page.quoteFree_skipLimit {p : Page} (h : p.Plain) : QuoteFree p.skipLimit := by
  obtain ⟨hfirst, hoffset⟩ := h
  rw [Page.skipLimit, quoteFree_append]
  constructor
  · split
    · next offset hsome =>
      simp only [quoteFree_append, Bound.quoteFree_text (hoffset offset hsome)]
      decide
    · decide
  · split
    · next first hsome =>
      simp only [quoteFree_append, Bound.quoteFree_text (hfirst first hsome)]
      decide
    · decide

/-! ### Entries and statements -/

mutual

/-- An entry with empty strings. -/
def Entry.blank : Entry → Entry
  | .property key => .property key
  | .related key nodes => .related key nodes.blank

/-- A comprehension with empty strings. -/
def Comprehension.blank : Comprehension → Comprehension
  | .mk pattern filters entries pick =>
    .mk pattern (filters.map Equality.blank) (Entry.blankAll entries) pick

/-- Some entries with empty strings. -/
def Entry.blankAll : List Entry → List Entry
  | [] => []
  | e :: es => e.blank :: Entry.blankAll es

end

mutual

/-- The names in an entry are plain. -/
def Entry.Plain : Entry → Prop
  | .property key => IsPlain key
  | .related key nodes => IsPlain key ∧ nodes.Plain

/-- The names in a comprehension are plain. -/
def Comprehension.Plain : Comprehension → Prop
  | .mk pattern filters entries pick =>
    pattern.Plain ∧ (∀ e ∈ filters, e.Plain) ∧ Entry.AllPlain entries ∧ pick.Plain

/-- The names in some entries are plain. -/
def Entry.AllPlain : List Entry → Prop
  | [] => True
  | e :: es => e.Plain ∧ Entry.AllPlain es

end

/-- A statement with empty strings. -/
def Statement.blank (stmt : Statement) : Statement :=
  { stmt with
    filters := stmt.filters.map Equality.blank
    entries := Entry.blankAll stmt.entries }

/-- The names in a statement are plain. -/
structure Statement.Plain (stmt : Statement) : Prop where
  bound : IsPlain stmt.bound
  label : IsPlain stmt.label
  filters : ∀ e ∈ stmt.filters, e.Plain
  entries : ∀ e ∈ stmt.entries, e.Plain
  page : stmt.page.Plain

theorem Entry.blankAll_eq_map (es : List Entry) : Entry.blankAll es = es.map Entry.blank := by
  induction es with
  | nil => rfl
  | cons e es ih => rw [Entry.blankAll, List.map_cons, ih]

theorem Entry.allPlain_iff {es : List Entry} : Entry.AllPlain es ↔ ∀ e ∈ es, e.Plain := by
  induction es with
  | nil => simp [Entry.AllPlain]
  | cons e es ih => simp [Entry.AllPlain, ih]

theorem leaves_mapText {ts kept : List String} (h : List.Forall₂ Leaves ts kept) :
    Leaves (mapText ts) (mapText kept) := by
  have hopen : QuoteFree "\x7b" := by decide
  have hclose : QuoteFree "\x7d" := by decide
  have hcomma : QuoteFree "," := by decide
  exact (hopen.leaves.append (.joinWith hcomma h)).append hclose.leaves

mutual

theorem Entry.leaves_text (e : Entry) (h : e.Plain) : Leaves e.text e.blank.text := by
  cases e with
  | property key =>
    refine QuoteFree.leaves ?_
    simp only [Entry.text, quoteFree_append, quoteFree_of_isPlain h]
    decide
  | related key nodes =>
    have hkey : QuoteFree (key ++ ":") := by
      simp only [quoteFree_append, quoteFree_of_isPlain h.1]
      decide
    exact hkey.leaves.append (nodes.leaves_text h.2)

/-- Of a comprehension its strings are emptied, and all else is left. -/
theorem Comprehension.leaves_text (c : Comprehension) (h : c.Plain) :
    Leaves c.text c.blank.text := by
  obtain ⟨pattern, filters, entries, pick⟩ := c
  obtain ⟨hpattern, hfilters, hentries, hpick⟩ := h
  have hfront : QuoteFree ("[" ++ pattern.text) := by
    simp only [quoteFree_append, Pattern.quoteFree_text hpattern]
    decide
  have hbar : QuoteFree " | " := by decide
  have hblank : QuoteFree " " := by decide
  have hclose : QuoteFree "]" := by decide
  have hbound := (quoteFree_of_isPlain hpattern.bound).leaves
  exact ((((((hfront.leaves.append (leaves_whereClause hpattern.bound hfilters)).append
    hbar.leaves).append hbound).append hblank.leaves).append
      (leaves_mapText (Entry.forall₂_leaves_texts entries hentries))).append hclose.leaves).append
        (Pick.quoteFree_text hpick).leaves

theorem Entry.forall₂_leaves_texts (es : List Entry) (h : Entry.AllPlain es) :
    List.Forall₂ Leaves (Entry.texts es) (Entry.texts (Entry.blankAll es)) := by
  cases es with
  | nil => exact .nil
  | cons e es => exact .cons (e.leaves_text h.1) (Entry.forall₂_leaves_texts es h.2)

end

/-- The skeleton of a statement is the text of the statement with empty strings. -/
theorem Statement.skeleton_text {stmt : Statement} (h : stmt.Plain) :
    skeleton stmt.text = stmt.blank.text := by
  have hfront : QuoteFree ("MATCH (" ++ stmt.bound ++ ":" ++ stmt.label ++ ")") := by
    simp only [quoteFree_append, quoteFree_of_isPlain h.bound, quoteFree_of_isPlain h.label]
    decide
  have hreturn : QuoteFree " RETURN " := by decide
  have hblank : QuoteFree " " := by decide
  have hentries := Entry.forall₂_leaves_texts stmt.entries (Entry.allPlain_iff.2 h.entries)
  refine Leaves.skeleton_eq ?_
  exact (((((hfront.leaves.append (leaves_whereClause h.bound h.filters)).append
    hreturn.leaves).append (quoteFree_of_isPlain h.bound).leaves).append hblank.leaves).append
      (leaves_mapText hentries)).append (Page.quoteFree_skipLimit h.page).leaves

end GraphQuery.Cypher
