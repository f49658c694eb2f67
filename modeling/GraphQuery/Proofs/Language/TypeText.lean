import GraphQuery.Proofs.Language.Invariants
import GraphQuery.Proofs.Language.Recursion

/-!
# Types that are read back from their text

A type is shown without blanks, just as it can be written. The reader takes it back from there, with
every exclamation mark at the level that it was shown at: a mark belongs to the list or the name
that ends in front of it.

What is shown stops at its last character. A name would go on with the characters of a name behind
it, a type without a mark would take the mark behind it, and whatever is ignored would be skipped.
Nothing else in what follows can make a difference.

## Main definitions

* `TypeRef.ReadUnmarked`, `TypeRef.ReadWhole`: a type is read from its text, whatever may follow.

## Main results

* `TypeRef.Regular.read`: a type before the rest of a text, up to its mark and as a whole.
* `TypeRef.types_read_back`: types are read back from their text.
-/

namespace GraphQuery

open Reader Lexeme

variable {s rest : List Char}

namespace TypeRef

variable {t : TypeRef}

/-! ### Regular types -/

theorem Regular.of_list (h : (list t).Regular) : t.Regular where
  names x hx := h.names x (.list hx)
  single u hu := h.single u (.list hu)

theorem Regular.of_nonNull (h : (nonNull t).Regular) : t.Regular where
  names x hx := h.names x (.nonNull hx)
  single u hu := h.single u (.nonNull hu)

theorem Regular.ne_nonNull (h : (nonNull t).Regular) (u : TypeRef) : t ≠ .nonNull u := by
  rintro rfl
  exact h.single u (.self _)

/-! ### Texts of types -/

theorem toList_text_list_append (t : TypeRef) (rest : List Char) :
    (list t).text.toList ++ rest = '[' :: (t.text.toList ++ ']' :: rest) := by
  simp [text]

theorem toList_text_nonNull_append (t : TypeRef) (rest : List Char) :
    (nonNull t).text.toList ++ rest = t.text.toList ++ '!' :: rest := by
  simp [text]

/-- The text of a type begins with a token. -/
theorem Regular.skip_text_append (h : t.Regular) (rest : List Char) :
    skip (t.text.toList ++ rest) = t.text.toList ++ rest := by
  induction t generalizing rest with
  | named x => exact (h.names x (.self _)).skip_append rest
  | list inner =>
    rw [toList_text_list_append]
    exact skip_of_beginsToken (by decide) _
  | nonNull inner ih =>
    rw [toList_text_nonNull_append]
    exact ih h.of_nonNull _

/-! ### Reading them -/

/-- Reads a type up to where its exclamation mark may stand. -/
def unmarkedReader : Reader TypeRef := oneOf [listReader reader, namedReader]

theorem unmarkedReader_name {x : String} (hx : IsName x)
    (hrest : ∀ c ∈ rest.head?, isNameChar c = false) :
    unmarkedReader (x.toList ++ rest) = .done (.named x) (skip rest) := by
  have hbracket : Declines (listReader reader) (x.toList ++ rest) := by
    obtain ⟨c, cs, hchars, hc, -⟩ := id hx
    refine Declines.bind (declines_symbol_of_head? ?_) _
    rw [hx.skip_append, hchars]
    rintro ⟨⟩
    exact absurd hc (by decide)
  have hname : token name (x.toList ++ rest) = .done x (skip rest) := by
    refine token_eq_done_iff.2 ⟨rest, ?_, rfl⟩
    rw [hx.skip_append]
    exact name_eq_done_iff.2 ⟨hx, rfl, hrest⟩
  unfold unmarkedReader
  obtain ⟨trail, htrail⟩ := oneOfFrom_cons_of_declines hbracket
  refine htrail.trans (oneOfFrom_cons_of_done ?_)
  exact bind_eq_done_iff.2 ⟨x, skip rest, hname, rfl⟩

theorem unmarkedReader_list (hskip : skip s = s) (h : reader s = .done t (']' :: rest)) :
    unmarkedReader ('[' :: s) = .done (.list t) (skip rest) := by
  have hopening : symbol '[' ('[' :: s) = .done '[' s := by
    rw [symbol_cons (by decide), hskip]
  have hclosing : symbol ']' (']' :: rest) = .done ']' (skip rest) := symbol_cons (by decide) rest
  unfold unmarkedReader
  refine oneOfFrom_cons_of_done ?_
  simp only [listReader, bind_eq_done_iff, pure_eq_done_iff, expecting_eq_done_iff,
    commit_eq_done_iff]
  exact ⟨'[', s, hopening, t, ']' :: rest, h, ']', skip rest, hclosing, rfl, rfl⟩

theorem reader_of_unmarked (h : unmarkedReader s = .done t rest)
    (hrest : (skip rest).head? ≠ some '!') : reader s = .done t rest := by
  have hmark : optional (symbol '!') rest = .done none rest :=
    optional_eq_done_iff.2 (.inr ⟨rfl, rfl, declines_symbol_of_head? hrest⟩)
  rw [reader_eq]
  exact bind_eq_done_iff.2 ⟨t, rest, h, bind_eq_done_iff.2 ⟨none, rest, hmark, rfl⟩⟩

theorem reader_of_marked (h : unmarkedReader s = .done t ('!' :: rest)) :
    reader s = .done (.nonNull t) (skip rest) := by
  have hmark : optional (symbol '!') ('!' :: rest) = .done (some '!') (skip rest) :=
    optional_eq_done_iff.2 (.inl ⟨'!', rfl, symbol_cons (by decide) rest⟩)
  rw [reader_eq]
  exact bind_eq_done_iff.2 ⟨t, _, h, bind_eq_done_iff.2 ⟨some '!', _, hmark, rfl⟩⟩

/-- The type is read up to where a mark may stand, whatever follows, unless its name would go on. -/
def ReadUnmarked (t : TypeRef) : Prop :=
  ∀ rest : List Char, (∀ c ∈ rest.head?, isNameChar c = false) →
    unmarkedReader (t.text.toList ++ rest) = .done t (skip rest)

/-- The type is read as a whole, if no mark follows that would be taken for one of its own. -/
def ReadWhole (t : TypeRef) : Prop :=
  ∀ rest : List Char, (∀ c ∈ rest.head?, isNameChar c = false) → (skip rest).head? ≠ some '!' →
    reader (t.text.toList ++ rest) = .done t (skip rest)

theorem ReadUnmarked.readWhole (h : t.ReadUnmarked) : t.ReadWhole := by
  intro rest hname hmark
  apply reader_of_unmarked (h rest hname)
  rwa [skip_skip]

/-- The bracket behind the inner type ends a name and is no mark. -/
theorem ReadWhole.list (h : t.ReadWhole) (ht : t.Regular) : (TypeRef.list t).ReadUnmarked := by
  intro rest hname
  have hskip : skip (']' :: rest) = ']' :: rest := skip_of_beginsToken (by decide) rest
  have hinner : reader (t.text.toList ++ ']' :: rest) = .done t (']' :: rest) := by
    rw [h (']' :: rest) (by simp [isNameChar]) (by simp [hskip]), hskip]
  rw [toList_text_list_append]
  exact unmarkedReader_list (ht.skip_text_append _) hinner

/-- The mark behind the inner type ends a name, and what follows it does not matter. -/
theorem ReadUnmarked.nonNull (h : t.ReadUnmarked) : (TypeRef.nonNull t).ReadWhole := by
  intro rest hname hmark
  rw [toList_text_nonNull_append]
  apply reader_of_marked
  rw [h ('!' :: rest) (by simp [isNameChar]), skip_of_beginsToken (by decide)]

/-- A regular type is read, with a mark at its end or without one. -/
theorem Regular.read (h : t.Regular) :
    ((∀ u, t ≠ .nonNull u) → t.ReadUnmarked) ∧ t.ReadWhole := by
  induction t with
  | named x =>
    have hread : (named x).ReadUnmarked :=
      fun rest hname => unmarkedReader_name (h.names x (.self _)) hname
    exact ⟨fun _ => hread, hread.readWhole⟩
  | list inner ih =>
    have hread : (TypeRef.list inner).ReadUnmarked := (ih h.of_list).2.list h.of_list
    exact ⟨fun _ => hread, hread.readWhole⟩
  | nonNull inner ih =>
    -- Inside the mark stands a type without one, so the mark is not taken by what it marks.
    exact ⟨fun hne => absurd rfl (hne inner), ((ih h.of_nonNull).1 h.ne_nonNull).nonNull⟩

/-- A regular type is read back from its text, up to its last character, if what follows does not
begin with something ignored, with a mark or with a character of a name. Every type that is read is
regular, and so it is read back. -/
theorem types_read_back :
    (∀ t : TypeRef, t.Regular → ∀ rest, (∀ s, ¬ Ignored rest s) →
      (∀ c ∈ rest.head?, c ≠ '!' ∧ isNameChar c = false) →
      reader (t.text.toList ++ rest) = .done t rest) ∧
    ∀ s t rest, reader s = .done t rest →
      t.Regular ∧ reader t.text.toList = .done t [] := by
  have hback (t : TypeRef) (ht : t.Regular) (rest : List Char) (hclear : ∀ s, ¬ Ignored rest s)
      (hrest : ∀ c ∈ rest.head?, c ≠ '!' ∧ isNameChar c = false) :
      reader (t.text.toList ++ rest) = .done t rest := by
    have hskip : skip rest = rest := skip_eq_self_iff.2 hclear
    have hread := ht.read.2 rest (fun c hc => (hrest c hc).2)
    rw [hskip] at hread
    exact hread fun hmark => (hrest '!' hmark).1 rfl
  refine ⟨hback, fun s t rest h => ?_⟩
  obtain ⟨ts, hwritten, -⟩ := reads_reader s t rest h
  have hend := hback t hwritten.regular [] (skip_eq_self_iff.1 rfl) (fun c hc => by cases hc)
  rw [List.append_nil] at hend
  exact ⟨hwritten.regular, hend⟩

/-- A list of lists, with a mark on the inner ones and on the whole. -/
def grid : TypeRef := .nonNull (.list (.nonNull (.list (.named "Int"))))

/-- The marks stand apart from what they mark, with a comma and a comment between. -/
theorem types_read_back_grid :
    reader "[ [Int,] !] # rows\n ! = 3".toList = .done grid "= 3".toList ∧ grid.Regular ∧
      reader "[[Int]!]!".toList = .done grid [] ∧
      reader "[[Int]!]!= 3".toList = .done grid "= 3".toList := by
  have hread : reader "[ [Int,] !] # rows\n ! = 3".toList = .done grid "= 3".toList := by
    simp only [String.reduceToList]
    rfl
  obtain ⟨hregular, hback⟩ := types_read_back.2 _ _ _ hread
  refine ⟨hread, hregular, hback, ?_⟩
  refine types_read_back.1 grid hregular "= 3".toList ?_ ?_
  · apply skip_eq_self_iff.1
    simp only [String.reduceToList]
    rfl
  · simp [isNameChar]

end TypeRef

end GraphQuery
