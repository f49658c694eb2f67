import GraphQuery.Proofs.Language.Completeness
import GraphQuery.Proofs.Reader.Trails

/-!
# Trails through queries

Most readers begin behind everything that is ignored, so that what remains at a fault begins with
the token that did not fit. A few faults are noted too early, in front of blanks, commas or comments
that are skipped afterwards or should not stand there at all. They are listed here, each with the
text that stands directly before it.

Every reader of a query, and of the values and types that schema definitions are made of, stays in
the text: what it leaves is a suffix, and a trail that it gives up with leads from where it began.

## Main definitions

* `Fault.Early`: the faults that may stand in front of something ignored.
* `Fault.Placed`: a fault stands in front of a token or of the end, or it is an early one.
* `Reader.ReadsOn`: a reader gets further, and stops behind everything that is ignored.

## Main results

* `Value.proceeds_reader`, `TypeRef.readsOn_reader`, `Selection.readsOn_setReader`: the parts of a
  query.
* `Document.readsOn_reader`: the reader of queries.
-/

namespace GraphQuery

open Reader Lexeme

variable {α : Type} {text s rest : List Char} {cause : String}

/-! ### Places of faults -/

/-- The faults that may be noted in front of something ignored. Between a dollar sign and the name
of a variable in a value nothing is skipped, nor between a minus sign and digits, nor inside a
block. The missing colon behind a variable, and the missing brace behind the name of a directive,
are noted before anything is skipped. -/
inductive Fault.Early (text : List Char) : Fault → Prop
  | dollar {rest : List Char} {cause : String} (h : '$' :: rest <:+ text)
    (hcause : cause ∈ [unexpected, "Expected variable name after `$`"]) : Early text ⟨rest, cause⟩
  | minus {rest : List Char} (h : '-' :: rest <:+ text) : Early text ⟨rest, unexpected⟩
  | quotes {rest : List Char} {cause : String} (h : tripleQuote ++ rest <:+ text)
    (hcause : cause ∈ [unexpected, "Unterminated block string"]) : Early text ⟨rest, cause⟩
  | variable {x : String} {rest : List Char} (hx : IsName x) (h : x.toList ++ rest <:+ text) :
    Early text ⟨rest, "Expected `:` after variable name"⟩
  | directive {x : String} {rest : List Char} (hx : IsName x) (h : x.toList ++ rest <:+ text) :
    Early text ⟨rest, "Expected `\x7d` to close type definition"⟩

/-- Nothing ignored stands in front of what remains, or the fault is an early one. -/
def Fault.Placed (text : List Char) (fault : Fault) : Prop :=
  skip fault.rest = fault.rest ∨ fault.Early text

/-- From this place the reader gets further, or it gives up with a trail of faults that have their
places. -/
def Reader.Proceeds (text : List Char) (p : Reader α) (s : List Char) : Prop :=
  (p s).StaysIn (Fault.Placed text) s fun rest => rest.length < s.length

/-- The reader proceeds, and it stops behind everything that is ignored. -/
def Reader.ReadsOn (text : List Char) (p : Reader α) (s : List Char) : Prop :=
  (p s).StaysIn (Fault.Placed text) s fun rest => rest.length < s.length ∧ skip rest = rest

namespace Reader

variable {p : Reader α}

theorem ReadsOn.commit (h : p.ReadsOn text s) : (commit p).ReadsOn text s :=
  Reading.StaysIn.commit h

theorem ReadsOn.expecting (h : p.ReadsOn text s) (hs : skip s = s) :
    (expecting cause p).ReadsOn text s :=
  Reading.StaysIn.expecting h (.inl hs)

theorem ReadsOn.expecting_early (h : p.ReadsOn text s) (hs : (⟨s, cause⟩ : Fault).Early text) :
    (Reader.expecting cause p).ReadsOn text s :=
  Reading.StaysIn.expecting h (.inr hs)

/-- How far a reader gets can be measured from an earlier place. -/
theorem ReadsOn.from_earlier {t : List Char} (h : p.ReadsOn text t) (hle : t.length ≤ s.length) :
    (p t).StaysIn (Fault.Placed text) t fun rest => rest.length < s.length ∧ skip rest = rest :=
  h.mono fun _ _ hrest => ⟨Nat.lt_of_lt_of_le hrest.1 hle, hrest.2⟩

theorem ReadsOn.optional (h : p.ReadsOn text s) (hs : skip s = s) :
    (optional p s).StaysIn (Fault.Placed text) s fun rest => skip rest = rest :=
  Reading.StaysIn.optional (h.mono fun _ _ hrest => hrest.2) hs

theorem stays_ignored {F : Fault → Prop} (s : List Char) :
    (ignored s).StaysIn F s fun rest => rest = skip s :=
  ⟨(spans_skip s).suffix, rfl⟩

/-- A reader that proceeds reads on if things are skipped on both sides of it. -/
theorem readsOn_token (h : p.Proceeds text (skip s)) : (token p).ReadsOn text s := by
  have hle := length_skip_le s
  refine (stays_ignored s).bind ?_
  rintro _ _ - rfl
  refine h.bind fun _ s₁ _ hlt => ?_
  have hle₁ := length_skip_le s₁
  refine (stays_ignored s₁).bind ?_
  rintro _ _ - rfl
  exact .pure ⟨by omega, skip_skip s₁⟩

end Reader

/-! ### Lexemes -/

namespace Lexeme

variable {F : Fault → Prop}

theorem stays_satisfy {test : Char → Bool} (hF : F ⟨s, unexpected⟩) :
    (satisfy test s).StaysIn F s fun rest => ∃ c, s = c :: rest := by
  cases s with
  | nil => exact Trail.LeadsFrom.singleton (List.suffix_refl _) hF
  | cons c s =>
    rw [satisfy]
    split
    · exact ⟨List.suffix_cons c s, c, rfl⟩
    · exact Trail.LeadsFrom.singleton (List.suffix_refl _) hF

theorem stays_char {c : Char} (hF : F ⟨s, unexpected⟩) :
    (char c s).StaysIn F s fun rest => s = c :: rest :=
  (stays_satisfy hF).of_done fun _ _ hread => (char_eq_done_iff.1 hread).2

theorem stays_takeWhile1 {test : Char → Bool} (hF : F ⟨s, unexpected⟩) :
    (takeWhile1 test s).StaysIn F s fun rest => rest.length < s.length := by
  unfold takeWhile1
  split
  · exact Trail.LeadsFrom.singleton (List.suffix_refl _) hF
  · next c cs htake =>
    refine ⟨List.dropWhile_suffix _, ?_⟩
    have hlength := congrArg List.length (List.takeWhile_append_dropWhile (p := test) (l := s))
    rw [htake, List.length_append, List.length_cons] at hlength
    omega

theorem readsOn_symbol (c : Char) : (symbol c).ReadsOn text s := by
  refine readsOn_token ((stays_char (.inl (skip_skip s))).mono ?_)
  intro rest _ hskip
  rw [hskip]
  exact Nat.lt_succ_self _

/-- A name stands between where the reader begins and where it stops. -/
theorem stays_name (hF : F ⟨s, unexpected⟩) :
    (name s).StaysIn F s fun rest => ∃ x, IsName x ∧ s = x.toList ++ rest := by
  have hname : (name s).StaysIn F s fun _ => True := by
    refine (stays_takeWhile1 hF).bind fun _ s₁ _ _ => ?_
    have hothers : (takeWhile isNameChar s₁).StaysIn F s₁ fun _ => True :=
      ⟨List.dropWhile_suffix _, trivial⟩
    exact hothers.bind fun _ _ _ _ => .pure trivial
  refine hname.of_done fun x rest hread => ?_
  obtain ⟨hx, hs, -⟩ := name_eq_done_iff.1 hread
  exact ⟨x, hx, hs⟩

theorem IsName.length_lt {x : String} (hx : IsName x) (rest : List Char) :
    rest.length < (x.toList ++ rest).length := by
  obtain ⟨c, cs, hchars, -, -⟩ := hx
  rw [hchars, List.length_append, List.length_cons]
  omega

theorem proceeds_name (hs : skip s = s) : name.Proceeds text s := by
  refine (stays_name (.inl hs)).mono ?_
  rintro rest - ⟨x, hx, rfl⟩
  exact hx.length_lt rest

theorem readsOn_token_name : (token name).ReadsOn text s :=
  readsOn_token (proceeds_name (skip_skip s))

/-! ### Numerals -/

theorem stays_optional_fractionPart : (optional fractionPart s).StaysIn F s fun _ => True := by
  have hnever : NeverRefuses fractionPart :=
    (neverRefuses_satisfy _).bind fun _ => neverRefuses_takeWhile1 _
  refine hnever.stays_optional fun _ _ hread => ?_
  obtain ⟨t, -, rfl⟩ := exists_spelled_of_fraction hread
  exact List.suffix_append _ _

theorem stays_optional_exponentPart : (optional exponentPart s).StaysIn F s fun _ => True := by
  have hnever : NeverRefuses exponentPart := by
    refine (neverRefuses_satisfy _).bind fun _ => ?_
    refine (neverRefuses_satisfy _).optional.bind fun _ => ?_
    refine (neverRefuses_takeWhile1 _).bind fun _ => ?_
    exact .pure _
  refine hnever.stays_optional fun _ _ hread => ?_
  obtain ⟨t, -, rfl⟩ := exists_spelled_of_exponent hread
  exact List.suffix_append _ _

/-- Digits are looked for where the numeral begins or directly behind a minus sign. -/
theorem proceeds_numeral (hs : s <:+ text) (hclear : skip s = s) : numeral.Proceeds text s := by
  have hminus : (optional (char '-') s).StaysIn (Fault.Placed text) s
      fun rest => rest = s ∨ s = '-' :: rest :=
    ((stays_char (.inl hclear)).mono fun _ _ heq => .inr heq).optional (.inl rfl)
  refine hminus.bind fun _ s₁ hs₁ hplace => ?_
  -- Where the sign is missing, nothing has been read yet.
  have hfault : (⟨s₁, unexpected⟩ : Fault).Placed text := by
    rcases hplace with rfl | rfl
    · exact .inl hclear
    · exact .inr (.minus hs)
  refine (stays_takeWhile1 hfault).bind fun _ s₂ _ hlt => ?_
  refine stays_optional_fractionPart.bind fun _ s₃ hs₃ _ => ?_
  refine stays_optional_exponentPart.bind fun _ s₄ hs₄ _ => .pure ?_
  have hle₁ := hs₁.length_le
  have hle₃ := hs₃.length_le
  have hle₄ := hs₄.length_le
  omega

/-! ### Strings -/

/-- The place of an escape that cannot be read. -/
def StringReading.place? : StringReading → Option (List Char)
  | .badCodePoint place => some place
  | .badEscape place => some place
  | _ => none

theorem StringReading.place?_push (c : Char) (r : StringReading) :
    (r.push c).place? = r.place? := by
  cases r <;> rfl

/-- An escape that cannot be read begins with its backslash. -/
theorem exists_of_place? {place : List Char} (h : (stringBody s).place? = some place) :
    place <:+ s ∧ ∃ place', place = '\\' :: place' := by
  fun_induction stringBody s with
  | case1 a b c d s ch hch ih =>
    -- Behind what could be read the reader goes on, at a shorter text.
    rw [StringReading.place?_push] at h
    obtain ⟨hsuffix, hplace⟩ := ih h
    exact ⟨hsuffix.trans ⟨['\\', 'u', a, b, c, d], rfl⟩, hplace⟩
  | case4 letter s _ _ ch hch ih =>
    rw [StringReading.place?_push] at h
    obtain ⟨hsuffix, hplace⟩ := ih h
    exact ⟨hsuffix.trans ⟨['\\', letter], rfl⟩, hplace⟩
  | case9 c s _ _ hquote hbackslash hline ih =>
    rw [StringReading.place?_push] at h
    obtain ⟨hsuffix, hplace⟩ := ih h
    exact ⟨hsuffix.trans (List.suffix_cons c s), hplace⟩
  | case7 c s _ _ _ hbackslash =>
    cases h
    rw [beq_iff_eq] at hbackslash
    exact ⟨List.suffix_refl _, s, by rw [hbackslash]⟩
  | case2 | case3 | case5 =>
    cases h
    exact ⟨List.suffix_refl _, _, rfl⟩
  | _ => cases h

theorem skip_backslash (s : List Char) : skip ('\\' :: s) = '\\' :: s := by
  simp [skip, isSeparator]

theorem proceeds_string (hs : skip s = s) : string.Proceeds text s := by
  have hplaced {place : List Char} {body : List Char} {cause : String} (hbody : body <:+ s)
      (h : (stringBody body).place? = some place) :
      Trail.LeadsFrom (Fault.Placed text) s [⟨place, cause⟩] := by
    obtain ⟨hsuffix, place', rfl⟩ := exists_of_place? h
    exact .singleton (hsuffix.trans hbody) (.inl (skip_backslash place'))
  cases s with
  | nil => exact Trail.LeadsFrom.singleton (List.suffix_refl _) (.inl rfl)
  | cons c body =>
    rw [Reader.Proceeds, string]
    split
    · cases hbody : stringBody body with
      | closed inside rest =>
        obtain ⟨written, -, rfl⟩ := exists_spells_of_stringBody hbody
        refine ⟨⟨c :: (written ++ ['"']), by simp⟩, ?_⟩
        simp only [List.length_cons, List.length_append]
        omega
      | badCodePoint place => exact hplaced (List.suffix_cons c body) (by rw [hbody]; rfl)
      | badEscape place => exact hplaced (List.suffix_cons c body) (by rw [hbody]; rfl)
      | unterminated => exact Trail.LeadsFrom.singleton (List.suffix_refl _) (.inl hs)
    · exact Trail.LeadsFrom.singleton (List.suffix_refl _) (.inl hs)

end Lexeme

/-! ### Values -/

namespace Value

theorem proceeds_nameReader (hs : skip s = s) : nameReader.Proceeds text s :=
  (proceeds_name hs).bind fun _ _ _ hlt => .pure hlt

/-- The name of a variable is looked for directly behind the dollar sign. -/
theorem proceeds_variableReader (hs : s <:+ text) (hclear : skip s = s) :
    variableReader.Proceeds text s := by
  refine (stays_char (.inl hclear)).bind ?_
  rintro _ s₁ - rfl
  have hname := (stays_name (F := Fault.Placed text) (.inr (.dollar hs (by simp)))).commit
  refine (hname.expecting (.inr (.dollar hs (by simp)))).bind ?_
  rintro _ rest - ⟨x, hx, rfl⟩
  have hlt := hx.length_lt rest
  exact .pure (Nat.lt_succ_of_lt hlt)

theorem proceeds_numberReader (hs : s <:+ text) (hclear : skip s = s) :
    numberReader.Proceeds text s := by
  have hrefused {cause : String} : Trail.LeadsFrom (Fault.Placed text) s [⟨s, cause⟩] :=
    .singleton (List.suffix_refl s) (.inl hclear)
  have hnumeral := proceeds_numeral hs hclear
  unfold Reader.Proceeds numberReader at *
  generalize numeral s = r at hnumeral ⊢
  cases r with
  | done n rest =>
    dsimp only
    split
    · exact hrefused
    · split
      · exact hnumeral
      · exact hrefused
  | declined trail => exact hnumeral
  | refused trail => exact hnumeral

/-- Items stand behind the opening bracket, so they are read from shorter texts. -/
theorem readsOn_listReader {item : Reader Value} (hs : s <:+ text)
    (hitem : ∀ t, t.length < s.length → t <:+ text → item.Proceeds text t) :
    (listReader item).ReadsOn text s := by
  refine (readsOn_symbol '[').bind fun _ s₁ hs₁ ⟨hlt₁, hclear₁⟩ => ?_
  have hitems : (many (token item) s₁).StaysIn (Fault.Placed text) s₁ fun rest =>
      skip rest = rest := by
    refine .many hclear₁ fun t ht hclear => readsOn_token ?_
    have hle := ht.length_le
    rw [hclear]
    exact hitem t (by omega) (ht.trans (hs₁.trans hs))
  refine hitems.bind fun _ s₂ hs₂ hclear₂ => ?_
  refine ((readsOn_symbol ']').commit.expecting hclear₂).bind fun _ s₃ _ ⟨hlt₃, hclear₃⟩ => ?_
  have hle₂ := hs₂.length_le
  exact .pure ⟨by omega, hclear₃⟩

theorem proceeds_dispatch {constant : Bool} {item : Reader Value} (hs : s <:+ text)
    (hclear : skip s = s)
    (hitem : ∀ t, t.length < s.length → t <:+ text → item.Proceeds text t) :
    (dispatch constant item).Proceeds text s := by
  have hname : nameReader.Proceeds text s := proceeds_nameReader hclear
  unfold Reader.Proceeds dispatch at *
  split
  · exact hname
  · split_ifs
    · exact .refuse (.inl hclear)
    · exact proceeds_variableReader hs hclear
    · exact (proceeds_string hclear).bind fun _ _ _ hlt => .pure hlt
    · exact (readsOn_listReader hs hitem).mono fun _ _ hrest => hrest.1
    · exact .refuse (.inl hclear)
    · exact proceeds_numberReader hs hclear
    · exact hname

/-- A value is read, or the trail leads from where it begins. -/
theorem proceeds_reader (constant : Bool) (hs : s <:+ text) :
    (reader constant).Proceeds text s := by
  refine nest_induction (R := fun s r => s <:+ text →
    r.StaysIn (Fault.Placed text) s fun rest => rest.length < s.length) ?_ s hs
  intro item s hitem hs
  refine (stays_ignored s).bind ?_
  rintro _ _ hsuffix rfl
  have hle := length_skip_le s
  refine (proceeds_dispatch (hsuffix.trans hs) (skip_skip s) ?_).mono ?_
  · exact fun t ht hsuffix => hitem t (by omega) hsuffix
  · exact fun rest _ hlt => by omega

end Value

/-! ### Types -/

namespace TypeRef

theorem readsOn_listReader {inner : Reader TypeRef}
    (hinner : ∀ t, t.length < s.length → skip t = t → inner.ReadsOn text t) :
    (listReader inner).ReadsOn text s := by
  refine (readsOn_symbol '[').bind fun _ s₁ _ ⟨hlt₁, hclear₁⟩ => ?_
  refine (hinner s₁ hlt₁ hclear₁).commit.bind fun _ s₂ _ ⟨hlt₂, hclear₂⟩ => ?_
  refine ((readsOn_symbol ']').commit.expecting hclear₂).bind fun _ s₃ _ ⟨hlt₃, hclear₃⟩ => ?_
  exact .pure ⟨by omega, hclear₃⟩

/-- A type is read, or the trail leads from where it begins. -/
theorem readsOn_reader (hs : skip s = s) : reader.ReadsOn text s := by
  refine nest_induction (R := fun s r => skip s = s →
    r.StaysIn (Fault.Placed text) s fun rest => rest.length < s.length ∧ skip rest = rest) ?_ s hs
  intro inner s hinner hs
  have hnamed : namedReader.ReadsOn text s :=
    readsOn_token_name.bind fun _ _ _ hrest => .pure hrest
  have hbase : (oneOf [listReader inner, namedReader]).ReadsOn text s :=
    .oneOf (readsOn_listReader hinner) (List.forall_mem_singleton.2 hnamed) (.inl hs)
  refine hbase.bind fun base s₁ _ ⟨hlt₁, hclear₁⟩ => ?_
  refine ((readsOn_symbol '!').optional hclear₁).bind fun mark s₂ hs₂ hclear₂ => ?_
  have hle₂ := hs₂.length_le
  cases mark with
  | none => exact .pure ⟨by omega, hclear₂⟩
  | some _ => exact .pure ⟨by omega, hclear₂⟩

end TypeRef

/-! ### Selections -/

/-- One or more things between two brackets. -/
theorem Reader.readsOn_enclosed {p : Reader α} {opening : Reader Char} {closing : Char}
    {cause cause' : String} {I : List Char → Prop} (hopening : opening.ReadsOn text s)
    (hfirst : ∀ t, skip t = t → I t)
    (hp : ∀ t, t <:+ s → I t →
      (p t).StaysIn (Fault.Placed text) t fun rest => rest.length < t.length ∧ I rest)
    (hlast : ∀ t, I t → (⟨t, cause'⟩ : Fault).Placed text) :
    (enclosed opening (expecting cause (commit (many1 p)))
      (expecting cause' (commit (symbol closing)))).ReadsOn text s := by
  refine hopening.bind fun _ s₁ hs₁ ⟨hlt₁, hclear₁⟩ => ?_
  have hitems := Reading.StaysIn.many1 (F := Fault.Placed text) (hfirst s₁ hclear₁) (.inl hclear₁)
    fun t ht hI => hp t (ht.trans hs₁) hI
  refine (hitems.commit.expecting (.inl hclear₁)).bind fun _ s₂ hs₂ hI => ?_
  refine (Reading.StaysIn.expecting (readsOn_symbol closing).commit (hlast s₂ hI)).bind ?_
  intro _ s₃ _ ⟨hlt₃, hclear₃⟩
  have hle₂ := hs₂.length_le
  exact .pure ⟨by omega, hclear₃⟩

/-- One or more things between two brackets, where each of them is read up to the next. -/
theorem Reader.readsOn_grouped {p : Reader α} {opening closing : Char} {cause cause' : String}
    (hp : ∀ t, t <:+ s → p.ReadsOn text t) :
    (enclosed (symbol opening) (expecting cause (commit (many1 p)))
      (expecting cause' (commit (symbol closing)))).ReadsOn text s :=
  readsOn_enclosed (readsOn_symbol opening) (fun _ hclear => hclear) (fun t ht _ => hp t ht)
    fun _ hclear => .inl hclear

namespace Argument

theorem readsOn_reader (constant : Bool) (hs : s <:+ text) : (reader constant).ReadsOn text s := by
  refine readsOn_token_name.bind fun _ s₁ hs₁ ⟨hlt₁, hclear₁⟩ => ?_
  refine ((readsOn_symbol ':').commit.expecting hclear₁).bind fun _ s₂ hs₂ ⟨hlt₂, hclear₂⟩ => ?_
  have hvalue : (token (Value.reader constant)).ReadsOn text s₂ := by
    refine readsOn_token (Value.proceeds_reader constant ?_)
    rw [hclear₂]
    exact hs₂.trans (hs₁.trans hs)
  refine (hvalue.commit.expecting hclear₂).bind fun _ s₃ _ ⟨hlt₃, hclear₃⟩ => ?_
  exact .pure ⟨by omega, hclear₃⟩

theorem readsOn_listReader (constant : Bool) (hs : s <:+ text) :
    (listReader constant).ReadsOn text s :=
  readsOn_grouped fun _ ht => readsOn_reader constant (ht.trans hs)

end Argument

namespace Selection

theorem readsOn_aliasedName : aliasedName.ReadsOn text s := by
  refine (readsOn_symbol ':').bind fun _ s₁ _ ⟨hlt₁, hclear₁⟩ => ?_
  exact (readsOn_token_name.commit.expecting hclear₁).from_earlier (Nat.le_of_lt hlt₁)

theorem stays_refuseAt {word : List Char} (hs : skip s = s) :
    (refuseAt word cause s).StaysIn (Fault.Placed text) s fun rest => skip rest = rest := by
  unfold refuseAt
  split
  · exact .refuse (.inl hs)
  · exact ⟨List.suffix_refl s, hs⟩

theorem readsOn_reader {below : Reader (List Selection)} (hs : s <:+ text)
    (hbelow : ∀ t, t <:+ s → below.ReadsOn text t) : (reader below).ReadsOn text s := by
  refine (stays_ignored s).bind ?_
  rintro _ _ hsuffix rfl
  refine (stays_refuseAt (skip_skip s)).bind fun _ s₀ hs₀ hclear₀ => ?_
  refine readsOn_token_name.bind fun _ s₁ hs₁ ⟨hlt₁, hclear₁⟩ => ?_
  refine (readsOn_aliasedName.optional hclear₁).bind fun _ s₂ hs₂ hclear₂ => ?_
  have hsuffix₂ := hs₂.trans (hs₁.trans (hs₀.trans hsuffix))
  have harguments := Argument.readsOn_listReader false (hsuffix₂.trans hs)
  refine (harguments.optional hclear₂).bind fun _ s₃ hs₃ hclear₃ => ?_
  refine (stays_refuseAt hclear₃).bind fun _ s₄ hs₄ hclear₄ => ?_
  have hsuffix₄ := hs₄.trans (hs₃.trans hsuffix₂)
  refine ((hbelow s₄ hsuffix₄).optional hclear₄).bind fun _ s₅ hs₅ hclear₅ => ?_
  refine .pure ⟨?_, hclear₅⟩
  have hle := (hs₅.trans (hs₄.trans (hs₃.trans hs₂))).length_le
  have hle₀ := (hs₀.trans hsuffix).length_le
  omega

/-- Selections between braces are read, or the trail leads from where the brace is looked for. -/
theorem readsOn_setReader (hs : s <:+ text) : setReader.ReadsOn text s := by
  refine nest_induction (R := fun s r => s <:+ text →
    r.StaysIn (Fault.Placed text) s fun rest => rest.length < s.length ∧ skip rest = rest) ?_ s hs
  intro below s hbelow hs
  refine (readsOn_symbol '\x7b').bind fun _ s₁ hs₁ ⟨hlt₁, hclear₁⟩ => ?_
  have hselections : (many (reader below) s₁).StaysIn (Fault.Placed text) s₁ fun rest =>
      skip rest = rest := by
    refine .many hclear₁ fun t ht _ => readsOn_reader (ht.trans (hs₁.trans hs)) fun u hu => ?_
    have hle := (hu.trans ht).length_le
    exact hbelow u (by omega) (hu.trans (ht.trans (hs₁.trans hs)))
  -- That nothing is selected is noted behind the closing brace.
  refine hselections.bind fun selections s₂ hs₂ hclear₂ => ?_
  refine ((readsOn_symbol '\x7d').commit.expecting hclear₂).bind fun _ s₃ _ ⟨hlt₃, hclear₃⟩ => ?_
  have hle₂ := hs₂.length_le
  split
  · exact .refuse (.inl hclear₃)
  · exact .pure ⟨by omega, hclear₃⟩

end Selection

/-! ### Queries -/

theorem readsOn_defaultReader (hs : s <:+ text) : defaultReader.ReadsOn text s := by
  refine (readsOn_symbol '=').bind fun _ s₁ hs₁ ⟨hlt₁, hclear₁⟩ => ?_
  have hvalue : (token (Value.reader true)).ReadsOn text s₁ := by
    refine readsOn_token (Value.proceeds_reader true ?_)
    rw [hclear₁]
    exact hs₁.trans hs
  exact (hvalue.commit.expecting hclear₁).from_earlier (Nat.le_of_lt hlt₁)

namespace VariableDefinition

/-- The colon is looked for directly behind the name of the variable. -/
theorem readsOn_reader (hs : s <:+ text) : reader.ReadsOn text s := by
  refine (readsOn_symbol '$').bind fun _ s₁ hs₁ ⟨hlt₁, hclear₁⟩ => ?_
  have hname := (stays_name (F := Fault.Placed text) (.inl hclear₁)).commit
  refine (hname.expecting (.inl hclear₁)).bind ?_
  rintro _ s₂ hs₂ ⟨x, hx, rfl⟩
  -- The name is not read as a token, so nothing is skipped yet when the cause is noted.
  have hcolon : (symbol ':').ReadsOn text s₂ := readsOn_symbol ':'
  refine (hcolon.commit.expecting_early (.variable hx (hs₁.trans hs))).bind ?_
  intro _ s₃ hs₃ ⟨hlt₃, hclear₃⟩
  have htype : TypeRef.reader.ReadsOn text s₃ := TypeRef.readsOn_reader hclear₃
  refine (htype.commit.expecting hclear₃).bind fun _ s₄ hs₄ ⟨hlt₄, hclear₄⟩ => ?_
  have hdefault := readsOn_defaultReader (hs₄.trans (hs₃.trans (hs₂.trans (hs₁.trans hs))))
  refine (hdefault.optional hclear₄).bind fun _ s₅ hs₅ hclear₅ => .pure ⟨?_, hclear₅⟩
  have hle := (hs₅.trans (hs₄.trans (hs₃.trans hs₂))).length_le
  omega

theorem readsOn_listReader (hs : s <:+ text) : listReader.ReadsOn text s :=
  readsOn_grouped fun _ ht => readsOn_reader (ht.trans hs)

end VariableDefinition

namespace OperationKind

theorem proceeds_reader (hs : skip s = s) : reader.Proceeds text s := by
  have hword (kind : OperationKind) : (wordReader kind).Proceeds text s :=
    ((proceeds_name hs).filter (.inl hs)).bind fun _ _ _ hlt => .pure hlt
  refine .oneOf (hword .query) ?_ (.inl hs)
  exact List.forall_mem_cons.2 ⟨hword .mutation, List.forall_mem_singleton.2 (hword .subscription)⟩

end OperationKind

namespace Document

theorem readsOn_shorthandReader (hs : s <:+ text) : shorthandReader.ReadsOn text s :=
  (Selection.readsOn_setReader hs).bind fun _ _ _ hrest => .pure hrest

theorem readsOn_operationReader (hs : s <:+ text) (hclear : skip s = s) :
    operationReader.ReadsOn text s := by
  have hkind : (token OperationKind.reader).ReadsOn text s :=
    readsOn_token (OperationKind.proceeds_reader (skip_skip s))
  refine (hkind.expecting hclear).bind fun _ s₁ hs₁ ⟨hlt₁, hclear₁⟩ => ?_
  refine (readsOn_token_name.optional hclear₁).bind fun _ s₂ hs₂ hclear₂ => ?_
  have hsuffix₂ := hs₂.trans (hs₁.trans hs)
  have hdefinitions := VariableDefinition.readsOn_listReader hsuffix₂
  refine (hdefinitions.optional hclear₂).bind fun _ s₃ hs₃ hclear₃ => ?_
  have hselections := Selection.readsOn_setReader (hs₃.trans hsuffix₂)
  refine (hselections.commit.expecting hclear₃).bind fun _ s₄ hs₄ ⟨_, hclear₄⟩ => ?_
  have hle := (hs₄.trans (hs₃.trans hs₂)).length_le
  exact .pure ⟨by omega, hclear₄⟩

/-- A document is read, or the trail leads from the beginning of the text. -/
theorem readsOn_reader (text : List Char) : reader.ReadsOn text text := by
  refine (stays_ignored text).bind ?_
  rintro _ _ hsuffix rfl
  have hpeek : (peek (skip text)).StaysIn (Fault.Placed text) (skip text)
      fun rest => rest = skip text := ⟨List.suffix_refl _, rfl⟩
  refine hpeek.bind ?_
  rintro _ _ - rfl
  split
  · exact (readsOn_shorthandReader hsuffix).from_earlier hsuffix.length_le
  · exact (readsOn_operationReader hsuffix (skip_skip text)).from_earlier hsuffix.length_le

end Document

end GraphQuery
