import GraphQuery.Proofs.Definition.Soundness
import GraphQuery.Proofs.Language.Trails

/-!
# Trails through schema definitions

The readers of definitions stay in the text like those of queries. A directive without arguments
ends directly behind its name, so after it a field ends in front of what is ignored. The very first
definition is looked for at the beginning of the text, before anything is skipped.

Whatever is read, a trail leads out of the text from the innermost fault to the outermost one.

## Main definitions

* `FieldDefinition.EndsAt`: the places where the reader of a field stops.

## Main results

* `FieldDefinition.stays_reader`, `Definition.readsOn_reader`: the parts of a schema definition.
* `Definition.leadsFrom_of_parseAll`: where the trail of a schema definition leads.
* `Trail.leads_out_of_text`: trails of documents and schema definitions, from inside out.
-/

namespace GraphQuery

open Reader Lexeme

variable {α : Type} {text s rest : List Char} {cause : String}

/-! ### Descriptions -/

namespace Lexeme

/-- A block is looked into directly behind its opening quotes. -/
theorem proceeds_blockString (hs : s <:+ text) (hclear : skip s = s) :
    blockString.Proceeds text s := by
  have hopen : (literal tripleQuote s).StaysIn (Fault.Placed text) s
      fun rest => s = tripleQuote ++ rest := by
    unfold literal
    split
    · next hprefix =>
      obtain ⟨rest, rfl⟩ := List.isPrefixOf_iff_prefix.1 hprefix
      rw [List.drop_left]
      exact ⟨List.suffix_append _ _, rfl⟩
    · exact Trail.LeadsFrom.singleton (List.suffix_refl s) (.inl hclear)
  refine hopen.bind ?_
  rintro _ s₁ hs₁ rfl
  have hbody : (takeUntil tripleQuote s₁).StaysIn (Fault.Placed text) s₁
      fun rest => tripleQuote <+: rest := by
    unfold takeUntil
    cases hsplit : splitBefore? tripleQuote s₁ with
    | none => exact Trail.LeadsFrom.singleton (List.suffix_refl _) (.inr (.quotes hs (by simp)))
    | some parts =>
      obtain ⟨back, hback, rfl, -⟩ := splitBefore?_tripleQuote_eq_some_iff.1 hsplit
      exact ⟨List.suffix_append _ _, back, hback.symm⟩
  refine (hbody.commit.expecting (.inr (.quotes hs (by simp)))).bind ?_
  rintro _ _ hs₂ ⟨rest, rfl⟩
  have hclose : (literal tripleQuote (tripleQuote ++ rest)).StaysIn (Fault.Placed text)
      (tripleQuote ++ rest) fun s => s = rest := by
    rw [(literal_eq_done_iff (u := ())).2 rfl]
    exact ⟨List.suffix_append _ _, rfl⟩
  refine hclose.bind ?_
  rintro _ _ - rfl
  have hle := hs₂.length_le
  refine .pure ?_
  simp only [List.length_append, tripleQuote, List.length_cons, List.length_nil] at hle ⊢
  omega

end Lexeme

/-- A description may be skipped; if there is none, nothing is skipped at all. -/
theorem stays_skipDescription (hs : s <:+ text) :
    (skipDescription s).StaysIn (Fault.Placed text) s fun rest => rest = s ∨ skip rest = rest := by
  have hdescription : (token (oneOf [blockString, Lexeme.string])).ReadsOn text s := by
    refine readsOn_token (.oneOf ?_ (List.forall_mem_singleton.2 ?_) (.inl (skip_skip s)))
    · exact proceeds_blockString ((spans_skip s).suffix.trans hs) (skip_skip s)
    · exact proceeds_string (skip_skip s)
  have hoptional := Reading.StaysIn.optional (Q := fun rest => rest = s ∨ skip rest = rest)
    (hdescription.mono fun _ _ hrest => .inr hrest.2) (.inl rfl)
  exact hoptional.bind fun _ _ _ hrest => .pure hrest

/-! ### Fields -/

/-- A field ends behind everything that is ignored, or directly behind the name of a directive. -/
def FieldDefinition.EndsAt (text rest : List Char) : Prop :=
  skip rest = rest ∨ ∃ x, IsName x ∧ x.toList ++ rest <:+ text

/-- A directive without arguments ends directly behind its name. -/
theorem Directive.stays_reader (hs : s <:+ text) :
    (reader s).StaysIn (Fault.Placed text) s fun rest =>
      rest.length < s.length ∧ FieldDefinition.EndsAt text rest := by
  refine (readsOn_symbol '@').bind fun _ s₁ hs₁ ⟨hlt₁, hclear₁⟩ => ?_
  have hname := (stays_name (F := Fault.Placed text) (.inl hclear₁)).commit
  refine (hname.expecting (.inl hclear₁)).bind ?_
  rintro _ s₂ hs₂ ⟨x, hx, rfl⟩
  -- Without arguments the directive ends here, in front of whatever follows its name.
  have harguments := Argument.readsOn_listReader true (hs₂.trans (hs₁.trans hs))
  have hoptional : (optional (Argument.listReader true) s₂).StaysIn (Fault.Placed text) s₂
      (FieldDefinition.EndsAt text) :=
    .optional (harguments.mono fun _ _ hrest => .inl hrest.2) (.inr ⟨x, hx, hs₁.trans hs⟩)
  refine hoptional.bind fun _ s₃ hs₃ hends => .pure ⟨?_, hends⟩
  have hle := (hs₃.trans hs₂).length_le
  omega

theorem ArgumentDefinition.readsOn_reader (hs : s <:+ text) : reader.ReadsOn text s := by
  refine (stays_skipDescription hs).bind fun _ s₁ hs₁ _ => ?_
  refine readsOn_token_name.bind fun _ s₂ hs₂ ⟨hlt₂, hclear₂⟩ => ?_
  refine ((readsOn_symbol ':').commit.expecting hclear₂).bind fun _ s₃ hs₃ ⟨hlt₃, hclear₃⟩ => ?_
  have htype : TypeRef.reader.ReadsOn text s₃ := TypeRef.readsOn_reader hclear₃
  refine (htype.commit.expecting hclear₃).bind fun _ s₄ hs₄ ⟨hlt₄, hclear₄⟩ => ?_
  have hdefault := readsOn_defaultReader (hs₄.trans (hs₃.trans (hs₂.trans (hs₁.trans hs))))
  refine (hdefault.optional hclear₄).bind fun _ s₅ hs₅ hclear₅ => .pure ⟨?_, hclear₅⟩
  have hle₁ := hs₁.length_le
  have hle₅ := hs₅.length_le
  omega

theorem ArgumentDefinition.readsOn_listReader (hs : s <:+ text) : listReader.ReadsOn text s :=
  readsOn_grouped fun _ ht => readsOn_reader (ht.trans hs)

/-- A field is read up to the end of its last directive. -/
theorem FieldDefinition.stays_reader (hs : s <:+ text) :
    (reader s).StaysIn (Fault.Placed text) s fun rest =>
      rest.length < s.length ∧ EndsAt text rest := by
  refine (stays_skipDescription hs).bind fun _ s₁ hs₁ _ => ?_
  refine readsOn_token_name.bind fun _ s₂ hs₂ ⟨hlt₂, hclear₂⟩ => ?_
  have hsuffix₂ := hs₂.trans (hs₁.trans hs)
  have harguments := ArgumentDefinition.readsOn_listReader hsuffix₂
  refine (harguments.optional hclear₂).bind fun _ s₃ hs₃ hclear₃ => ?_
  refine ((readsOn_symbol ':').commit.expecting hclear₃).bind fun _ s₄ hs₄ ⟨hlt₄, hclear₄⟩ => ?_
  have htype : TypeRef.reader.ReadsOn text s₄ := TypeRef.readsOn_reader hclear₄
  refine (htype.commit.expecting hclear₄).bind fun _ s₅ hs₅ ⟨hlt₅, hclear₅⟩ => ?_
  have hsuffix₅ := hs₅.trans (hs₄.trans (hs₃.trans hsuffix₂))
  have hdirectives : (many Directive.reader s₅).StaysIn (Fault.Placed text) s₅ (EndsAt text) :=
    .many (.inl hclear₅) fun _ ht _ => Directive.stays_reader (ht.trans hsuffix₅)
  refine hdirectives.bind fun _ s₆ hs₆ hends => .pure ⟨?_, hends⟩
  have hle₁ := hs₁.length_le
  have hle₃ := hs₃.length_le
  have hle₆ := hs₆.length_le
  omega

/-! ### Definitions -/

theorem stays_refuseTypeExtras (hs : skip s = s) :
    (refuseTypeExtras s).StaysIn (Fault.Placed text) s fun rest => skip rest = rest := by
  unfold refuseTypeExtras
  split
  · exact .refuse (.inl hs)
  · exact ⟨List.suffix_refl s, hs⟩

theorem ObjectDefinition.readsOn_reader (hs : s <:+ text) (hclear : skip s = s) :
    reader.ReadsOn text s := by
  refine (readsOn_token_name.commit.expecting hclear).bind fun _ s₁ hs₁ ⟨hlt₁, hclear₁⟩ => ?_
  refine (stays_refuseTypeExtras hclear₁).bind fun _ s₂ hs₂ hclear₂ => ?_
  have hsuffix₂ := hs₂.trans (hs₁.trans hs)
  have hopening : (symbol '\x7b').ReadsOn text s₂ := readsOn_symbol '\x7b'
  refine (readsOn_enclosed (I := FieldDefinition.EndsAt text) (hopening.commit.expecting hclear₂)
    (fun _ hclear => .inl hclear) (fun _ ht _ => FieldDefinition.stays_reader (ht.trans hsuffix₂))
    (fun _ hends => hends.imp_right fun ⟨_, hx, h⟩ => .directive hx h)).bind ?_
  intro _ s₃ hs₃ ⟨hlt₃, hclear₃⟩
  have hle₂ := hs₂.length_le
  exact .pure ⟨by omega, hclear₃⟩

/-- One or more things between braces that have to be there. -/
theorem Reader.readsOn_braced {p : Reader α} {cause cause' cause'' : String} (hclear : skip s = s)
    (hp : ∀ t, t <:+ s → p.ReadsOn text t) :
    (enclosed (expecting cause (commit (symbol '\x7b')))
      (expecting cause' (commit (many1 p)))
      (expecting cause'' (commit (symbol '\x7d')))).ReadsOn text s :=
  readsOn_enclosed ((readsOn_symbol '\x7b').commit.expecting hclear) (fun _ hclear => hclear)
    (fun t ht _ => hp t ht) fun _ hclear => .inl hclear

theorem EnumDefinition.readsOn_valueReader (hs : s <:+ text) : valueReader.ReadsOn text s :=
  (stays_skipDescription hs).bind fun _ _ hs₁ _ =>
    readsOn_token_name.from_earlier hs₁.length_le

theorem EnumDefinition.readsOn_reader (hs : s <:+ text) (hclear : skip s = s) :
    reader.ReadsOn text s := by
  refine (readsOn_token_name.commit.expecting hclear).bind fun _ s₁ hs₁ ⟨hlt₁, hclear₁⟩ => ?_
  refine (readsOn_braced hclear₁ fun t ht => ?_).bind fun _ s₂ _ ⟨hlt₂, hclear₂⟩ => ?_
  · exact readsOn_valueReader (ht.trans (hs₁.trans hs))
  · exact .pure ⟨by omega, hclear₂⟩

theorem SchemaBlock.readsOn_operationReader : operationReader.ReadsOn text s := by
  have hkind : (token OperationKind.reader).ReadsOn text s :=
    readsOn_token (OperationKind.proceeds_reader (skip_skip s))
  refine hkind.bind fun _ s₁ _ ⟨hlt₁, _⟩ => ?_
  refine (readsOn_symbol ':').commit.bind fun _ s₂ _ ⟨hlt₂, _⟩ => ?_
  refine readsOn_token_name.commit.bind fun _ s₃ _ ⟨hlt₃, hclear₃⟩ => ?_
  exact .pure ⟨by omega, hclear₃⟩

theorem SchemaBlock.readsOn_reader (hclear : skip s = s) : reader.ReadsOn text s :=
  (readsOn_braced hclear fun _ _ => readsOn_operationReader).bind fun _ _ _ hrest => .pure hrest

namespace Definition

theorem readsOn_of_bodyReader? {word : String} {body : Reader Definition}
    (h : bodyReader? word = some body) (hs : s <:+ text) (hclear : skip s = s) :
    body.ReadsOn text s := by
  unfold bodyReader? at h
  split_ifs at h <;> cases h
  · exact (ObjectDefinition.readsOn_reader hs hclear).bind fun _ _ _ hrest => .pure hrest
  · exact (EnumDefinition.readsOn_reader hs hclear).bind fun _ _ _ hrest => .pure hrest
  · exact (readsOn_token_name.commit.expecting hclear).bind fun _ _ _ hrest => .pure hrest
  · exact (SchemaBlock.readsOn_reader hclear).bind fun _ _ _ hrest => .pure hrest

/-- The reader reads on, or its only fault stands where it was called: no definition begins there,
or one that is not supported. -/
inductive Begins (text s : List Char) (p : Reader Definition) : Prop
  | reads (h : p.ReadsOn text s)
  | other (h : p s = .declined [⟨s, expected⟩])
  | unsupported (h : p s = .refused [⟨s, "Unsupported schema definition"⟩])

theorem Begins.readsOn {p : Reader Definition} (h : Begins text s p) (hclear : skip s = s) :
    p.ReadsOn text s := by
  have hplaced {cause : String} : Trail.LeadsFrom (Fault.Placed text) s [⟨s, cause⟩] :=
    .singleton (List.suffix_refl s) (.inl hclear)
  cases h with
  | reads h => exact h
  | other h =>
    rw [ReadsOn, h]
    exact hplaced
  | unsupported h =>
    rw [ReadsOn, h]
    exact hplaced

theorem begins_undescribedReader (hs : s <:+ text) : Begins text s undescribedReader := by
  have hword : (token Lexeme.name).ReadsOn text s := readsOn_token_name
  unfold ReadsOn at hword
  cases hread : token Lexeme.name s with
  | done word rest =>
    rw [hread] at hword
    obtain ⟨hrest, hlt, hclear⟩ := hword
    cases hbody : bodyReader? word with
    | some body =>
      have hreads := readsOn_of_bodyReader? hbody (hrest.trans hs) hclear
      refine .reads ?_
      simp only [ReadsOn, undescribedReader, hread, hbody]
      exact (hreads.from_earlier (Nat.le_of_lt hlt)).of_suffix hrest
    | none =>
      by_cases hword : unsupportedWords.contains word = true
      · exact .unsupported (by simp only [undescribedReader, hread, hbody, if_pos hword])
      · exact .other (by simp only [undescribedReader, hread, hbody, if_neg hword])
  | declined trail =>
    refine .reads ?_
    rw [hread] at hword
    simp only [ReadsOn, undescribedReader, hread]
    exact hword
  | refused trail =>
    refine .reads ?_
    rw [hread] at hword
    simp only [ReadsOn, undescribedReader, hread]
    exact hword

/-- Behind a description the word that introduces a definition is looked for behind everything that
is ignored. Without one it is looked for where the reader was called. -/
theorem begins_reader (hs : s <:+ text) : Begins text s reader := by
  have hskip := stays_skipDescription hs
  have hbind : reader s = Reader.bind skipDescription (fun _ => undescribedReader) s := rfl
  unfold Reader.bind at hbind
  cases hread : skipDescription s with
  | done u rest =>
    rw [hread] at hskip hbind
    obtain ⟨hrest, rfl | hclear⟩ := hskip
    · cases begins_undescribedReader hs with
      | reads h => exact .reads (by rw [ReadsOn, hbind]; exact h)
      | other h => exact .other (hbind.trans h)
      | unsupported h => exact .unsupported (hbind.trans h)
    · have hreads := (begins_undescribedReader (hrest.trans hs)).readsOn hclear
      refine .reads ?_
      rw [ReadsOn, hbind]
      exact (hreads.from_earlier hrest.length_le).of_suffix hrest
  | declined trail =>
    rw [hread] at hskip hbind
    exact .reads (by rw [ReadsOn, hbind]; exact hskip)
  | refused trail =>
    rw [hread] at hskip hbind
    exact .reads (by rw [ReadsOn, hbind]; exact hskip)

theorem readsOn_reader (hs : s <:+ text) (hclear : skip s = s) : reader.ReadsOn text s :=
  (begins_reader hs).readsOn hclear

/-- Only the first definition can be looked for in front of something ignored. -/
theorem stays_many_reader (text : List Char) :
    (many reader text).StaysIn (Fault.Placed text) text (fun _ => True) ∨
      many reader text = .refused [⟨text, "Unsupported schema definition"⟩] := by
  rw [many_eq, manyStep]
  cases begins_reader (List.suffix_refl text) with
  | reads h =>
    left
    unfold ReadsOn at h
    generalize reader text = r at h ⊢
    cases r with
    | declined trail => exact ⟨List.suffix_refl text, trivial⟩
    | refused trail => exact h
    -- The first definition ends behind everything that is ignored, and so do the others.
    | done a rest =>
      obtain ⟨hrest, hlt, hclear⟩ := h
      have hothers : (many reader rest).StaysIn (Fault.Placed text) rest fun t => skip t = t :=
        .many hclear fun t ht hclear => readsOn_reader (ht.trans hrest) hclear
      simp only [if_pos hlt]
      exact (hothers.bind fun _ _ _ _ => .pure trivial).of_suffix hrest
  | other h =>
    left
    rw [h]
    exact ⟨List.suffix_refl text, trivial⟩
  | unsupported h =>
    right
    rw [h]

/-- The faults of a schema definition have their places, but for one: that the very first
definition is not supported is noted at the beginning of the text. -/
theorem leadsFrom_of_parseAll {trail : Trail} (h : parseAll text = .error trail) :
    Trail.LeadsFrom (Fault.Placed text) text trail ∨
      trail = [⟨text, "Unsupported schema definition"⟩] := by
  unfold parseAll at h
  rcases stays_many_reader text with hstays | hrefused
  · left
    generalize many reader text = r at h hstays
    cases r with
    | done definitions rest =>
      have hsuffix := (spans_skip rest).suffix.trans hstays.1
      dsimp only at h
      split at h <;> cases h
      exact .singleton hsuffix (.inl (skip_skip rest))
    | declined trail =>
      cases h
      exact hstays
    | refused trail =>
      cases h
      exact hstays
  · right
    rw [hrefused] at h
    cases h
    rfl

end Definition

/-! ### Both grammars -/

namespace Trail

/-- Reading a query or a schema definition gives up with at least one fault. All of them stand at
suffixes of the text, and each of them at or behind the place of those that follow it. -/
theorem leads_out_of_text {trail : Trail}
    (h : Document.reader text = .declined trail ∨ Document.reader text = .refused trail ∨
      Definition.parseAll text = .error trail) :
    trail ≠ [] ∧ (∀ fault ∈ trail, fault.rest <:+ text) ∧
      trail.Pairwise fun inner outer => inner.rest <:+ outer.rest := by
  have hleads : LeadsFrom (Fault.Placed text) text trail ∨
      trail = [⟨text, "Unsupported schema definition"⟩] := by
    have hquery : Document.reader.ReadsOn text text := Document.readsOn_reader text
    rcases h with h | h | h
    · exact .inl (hquery.leadsFrom (.inl h))
    · exact .inl (hquery.leadsFrom (.inr h))
    · exact Definition.leadsFrom_of_parseAll h
  obtain hleads | rfl := hleads
  · exact ⟨hleads.ne_nil, hleads.suffix, hleads.ordered⟩
  · exact ⟨List.cons_ne_nil _ _, List.forall_mem_singleton.2 (List.suffix_refl text),
      List.pairwise_singleton _ _⟩

/-- A variable in a directive leads out through the argument, the arguments and the fields. -/
theorem leads_out_of_text_directive :
    ∃ trail : Trail, Definition.parseAll "type A \x7b b: Int @c(d: $e) \x7d".toList = .error trail ∧
      trail.map (·.rest.length) = [5, 5, 8, 18] ∧ trail ≠ [] ∧
      (∀ fault ∈ trail, fault.rest <:+ "type A \x7b b: Int @c(d: $e) \x7d".toList) ∧
      trail.Pairwise fun inner outer => inner.rest <:+ outer.rest := by
  have hparse : Definition.parseAll "type A \x7b b: Int @c(d: $e) \x7d".toList = .error [
      ⟨"$e) \x7d".toList, "Variables are not allowed in constant values"⟩,
      ⟨"$e) \x7d".toList, "Expected argument value"⟩,
      ⟨"d: $e) \x7d".toList, "Argument list must not be empty"⟩,
      ⟨"b: Int @c(d: $e) \x7d".toList, "Expected field definitions"⟩] := by
    simp only [String.reduceToList]
    rfl
  exact ⟨_, hparse, by simp, leads_out_of_text (.inr (.inr hparse))⟩

end Trail

end GraphQuery
