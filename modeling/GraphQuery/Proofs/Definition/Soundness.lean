import GraphQuery.Proofs.Definition.Grammar

/-!
# Definitions that are read are written

What the readers of definitions read is laid out in front of what they leave, as for queries. A
description that is skipped is one of the tokens.

## Main results

* `Directive.reads_reader`, `FieldDefinition.reads_reader`: the parts of an object.
* `Definition.reads_reader`: one definition.
* `Definition.render_of_parseAll`: a text that is read as definitions renders them.
-/

namespace GraphQuery

open Reader Lexeme

variable {α : Type} {s rest : List Char}

theorem Reader.enclosed_expecting_eq_done_iff {opening closing : Reader Char} {inside : Reader α}
    {cause : String} {a : α} :
    enclosed (expecting cause (commit opening)) inside closing s = .done a rest ↔
      enclosed opening inside closing s = .done a rest := by
  simp only [enclosed, bind_eq_done_iff, expecting_eq_done_iff, commit_eq_done_iff]

/-- A group that has to be there. -/
theorem Reader.Reads.braced {p : Reader α} {G : α → List Token → Prop}
    {cause cause' cause'' : String} (h : p.Reads G) :
    (enclosed (expecting cause (commit (symbol '\x7b')))
      (expecting cause' (commit (Reader.many1 p)))
      (expecting cause'' (commit (symbol '\x7d')))).Reads (Grouped '\x7b' '\x7d' G) :=
  fun s as rest hdone =>
    h.grouped (by decide) (by decide) s as rest (enclosed_expecting_eq_done_iff.1 hdone)

/-! ### Fields -/

theorem Directive.reads_reader : reader.Reads Written := by
  intro s d rest h
  simp only [reader, bind_eq_done_iff, pure_eq_done_iff, expecting_eq_done_iff,
    commit_eq_done_iff] at h
  obtain ⟨_, s₁, hat, x, s₂, hname, arguments?, _, harguments, rfl, rfl⟩ := h
  obtain ⟨hx, hspans⟩ := spans_name hname
  obtain ⟨ts, hts, hspans'⟩ := (Argument.reads_listReader true).optionallyGrouped harguments
  exact ⟨_, .intro hx hts, (spans_symbol (by decide) hat).append (hspans.append hspans')⟩

theorem ArgumentDefinition.reads_reader : reader.Reads (Described Written) := by
  apply Reads.described
  intro s a rest h
  simp only [bind_eq_done_iff, pure_eq_done_iff, expecting_eq_done_iff, commit_eq_done_iff] at h
  obtain ⟨x, s₁, hname, _, s₂, hcolon, type, s₃, htype, default?, _, hdefault, rfl, rfl⟩ := h
  obtain ⟨hx, hspans⟩ := spans_token_name hname
  obtain ⟨ts, hts, hspans₁⟩ := TypeRef.reads_reader s₂ type s₃ htype
  obtain ⟨us, hus, hspans₂⟩ := VariableDefinition.exists_defaultWritten_of_optional hdefault
  exact ⟨_, .intro hx hts hus,
    hspans.append ((spans_symbol (by decide) hcolon).append (hspans₁.append hspans₂))⟩

theorem ArgumentDefinition.reads_listReader :
    listReader.Reads (Grouped '(' ')' (Described Written)) :=
  reads_reader.grouped (by decide) (by decide)

theorem FieldDefinition.reads_reader : reader.Reads (Described Written) := by
  apply Reads.described
  intro s f rest h
  simp only [bind_eq_done_iff, pure_eq_done_iff, expecting_eq_done_iff, commit_eq_done_iff] at h
  obtain ⟨x, s₁, hname, arguments?, s₂, harguments, _, s₃, hcolon, type, s₄, htype, directives, _,
    hdirectives, rfl, rfl⟩ := h
  obtain ⟨hx, hspans⟩ := spans_token_name hname
  obtain ⟨ts, hts, hspans₁⟩ := ArgumentDefinition.reads_listReader.optionallyGrouped harguments
  obtain ⟨us, hus, hspans₂⟩ := TypeRef.reads_reader s₃ type s₄ htype
  obtain ⟨vs, hvs, hspans₃⟩ := Directive.reads_reader.many s₄ directives _ hdirectives
  exact ⟨_, .intro hx hts hus hvs, hspans.append (hspans₁.append
    ((spans_symbol (by decide) hcolon).append (hspans₂.append hspans₃)))⟩

/-! ### Definitions -/

theorem refuseTypeExtras_eq_done {u : Unit} (h : refuseTypeExtras s = .done u rest) : rest = s := by
  unfold refuseTypeExtras at h
  split_ifs at h
  · cases h
  · cases h
    rfl

theorem ObjectDefinition.reads_reader :
    reader.Reads fun o ts => Definition.Written (.object o) ("type".toList :: ts) := by
  intro s o rest h
  simp only [reader, bind_eq_done_iff, pure_eq_done_iff, expecting_eq_done_iff,
    commit_eq_done_iff] at h
  obtain ⟨x, s₁, hname, _, s₂, hextras, fields, _, hfields, rfl, rfl⟩ := h
  obtain rfl := refuseTypeExtras_eq_done hextras
  obtain ⟨hx, hspans⟩ := spans_token_name hname
  obtain ⟨ts, hts, hspans'⟩ := FieldDefinition.reads_reader.braced _ fields _ hfields
  exact ⟨_, .object hx hts, hspans.append hspans'⟩

theorem EnumDefinition.reads_valueReader : valueReader.Reads (Described ValueWritten) := by
  apply Reads.described
  intro s x rest h
  obtain ⟨hx, hspans⟩ := spans_token_name h
  exact ⟨_, .intro hx, hspans⟩

theorem EnumDefinition.reads_reader :
    reader.Reads fun e ts => Definition.Written (.enum e) ("enum".toList :: ts) := by
  intro s e rest h
  simp only [reader, bind_eq_done_iff, pure_eq_done_iff, expecting_eq_done_iff,
    commit_eq_done_iff] at h
  obtain ⟨x, s₁, hname, values, _, hvalues, rfl, rfl⟩ := h
  obtain ⟨hx, hspans⟩ := spans_token_name hname
  obtain ⟨ts, hts, hspans'⟩ := EnumDefinition.reads_valueReader.braced _ values _ hvalues
  exact ⟨_, .enum hx hts, hspans.append hspans'⟩

theorem SchemaBlock.reads_operationReader : operationReader.Reads OperationWritten := by
  intro s operation rest h
  simp only [operationReader, bind_eq_done_iff, pure_eq_done_iff, commit_eq_done_iff] at h
  obtain ⟨kind, s₁, hkind, _, s₂, hcolon, x, _, hname, rfl, rfl⟩ := h
  obtain ⟨_, rfl, hspans⟩ := OperationKind.reads_reader.token s kind s₁ hkind
  obtain ⟨hx, hspans'⟩ := spans_token_name hname
  exact ⟨_, .intro kind hx, hspans.append ((spans_symbol (by decide) hcolon).append hspans')⟩

theorem SchemaBlock.reads_reader :
    reader.Reads fun block ts => Definition.Written (.schema block) ("schema".toList :: ts) := by
  intro s block rest h
  obtain ⟨operations, _, hoperations, heq⟩ := bind_eq_done_iff.1 h
  obtain ⟨rfl, rfl⟩ := pure_eq_done_iff.1 heq
  obtain ⟨ts, hts, hspans⟩ := SchemaBlock.reads_operationReader.braced s operations _ hoperations
  exact ⟨ts, .schema hts, hspans⟩

namespace Definition

/-- What follows a word is what the word introduces. -/
theorem reads_body {word : String} {body : Reader Definition} (h : bodyReader? word = some body) :
    body.Reads fun definition ts => definition.Written (word.toList :: ts) := by
  intro s definition rest hdone
  unfold bodyReader? at h
  split_ifs at h with htype henum hscalar hschema
  all_goals
    cases h
    obtain ⟨a, _, ha, heq⟩ := bind_eq_done_iff.1 hdone
    obtain ⟨rfl, rfl⟩ := pure_eq_done_iff.1 heq
  · rw [beq_iff_eq.1 htype]
    exact ObjectDefinition.reads_reader s a _ ha
  · rw [beq_iff_eq.1 henum]
    exact EnumDefinition.reads_reader s a _ ha
  · rw [beq_iff_eq.1 hscalar]
    rw [expecting_eq_done_iff, commit_eq_done_iff] at ha
    obtain ⟨hx, hspans⟩ := spans_token_name ha
    exact ⟨_, .scalar hx, hspans⟩
  · rw [beq_iff_eq.1 hschema]
    exact SchemaBlock.reads_reader s a _ ha

theorem reads_undescribedReader : undescribedReader.Reads Written := by
  intro s definition rest h
  unfold undescribedReader at h
  split at h
  · next word middle hname =>
    obtain ⟨-, hspans⟩ := spans_token_name hname
    split at h
    · next body hbody =>
      -- The body is read from where the word ends, so the two layouts join.
      obtain ⟨ts, hts, hspans'⟩ := reads_body hbody middle definition rest h
      exact ⟨_, hts, hspans.append hspans'⟩
    · split_ifs at h
  · cases h
  · cases h

/-- What is read as a definition is written as one. -/
theorem reads_reader : reader.Reads (Described Written) := reads_undescribedReader.described

theorem parseAll_eq_ok_iff {text : List Char} {definitions : List Definition} :
    parseAll text = .ok definitions ↔ ∃ rest, many reader text = .done definitions rest ∧
      skip rest = [] := by
  unfold parseAll
  cases many reader text with
  | done found rest =>
    simp only [Reading.done.injEq]
    cases hskip : skip rest with
    | nil =>
      simp only [Except.ok.injEq]
      constructor
      · rintro rfl
        exact ⟨rest, ⟨rfl, rfl⟩, hskip⟩
      · rintro ⟨_, ⟨rfl, -⟩, -⟩
        rfl
    | cons c leftover =>
      simp only [false_iff, reduceCtorEq]
      rintro ⟨_, ⟨-, rfl⟩, hnil⟩
      rw [hskip] at hnil
      cases hnil
  | declined trail => simp
  | refused trail => simp

/-- A text that is read as definitions renders them. -/
theorem render_of_parseAll {text : List Char} {definitions : List Definition}
    (h : parseAll text = .ok definitions) : Render definitions text := by
  obtain ⟨rest, hmany, hrest⟩ := parseAll_eq_ok_iff.1 h
  obtain ⟨ts, hts, hspans⟩ := reads_reader.many text definitions rest hmany
  have hend := hspans.append (spans_skip rest)
  rw [List.append_nil, hrest] at hend
  exact ⟨ts, hts, hend⟩

end Definition

end GraphQuery
