import GraphQuery.Proofs.Language.Trails
import GraphQuery.Proofs.Reader.Descent

/-!
# Values, types and selections inside themselves

Three forms of the language stand inside themselves: lists of values, types of lists, and selections
below selections. In each of them a bracket opens what is inside, and it has been read by the time
the reader calls itself. What the reader does at a text is therefore settled by what it does at
shorter ones.

## Main results

* `Value.descends_reader`, `TypeRef.descends_reader`, `Selection.descends_setReader`: each reader is
  the only one that solves its recursive equation.
* `Value.reader_eq`, `TypeRef.reader_eq`: the equations of values and types at a text.
-/

namespace GraphQuery

open Reader Lexeme

variable {α : Type} {s : List Char}

theorem Lexeme.token_congr {p q : Reader α} (h : p (skip s) = q (skip s)) :
    token p s = token q s :=
  bind_congr_left (p := p) (s := skip s) h _

/-! ### Values -/

namespace Value

theorem listReader_congr {p q : Reader Value}
    (h : ∀ t : List Char, t.length < s.length → p t = q t) : listReader p s = listReader q s := by
  have hopening : (symbol '[').ReadsOn s s := readsOn_symbol '['
  refine hopening.bind_congr fun _ s₁ _ ⟨hlt₁, _⟩ => ?_
  refine bind_congr_left (many_congr fun t ht => token_congr (h (skip t) ?_)) _
  have hle := length_skip_le t
  omega

/-- Only the items of a list are read by the argument, and they stand behind its bracket. -/
theorem guarded_readerStep (constant : Bool) : Guarded (readerStep constant) := by
  intro p q s h
  change dispatch constant p (skip s) = dispatch constant q (skip s)
  have hlist : listReader p (skip s) = listReader q (skip s) := by
    refine listReader_congr fun t ht => h t ?_
    have hle := length_skip_le s
    omega
  unfold dispatch
  split
  · rfl
  · split_ifs <;> first | rfl | exact hlist

theorem descends_reader (constant : Bool) : Descends (readerStep constant) (reader constant) :=
  (guarded_readerStep constant).descends

theorem reader_eq (constant : Bool) (s : List Char) :
    reader constant s = dispatch constant (reader constant) (skip s) :=
  nest_eq (guarded_readerStep constant) s

end Value

/-! ### Types -/

namespace TypeRef

theorem listReader_congr {p q : Reader TypeRef}
    (h : ∀ t : List Char, t.length < s.length → p t = q t) : listReader p s = listReader q s := by
  have hopening : (symbol '[').ReadsOn s s := readsOn_symbol '['
  refine hopening.bind_congr fun _ s₁ _ ⟨hlt₁, _⟩ => ?_
  refine bind_congr_left ?_ _
  rw [commit, commit, h s₁ hlt₁]

/-- Only the type in a list is read by the argument. -/
theorem guarded_readerStep : Guarded readerStep := by
  intro p q s h
  refine bind_congr_left ?_ _
  simp only [oneOf, oneOfFrom, listReader_congr h]

theorem descends_reader : Descends readerStep reader := guarded_readerStep.descends

theorem reader_eq (s : List Char) : reader s = readerStep reader s := nest_eq guarded_readerStep s

end TypeRef

/-! ### Selections -/

namespace Selection

/-- What is selected below stands behind the name of the field. -/
theorem reader_congr {p q : Reader (List Selection)}
    (h : ∀ t : List Char, t.length < s.length → p t = q t) : reader p s = reader q s := by
  have hmark {word t : List Char} {cause : String} (ht : skip t = t) :
      (refuseAt word cause t).StaysIn (Fault.Placed s) t fun rest => skip rest = rest :=
    stays_refuseAt ht
  refine (stays_ignored (F := Fault.Placed s) s).bind_congr ?_
  rintro _ _ hsuffix rfl
  refine (hmark (skip_skip s)).bind_congr fun _ s₀ hs₀ _ => ?_
  have hname : (token Lexeme.name).ReadsOn s s₀ := readsOn_token_name
  refine hname.bind_congr fun _ s₁ hs₁ ⟨hlt₁, hclear₁⟩ => ?_
  have haliased : aliasedName.ReadsOn s s₁ := readsOn_aliasedName
  refine (haliased.optional hclear₁).bind_congr fun _ s₂ hs₂ hclear₂ => ?_
  have harguments := Argument.readsOn_listReader false (hs₂.trans (hs₁.trans (hs₀.trans hsuffix)))
  refine (harguments.optional hclear₂).bind_congr fun _ s₃ hs₃ hclear₃ => ?_
  refine (hmark hclear₃).bind_congr fun _ s₄ hs₄ _ => ?_
  refine bind_congr_left (optional_congr (h s₄ ?_)) _
  have hle := (hs₄.trans (hs₃.trans hs₂)).length_le
  have hle₀ := (hs₀.trans hsuffix).length_le
  omega

theorem guarded_setReaderStep : Guarded setReaderStep := by
  intro p q s h
  have hopening : (symbol '\x7b').ReadsOn s s := readsOn_symbol '\x7b'
  refine hopening.bind_congr fun _ s₁ _ ⟨hlt₁, _⟩ => ?_
  refine bind_congr_left (many_congr fun t ht => reader_congr fun u hu => h u ?_) _
  omega

theorem descends_setReader : Descends setReaderStep setReader := guarded_setReaderStep.descends

end Selection

end GraphQuery
