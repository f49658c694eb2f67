import GraphQuery.Proofs.Definition.Trails
import GraphQuery.Proofs.Language.Acceptance
import GraphQuery.Reader.Message

/-!
# Messages that claim the end

The message of a fault shows the first line of what remains, without surrounding blanks. If nothing
of that line is left it says that the input ends there. A line may be blank while more lines follow
it, so the claim is right only where the fault stands behind the blanks in front of the next token.

For most faults it does. The others are those that are noted early, those in front of a blank that
is not skipped between tokens, and the one for a first definition that is not supported.

## Main definitions

* `Fault.Located`: where the faults stand that a whole text is refused with.

## Main results

* `Fault.message_atEnd_iff`: when a message claims the end.
* `Document.located_of_parse`, `Definition.located_of_parseAll`: the faults of whole texts.
* `Fault.place_of_message_atEnd`: if a message claims the end, only blanks remain or the fault is
  one of the others.
-/

namespace GraphQuery

open Reader Lexeme

variable {text rest : List Char} {fault : Fault} {trail : Trail}

/-! ### Blanks in front -/

namespace Text

theorem isBlank_head?_trimStart (s : List Char) :
    ∀ c ∈ (trimStart s).head?, isBlank c = false :=
  head?_dropWhile_eq_false isBlank s

theorem trimEnd_prefix (s : List Char) : trimEnd s <+: s := by
  rw [trimEnd, ← List.reverse_suffix, List.reverse_reverse]
  exact List.dropWhile_suffix isBlank

theorem isBlank_head?_trim (s : List Char) : ∀ c ∈ (trim s).head?, isBlank c = false := by
  intro c hc
  obtain ⟨blanks, hblanks⟩ := trimEnd_prefix (trimStart s)
  refine isBlank_head?_trimStart s c ?_
  rw [← hblanks, List.head?_append, show (trimEnd (trimStart s)).head? = some c from hc]
  rfl

end Text

/-! ### The wording -/

namespace Fault

theorem message_atEnd_iff :
    fault.message = fault.cause ++ " at end of input" ↔ fault.near = [] := by
  unfold message
  constructor
  · intro h
    split at h
    · next hnear => exact hnear
    · rw [String.append_assoc, String.append_assoc, String.append_right_inj] at h
      -- The two wordings differ in their second letter.
      simpa using congrArg (fun text => text.toList.take 2) h
  · intro h
    rw [h]

/-- The end can be claimed only at the end or in front of a blank. -/
theorem isBlank_head?_of_near_eq_nil (h : fault.near = []) :
    ∀ c ∈ fault.rest.head?, Text.isBlank c = true := by
  intro c hc
  obtain ⟨s, hs⟩ := List.head?_eq_some_iff.1 hc
  by_cases hline : c = '\n'
  · rw [hline]
    rfl
  · refine Text.isBlank_of_trim_eq_nil h c ?_
    rw [hs, Text.firstLine, List.takeWhile_cons_of_pos (by simpa using hline)]
    exact List.mem_cons_self

end Fault

/-! ### The faults of whole texts -/

/-- The fault has its place, or it stands in front of something that is not blank. Only a first
definition that is not supported is noted at the very beginning. -/
def Fault.Located (text : List Char) (fault : Fault) : Prop :=
  fault.Placed text ∨ (∀ c ∈ fault.rest.head?, Text.isBlank c = false) ∨
    fault = ⟨text, "Unsupported schema definition"⟩

theorem Document.located_of_parse (h : parse text = .error trail) :
    ∀ fault ∈ trail, fault.Located text := by
  have hreads := readsOn_reader text
  unfold ReadsOn at hreads
  unfold parse at h
  generalize reader text = r at h hreads
  cases r with
  | declined trail =>
    cases h
    exact fun fault hfault => .inl (hreads.holds fault hfault)
  | refused trail =>
    cases h
    exact fun fault hfault => .inl (hreads.holds fault hfault)
  -- A query was read, but it is not supported or something stands behind it.
  | done document rest =>
    dsimp only at h
    split_ifs at h
    · split at h <;> cases h
      exact List.forall_mem_singleton.2 (.inr (.inl (Text.isBlank_head?_trimStart text)))
    · cases h
      refine List.forall_mem_cons.2 ⟨.inl (.inl hreads.2.2), List.forall_mem_singleton.2 ?_⟩
      exact .inr (.inl (Text.isBlank_head?_trim rest))

theorem Definition.located_of_parseAll (h : parseAll text = .error trail) :
    ∀ fault ∈ trail, fault.Located text := by
  obtain hleads | rfl := leadsFrom_of_parseAll h
  · exact fun fault hfault => .inl (hleads.holds fault hfault)
  · exact List.forall_mem_singleton.2 (.inr (.inr rfl))

namespace Fault

/-- If the message of a fault claims the end of the input, nothing but blanks remains there, or the
fault stands in front of a blank that is not skipped between tokens, or it was noted early, or it
says that the very first definition is not supported. -/
theorem place_of_message_atEnd
    (h : Document.parse text = .error trail ∨ Definition.parseAll text = .error trail)
    (hfault : fault ∈ trail) (hmessage : fault.message = fault.cause ++ " at end of input") :
    (∀ c ∈ fault.rest, Text.isBlank c = true) ∨
      (∃ c ∈ fault.rest.head?, Text.isBlank c = true ∧ isSeparator c = false) ∨
      fault.Early text ∨ fault = ⟨text, "Unsupported schema definition"⟩ := by
  have hhead := isBlank_head?_of_near_eq_nil (message_atEnd_iff.1 hmessage)
  have hlocated : fault.Located text :=
    h.elim (fun h => Document.located_of_parse h fault hfault)
      (fun h => Definition.located_of_parseAll h fault hfault)
  by_cases hrest : fault.rest = []
  · left
    simp [hrest]
  -- What remains begins with a blank; behind what is skipped it can only be one of the others.
  obtain ⟨c, s, hcons⟩ := List.exists_cons_of_ne_nil hrest
  have hc : c ∈ fault.rest.head? := by rw [hcons]; rfl
  right
  rcases hlocated with (hclear | hearly) | hfilled | hfirst
  · have hseparator := isSeparator_head?_skip fault.rest c (by rwa [hclear])
    exact .inl ⟨c, hc, hhead c hc, hseparator⟩
  · exact .inr (.inl hearly)
  · exact absurd (hhead c hc) (by simp [hfilled c hc])
  · exact .inr (.inr hfirst)

/-- Nothing follows the directive but a line feed. The brace that closes the type is missed there,
and the end is claimed rightly. -/
theorem place_of_message_atEnd_directive :
    ∃ trail : Trail, ∃ fault ∈ trail,
      Definition.parseAll "type A \x7b b: Int @c\n".toList = .error trail ∧
      fault.message = fault.cause ++ " at end of input" ∧
      ((∀ c ∈ fault.rest, Text.isBlank c = true) ∨
        (∃ c ∈ fault.rest.head?, Text.isBlank c = true ∧ isSeparator c = false) ∨
        fault.Early "type A \x7b b: Int @c\n".toList ∨
        fault = ⟨"type A \x7b b: Int @c\n".toList, "Unsupported schema definition"⟩) := by
  have hparse : Definition.parseAll "type A \x7b b: Int @c\n".toList = .error [
      ⟨[], unexpected⟩, ⟨['\n'], "Expected `\x7d` to close type definition"⟩] := by
    simp only [String.reduceToList]
    rfl
  refine ⟨_, _, .tail _ (.head _), hparse, message_atEnd_iff.2 rfl, ?_⟩
  exact place_of_message_atEnd (.inr hparse) (.tail _ (.head _)) (message_atEnd_iff.2 rfl)

/-- The colon behind a variable is missed in front of a line feed, and the end is claimed although
the type of the variable stands on the next line. In front of a first definition that is not
supported it is the same. -/
theorem message_atEnd_before_tokens :
    (∃ trail : Trail, ∃ fault ∈ trail,
      Document.parse "query($x\n Int) \x7b a \x7d".toList = .error trail ∧
      fault.message = fault.cause ++ " at end of input" ∧
      ∃ c ∈ fault.rest, Text.isBlank c = false) ∧
    ∃ trail : Trail, ∃ fault ∈ trail,
      Definition.parseAll "\ninterface A \x7b b: Int \x7d".toList = .error trail ∧
      fault.message = fault.cause ++ " at end of input" ∧
      ∃ c ∈ fault.rest, Text.isBlank c = false := by
  have hparse : Document.parse "query($x\n Int) \x7b a \x7d".toList = .error [
      ⟨"Int) \x7b a \x7d".toList, unexpected⟩,
      ⟨"\n Int) \x7b a \x7d".toList, "Expected `:` after variable name"⟩,
      ⟨"$x\n Int) \x7b a \x7d".toList, "Variable definition list must not be empty"⟩] := by
    simp only [String.reduceToList]
    rfl
  have hparse' : Definition.parseAll "\ninterface A \x7b b: Int \x7d".toList = .error [
      ⟨"\ninterface A \x7b b: Int \x7d".toList, "Unsupported schema definition"⟩] := by
    simp only [String.reduceToList]
    rfl
  refine ⟨⟨_, _, .tail _ (.head _), hparse, message_atEnd_iff.2 ?_, 'I', ?_, rfl⟩,
    ⟨_, _, .head _, hparse', message_atEnd_iff.2 ?_, 'i', ?_, rfl⟩⟩
  · simp only [near, String.reduceToList]
    rfl
  · simp
  · simp only [near, String.reduceToList]
    rfl
  · simp

end Fault

end GraphQuery
