import Mathlib.Data.List.Basic
import GraphQuery.Reader.Basic

/-!
# Where trails lead

A reader that gives up leaves a trail of faults. The innermost fault stands first, and each of the
others was noted by something that had begun at or before the place of the fault it wraps. So along
a trail the remaining texts are suffixes of one another, and all of them are suffixes of the text
that was to be read.

This is kept by every way of combining readers. Together with it goes a predicate on single faults,
which has to be shown only where a fault is noted, and a predicate on what is left when a value is
read.

## Main definitions

* `Trail.LeadsFrom`: the faults of a trail lead from inside a text to its beginning.
* `Reading.StaysIn`: a reading leaves a suffix of the text, or a trail that leads from it.

## Main results

* `Reading.StaysIn.bind`, `Reading.StaysIn.expecting`, `Reading.StaysIn.oneOf`: one lemma for each
  way of combining readers.
* `Reading.StaysIn.many`, `Reading.StaysIn.many1`: repetition keeps an invariant of what is left.
* `Reader.nest_induction`: a fact about a reader that calls itself on shorter texts.
-/

namespace GraphQuery

variable {α β : Type} {F : Fault → Prop} {P Q : List Char → Prop} {s t rest : List Char}
  {cause : String}

/-! ### Trails -/

/-- The trail leads from a text: there is a fault, the faults stand at suffixes of the text, from
the innermost to the outermost, and each of them satisfies `F`. -/
structure Trail.LeadsFrom (F : Fault → Prop) (s : List Char) (trail : Trail) : Prop where
  ne_nil : trail ≠ []
  suffix : ∀ fault ∈ trail, fault.rest <:+ s
  ordered : trail.Pairwise fun inner outer => inner.rest <:+ outer.rest
  holds : ∀ fault ∈ trail, F fault

namespace Trail.LeadsFrom

variable {trail : Trail}

theorem singleton (hsuffix : t <:+ s) (hF : F ⟨t, cause⟩) : LeadsFrom F s [⟨t, cause⟩] where
  ne_nil := List.cons_ne_nil _ _
  suffix := List.forall_mem_singleton.2 hsuffix
  ordered := List.pairwise_singleton _ _
  holds := List.forall_mem_singleton.2 hF

/-- A trail inside a part of the text is one inside the text. -/
theorem of_suffix (h : LeadsFrom F t trail) (hsuffix : t <:+ s) : LeadsFrom F s trail where
  ne_nil := h.ne_nil
  suffix fault hfault := (h.suffix fault hfault).trans hsuffix
  ordered := h.ordered
  holds := h.holds

/-- A fault at the place where reading began can be added. -/
theorem concat (h : LeadsFrom F s trail) (hF : F ⟨s, cause⟩) :
    LeadsFrom F s (trail ++ [⟨s, cause⟩]) where
  ne_nil := List.append_ne_nil_of_left_ne_nil h.ne_nil _
  suffix := List.forall_mem_append.2
    ⟨h.suffix, List.forall_mem_singleton.2 (List.suffix_refl s)⟩
  ordered := by
    refine List.pairwise_append.2 ⟨h.ordered, List.pairwise_singleton _ _, ?_⟩
    exact fun fault hfault => List.forall_mem_singleton.2 (h.suffix fault hfault)
  holds := List.forall_mem_append.2 ⟨h.holds, List.forall_mem_singleton.2 hF⟩

end Trail.LeadsFrom

/-! ### Readings -/

/-- A reading of a text leaves a suffix of it that satisfies `Q`, or gives up with a trail that
leads from the text. -/
def Reading.StaysIn (F : Fault → Prop) (s : List Char) (Q : List Char → Prop) : Reading α → Prop
  | .done _ rest => rest <:+ s ∧ Q rest
  | .declined trail => Trail.LeadsFrom F s trail
  | .refused trail => Trail.LeadsFrom F s trail

namespace Reading.StaysIn

open Reader

variable {r : Reading α} {p : Reader α}

theorem mono (h : r.StaysIn F s P) (hPQ : ∀ rest, rest <:+ s → P rest → Q rest) :
    r.StaysIn F s Q := by
  cases r with
  | done a rest => exact ⟨h.1, hPQ rest h.1 h.2⟩
  | declined trail => exact h
  | refused trail => exact h

/-- What is known of every value that is read is known of what is left. -/
theorem of_done (h : r.StaysIn F s P) (hQ : ∀ a rest, r = .done a rest → Q rest) :
    r.StaysIn F s Q := by
  cases r with
  | done a rest => exact ⟨h.1, hQ a rest rfl⟩
  | declined trail => exact h
  | refused trail => exact h

theorem leadsFrom {trail : Trail} (h : r.StaysIn F s Q)
    (hr : r = .declined trail ∨ r = .refused trail) : Trail.LeadsFrom F s trail := by
  rcases hr with rfl | rfl
  · exact h
  · exact h

theorem of_suffix (h : r.StaysIn F t Q) (hsuffix : t <:+ s) : r.StaysIn F s Q := by
  cases r with
  | done a rest => exact ⟨h.1.trans hsuffix, h.2⟩
  | declined trail => exact Trail.LeadsFrom.of_suffix h hsuffix
  | refused trail => exact Trail.LeadsFrom.of_suffix h hsuffix

theorem pure {a : α} (hQ : Q s) : ((Pure.pure a : Reader α) s).StaysIn F s Q :=
  ⟨List.suffix_refl s, hQ⟩

theorem refuse (hF : F ⟨s, cause⟩) : ((Reader.refuse cause : Reader α) s).StaysIn F s Q :=
  Trail.LeadsFrom.singleton (List.suffix_refl s) hF

/-- In a sequence the second reader begins where the first one stopped. -/
theorem bind {f : α → Reader β} (hp : (p s).StaysIn F s P)
    (hf : ∀ a rest, rest <:+ s → P rest → (f a rest).StaysIn F rest Q) :
    ((p >>= f) s).StaysIn F s Q := by
  change (Reader.bind p f s).StaysIn F s Q
  unfold Reader.bind
  generalize p s = r at hp ⊢
  cases r with
  | done a rest => exact (hf a rest hp.1 hp.2).of_suffix hp.1
  | declined trail => exact hp
  | refused trail => exact hp

theorem commit (hp : (p s).StaysIn F s Q) : (Reader.commit p s).StaysIn F s Q := by
  unfold Reader.commit
  generalize p s = r at hp ⊢
  cases r with
  | _ => exact hp

/-- The cause that is noted is one more fault, at the place where reading began. -/
theorem expecting (hp : (p s).StaysIn F s Q) (hF : F ⟨s, cause⟩) :
    (Reader.expecting cause p s).StaysIn F s Q := by
  unfold Reader.expecting
  generalize p s = r at hp ⊢
  cases r with
  | done a rest => exact hp
  | declined trail => exact Trail.LeadsFrom.concat hp hF
  | refused trail => exact Trail.LeadsFrom.concat hp hF

theorem optional (hp : (p s).StaysIn F s Q) (hQ : Q s) : (Reader.optional p s).StaysIn F s Q := by
  unfold Reader.optional
  generalize p s = r at hp ⊢
  cases r with
  | done a rest => exact hp
  | declined trail => exact ⟨List.suffix_refl s, hQ⟩
  | refused trail => exact hp

theorem filter {test : α → Bool} (hp : (p s).StaysIn F s Q) (hF : F ⟨s, unexpected⟩) :
    (Reader.filter p test s).StaysIn F s Q := by
  unfold Reader.filter
  generalize p s = r at hp ⊢
  cases r with
  | done a rest =>
    dsimp only
    split
    · exact hp
    · exact Trail.LeadsFrom.singleton (List.suffix_refl s) hF
  | declined trail => exact hp
  | refused trail => exact hp

/-! ### Choice and repetition -/

theorem oneOfFrom {ps : List (Reader α)} {last : Trail} (hlast : Trail.LeadsFrom F s last)
    (hps : ∀ p ∈ ps, (p s).StaysIn F s Q) (hF : F ⟨s, exhausted⟩) :
    (Reader.oneOfFrom last ps s).StaysIn F s Q := by
  induction ps generalizing last with
  | nil => exact hlast.concat hF
  | cons p ps ih =>
    obtain ⟨hp, hps⟩ := List.forall_mem_cons.1 hps
    rw [Reader.oneOfFrom]
    generalize p s = r at hp ⊢
    cases r with
    -- The trail of the last alternative is forgotten, and this one is kept instead.
    | declined trail => exact ih hp hps
    | done a rest => exact hp
    | refused trail => exact hp

/-- Of some alternatives the last trail is kept, and one more fault is noted. -/
theorem oneOf {ps : List (Reader α)} (hp : (p s).StaysIn F s Q)
    (hps : ∀ q ∈ ps, (q s).StaysIn F s Q) (hF : F ⟨s, exhausted⟩) :
    (Reader.oneOf (p :: ps) s).StaysIn F s Q := by
  rw [Reader.oneOf, Reader.oneOfFrom]
  generalize p s = r at hp ⊢
  cases r with
  | declined trail => exact oneOfFrom hp hps hF
  | done a rest => exact hp
  | refused trail => exact hp

/-- Repetition of a reader that always gets further keeps an invariant of what is left. -/
theorem many (hs : Q s) (hp : ∀ t, t <:+ s → Q t →
    (p t).StaysIn F t fun rest => rest.length < t.length ∧ Q rest) :
    (Reader.many p s).StaysIn F s Q := by
  -- The rounds go on at shorter and shorter suffixes of the text.
  induction hlength : s.length using Nat.strongRecOn generalizing s with
  | ind n ih =>
    subst hlength
    have hround := hp s (List.suffix_refl s) hs
    rw [many_eq, manyStep]
    generalize p s = r at hround ⊢
    cases r with
    | declined trail => exact ⟨List.suffix_refl s, hs⟩
    | refused trail => exact hround
    | done a rest =>
      obtain ⟨hrest, hlt, hQ⟩ := hround
      have hagain := ih rest.length hlt hQ (fun t ht => hp t (ht.trans hrest)) rfl
      simp only [if_pos hlt]
      exact (hagain.bind fun _ _ _ hQ => .pure hQ).of_suffix hrest

theorem many1 (hs : Q s) (hF : F ⟨s, exhausted⟩) (hp : ∀ t, t <:+ s → Q t →
    (p t).StaysIn F t fun rest => rest.length < t.length ∧ Q rest) :
    (Reader.many1 p s).StaysIn F s Q := by
  have hfirst := hp s (List.suffix_refl s) hs
  unfold Reader.many1
  generalize p s = r at hfirst ⊢
  cases r with
  | done a rest =>
    obtain ⟨hrest, -, hQ⟩ := hfirst
    have hothers : (Reader.many p rest).StaysIn F rest Q :=
      many hQ fun t ht => hp t (ht.trans hrest)
    exact (hothers.bind fun _ _ _ hQ => .pure hQ).of_suffix hrest
  | declined trail => exact Trail.LeadsFrom.concat hfirst hF
  | refused trail => exact hfirst

end Reading.StaysIn

/-! ### Readers that only decline -/

namespace Reader

variable {p : Reader α}

/-- The reader reads a value or leaves room for an alternative, wherever it begins. -/
def NeverRefuses (p : Reader α) : Prop := ∀ s trail, p s ≠ .refused trail

theorem neverRefuses_satisfy (test : Char → Bool) : NeverRefuses (satisfy test) := by
  intro s trail h
  cases s with
  | nil => cases h
  | cons c s =>
    rw [satisfy] at h
    split at h <;> cases h

theorem neverRefuses_takeWhile1 (test : Char → Bool) : NeverRefuses (takeWhile1 test) := by
  intro s trail h
  unfold takeWhile1 at h
  split at h <;> cases h

namespace NeverRefuses

theorem pure (a : α) : NeverRefuses (Pure.pure a : Reader α) := by
  intro s trail h
  cases h

theorem bind {f : α → Reader β} (hp : NeverRefuses p) (hf : ∀ a, NeverRefuses (f a)) :
    NeverRefuses (p >>= f) := by
  intro s trail h
  change Reader.bind p f s = _ at h
  unfold Reader.bind at h
  split at h
  · exact hf _ _ _ h
  · cases h
  · next hread => exact hp s _ hread

theorem optional (hp : NeverRefuses p) : NeverRefuses (Reader.optional p) := by
  intro s trail h
  unfold Reader.optional at h
  split at h
  · cases h
  · cases h
  · next hread => exact hp s _ hread

/-- Something that may be missing leaves no fault, wherever it is looked for. -/
theorem stays_optional (hp : NeverRefuses p)
    (hdone : ∀ a? rest, Reader.optional p s = .done a? rest → rest <:+ s) :
    (Reader.optional p s).StaysIn F s fun _ => True := by
  cases hread : Reader.optional p s with
  | done a? rest => exact ⟨hdone a? rest hread, trivial⟩
  | declined trail =>
    unfold Reader.optional at hread
    split at hread <;> cases hread
  | refused trail => exact absurd hread (hp.optional s trail)

end NeverRefuses

end Reader

/-! ### Recursion -/

/-- What holds of the body on a text, if it holds of what the body calls on shorter texts, holds of
a reader that calls itself. -/
theorem Reader.nest_induction {R : List Char → Reading α → Prop} {body : Reader α → Reader α}
    (h : ∀ q s, (∀ t, t.length < s.length → R t (q t)) → R s (body q s)) (s : List Char) :
    R s (nest body s) := by
  -- The body is unfolded as often as the text has characters, or more often.
  have hunroll (n : Nat) : ∀ s, s.length ≤ n → R s (unroll body n s) := by
    induction n with
    | zero => exact fun s hs => h _ s fun t ht => by omega
    | succ n ih => exact fun s hs => h _ s fun t ht => ih t (by omega)
  exact hunroll s.length s (Nat.le_refl _)

end GraphQuery
