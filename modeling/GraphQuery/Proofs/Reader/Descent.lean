import GraphQuery.Proofs.Reader.Outcome
import GraphQuery.Proofs.Reader.Trails

/-!
# Reading by descent

Readers call themselves on what is left of a text, and repetition goes on there. Two safeguards make
this come to an end. A recursive reader is unfolded only as often as the text has characters, and
repetition looks after each round whether the text has become shorter.

Where every call and every round leaves less of the text, the safeguards make no difference. The
reader is then the one and only solution of its recursive equation, and repetition is a loop that
never looks how far it got. All the recursion that is left is one to shorter texts.

## Main definitions

* `Reader.Descends`: a body calls itself on shorter texts, and a reader is all that its equation can
  stand for.
* `Reader.Progresses`: a reader never reads without getting further.
* `Reader.loopStep`: one round of a loop that never looks how far it got.

## Main results

* `Reader.Guarded.descends`: recursive readers descend.
* `Reader.Progresses.descends_many`: so does repetition, if the repeated reader progresses.
* `Reader.Progresses.not_declines_many`: then the repetition never gives up for lack of progress.
* `Reading.StaysIn.bind_congr`, `Reader.many_congr`: what a body makes of its argument is settled by
  the texts that it hands on.
-/

namespace GraphQuery

variable {α β : Type} {s rest : List Char}

/-! ### What readers depend on -/

/-- Behind a first reader only what it may leave matters. -/
theorem Reading.StaysIn.bind_congr {F : Fault → Prop} {P : List Char → Prop} {p : Reader α}
    {f g : α → Reader β} (hp : (p s).StaysIn F s P)
    (h : ∀ a rest, rest <:+ s → P rest → f a rest = g a rest) : (p >>= f) s = (p >>= g) s := by
  change Reader.bind p f s = Reader.bind p g s
  unfold Reader.bind
  generalize p s = r at hp ⊢
  cases r with
  | done a rest => exact h a rest hp.1 hp.2
  | declined trail => rfl
  | refused trail => rfl

namespace Reader

variable {p q : Reader α}

theorem bind_congr_left (h : p s = q s) (f : α → Reader β) : (p >>= f) s = (q >>= f) s := by
  change Reader.bind p f s = Reader.bind q f s
  rw [Reader.bind, Reader.bind, h]

theorem optional_congr (h : p s = q s) : optional p s = optional q s := by
  rw [optional, optional, h]

/-- Repetition depends on its reader only at texts that are not longer than the one it is given. -/
theorem many_congr (h : ∀ t : List Char, t.length ≤ s.length → p t = q t) :
    many p s = many q s := by
  induction hlength : s.length using Nat.strongRecOn generalizing s with
  | ind n ih =>
    subst hlength
    rw [many_eq, many_eq, manyStep, manyStep, h s (Nat.le_refl _)]
    cases q s with
    | done a rest =>
      dsimp only
      split
      · next hlt =>
        exact bind_congr_left (ih rest.length hlt (fun t ht => h t (by omega)) rfl) _
      · rfl
    | declined trail => rfl
    | refused trail => rfl

/-! ### Recursion -/

/-- The body calls its argument on shorter texts only, and the reader is the one that solves the
equation of the body. -/
structure Descends (body : Reader α → Reader α) (p : Reader α) : Prop where
  guarded : Guarded body
  solves_iff : ∀ q, body q = q ↔ q = p

/-- A guarded body has one solution. -/
theorem Guarded.eq_nest {body : Reader α → Reader α} (h : Guarded body) (hq : body q = q) :
    q = nest body := by
  funext s
  -- Two solutions that agree on all shorter texts agree here.
  induction hlength : s.length using Nat.strongRecOn generalizing s with
  | ind n ih =>
    subst hlength
    calc q s = body q s := by rw [hq]
      _ = body (nest body) s := h q (nest body) s fun t ht => ih t.length ht t rfl
      _ = nest body s := (nest_eq h s).symm

theorem Guarded.descends {body : Reader α → Reader α} (h : Guarded body) :
    Descends body (nest body) where
  guarded := h
  solves_iff q := by
    constructor
    · exact h.eq_nest
    · rintro rfl
      funext s
      exact (nest_eq h s).symm

/-! ### Repetition -/

/-- Whatever the reader reads, it leaves a strictly shorter end of the text. -/
def Progresses (p : Reader α) : Prop :=
  ∀ s a rest, p s = .done a rest → rest <:+ s ∧ rest.length < s.length

theorem progresses_of_stays
    (h : ∀ s, ∃ F, (p s).StaysIn F s fun rest => rest.length < s.length) : p.Progresses := by
  intro s a rest hread
  obtain ⟨F, hstays⟩ := h s
  rw [hread] at hstays
  exact hstays

/-- One round of a loop: read with `p` and go on, or stop where `p` declines. How far the round got
is not looked at. -/
def loopStep (p : Reader α) (again : Reader (List α)) : Reader (List α) := fun s =>
  match p s with
  | .done a rest => (do return a :: (← again) : Reader (List α)) rest
  | .declined _ => .done [] s
  | .refused trail => .refused trail

theorem Declines.of_cons {a : α} {q : Reader (List α)}
    (h : Declines (do return a :: (← q)) s) : Declines q s := by
  obtain ⟨trail, htrail⟩ := h
  change Reader.bind q _ s = _ at htrail
  unfold Reader.bind at htrail
  split at htrail
  · cases htrail
  · next trail' hq => exact ⟨trail', hq⟩
  · cases htrail

namespace Progresses

variable (h : p.Progresses)

include h

/-- A round that gets further passes the look at how far it got. -/
theorem manyStep_eq : manyStep p = loopStep p := by
  funext again s
  unfold manyStep loopStep
  cases hread : p s with
  | done a rest => exact if_pos (h s a rest hread).2
  | declined trail => rfl
  | refused trail => rfl

theorem descends_many : Descends (loopStep p) (many p) := by
  rw [← h.manyStep_eq]
  exact (guarded_manyStep p).descends

/-- Repetition reads as far as it can or ends in a refusal. -/
theorem not_declines_many (s : List Char) : ¬ Declines (many p) s := by
  refine nest_induction (R := fun _ r => ¬ ∃ trail, r = .declined trail) ?_ s
  intro again s hagain
  rw [h.manyStep_eq, loopStep]
  cases hread : p s with
  | done a rest =>
    exact fun hdeclined => hagain rest (h s a rest hread).2 (Declines.of_cons hdeclined)
  | declined trail => simp
  | refused trail => simp

/-- At least one value is missing only where the first one is. -/
theorem declines_many1_iff (s : List Char) : Declines (many1 p) s ↔ Declines p s := by
  unfold Declines many1
  cases p s with
  | done a rest =>
    -- Behind a first value the repetition reads on, or it is refused.
    constructor
    · exact fun hdeclined => (h.not_declines_many rest (Declines.of_cons hdeclined)).elim
    · rintro ⟨trail, htrail⟩
      cases htrail
  | declined trail => simp
  | refused trail => simp

end Progresses

end Reader

end GraphQuery
