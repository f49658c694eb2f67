/-!
# Readers

A reader looks at the characters left of a text. It either produces a value and the rest, or
gives up with a trail: the places where reading stopped and what was expected there, innermost
first. Giving up comes in two strengths. A reader that *declines* leaves room for an alternative;
a reader that *refuses* ends the whole reading.

## Main definitions

* `Fault`, `Trail`: places and causes.
* `Reading`, `Reader`: the outcome of reading and the readers themselves.
* `Reader.orElse`, `Reader.optional`, `Reader.many`, `Reader.many1`: choice and repetition.
* `Reader.commit`, `Reader.expecting`: a declined reading becomes a refusal; a cause is added.
* `Reader.nest`: readers that call themselves on what is left after a first character.

## Main results

* `Reader.nest_eq`: a reader that only calls itself on shorter texts is a fixed point of its body.
* `Reader.many_eq`: repetition unfolds by one step.
-/

namespace GraphQuery

/-- A place in the text, given by the characters that remain there, and what went wrong. -/
structure Fault where
  rest : List Char
  cause : String
deriving Repr, DecidableEq

/-- Faults from the innermost to the outermost. -/
abbrev Trail := List Fault

/-- The outcome of reading from the front of a text. -/
inductive Reading (α : Type) where
  /-- A value was read; `rest` is what follows it. -/
  | done (value : α) (rest : List Char)
  /-- Nothing of this form stands here; another form may. -/
  | declined (trail : Trail)
  /-- The text cannot be read at all. -/
  | refused (trail : Trail)
deriving Repr, DecidableEq

/-- A reader turns the remaining characters into an outcome. -/
def Reader (α : Type) : Type := List Char → Reading α

namespace Reader

variable {α β : Type}

/-- Succeed without reading. -/
@[inline] protected def pure (a : α) : Reader α := fun s => .done a s

/-- Read with `p`, then continue on the rest. -/
@[inline] protected def bind (p : Reader α) (f : α → Reader β) : Reader β := fun s =>
  match p s with
  | .done a rest => f a rest
  | .declined trail => .declined trail
  | .refused trail => .refused trail

instance : Monad Reader where
  pure := Reader.pure
  bind := Reader.bind

/-- Refuse here for `cause`. -/
def refuse (cause : String) : Reader α := fun s => .refused [⟨s, cause⟩]

/-- The cause noted where a single character or word does not fit. -/
def unexpected : String := "unknown error"

/-- The cause noted where every alternative, or the first of a repetition, was declined. -/
def exhausted : String := "unknown error (appended)"

/-- The rest of the text, without consuming it. -/
def peek : Reader (List Char) := fun s => .done s s

/-- One character of a class. -/
def satisfy (p : Char → Bool) : Reader Char
  | c :: s => if p c then .done c s else .declined [⟨c :: s, unexpected⟩]
  | [] => .declined [⟨[], unexpected⟩]

/-- The character `c`. -/
def char (c : Char) : Reader Char := satisfy (· == c)

/-- The longest run of characters of a class. -/
def takeWhile (p : Char → Bool) : Reader (List Char) := fun s =>
  .done (s.takeWhile p) (s.dropWhile p)

/-- The longest run of characters of a class, at least one. -/
def takeWhile1 (p : Char → Bool) : Reader (List Char) := fun s =>
  match s.takeWhile p with
  | [] => .declined [⟨s, unexpected⟩]
  | c :: cs => .done (c :: cs) (s.dropWhile p)

/-- Exactly the characters `word`. -/
def literal (word : List Char) : Reader Unit := fun s =>
  if word.isPrefixOf s then .done () (s.drop word.length) else .declined [⟨s, unexpected⟩]

/-- What `p` reads, provided it passes the test; otherwise decline where `p` started. -/
def filter (p : Reader α) (test : α → Bool) : Reader α := fun s =>
  match p s with
  | .done a rest => if test a then .done a rest else .declined [⟨s, unexpected⟩]
  | other => other

/-- A declined reading becomes a refusal. -/
def commit (p : Reader α) : Reader α := fun s =>
  match p s with
  | .declined trail => .refused trail
  | other => other

/-- A reading that fails also notes `cause` at the place where it started. -/
def expecting (cause : String) (p : Reader α) : Reader α := fun s =>
  match p s with
  | .done a rest => .done a rest
  | .declined trail => .declined (trail ++ [⟨s, cause⟩])
  | .refused trail => .refused (trail ++ [⟨s, cause⟩])

/-- Read with `p` if it does not decline. -/
def optional (p : Reader α) : Reader (Option α) := fun s =>
  match p s with
  | .done a rest => .done (some a) rest
  | .declined _ => .done none s
  | .refused trail => .refused trail

/-- The first of some alternatives that does not decline; if all do, the trail is that of the
last. -/
def oneOfFrom (last : Trail) : List (Reader α) → Reader α
  | [], s => .declined (last ++ [⟨s, exhausted⟩])
  | p :: ps, s =>
    match p s with
    | .declined trail => oneOfFrom trail ps s
    | other => other

/-- The first of some alternatives that does not decline. -/
def oneOf (ps : List (Reader α)) : Reader α := oneOfFrom [] ps

/-! ### Recursion -/

/-- The body of a recursive reader, unfolded `n` times over a reader that declines. -/
def unroll (body : Reader α → Reader α) : Nat → Reader α
  | 0 => body fun _ => .declined []
  | n + 1 => body (unroll body n)

/-- A recursive reader. The body may call its argument on shorter texts only, so unfolding it as
often as the text has characters is enough. -/
def nest (body : Reader α → Reader α) : Reader α := fun s => unroll body s.length s

/-- A body whose outcome depends on its argument only at texts shorter than the one it is given. -/
def Guarded (body : Reader α → Reader α) : Prop :=
  ∀ (p q : Reader α) (s : List Char),
    (∀ t : List Char, t.length < s.length → p t = q t) → body p s = body q s

theorem unroll_eq_of_le {body : Reader α → Reader α} (h : Guarded body) {m n : Nat} {s : List Char}
    (hm : s.length ≤ m) (hn : s.length ≤ n) : unroll body m s = unroll body n s := by
  induction m generalizing n s with
  | zero =>
    have hs : s = [] := List.length_eq_zero_iff.1 (Nat.le_zero.1 hm)
    subst hs
    cases n <;> exact h _ _ _ fun t ht => absurd ht (Nat.not_lt_zero _)
  | succ m ih =>
    cases n with
    | zero =>
      have hs : s = [] := List.length_eq_zero_iff.1 (Nat.le_zero.1 hn)
      subst hs
      exact h _ _ _ fun t ht => absurd ht (Nat.not_lt_zero _)
    | succ n => exact h _ _ _ fun t ht => ih (by omega) (by omega)

/-- A guarded recursive reader is a fixed point of its body. -/
theorem nest_eq {body : Reader α → Reader α} (h : Guarded body) (s : List Char) :
    nest body s = body (nest body) s := by
  cases s with
  | nil => exact h _ _ _ fun t ht => absurd ht (Nat.not_lt_zero _)
  | cons c s =>
    exact h _ _ _ fun t ht =>
      unroll_eq_of_le h (by simpa using Nat.le_of_lt_succ ht) (Nat.le_refl _)

/-! ### Repetition -/

/-- One round of `many`: read with `p` and go on, or stop where `p` declines. A round that reads
nothing is declined, so that repetition always comes to an end. -/
def manyStep (p : Reader α) (again : Reader (List α)) : Reader (List α) := fun s =>
  match p s with
  | .done a rest =>
    if rest.length < s.length then (do return a :: (← again) : Reader (List α)) rest
    else .declined [⟨s, unexpected⟩]
  | .declined _ => .done [] s
  | .refused trail => .refused trail

/-- As many values as `p` reads in a row. -/
def many (p : Reader α) : Reader (List α) := nest (manyStep p)

theorem guarded_manyStep (p : Reader α) : Guarded (manyStep p) := by
  intro q r s h
  unfold manyStep
  split
  · split
    · next rest hlt => simp only [bind, Reader.bind, h _ hlt]
    · rfl
  · rfl
  · rfl

/-- Repetition unfolds by one step. -/
theorem many_eq (p : Reader α) (s : List Char) : many p s = manyStep p (many p) s :=
  nest_eq (guarded_manyStep p) s

/-- At least one value, then as many as `p` reads. -/
def many1 (p : Reader α) : Reader (List α) := fun s =>
  match p s with
  | .done a rest => (do return a :: (← many p) : Reader (List α)) rest
  | .declined trail => .declined (trail ++ [⟨s, exhausted⟩])
  | .refused trail => .refused trail

end Reader

end GraphQuery
