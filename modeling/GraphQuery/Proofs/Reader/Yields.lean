import GraphQuery.Reader.Basic

/-!
# What readers read

A fact that holds of every value a reader reads, wherever it reads one. Each way of combining
readers carries such facts over, so that a fact about a whole text comes down to one about its
smallest pieces.

## Main definitions

* `Reader.Yields`: the values that a reader reads satisfy a predicate.

## Main results

* `Reader.Yields.bind`: readers in sequence.
* `Reader.Yields.nest`: readers that call themselves.
* `Reader.Yields.many`, `Reader.Yields.many1`: repetition.
-/

namespace GraphQuery.Reader

variable {α β : Type} {P : α → Prop} {Q : β → Prop} {p : Reader α}

/-- Every value that the reader reads satisfies the predicate. -/
def Yields (p : Reader α) (P : α → Prop) : Prop := ∀ s a rest, p s = .done a rest → P a

theorem yields_true (p : Reader α) : p.Yields fun _ => True := fun _ _ _ _ => trivial

theorem yields_refuse (cause : String) : (refuse cause : Reader α).Yields P := by
  intro s a rest h
  cases h

theorem Yields.pure {a : α} (ha : P a) : (pure a : Reader α).Yields P := by
  intro s b rest h
  cases h
  exact ha

/-- In a sequence the second reader may use what the first one yields. -/
theorem Yields.bind {f : α → Reader β} (hp : p.Yields P) (hf : ∀ a, P a → (f a).Yields Q) :
    (p >>= f).Yields Q := by
  intro s b rest h
  change Reader.bind p f s = _ at h
  unfold Reader.bind at h
  split at h
  · next a middle ha => exact hf a (hp s a middle ha) middle b rest h
  · cases h
  · cases h

/-- A first reader whose value does not matter. -/
theorem Yields.after {f : α → Reader β} (hf : ∀ a, (f a).Yields Q) : (p >>= f).Yields Q :=
  (yields_true p).bind fun a _ => hf a

theorem yields_takeWhile (test : Char → Bool) :
    (takeWhile test).Yields fun cs => ∀ c ∈ cs, test c = true := by
  intro s cs rest h c hc
  cases h
  exact List.all_eq_true.1 List.all_takeWhile c hc

theorem yields_takeWhile1 (test : Char → Bool) :
    (takeWhile1 test).Yields fun cs => ∀ c ∈ cs, test c = true := by
  intro s cs rest h c hc
  unfold takeWhile1 at h
  split at h
  · cases h
  · next d ds hds =>
    cases h
    rw [← hds] at hc
    exact List.all_eq_true.1 List.all_takeWhile c hc

theorem Yields.commit (hp : p.Yields P) : (commit p).Yields P := by
  intro s a rest h
  unfold Reader.commit at h
  split at h
  · cases h
  · exact hp s a rest h

theorem Yields.expecting (cause : String) (hp : p.Yields P) : (expecting cause p).Yields P := by
  intro s a rest h
  unfold Reader.expecting at h
  split at h
  · next b middle hb =>
    cases h
    exact hp s a rest hb
  · cases h
  · cases h

theorem Yields.optional (hp : p.Yields P) : (optional p).Yields fun a? => ∀ a ∈ a?, P a := by
  intro s a? rest h a ha
  unfold Reader.optional at h
  split at h
  · next b middle hb =>
    cases h
    cases ha
    exact hp s a rest hb
  · cases h
    cases ha
  · cases h

/-! ### Recursion and repetition -/

theorem Yields.unroll {body : Reader α → Reader α} (h : ∀ q, q.Yields P → (body q).Yields P)
    (n : Nat) : (unroll body n).Yields P := by
  induction n with
  | zero =>
    refine h _ ?_
    intro s a rest hdeclined
    cases hdeclined
  | succ n ih => exact h _ ih

/-- A reader that calls itself yields what its body yields for every such reader. -/
theorem Yields.nest {body : Reader α → Reader α} (h : ∀ q, q.Yields P → (body q).Yields P) :
    (nest body).Yields P :=
  fun s => Yields.unroll h s.length s

/-- A value that has been read, in front of those that another reader reads. -/
theorem Yields.cons {a : α} {q : Reader (List α)} (ha : P a)
    (hq : q.Yields fun as => ∀ b ∈ as, P b) :
    (do return a :: (← q) : Reader (List α)).Yields fun as => ∀ b ∈ as, P b :=
  hq.bind fun _ hothers => .pure (List.forall_mem_cons.2 ⟨ha, hothers⟩)

theorem Yields.many (hp : p.Yields P) : (many p).Yields fun as => ∀ a ∈ as, P a := by
  refine .nest fun again hagain => ?_
  intro s as rest h
  unfold manyStep at h
  split at h
  · next a middle ha =>
    split at h
    · exact Yields.cons (hp s a middle ha) hagain middle as rest h
    · cases h
  · cases h
    exact List.forall_mem_nil _
  · cases h

theorem Yields.many1 (hp : p.Yields P) : (many1 p).Yields fun as => ∀ a ∈ as, P a := by
  intro s as rest h
  unfold Reader.many1 at h
  split at h
  · next a middle ha =>
    exact Yields.cons (hp s a middle ha) hp.many middle as rest h
  · cases h
  · cases h

end GraphQuery.Reader
