import Mathlib.Data.List.TakeWhile
import GraphQuery.Reader.Basic

/-!
# Outcomes of readers

When a reader reads a value, and when it declines, said for each way of combining readers in terms
of the parts. Facts about what can be read and about what is read both rest on these equivalences.

## Main definitions

* `Reader.Declines`: the reader leaves room for an alternative.

## Main results

* `Reader.bind_eq_done_iff`, `Reader.takeWhile1_eq_done_iff`, `Reader.optional_eq_done_iff`: when a
  value is read.
* `Reader.Declines.bind`, `Reader.declines_satisfy_iff`: when a reader declines.
-/

namespace GraphQuery.Reader

variable {α β : Type} {p : Reader α} {s rest : List Char} {a : α}

/-- The reader declines the text, whatever the trail. -/
def Declines (p : Reader α) (s : List Char) : Prop := ∃ trail, p s = .declined trail

/-! ### Sequences -/

theorem pure_eq_done_iff {b : α} : (pure a : Reader α) s = .done b rest ↔ a = b ∧ s = rest := by
  change Reading.done a s = .done b rest ↔ _
  rw [Reading.done.injEq]

theorem bind_eq_done_iff {f : α → Reader β} {b : β} :
    (p >>= f) s = .done b rest ↔ ∃ a middle, p s = .done a middle ∧ f a middle = .done b rest := by
  change Reader.bind p f s = _ ↔ _
  unfold Reader.bind
  cases p s with
  | done a middle =>
    constructor
    · exact fun h => ⟨a, middle, rfl, h⟩
    · rintro ⟨_, _, ⟨⟩, h⟩
      exact h
  | declined trail => simp
  | refused trail => simp

theorem Declines.bind (h : Declines p s) (f : α → Reader β) : Declines (p >>= f) s := by
  obtain ⟨trail, htrail⟩ := h
  refine ⟨trail, ?_⟩
  change Reader.bind p f s = _
  rw [Reader.bind, htrail]

theorem declines_bind_of_done {f : α → Reader β} {middle : List Char} (h : p s = .done a middle)
    (hf : Declines (f a) middle) : Declines (p >>= f) s := by
  obtain ⟨trail, htrail⟩ := hf
  refine ⟨trail, ?_⟩
  change Reader.bind p f s = _
  rw [Reader.bind, h]
  exact htrail

/-! ### Characters -/

section Characters

variable {test : Char → Bool} {c : Char}

theorem satisfy_eq_done_iff : satisfy test s = .done c rest ↔ s = c :: rest ∧ test c = true := by
  cases s with
  | nil => simp [satisfy]
  | cons d s =>
    simp only [satisfy]
    split_ifs with hd
    · simp only [Reading.done.injEq, List.cons.injEq]
      constructor
      · rintro ⟨rfl, rfl⟩
        exact ⟨⟨rfl, rfl⟩, hd⟩
      · rintro ⟨heq, -⟩
        exact heq
    · simp only [List.cons.injEq, false_iff, not_and]
      rintro ⟨rfl, rfl⟩
      exact hd

theorem declines_satisfy_iff : Declines (satisfy test) s ↔ ∀ c ∈ s.head?, test c = false := by
  cases s with
  | nil => simp [Declines, satisfy]
  | cons d s =>
    simp only [Declines, satisfy]
    split_ifs with hd <;> simp [hd]

theorem char_eq_done_iff {d : Char} : char c s = .done d rest ↔ d = c ∧ s = c :: rest := by
  rw [char, satisfy_eq_done_iff, beq_iff_eq]
  constructor
  · rintro ⟨rfl, rfl⟩
    exact ⟨rfl, rfl⟩
  · rintro ⟨rfl, rfl⟩
    exact ⟨rfl, rfl⟩

theorem declines_char_iff : Declines (char c) s ↔ s.head? ≠ some c := by
  rw [char, declines_satisfy_iff]
  cases s with
  | nil => simp
  | cons d s => simp

/-- A run of characters is as long as possible. -/
theorem takeWhile_append_eq {cs : List Char} (hcs : ∀ c ∈ cs, test c = true)
    (hrest : ∀ c ∈ rest.head?, test c = false) :
    (cs ++ rest).takeWhile test = cs ∧ (cs ++ rest).dropWhile test = rest := by
  rw [List.takeWhile_append_of_pos hcs, List.dropWhile_append_of_pos hcs]
  cases rest with
  | nil => simp
  | cons c rest => simp [hrest c rfl]

theorem head?_dropWhile_eq_false (test : Char → Bool) (s : List Char) :
    ∀ c ∈ (s.dropWhile test).head?, test c = false := by
  intro c hc
  have hne : s.dropWhile test ≠ [] := by
    rintro hnil
    rw [hnil] at hc
    cases hc
  rw [List.head?_eq_some_head hne] at hc
  cases hc
  exact List.head_dropWhile_not test hne

theorem takeWhile1_eq_done_iff {cs : List Char} :
    takeWhile1 test s = .done cs rest ↔ cs ≠ [] ∧ (∀ c ∈ cs, test c = true) ∧ s = cs ++ rest ∧
      ∀ c ∈ rest.head?, test c = false := by
  constructor
  · intro h
    unfold takeWhile1 at h
    split at h
    · cases h
    · next c cs' htake =>
      cases h
      refine ⟨List.cons_ne_nil c cs', ?_, ?_, head?_dropWhile_eq_false test s⟩
      · rw [← htake]
        exact fun d hd => List.all_eq_true.1 List.all_takeWhile d hd
      · rw [← htake, List.takeWhile_append_dropWhile]
  · rintro ⟨hne, hcs, rfl, hrest⟩
    obtain ⟨htake, hdrop⟩ := takeWhile_append_eq hcs hrest
    obtain ⟨c, cs, rfl⟩ := List.exists_cons_of_ne_nil hne
    rw [takeWhile1, htake, hdrop]

theorem declines_takeWhile1_iff :
    Declines (takeWhile1 test) s ↔ ∀ c ∈ s.head?, test c = false := by
  cases s with
  | nil => simp [Declines, takeWhile1]
  | cons c s =>
    cases hc : test c <;> simp [Declines, takeWhile1, hc]

theorem literal_eq_done_iff {word : List Char} {u : Unit} :
    literal word s = .done u rest ↔ s = word ++ rest := by
  unfold literal
  split_ifs with h
  · obtain ⟨rest', rfl⟩ := List.isPrefixOf_iff_prefix.1 h
    simp
  · simp only [false_iff]
    rintro rfl
    exact h (List.isPrefixOf_iff_prefix.2 (List.prefix_append word rest))

theorem declines_literal_iff {word : List Char} : Declines (literal word) s ↔ ¬ word <+: s := by
  unfold Declines literal
  rw [← List.isPrefixOf_iff_prefix]
  split_ifs with h <;> simp [h]

end Characters

/-! ### Commitment and choice -/

theorem filter_eq_done_iff {test : α → Bool} :
    filter p test s = .done a rest ↔ p s = .done a rest ∧ test a = true := by
  unfold filter
  cases hp : p s with
  | done b middle =>
    simp only [Reading.done.injEq]
    split_ifs with hb
    · simp only [Reading.done.injEq]
      constructor
      · rintro ⟨rfl, rfl⟩
        exact ⟨⟨rfl, rfl⟩, hb⟩
      · exact fun h => h.1
    · simp only [false_iff, not_and]
      rintro ⟨rfl, rfl⟩
      exact hb
  | declined => simp
  | refused => simp

theorem commit_eq_done_iff : commit p s = .done a rest ↔ p s = .done a rest := by
  unfold commit
  cases p s <;> simp

theorem expecting_eq_done_iff {cause : String} :
    expecting cause p s = .done a rest ↔ p s = .done a rest := by
  unfold expecting
  cases p s <;> simp

theorem optional_eq_done_iff {a? : Option α} :
    optional p s = .done a? rest ↔
      (∃ a, a? = some a ∧ p s = .done a rest) ∨ (a? = none ∧ rest = s ∧ Declines p s) := by
  unfold optional Declines
  cases p s with
  | done b middle =>
    simp only [Reading.done.injEq, reduceCtorEq, exists_false, and_false, or_false]
    constructor
    · rintro ⟨rfl, rfl⟩
      exact ⟨b, rfl, rfl, rfl⟩
    · rintro ⟨a, rfl, rfl, rfl⟩
      exact ⟨rfl, rfl⟩
  | declined trail => simp [eq_comm]
  | refused trail => simp

theorem exists_of_oneOfFrom {last : Trail} {ps : List (Reader α)}
    (h : oneOfFrom last ps s = .done a rest) : ∃ p ∈ ps, p s = .done a rest := by
  induction ps generalizing last with
  | nil => cases h
  | cons p ps ih =>
    rw [oneOfFrom] at h
    split at h
    · obtain ⟨q, hq, hdone⟩ := ih h
      exact ⟨q, List.mem_cons_of_mem p hq, hdone⟩
    · exact ⟨p, List.mem_cons_self, h⟩

theorem oneOfFrom_cons_of_done {last : Trail} {ps : List (Reader α)} (h : p s = .done a rest) :
    oneOfFrom last (p :: ps) s = .done a rest := by
  rw [oneOfFrom, h]

theorem oneOfFrom_cons_of_declines {last : Trail} {ps : List (Reader α)} (h : Declines p s) :
    ∃ trail, oneOfFrom last (p :: ps) s = oneOfFrom trail ps s := by
  obtain ⟨trail, htrail⟩ := h
  exact ⟨trail, by rw [oneOfFrom, htrail]⟩

theorem declines_oneOfFrom {last : Trail} {ps : List (Reader α)} (h : ∀ p ∈ ps, Declines p s) :
    Declines (oneOfFrom last ps) s := by
  induction ps generalizing last with
  | nil => exact ⟨_, rfl⟩
  | cons p ps ih =>
    obtain ⟨hp, hps⟩ := List.forall_mem_cons.1 h
    obtain ⟨trail, htrail⟩ := hp
    rw [Declines, oneOfFrom, htrail]
    exact ih hps

theorem many1_of_many {a : α} {as : List α} (h : many p s = .done (a :: as) rest) :
    many1 p s = .done (a :: as) rest := by
  rw [many_eq, manyStep] at h
  unfold many1
  split at h
  · next a' middle hp =>
    split_ifs at h
    obtain ⟨as', _, hmany, heq⟩ := bind_eq_done_iff.1 h
    obtain ⟨heq, rfl⟩ := pure_eq_done_iff.1 heq
    cases heq
    exact bind_eq_done_iff.2 ⟨as, _, hmany, pure_eq_done_iff.2 ⟨rfl, rfl⟩⟩
  · cases h
  · cases h

end GraphQuery.Reader
