import Mathlib.Data.List.Nodup
import Mathlib.Order.Bounds.Basic
import GraphQuery.Proofs.Compilation.Result

/-!
# No variable is captured

A comprehension whose variable were bound around it already would match only the node that is bound
there. This file shows that it never happens. The compiler is run once more with a note of every
scope it creates and of the pattern variables around it; such a run has the same result, and every
scope in it binds exactly these variables, each once.

## Main definitions

* `Scope.Binds`: the scope binds the given pattern variables, each once, the innermost last.
* `Traced`, `Compilation.statementTraced`: the compiler with a note of its scopes.
* `Cypher.Statement.CaptureFree`: every comprehension binds a variable that is new there.

## Main results

* `Scope.isLeast_freshFrom`: the search for a free name stops at the least free number.
* `Scope.Binds.enter`: entering a scope with a fresh variable keeps the invariant.
* `Compilation.result_statementTraced`: noting the scopes does not change the result.
* `Compilation.sound_statementTraced`: every scope binds the pattern variables around it.
* `Compilation.statement_never_captures`: no run of the compiler captures a variable.
-/

namespace GraphQuery

/-! ### Free names -/

namespace Scope

variable {s : Scope} {base : String}

theorem isBound_iff {name : String} : s.isBound name = true ↔ name ∈ s.bound := by
  simp [isBound]

/-- The search stops at the least number, from where it begins, whose name is free. -/
theorem isLeast_freshFrom (s : Scope) (base : String) (n : Nat) :
    ∃ k, IsLeast {k | n ≤ k ∧ numbered base k ∉ s.bound} k ∧
      s.freshFrom base n = numbered base k := by
  fun_induction s.freshFrom base n with
  | case1 n htaken ih =>
    obtain ⟨k, ⟨⟨hnk, hfree⟩, hleast⟩, heq⟩ := ih
    refine ⟨k, ⟨⟨by omega, hfree⟩, ?_⟩, heq⟩
    rintro m ⟨hnm, hm⟩
    -- The name with number `n` is taken, so a free number is beyond it.
    have hne : m ≠ n := by
      rintro rfl
      exact hm (isBound_iff.1 htaken)
    exact hleast ⟨by omega, hm⟩
  | case2 n hfree =>
    exact ⟨n, ⟨⟨le_rfl, mt isBound_iff.2 hfree⟩, fun m hm => hm.1⟩, rfl⟩

theorem fresh_of_notMem (h : base ∉ s.bound) : s.fresh base = base := by
  simp [fresh, isBound, h]

theorem fresh_of_mem (h : base ∈ s.bound) :
    ∃ k, IsLeast {k | s.depth + 1 ≤ k ∧ numbered base k ∉ s.bound} k ∧
      s.fresh base = numbered base k := by
  rw [fresh, if_pos (isBound_iff.2 h)]
  exact isLeast_freshFrom s base _

/-- A new variable is none of those that are bound. -/
theorem fresh_notMem (s : Scope) (base : String) : s.fresh base ∉ s.bound := by
  by_cases h : base ∈ s.bound
  · obtain ⟨k, hleast, heq⟩ := fresh_of_mem h
    rw [heq]
    exact hleast.1.2
  · rwa [fresh_of_notMem h]

/-! ### What a scope binds -/

/-- The scope binds the pattern variables `patterns`, each once, and its own variable last. -/
structure Binds (s : Scope) (patterns : List String) : Prop where
  bound_eq : s.bound = patterns
  nodup : s.bound.Nodup
  length_eq : s.bound.length = s.depth
  getLast?_eq : s.bound.getLast? = some s.variableName

theorem Binds.root (variableName : String) (entity : ObjectType) :
    (Scope.root variableName entity).Binds [variableName] where
  bound_eq := rfl
  nodup := List.nodup_singleton _
  length_eq := rfl
  getLast?_eq := rfl

theorem enter_eq_ok_iff {limit : Nat} {name : String} {entity : ObjectType} {inner : Scope} :
    s.enter limit name entity = .ok inner ↔ s.depth + 1 ≤ limit ∧ inner =
      { variableName := name, entity, depth := s.depth + 1, bound := s.bound ++ [name] } := by
  simp only [enter]
  split_ifs with h
  · simp only [false_iff, not_and]
    intro hle
    omega
  · rw [Except.ok.injEq, eq_comm]
    exact (and_iff_right (Nat.not_lt.1 h)).symm

/-- Entering a scope with a fresh variable adds this variable to those that are bound. -/
theorem Binds.enter {patterns : List String} (h : s.Binds patterns) {limit : Nat}
    {entity : ObjectType} {inner : Scope}
    (hinner : s.enter limit (s.fresh base) entity = .ok inner) :
    inner.Binds (patterns ++ [s.fresh base]) := by
  obtain ⟨-, rfl⟩ := enter_eq_ok_iff.1 hinner
  refine ⟨by simp [h.bound_eq], ?_, by simp [h.length_eq], by simp⟩
  -- No name is bound twice, because the new one is not bound yet.
  have hdisjoint : ∀ name ∈ s.bound, name ≠ s.fresh base := by
    rintro name hname rfl
    exact fresh_notMem s base hname
  exact List.nodup_append.2 ⟨h.nodup, List.nodup_singleton _, by simpa using hdisjoint⟩

end Scope

/-! ### Runs that note their scopes -/

/-- A scope that was created, with the variables of the patterns around it, outermost first. -/
structure Visit where
  patterns : List String
  scope : Scope

/-- A result or an error, with the scopes created on the way to it. -/
structure Traced (α : Type) where
  visits : List Visit
  result : Except CompileError α

namespace Traced

variable {α β : Type}

/-- A result that creates no scope. -/
def ofExcept (result : Except CompileError α) : Traced α := ⟨[], result⟩

/-- Note a scope. -/
def visit (patterns : List String) (scope : Scope) : Traced Unit := ⟨[⟨patterns, scope⟩], .ok ()⟩

/-- Go on with a result; the scopes of both parts are kept. -/
protected def bind (x : Traced α) (f : α → Traced β) : Traced β :=
  match x.result with
  | .ok a => ⟨x.visits ++ (f a).visits, (f a).result⟩
  | .error e => ⟨x.visits, .error e⟩

instance : Monad Traced where
  pure a := ⟨[], .ok a⟩
  bind := Traced.bind

@[simp] theorem result_pure (a : α) : (pure a : Traced α).result = .ok a := rfl

@[simp] theorem result_ofExcept (r : Except CompileError α) : (ofExcept r).result = r := rfl

@[simp] theorem result_visit (patterns : List String) (scope : Scope) :
    (visit patterns scope).result = .ok () := rfl

theorem result_bind (x : Traced α) (f : α → Traced β) :
    (x >>= f).result = x.result.bind fun a => (f a).result := by
  change (Traced.bind x f).result = _
  unfold Traced.bind
  cases x.result <;> rfl

/-- Every scope that was created binds the variables of the patterns around it. -/
def Sound (x : Traced α) : Prop := ∀ v ∈ x.visits, v.scope.Binds v.patterns

theorem Sound.pure (a : α) : (pure a : Traced α).Sound := by
  rintro v ⟨⟩

theorem Sound.ofExcept (r : Except CompileError α) : (Traced.ofExcept r).Sound := by
  rintro v ⟨⟩

theorem Sound.visit {patterns : List String} {scope : Scope} (h : scope.Binds patterns) :
    (Traced.visit patterns scope).Sound := by
  intro v hv
  obtain rfl : v = ⟨patterns, scope⟩ := by simpa [Traced.visit] using hv
  exact h

/-- A sequence is sound if its parts are, the second for the result that the first one has. -/
theorem Sound.bind {x : Traced α} {f : α → Traced β} (hx : x.Sound)
    (hf : ∀ a, x.result = .ok a → (f a).Sound) : (x >>= f).Sound := by
  change (Traced.bind x f).Sound
  unfold Traced.bind
  cases hresult : x.result with
  | error e => exact hx
  | ok a =>
    intro v hv
    rcases List.mem_append.1 hv with hv | hv
    · exact hx v hv
    · exact hf a hresult v hv

end Traced

namespace Compilation

open Cypher

mutual

/-- The entry of a selection, with a note of every scope that is created. -/
def entryTraced (schema : Schema) (settings : Settings) (patterns : List String) (scope : Scope) :
    Selection → Traced Entry
  | ⟨aliasName, name, arguments, selections⟩ =>
    let s : Selection := ⟨aliasName, name, arguments, selections⟩
    match scope.entity.field? name with
    | none => .ofExcept (.error (.unknownField scope.entity.name name))
    | some field =>
      if field.relation?.isNone then .ofExcept (property scope field s).result
      else if selections.isEmpty then
        .ofExcept (.error (.missingSelection scope.entity.name field.name))
      else do
        let (relation, target) ← .ofExcept (hop schema scope field)
        let bound := scope.fresh (s.key ++ target.name)
        let inner ← .ofExcept (scope.enter settings.maxDepth bound target)
        Traced.visit (patterns ++ [bound]) inner
        let filters ← .ofExcept (Filter.ofSelection schema settings bound field target s).result
        let page ← .ofExcept (Paging.ofSelection settings field s)
        let map ← entriesTraced schema settings (patterns ++ [bound]) inner selections
        return .related s.key (.mk
          { source := scope.variableName, relation, bound, label := target.name }
          filters map (kept field page))

/-- The entries of some selections, with a note of every scope that is created. -/
def entriesTraced (schema : Schema) (settings : Settings) (patterns : List String)
    (scope : Scope) : List Selection → Traced (List Entry)
  | [] => return []
  | s :: ss => do
    let first ← entryTraced schema settings patterns scope s
    let others ← entriesTraced schema settings patterns scope ss
    return first :: others

end

/-- The statement of a root selection, with a note of every scope that is created. -/
def statementTraced (schema : Schema) (settings : Settings) (s : Selection) :
    Traced Statement := do
  let (field, target) ← .ofExcept (entryPoint schema s)
  Traced.visit [s.key] (Scope.root s.key target)
  let filters ← .ofExcept (Filter.ofSelection schema settings s.key field target s).result
  let page ← .ofExcept (Paging.ofSelection settings field s)
  let map ← entriesTraced schema settings [s.key] (Scope.root s.key target) s.selections
  return { bound := s.key, label := target.name, filters, entries := map, page }

variable {schema : Schema} {settings : Settings}

theorem result_entriesTraced {patterns : List String} {scope : Scope} {ss : List Selection}
    (h : ∀ s ∈ ss, (entryTraced schema settings patterns scope s).result =
      (entry schema settings scope s).result) :
    (entriesTraced schema settings patterns scope ss).result =
      (entries schema settings scope ss).result := by
  rw [result_entries]
  induction ss with
  | nil => rw [entriesTraced]; rfl
  | cons s ss ih =>
    have hfirst := h s List.mem_cons_self
    have hothers := ih fun t ht => h t (List.mem_cons_of_mem s ht)
    simp only [entriesTraced, List.mapM_cons, Traced.result_bind, Traced.result_pure, hfirst,
      hothers]
    rfl

/-- Noting the scopes does not change the entry that is compiled. -/
theorem result_entryTraced (s : Selection) (patterns : List String) (scope : Scope) :
    (entryTraced schema settings patterns scope s).result =
      (entry schema settings scope s).result := by
  induction s using Selection.inductionOn generalizing patterns scope with
  | step s ih =>
    -- Both runs go down with the same scope; the patterns are only noted.
    have hbelow : ∀ patterns scope,
        (entriesTraced schema settings patterns scope s.selections).result =
          (entries schema settings scope s.selections).result :=
      fun _ _ => result_entriesTraced fun t ht => ih t ht _ _
    rw [result_entry]
    obtain ⟨aliasName, name, arguments, selections⟩ := s
    rw [entryTraced]
    cases scope.entity.field? name with
    | none => rfl
    | some field =>
      simp only
      split_ifs
      · rfl
      · rfl
      · simp only [Traced.result_bind, Traced.result_ofExcept, Traced.result_visit,
          Traced.result_pure, hbelow]
        rfl

theorem result_statementTraced (s : Selection) :
    (statementTraced schema settings s).result = (statement schema settings s).result := by
  rw [result_statement]
  simp only [statementTraced, Traced.result_bind, Traced.result_ofExcept, Traced.result_visit,
    Traced.result_pure, result_entriesTraced fun t _ => result_entryTraced t _ _]
  rfl

/-! ### The scopes of a run -/

theorem sound_entriesTraced {patterns : List String} {scope : Scope} {ss : List Selection}
    (h : ∀ s ∈ ss, (entryTraced schema settings patterns scope s).Sound) :
    (entriesTraced schema settings patterns scope ss).Sound := by
  induction ss with
  | nil => rw [entriesTraced]; exact .pure _
  | cons s ss ih =>
    rw [entriesTraced]
    refine .bind (h s List.mem_cons_self) fun first _ => ?_
    exact .bind (ih fun t ht => h t (List.mem_cons_of_mem s ht)) fun others _ => .pure _

/-- Below a scope that binds its pattern variables, so does every scope that is created. -/
theorem sound_entryTraced (s : Selection) {patterns : List String} {scope : Scope}
    (h : scope.Binds patterns) : (entryTraced schema settings patterns scope s).Sound := by
  induction s using Selection.inductionOn generalizing patterns scope with
  | step s ih =>
    obtain ⟨aliasName, name, arguments, selections⟩ := s
    rw [entryTraced]
    cases scope.entity.field? name with
    | none => exact .ofExcept _
    | some field =>
      simp only
      split_ifs
      · exact .ofExcept _
      · exact .ofExcept _
      · refine .bind (.ofExcept _) fun ⟨relation, target⟩ _ => ?_
        refine .bind (.ofExcept _) fun inner hinner => ?_
        -- The only scope that is created here is the inner one; it carries the invariant down.
        have hbinds := h.enter hinner
        refine .bind (.visit hbinds) fun _ _ => ?_
        refine .bind (.ofExcept _) fun filters _ => ?_
        refine .bind (.ofExcept _) fun page _ => ?_
        refine .bind (sound_entriesTraced fun t ht => ih t ht hbinds) fun map _ => ?_
        exact .pure _

theorem sound_statementTraced (s : Selection) : (statementTraced schema settings s).Sound := by
  rw [statementTraced]
  refine .bind (.ofExcept _) fun ⟨field, target⟩ _ => ?_
  have hbinds := Scope.Binds.root s.key target
  refine .bind (.visit hbinds) fun _ _ => ?_
  refine .bind (.ofExcept _) fun filters _ => ?_
  refine .bind (.ofExcept _) fun page _ => ?_
  refine .bind (sound_entriesTraced fun t _ => sound_entryTraced t hbinds) fun map _ => ?_
  exact .pure _

end Compilation

/-! ### The statement that is compiled -/

namespace Cypher

mutual

/-- Every comprehension in an entry binds a variable that none of the patterns around it has. -/
def Entry.CaptureFree (outer : List String) : Entry → Prop
  | .property _ => True
  | .related _ nodes => nodes.CaptureFree outer

/-- The variable of a comprehension is new, and so are those of the comprehensions inside it. -/
def Comprehension.CaptureFree (outer : List String) : Comprehension → Prop
  | .mk pattern _ entries _ =>
    pattern.bound ∉ outer ∧ Entry.AllCaptureFree (outer ++ [pattern.bound]) entries

/-- Every comprehension in some entries binds a new variable. -/
def Entry.AllCaptureFree (outer : List String) : List Entry → Prop
  | [] => True
  | e :: es => e.CaptureFree outer ∧ Entry.AllCaptureFree outer es

end

theorem Entry.allCaptureFree_iff {outer : List String} {es : List Entry} :
    Entry.AllCaptureFree outer es ↔ ∀ e ∈ es, e.CaptureFree outer := by
  induction es with
  | nil => simp [Entry.AllCaptureFree]
  | cons e es ih => simp [Entry.AllCaptureFree, ih]

/-- No comprehension of the statement binds the variable of the match or of a comprehension around
it again. -/
def Statement.CaptureFree (stmt : Statement) : Prop :=
  Entry.AllCaptureFree [stmt.bound] stmt.entries

end Cypher

namespace Compilation

open Cypher

variable {schema : Schema} {settings : Settings}

theorem captureFree_of_forall₂ {scope : Scope} {patterns : List String} {ss : List Selection}
    {es : List Entry}
    (hall : List.Forall₂ (fun s e => (entry schema settings scope s).result = .ok e) ss es)
    (h : ∀ s ∈ ss, ∀ e, (entry schema settings scope s).result = .ok e → e.CaptureFree patterns) :
    Entry.AllCaptureFree patterns es := by
  rw [Entry.allCaptureFree_iff]
  intro e he
  obtain ⟨s, hs, hse⟩ := exists_left_of_mem hall he
  exact h s hs e hse

theorem captureFree_entry (s : Selection) {scope : Scope} {patterns : List String} {e : Entry}
    (hscope : scope.Binds patterns) (h : (entry schema settings scope s).result = .ok e) :
    e.CaptureFree patterns := by
  induction s using Selection.inductionOn generalizing scope patterns e with
  | step s ih =>
    cases entry_eq_ok_iff.1 h with
    | property => exact trivial
    | @related field relation name target inner filters page map _ _ _ _ _ hinner _ _ hmap =>
      -- The scope binds exactly the patterns around it, so what is new to it is new to them.
      have hnew := Scope.fresh_notMem scope (s.key ++ target.name)
      rw [hscope.bound_eq] at hnew
      refine ⟨hnew, captureFree_of_forall₂ hmap fun t ht e he => ?_⟩
      exact ih t ht (hscope.enter hinner) he

theorem captureFree_statement {s : Selection} {stmt : Statement}
    (h : (statement schema settings s).result = .ok stmt) : stmt.CaptureFree := by
  obtain ⟨-, -, -, -, -, -, hmap⟩ := statement_eq_ok_iff.1 h
  exact captureFree_of_forall₂ hmap fun t _ e he => captureFree_entry t (.root _ _) he

/-- Whatever is selected, no run captures a variable. It can be followed with a note of its scopes,
each of which binds the variables of the patterns around it and no name twice; the comprehensions of
the statement bind new variables; and a new variable is the wanted name if that is free, and
otherwise this name with the least number, from the new depth on, that makes it free. -/
theorem statement_never_captures (schema : Schema) (settings : Settings) (s : Selection) :
    (statementTraced schema settings s).result = (statement schema settings s).result ∧
    (∀ v ∈ (statementTraced schema settings s).visits, v.scope.Binds v.patterns) ∧
    (∀ stmt, (statement schema settings s).result = .ok stmt → stmt.CaptureFree) ∧
    ∀ (scope : Scope) (base : String),
      (base ∉ scope.bound → scope.fresh base = base) ∧
      (base ∈ scope.bound → ∃ k,
        IsLeast {k | scope.depth + 1 ≤ k ∧ base ++ toString k ∉ scope.bound} k ∧
          scope.fresh base = base ++ toString k) := by
  refine ⟨result_statementTraced s, ?_, ?_, ?_⟩
  · exact sound_statementTraced s
  · intro stmt h
    exact captureFree_statement h
  · intro scope base
    exact ⟨Scope.fresh_of_notMem, Scope.fresh_of_mem⟩

/-- People who know one another. -/
def acquaintances : Schema where
  root := ⟨"Query", [⟨"people", .list (.entity "Person"), none, []⟩]⟩
  types := [⟨"Person", [⟨"name", .scalar .string, none, []⟩,
    ⟨"friends", .list (.entity "Person"), some ⟨"KNOWS", .outgoing⟩, []⟩]⟩]
  enums := []

/-- The alias of the root is the very name that the variable below it would have. -/
def aliasedFriends : Selection :=
  ⟨some "friendsPerson", "people", [], [⟨none, "friends", [], [⟨none, "name", [], []⟩]⟩]⟩

/-- The variable below the root gets a number. Two scopes are created on the way, and the inner one
binds both variables. -/
theorem statement_never_captures_friends :
    ∃ stmt,
      (statement acquaintances {} aliasedFriends).result = .ok stmt ∧
      (statementTraced acquaintances {} aliasedFriends).result = .ok stmt ∧
      stmt.text = "MATCH (friendsPerson:Person) RETURN friendsPerson \x7bfriends:" ++
        "[(friendsPerson)-[:KNOWS]->(friendsPerson2:Person) | friendsPerson2 \x7b.name\x7d]\x7d" ∧
      stmt.CaptureFree ∧
      ((statementTraced acquaintances {} aliasedFriends).visits.map fun v =>
        (v.patterns, v.scope.variableName, v.scope.depth, v.scope.bound)) =
        [(["friendsPerson"], "friendsPerson", 1, ["friendsPerson"]),
          (["friendsPerson", "friendsPerson2"], "friendsPerson2", 2,
            ["friendsPerson", "friendsPerson2"])] ∧
      ∀ v ∈ (statementTraced acquaintances {} aliasedFriends).visits, v.scope.Binds v.patterns := by
  have hsome : (statement acquaintances {} aliasedFriends).result.toOption.map (·.text) =
      some ("MATCH (friendsPerson:Person) RETURN friendsPerson \x7bfriends:" ++
        "[(friendsPerson)-[:KNOWS]->(friendsPerson2:Person) | friendsPerson2 \x7b.name\x7d]\x7d")
      := by
    decide +kernel
  have hvisits : ((statementTraced acquaintances {} aliasedFriends).visits.map fun v =>
      (v.patterns, v.scope.variableName, v.scope.depth, v.scope.bound)) =
      [(["friendsPerson"], "friendsPerson", 1, ["friendsPerson"]),
        (["friendsPerson", "friendsPerson2"], "friendsPerson2", 2,
          ["friendsPerson", "friendsPerson2"])] := by
    decide +kernel
  obtain ⟨stmt, hstmt, htext⟩ := Option.map_eq_some_iff.1 hsome
  have hok := toOption_eq_some_iff.1 hstmt
  obtain ⟨hresult, hbinds, hfree, -⟩ := statement_never_captures acquaintances {} aliasedFriends
  exact ⟨stmt, hok, hresult.trans hok, htext, hfree stmt hok, hvisits, hbinds⟩

end Compilation

end GraphQuery
