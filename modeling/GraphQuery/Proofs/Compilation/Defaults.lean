import GraphQuery.Proofs.Compilation.Injection
import GraphQuery.Proofs.Compilation.Validity
import GraphQuery.Proofs.Schema.Consistency

/-!
# Defaults that fail later

Loading a schema tries every default at the kind of its argument, which is what a filter does with
it. A page bound is not taken at a kind: it has to be a number that is not negative, whatever kind
the argument declares. A default of a page argument can therefore pass the check and still make
every selection fail that relies on it.

This is the only way in which a default can fail. Where a selection supplies no arguments, a
mismatch always names a page argument whose default is no page bound.

## Main definitions

* `FailsWith`: the errors of a computation satisfy a predicate.
* `Selection.ArgumentFree`: no arguments are supplied at any level.
* `CompileError.BlamesDefault`: the error names the default of a page argument.

## Main results

* `Compilation.failsWith_entry`, `Compilation.failsWith_statement`: mismatches blame defaults.
* `Compilation.mismatch_blames_default`: the same for a schema that loads.
* `Compilation.mismatch_of_loaded_default`: a schema that loads can have such a default.
-/

namespace GraphQuery

/-! ### Failing computations -/

section Failures

variable {ε α β : Type}

/-- If the computation fails, its error satisfies a predicate. -/
def FailsWith (P : ε → Prop) (x : Except ε α) : Prop := ∀ e, x = .error e → P e

namespace FailsWith

variable {P : ε → Prop} {x : Except ε α}

theorem of_exists_ok (h : ∃ a, x = .ok a) : FailsWith P x := by
  obtain ⟨a, rfl⟩ := h
  intro e he
  cases he

theorem error {e : ε} (h : P e) : FailsWith P (.error e : Except ε α) := by
  intro e' he
  cases he
  exact h

theorem bind {f : α → Except ε β} (hx : FailsWith P x)
    (hf : ∀ a, x = .ok a → FailsWith P (f a)) : FailsWith P (x.bind f) := by
  cases x with
  | error e => exact error (hx e rfl)
  | ok a => exact hf a rfl

theorem mapM {f : α → Except ε β} {as : List α} (h : ∀ a ∈ as, FailsWith P (f a)) :
    FailsWith P (as.mapM f) := by
  induction as with
  | nil => exact of_exists_ok ⟨[], rfl⟩
  | cons a as ih =>
    rw [List.mapM_cons]
    refine bind (h a List.mem_cons_self) fun b _ => ?_
    refine bind (ih fun a' ha' => h a' (List.mem_cons_of_mem a ha')) fun bs _ => ?_
    exact of_exists_ok ⟨b :: bs, rfl⟩

end FailsWith

end Failures

/-! ### Selections without arguments -/

/-- No arguments are supplied, neither for the selection nor for those below it. -/
inductive Selection.ArgumentFree : Selection → Prop
  | intro {s : Selection} (arguments : s.arguments = [])
    (below : ∀ t ∈ s.selections, t.ArgumentFree) : ArgumentFree s

namespace Selection.ArgumentFree

variable {s : Selection}

theorem arguments_eq (h : s.ArgumentFree) : s.arguments = [] := by
  cases h with
  | intro arguments _ => exact arguments

theorem of_mem (h : s.ArgumentFree) {t : Selection} (ht : t ∈ s.selections) : t.ArgumentFree := by
  cases h with
  | intro _ below => exact below t ht

theorem argument? (h : s.ArgumentFree) (name : String) : s.argument? name = none := by
  rw [Selection.argument?, h.arguments_eq]
  rfl

end Selection.ArgumentFree

/-! ### Blame -/

/-- The error says that the default of a page argument is no page bound. -/
inductive CompileError.BlamesDefault (schema : Schema) (settings : Settings) : CompileError → Prop
  | intro {t : ObjectType} {f : Field} {a : ArgumentDeclaration} {v : Value}
    (ht : t ∈ schema.root :: schema.types) (hf : f ∈ t.fields) (ha : a ∈ f.arguments)
    (hpage : settings.isPageArgument a.name = true) (hdefault : a.default? = some v)
    (hv : ¬ v.IsPageBound) :
    BlamesDefault schema settings (.typeMismatch .pageBound (some ⟨f.name, a.name⟩) v)

/-- If the error is a mismatch, it blames a default. -/
def CompileError.Accounted (schema : Schema) (settings : Settings) (e : CompileError) : Prop :=
  e.variant = .typeMismatch → e.BlamesDefault schema settings

section Arguments

variable {schema : Schema} {settings : Settings} {field : Field} {target type : ObjectType}
  {s : Selection}

theorem Paging.ofValue_eq_error {place : ArgumentPlace} {v : Value} {e : CompileError}
    (h : ofValue place v = .error e) :
    ¬ v.IsPageBound ∧ e = .typeMismatch .pageBound (some place) v := by
  unfold ofValue at h
  split at h
  · cases h
  · cases h
  · split_ifs at h with hn
    cases h
    refine ⟨?_, rfl⟩
    rintro ⟨⟩
    exact hn ‹_›
  · next hnull hvar hint =>
    cases h
    refine ⟨?_, rfl⟩
    rintro ⟨⟩
    · exact hnull rfl
    · exact hvar _ rfl
    · exact hint _ rfl

theorem Paging.failsWith_bound? (hs : s.ArgumentFree) (ht : type ∈ schema.root :: schema.types)
    (hf : field ∈ type.fields) {name : String} (hname : settings.isPageArgument name = true) :
    FailsWith (CompileError.Accounted schema settings) (bound? name field s) := by
  intro e he _
  rw [bound?, value?, hs.argument?, Option.none_or] at he
  cases hfind : field.argument? name with
  | none => simp [hfind] at he
  | some a =>
    have hmem : a ∈ field.arguments := List.mem_of_find?_eq_some hfind
    obtain rfl : a.name = name := by simpa using List.find?_some hfind
    rw [hfind, Option.bind_some] at he
    cases hdefault : a.default? with
    | none => simp [hdefault] at he
    | some v =>
      rw [hdefault] at he
      obtain ⟨hv, rfl⟩ := ofValue_eq_error he
      exact .intro ht hf hmem hname hdefault hv

theorem Paging.failsWith_ofSelection (hs : s.ArgumentFree)
    (ht : type ∈ schema.root :: schema.types) (hf : field ∈ type.fields) :
    FailsWith (CompileError.Accounted schema settings) (ofSelection settings field s) := by
  refine .bind (failsWith_bound? hs ht hf (by simp [Settings.isPageArgument])) fun _ _ => ?_
  refine .bind (failsWith_bound? hs ht hf (by simp [Settings.isPageArgument])) fun _ _ => ?_
  exact .of_exists_ok ⟨_, rfl⟩

/-- Filters never fail on a default that passes its check. -/
theorem Filter.exists_ofSelection_of_argumentFree (hnodup : (target.fields.map (·.name)).Nodup)
    (hdefaults : ∀ a ∈ field.arguments, ∀ v ∈ a.default?, schema.Admits a.kind v)
    (hs : s.ArgumentFree) (bound : String) :
    ∃ filters, (ofSelection schema settings bound field target s).result = .ok filters := by
  rw [exists_ofSelection_iff, hs.arguments_eq]
  refine ⟨fun a ha => absurd ha List.not_mem_nil, fun c hc v hv => ?_⟩
  rw [Candidate.value?, hs.argument?, Option.none_or] at hv
  rcases (Candidate.mem_all_iff hnodup).1 hc with ⟨a, ha, -, rfl⟩ | ⟨-, p, -, -, -, -, rfl⟩
  · exact hdefaults a ha v hv
  · cases hv

end Arguments

/-! ### Entries and statements -/

namespace Compilation

variable {schema : Schema} {settings : Settings} {scope : Scope} {s : Selection}

/-- Looking up what a field leads to fails with no mismatch. -/
theorem failsWith_hop (field : Field) :
    FailsWith (CompileError.Accounted schema settings) (hop schema scope field) := by
  intro e he hvariant
  simp only [hop] at he
  split at he
  · split at he
    · split at he
      · cases he
      · cases he
        cases hvariant
    · cases he
      cases hvariant
  · cases he
    cases hvariant

theorem failsWith_entryPoint :
    FailsWith (CompileError.Accounted schema settings) (entryPoint schema s) := by
  intro e he hvariant
  simp only [entryPoint, Bind.bind, Except.bind] at he
  split at he
  · split at he
    · split at he
      · split_ifs at he
        · cases he
          cases hvariant
        · cases he
      · cases he
        cases hvariant
    · cases he
      cases hvariant
  · cases he
    cases hvariant

theorem failsWith_property (field : Field) :
    FailsWith (CompileError.Accounted schema settings) (property scope field s).result := by
  rw [result_property]
  split_ifs
  · exact .of_exists_ok ⟨_, rfl⟩
  · exact .error fun hvariant => by cases hvariant

/-- Where defaults pass their check and no arguments are supplied, a mismatch below a node blames
the default of a page argument. -/
theorem failsWith_entry (hwell : schema.WellFormed)
    (hdefaults : ∀ t ∈ schema.types, ∀ f ∈ t.fields, ∀ a ∈ f.arguments, ∀ v ∈ a.default?,
      schema.Admits a.kind v)
    (hs : s.ArgumentFree) (hentity : scope.entity ∈ schema.types) :
    FailsWith (CompileError.Accounted schema settings) (entry schema settings scope s).result := by
  induction s using Selection.inductionOn generalizing scope with
  | step s ih =>
    rw [result_entry]
    cases hfield : scope.entity.field? s.name with
    | none => exact .error fun hvariant => by cases hvariant
    | some field =>
      have hmem : field ∈ scope.entity.fields := List.mem_of_find?_eq_some hfield
      simp only
      split_ifs
      · exact failsWith_property field
      · exact .error fun hvariant => by cases hvariant
      · refine .bind (failsWith_hop field) fun ⟨relation, target⟩ hhop => ?_
        obtain ⟨-, name, -, htarget⟩ := hop_eq_ok_iff.1 hhop
        obtain ⟨htype, -⟩ := Schema.mem_of_type? htarget
        refine .bind ?_ fun inner hinner => ?_
        · intro e he hvariant
          simp only [Scope.enter] at he
          split_ifs at he
          cases he
          cases hvariant
        obtain ⟨-, rfl⟩ := Scope.enter_eq_ok_iff.1 hinner
        refine .bind ?_ fun filters _ => ?_
        · exact .of_exists_ok (Filter.exists_ofSelection_of_argumentFree
            (hwell.nodup_fields target htype) (hdefaults _ hentity field hmem) hs _)
        refine .bind ?_ fun page _ => ?_
        · exact Paging.failsWith_ofSelection hs (List.mem_cons_of_mem _ hentity) hmem
        refine .bind ?_ fun map _ => .of_exists_ok ⟨_, rfl⟩
        rw [result_entries]
        exact .mapM fun t ht => ih t ht (hs.of_mem ht) htype

/-- The same for a whole statement. -/
theorem failsWith_statement (hwell : schema.WellFormed)
    (hdefaults : ∀ t ∈ schema.root :: schema.types, ∀ f ∈ t.fields, ∀ a ∈ f.arguments,
      ∀ v ∈ a.default?, schema.Admits a.kind v) (hs : s.ArgumentFree) :
    FailsWith (CompileError.Accounted schema settings) (statement schema settings s).result := by
  rw [result_statement]
  refine .bind failsWith_entryPoint fun ⟨field, target⟩ hentry => ?_
  obtain ⟨hfield, ⟨name, -, htarget⟩, -⟩ := entryPoint_eq_ok_iff.1 hentry
  have hmem : field ∈ schema.root.fields := List.mem_of_find?_eq_some hfield
  obtain ⟨htype, -⟩ := Schema.mem_of_type? htarget
  refine .bind ?_ fun filters _ => ?_
  · exact .of_exists_ok (Filter.exists_ofSelection_of_argumentFree
      (hwell.nodup_fields target htype) (hdefaults _ List.mem_cons_self field hmem) hs _)
  refine .bind ?_ fun page _ => ?_
  · exact Paging.failsWith_ofSelection hs List.mem_cons_self hmem
  refine .bind ?_ fun map _ => .of_exists_ok ⟨_, rfl⟩
  rw [result_entries]
  refine .mapM fun t ht => ?_
  exact failsWith_entry hwell (fun t ht => hdefaults t (List.mem_cons_of_mem _ ht)) (hs.of_mem ht)
    htype

/-- Where a schema loads and no arguments are supplied, a mismatch blames the default of a page
argument. -/
theorem mismatch_blames_default {text : String} (hload : (Schema.load text).result = .ok schema)
    (hs : s.ArgumentFree) {e : CompileError} (h : (statement schema settings s).result = .error e)
    (he : e.variant = .typeMismatch) : e.BlamesDefault schema settings := by
  obtain ⟨-, -, -, hdefaults⟩ := Schema.load_eq_ok hload
  have hadmits : ∀ t ∈ schema.root :: schema.types, ∀ f ∈ t.fields, ∀ a ∈ f.arguments,
      ∀ v ∈ a.default?, schema.Admits a.kind v := by
    intro t ht f hf a ha v hv
    obtain ⟨l?, hl⟩ := Schema.exists_literal?_of_checkDefaults hdefaults ht hf ha v hv
    exact Schema.admits_of_literal? hl
  exact failsWith_statement (Schema.wellFormed_of_load hload) hadmits hs e h he

/-- The text of a schema that asks for a page of words. -/
def wordyPageText : String :=
  "type Query \x7bpeople(first: String = \"ten\"): [Person]\x7d type Person \x7bname: String\x7d"

/-- A root selection that supplies no arguments. -/
def namesOfPeople : Selection := ⟨none, "people", [], [⟨none, "name", [], []⟩]⟩

theorem argumentFree_namesOfPeople : namesOfPeople.ArgumentFree := by
  refine .intro rfl fun t ht => ?_
  rw [List.mem_singleton.1 ht]
  exact .intro rfl fun u hu => by cases hu

/-- Such a page fails with a mismatch, and the mismatch blames the default. -/
theorem mismatch_blames_default_wordy :
    ∃ schema e, (Schema.load wordyPageText).result = .ok schema ∧
      (statement schema {} namesOfPeople).result = .error e ∧ e.variant = .typeMismatch ∧
      e.BlamesDefault schema {} := by
  have hsome : ((Schema.load wordyPageText).result.toOption.map fun schema =>
      match (statement schema {} namesOfPeople).result with
      | .ok _ => none
      | .error e => some e.variant) = some (some .typeMismatch) := by
    decide +kernel
  obtain ⟨schema, hschema, herror⟩ := Option.map_eq_some_iff.1 hsome
  have hload := toOption_eq_some_iff.1 hschema
  cases hresult : (statement schema {} namesOfPeople).result with
  | ok stmt => simp [hresult] at herror
  | error e =>
    have he : e.variant = .typeMismatch := by simpa [hresult] using herror
    exact ⟨schema, e, hload, hresult, he,
      mismatch_blames_default hload argumentFree_namesOfPeople hresult he⟩

/-- A schema can load, with settings that are valid, and have a default that fails in a query which
supplies no arguments. -/
theorem mismatch_of_loaded_default :
    ∃ schema d e, (Schema.load wordyPageText).result = .ok schema ∧ ({} : Settings).faults = [] ∧
      Document.parse "\x7bpeople \x7bname\x7d\x7d".toList = .ok d ∧
      d.selections = [namesOfPeople] ∧ namesOfPeople.ArgumentFree ∧
      (statement schema {} namesOfPeople).result = .error e ∧ e.message =
        "Type mismatch: expected a non-negative Int for people(first), found `\"ten\"`" := by
  have hparse : Document.parse "\x7bpeople \x7bname\x7d\x7d".toList =
      .ok ⟨.query, none, [], [namesOfPeople]⟩ := by
    simp only [String.reduceToList]
    rfl
  have hsome : ((Schema.load wordyPageText).result.toOption.map fun schema =>
      match (statement schema {} namesOfPeople).result with
      | .ok _ => ""
      | .error e => e.message) =
      some "Type mismatch: expected a non-negative Int for people(first), found `\"ten\"`" := by
    decide +kernel
  obtain ⟨schema, hschema, herror⟩ := Option.map_eq_some_iff.1 hsome
  have hload := toOption_eq_some_iff.1 hschema
  cases hresult : (statement schema {} namesOfPeople).result with
  | ok stmt => simp [hresult] at herror
  | error e =>
    have he : e.message =
        "Type mismatch: expected a non-negative Int for people(first), found `\"ten\"`" := by
      simpa [hresult] using herror
    exact ⟨schema, _, e, hload, by decide, hparse, rfl, argumentFree_namesOfPeople, hresult, he⟩

end Compilation

end GraphQuery
