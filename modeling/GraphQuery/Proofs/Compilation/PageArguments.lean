import GraphQuery.Proofs.Compilation.Result
import GraphQuery.Proofs.Language.ArgumentList
import GraphQuery.Settings.Source

/-!
# The names of the arguments that ask for a page

Settings say which two arguments of a selection ask for its page. A setting is any text, and whether
it could be the name of an argument is decided character by character, without the reader of names.
The reader takes a name in two runs: the characters that may begin one, and then all that may stand
in one. Both come to the same: a text passes exactly if the reader takes it as a whole.

Settings that pass can therefore be used. A list of both arguments is read however it is laid out
and whichever of the two comes first, and each bound of the page is the number that stands behind
its own name. Nothing that could be used is turned away: if any list asks for two different bounds,
then both names pass.

## Main definitions

* `Argument.pairTokens`, `Argument.pairText`: a list of two arguments.
* `Paging.AsksFor`: a text is read as arguments that ask for a page.

## Main results

* `Settings.nameFaults_eq_nil_iff`, `Settings.validate_eq_ok_iff`: the names and the settings that
  pass.
* `Paging.asksFor_of_spans`: an argument list asks for the numbers that are found under both names.
* `Paging.validate_of_asksFor`: a list asks for two different numbers only under names that pass.
* `Paging.validated_names_carry_bounds`: names that pass can be written, and carry their bounds.
-/

namespace GraphQuery

open Lexeme

/-! ### Settings that pass -/

namespace Settings

variable {s s' : Settings} {x : String}

theorem isArgumentName_iff : isArgumentName x = true ↔ IsName x := by
  unfold isArgumentName IsName
  cases x.toList with
  | nil => simp
  | cons c cs =>
    -- The same two classes of characters are tested, only in another order.
    simp only [Bool.and_eq_true, List.all_eq_true, List.cons.injEq, isNameStart, isNameChar,
      Bool.or_comm (_ == '_')]
    constructor
    · intro h
      exact ⟨c, cs, ⟨rfl, rfl⟩, h.1, h.2⟩
    · rintro ⟨_, _, ⟨rfl, rfl⟩, hc, hcs⟩
      exact ⟨hc, hcs⟩

theorem nameFaults_eq_nil_iff : nameFaults x = [] ↔ IsName x := by
  rw [← isArgumentName_iff, nameFaults]
  split_ifs with h <;> simp [h]

theorem depthFaults_eq_nil_iff {depth : Nat} :
    depthFaults depth = [] ↔ 1 ≤ depth ∧ depth ≤ 256 := by
  unfold depthFaults
  split_ifs with h
  · exact iff_of_true rfl h
  · exact iff_of_false not_false h

theorem fieldFaults_eq_nil_iff :
    s.fieldFaults = [] ↔ IsName s.firstArgument ∧ (1 ≤ s.maxDepth ∧ s.maxDepth ≤ 256) ∧
      IsName s.offsetArgument := by
  rw [← nameFaults_eq_nil_iff, ← nameFaults_eq_nil_iff, ← depthFaults_eq_nil_iff, fieldFaults,
    List.filter_eq_nil_iff]
  simp

theorem jointFaults_eq_nil_iff : s.jointFaults = [] ↔ s.firstArgument ≠ s.offsetArgument := by
  unfold jointFaults
  split_ifs with h <;> simp_all

theorem faults_eq_nil_iff : s.faults = [] ↔ s.fieldFaults = [] ∧ s.jointFaults = [] := by
  unfold faults
  cases s.fieldFaults with
  | nil => simp
  | cons fault found => simp

/-- Settings pass as they are, if both names are names and differ and the depth is in range. -/
theorem validate_eq_ok_iff :
    s.validate = .ok s' ↔ s' = s ∧ (IsName s.firstArgument ∧
      (1 ≤ s.maxDepth ∧ s.maxDepth ≤ 256) ∧ IsName s.offsetArgument) ∧
      s.firstArgument ≠ s.offsetArgument := by
  rw [← fieldFaults_eq_nil_iff, ← jointFaults_eq_nil_iff, ← faults_eq_nil_iff]
  unfold validate
  cases s.faults with
  | nil => simp [eq_comm]
  | cons fault found => simp

end Settings

/-! ### Two arguments in a list -/

theorem Value.Spelled.beginsToken_int {constant : Bool} {n : Int64} {t : Token}
    (h : Spelled constant (.int n) t) : BeginsToken t := by
  cases h with
  | int ht => exact ht.beginsToken

namespace Argument

/-- The tokens of a list of two arguments. -/
def pairTokens (x : String) (t : Token) (y : String) (u : Token) : List Token :=
  [['('], x.toList, [':'], t, y.toList, [':'], u, [')']]

/-- A list of two arguments as it is commonly laid out. -/
def pairText (x : String) (t : Token) (y : String) (u : Token) : List Char :=
  '(' :: (x.toList ++ ':' :: ' ' :: (t ++ ',' :: ' ' :: (y.toList ++ ':' :: ' ' :: (u ++ [')']))))

variable {x y : String} {v w : Value} {t u : Token}

theorem grouped_pairTokens (hx : IsName x) (hv : v.Spelled false t) (hy : IsName y)
    (hw : w.Spelled false u) :
    Grouped '(' ')' (Spelled false) [⟨x, v⟩, ⟨y, w⟩] (pairTokens x t y u) :=
  .intro (.cons (Spelled.intro hx hv) (.cons (Spelled.intro hy hw) .nil))

/-- In the common layout a character that belongs to no name stands behind each name and value. -/
theorem spans_pairText (hx : IsName x) (ht : BeginsToken t) (hy : IsName y) (hu : BeginsToken u)
    (rest : List Char) : Spans (pairTokens x t y u) (pairText x t y u ++ rest) rest := by
  simp only [pairTokens, pairText, List.cons_append, List.append_assoc, List.nil_append]
  refine .punctuation (by decide) (.before hx.beginsToken (by decide) ?_)
  refine .punctuation (by decide) (.separator (by decide) (.before ht (by decide) ?_))
  refine .separator (by decide) (.separator (by decide) (.before hy.beginsToken (by decide) ?_))
  refine .punctuation (by decide) (.separator (by decide) (.before hu (by decide) ?_))
  exact .punctuation (by decide) (.nil rest)

/-- The names are what arguments can be given under. -/
theorem isName_iff_exists_listReader :
    IsName x ↔ ∃ text arguments rest,
      listReader false text = .done arguments rest ∧ ∃ a ∈ arguments, a.name = x := by
  constructor
  · intro hx
    -- Any value will do. A variable of the same name is one.
    have hvar : Value.Spelled false (.var x) ('$' :: x.toList) := .var hx rfl
    have hbegins : BeginsToken ('$' :: x.toList) := ⟨'$', x.toList, rfl, by decide⟩
    have hread := listReader_of_spans (grouped_pairTokens hx hvar hx hvar)
      (spans_pairText hx hbegins hx hbegins [])
    exact ⟨_, _, _, hread, _, List.mem_cons_self, rfl⟩
  · rintro ⟨text, arguments, rest, hread, a, ha, rfl⟩
    exact isName_of_listReader hread ha

/-- Each of two arguments is found under its own name. -/
theorem find?_pair (h : x ≠ y) (v w : Value) :
    find? x [⟨x, v⟩, ⟨y, w⟩] = some v ∧ find? y [⟨x, v⟩, ⟨y, w⟩] = some w := by
  simp [find?, h]

end Argument

/-! ### Pages -/

namespace Paging

open Cypher Argument

variable {settings : Settings} {n m : Int64} {text rest : List Char}

/-- The text is read as a list of arguments up to `rest`, and a selection with these arguments asks
for the page, whatever the defaults of its field are. -/
def AsksFor (settings : Settings) (page : Page) (text rest : List Char) : Prop :=
  ∃ arguments, Argument.listReader false text = .done arguments rest ∧
    ∀ (field : Field) (s : Selection), s.arguments = arguments →
      ofSelection settings field s = .ok page

theorem bound?_of_argument? {name : String} {field : Field} {s : Selection}
    (h : s.argument? name = some (.int n)) (hn : 0 ≤ n.toInt) :
    bound? name field s = .ok (some (.literal n)) := by
  rw [bound?_eq_ok_iff, value?, h, Option.some_or]
  exact .int hn

/-- A list of arguments asks for the numbers that are found under both names, wherever they stand
among the arguments. -/
theorem asksFor_of_spans {arguments : List Argument} {ts : List Token}
    (hts : Grouped '(' ')' (Argument.Spelled false) arguments ts) (hspans : Spans ts text rest)
    (hfirst : find? settings.firstArgument arguments = some (.int n))
    (hoffset : find? settings.offsetArgument arguments = some (.int m))
    (hn : 0 ≤ n.toInt) (hm : 0 ≤ m.toInt) :
    AsksFor settings ⟨some (.literal n), some (.literal m)⟩ text (skip rest) := by
  refine ⟨arguments, listReader_of_spans hts hspans, ?_⟩
  rintro field s rfl
  exact ofSelection_eq_ok_iff.2 ⟨bound?_of_argument? hfirst hn, bound?_of_argument? hoffset hm⟩

/-- With settings that pass, both arguments ask for the numbers in them, in either order. -/
theorem asksFor_of_pairTokens (hvalid : settings.validate = .ok settings) {t u : Token}
    (hn : 0 ≤ n.toInt) (hm : 0 ≤ m.toInt) (ht : Value.Spelled false (.int n) t)
    (hu : Value.Spelled false (.int m) u)
    (h : Spans (pairTokens settings.firstArgument t settings.offsetArgument u) text rest ∨
      Spans (pairTokens settings.offsetArgument u settings.firstArgument t) text rest) :
    AsksFor settings ⟨some (.literal n), some (.literal m)⟩ text (skip rest) := by
  obtain ⟨-, ⟨hfirst, -, hoffset⟩, hne⟩ := Settings.validate_eq_ok_iff.1 hvalid
  rcases h with hspans | hspans
  · obtain ⟨hn', hm'⟩ := find?_pair hne (.int n) (.int m)
    exact asksFor_of_spans (grouped_pairTokens hfirst ht hoffset hu) hspans hn' hm' hn hm
  · obtain ⟨hm', hn'⟩ := find?_pair hne.symm (.int m) (.int n)
    exact asksFor_of_spans (grouped_pairTokens hoffset hu hfirst ht) hspans hn' hm' hn hm

/-- Without defaults, a bound is given by an argument of its name. -/
theorem exists_argument_of_bound? {name : String} {field : Field} {s : Selection} {b : Bound}
    (hfield : field.arguments = []) (h : bound? name field s = .ok (some b)) :
    ∃ a ∈ s.arguments, a.name = name := by
  have hvalue : value? name field s = find? name s.arguments := by
    simp [value?, Field.argument?, hfield, Selection.argument?]
  rw [bound?_eq_ok_iff, hvalue, find?] at h
  cases hfound : s.arguments.find? (·.name == name) with
  | none =>
    rw [hfound] at h
    cases h
  | some a =>
    have hname := List.find?_some hfound
    exact ⟨a, List.mem_of_find?_eq_some hfound, beq_iff_eq.1 hname⟩

/-- Under names that do not pass, no list of arguments asks for two different bounds. -/
theorem validate_of_asksFor (hdepth : 1 ≤ settings.maxDepth ∧ settings.maxDepth ≤ 256)
    (hne : n ≠ m) (h : AsksFor settings ⟨some (.literal n), some (.literal m)⟩ text rest) :
    settings.validate = .ok settings := by
  obtain ⟨arguments, hread, hpage⟩ := h
  -- On a field without defaults, all that is known about the bounds stands in the list.
  obtain ⟨hfirst, hoffset⟩ :=
    ofSelection_eq_ok_iff.1 (hpage default ⟨none, "", arguments, []⟩ rfl)
  have hname {name : String} {b : Bound}
      (h : bound? name default ⟨none, "", arguments, []⟩ = .ok (some b)) : IsName name := by
    obtain ⟨a, ha, rfl⟩ := exists_argument_of_bound? rfl h
    exact isName_of_listReader hread ha
  refine Settings.validate_eq_ok_iff.2 ⟨rfl, ⟨hname hfirst, hdepth, hname hoffset⟩, ?_⟩
  intro heq
  rw [heq, hoffset] at hfirst
  cases hfirst
  exact hne rfl

/-- A text passes as the name of a page argument exactly if the reader of names takes it as a whole,
and exactly if some list has an argument of this name. With settings that pass, a list of both
arguments asks for the numbers in it, each under its own name: however the numbers are spelled,
whichever argument comes first, however the list is laid out, and whatever follows it. No other
names let a list ask for two different numbers. -/
theorem validated_names_carry_bounds :
    (∀ x : String,
      (Settings.nameFaults x = [] ↔ Lexeme.name x.toList = .done x []) ∧
      (Settings.nameFaults x = [] ↔ ∃ text arguments rest,
        Argument.listReader false text = .done arguments rest ∧ ∃ a ∈ arguments, a.name = x)) ∧
    (∀ settings : Settings, settings.validate = .ok settings →
      ∀ (n m : Int64) (t u : Token), 0 ≤ n.toInt → 0 ≤ m.toInt →
        Value.Spelled false (.int n) t → Value.Spelled false (.int m) u →
        (∀ rest, AsksFor settings ⟨some (.literal n), some (.literal m)⟩
          (pairText settings.firstArgument t settings.offsetArgument u ++ rest) (skip rest)) ∧
        ∀ text rest,
          Spans (pairTokens settings.firstArgument t settings.offsetArgument u) text rest ∨
            Spans (pairTokens settings.offsetArgument u settings.firstArgument t) text rest →
          AsksFor settings ⟨some (.literal n), some (.literal m)⟩ text (skip rest)) ∧
    ∀ settings : Settings, 1 ≤ settings.maxDepth ∧ settings.maxDepth ≤ 256 →
      ∀ (n m : Int64) (text rest : List Char), n ≠ m →
        AsksFor settings ⟨some (.literal n), some (.literal m)⟩ text rest →
        settings.validate = .ok settings := by
  refine ⟨fun x => ?_, fun settings hvalid n m t u hn hm ht hu => ?_, ?_⟩
  · rw [Settings.nameFaults_eq_nil_iff]
    refine ⟨?_, isName_iff_exists_listReader⟩
    simp [name_eq_done_iff]
  · refine ⟨fun rest => ?_, fun text rest => asksFor_of_pairTokens hvalid hn hm ht hu⟩
    -- The text as it is commonly laid out is one of the layouts.
    obtain ⟨-, ⟨hfirst, -, hoffset⟩, -⟩ := Settings.validate_eq_ok_iff.1 hvalid
    apply asksFor_of_pairTokens hvalid hn hm ht hu
    exact .inl (spans_pairText hfirst ht.beginsToken_int hoffset hu.beginsToken_int rest)
  · exact fun settings hdepth n m text rest hne h => validate_of_asksFor hdepth hne h

/-- Settings under names of their own. A reserved word is a name like any other. -/
def renamed : Settings := { firstArgument := "null", offsetArgument := "_2" }

/-- The greatest number, and a zero with a sign. -/
theorem validated_names_carry_bounds_renamed :
    renamed.validate = .ok renamed ∧
      Value.Spelled false (.int Int64.maxValue) "9223372036854775807".toList ∧
      Value.Spelled false (.int 0) "-0".toList ∧
      AsksFor renamed ⟨some (.literal Int64.maxValue), some (.literal 0)⟩
        "(null: 9223372036854775807, _2: -0) \x7bname\x7d".toList "\x7bname\x7d".toList ∧
      AsksFor renamed ⟨some (.literal Int64.maxValue), some (.literal 0)⟩
        "(_2: -0, null: 9223372036854775807) \x7bname\x7d".toList "\x7bname\x7d".toList := by
  have hvalid : renamed.validate = .ok renamed := by decide
  obtain ⟨-, ⟨hfirst, -, hoffset⟩, -⟩ := Settings.validate_eq_ok_iff.1 hvalid
  have hgreatest : Value.Spelled false (.int Int64.maxValue) "9223372036854775807".toList := by
    simp only [String.reduceToList]
    exact Value.spelled_of_isDigits false false (isDigits_of_all (by simp) (by decide)) (by decide)
  have hzero : Value.Spelled false (.int 0) "-0".toList :=
    Value.spelled_of_isDigits false true (isDigits_of_all (by simp) (by decide)) (by decide)
  obtain ⟨hplain, hlayouts⟩ := validated_names_carry_bounds.2.1 renamed hvalid Int64.maxValue 0 _ _
    (by decide) (by decide) hgreatest hzero
  have hasks := hplain " \x7bname\x7d".toList
  -- The list shows in turn that the settings pass.
  have hback := validated_names_carry_bounds.2.2 renamed (by decide) Int64.maxValue 0 _ _
    (by decide) hasks
  refine ⟨hback, hgreatest, hzero, hasks, ?_⟩
  refine hlayouts _ " \x7bname\x7d".toList (.inr ?_)
  exact spans_pairText hoffset hzero.beginsToken_int hfirst hgreatest.beginsToken_int _

end Paging

end GraphQuery
