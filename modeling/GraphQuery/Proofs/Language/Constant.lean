import GraphQuery.Proofs.Language.Plain

/-!
# Defaults are constants

The defaults in a schema definition are read as constants, and a constant holds no variable however
deep its lists are nested. What the reader of constants guarantees is carried along the definitions
for an arbitrary predicate, because each part of a definition only collects the defaults of its own
parts.

## Main definitions

* `ArgumentDefinition.DefaultIs`, `FieldDefinition.DefaultsAre`, `Definition.DefaultsAre`: all
  defaults satisfy a predicate.

## Main results

* `Value.yields_constantReader`: a constant holds no variable.
* `Definition.defaultsAre_of_parseAll`: the defaults of a text satisfy what the reader of constants
  guarantees.
-/

namespace GraphQuery

open Reader Lexeme

/-! ### Constants -/

namespace Value

/-- No variable stands in the value, at any depth. -/
def IsConstant (v : Value) : Prop := v.vars = []

theorem isConstant_list_iff {items : List Value} :
    (list items).IsConstant ↔ ∀ v ∈ items, v.IsConstant := by
  simp only [IsConstant, vars, List.eq_nil_iff_forall_not_mem, mem_varsOfAll, not_exists, not_and]
  exact ⟨fun h v hv x hx => h x v hv hx, fun h x v hv hx => h v hv x hx⟩

theorem isConstant_ofName (name : String) : (ofName name).IsConstant := by
  unfold ofName
  split_ifs <;> rfl

theorem isConstant_of_ofNumeral {n : Numeral} {v : Value} (h : ofNumeral n = .ok v) :
    v.IsConstant := by
  simp only [ofNumeral] at h
  split_ifs at h <;> cases h <;> rfl

theorem isConstant_of_numberReader : numberReader.Yields IsConstant := by
  intro s v rest h
  unfold numberReader at h
  split at h
  · split_ifs at h
    split at h
    · next hv =>
      cases h
      exact isConstant_of_ofNumeral hv
    · cases h
  · cases h
  · cases h

theorem isConstant_of_listReader {item : Reader Value} (hitem : item.Yields IsConstant) :
    (listReader item).Yields IsConstant := by
  refine .after fun _ => ?_
  refine (yields_token hitem).many.bind fun items hitems => .after fun _ => .pure ?_
  exact isConstant_list_iff.2 hitems

theorem isConstant_of_dispatch {item : Reader Value} (hitem : item.Yields IsConstant) :
    (dispatch true item).Yields IsConstant := by
  have hname : nameReader.Yields IsConstant :=
    .after fun name => .pure (isConstant_ofName name)
  intro s v rest h
  unfold dispatch at h
  split at h
  · exact hname _ v rest h
  · -- A dollar sign is refused, so lists are the only values with others inside.
    simp only [if_true] at h
    split_ifs at h
    · cases h
    · refine Yields.after (fun text => Yields.pure ?_) _ v rest h
      rfl
    · exact isConstant_of_listReader hitem _ v rest h
    · cases h
    · exact isConstant_of_numberReader _ v rest h
    · exact hname _ v rest h

/-- A constant holds no variable. -/
theorem yields_constantReader : (reader true).Yields IsConstant :=
  .nest fun _ hitem => .after fun _ => isConstant_of_dispatch hitem

end Value

/-! ### Definitions -/

section Defaults

variable {V : Value → Prop}

/-- The default of an argument, if there is one, satisfies a predicate. -/
def ArgumentDefinition.DefaultIs (V : Value → Prop) (a : ArgumentDefinition) : Prop :=
  ∀ v ∈ a.default?, V v

/-- The defaults of the arguments of a field satisfy a predicate. -/
def FieldDefinition.DefaultsAre (V : Value → Prop) (f : FieldDefinition) : Prop :=
  ∀ a ∈ f.arguments, a.DefaultIs V

/-- The defaults of an object type satisfy a predicate. -/
def ObjectDefinition.DefaultsAre (V : Value → Prop) (o : ObjectDefinition) : Prop :=
  ∀ f ∈ o.fields, f.DefaultsAre V

/-- The defaults of a definition satisfy a predicate; only object types have some. -/
def Definition.DefaultsAre (V : Value → Prop) : Definition → Prop
  | .object o => o.DefaultsAre V
  | _ => True

theorem ArgumentDefinition.defaultIs_of_reader (hV : (Value.reader true).Yields V) :
    ArgumentDefinition.reader.Yields (DefaultIs V) := by
  have hdefault : defaultReader.Yields V :=
    .after fun _ => (yields_token hV).commit.expecting _
  refine .after fun _ => .after fun name => .after fun _ => .after fun type => ?_
  exact hdefault.optional.bind fun _ h => .pure h

theorem FieldDefinition.defaultsAre_of_reader (hV : (Value.reader true).Yields V) :
    FieldDefinition.reader.Yields (DefaultsAre V) := by
  have hlist : ArgumentDefinition.listReader.Yields fun as => ∀ a ∈ as, a.DefaultIs V :=
    yields_enclosed ((ArgumentDefinition.defaultIs_of_reader hV).many1.commit.expecting _) _ _
  refine .after fun _ => .after fun name => hlist.optional.bind fun arguments harguments => ?_
  refine .after fun _ => .after fun type => .after fun directives => .pure ?_
  cases arguments with
  | none => exact fun a ha => by cases ha
  | some arguments => exact harguments arguments rfl

theorem ObjectDefinition.defaultsAre_of_reader (hV : (Value.reader true).Yields V) :
    ObjectDefinition.reader.Yields (DefaultsAre V) := by
  refine .after fun name => .after fun _ => ?_
  refine (yields_enclosed
    ((FieldDefinition.defaultsAre_of_reader hV).many1.commit.expecting _) _ _).bind ?_
  exact fun fields hfields => .pure hfields

namespace Definition

theorem defaultsAre_of_bodyReader? (hV : (Value.reader true).Yields V) {word : String}
    {body : Reader Definition} (h : bodyReader? word = some body) :
    body.Yields (DefaultsAre V) := by
  unfold bodyReader? at h
  split_ifs at h
  · cases h
    exact (ObjectDefinition.defaultsAre_of_reader hV).bind fun _ hobject => .pure hobject
  all_goals
    cases h
    exact .after fun _ => .pure trivial

theorem defaultsAre_of_reader (hV : (Value.reader true).Yields V) :
    reader.Yields (DefaultsAre V) := by
  refine .after fun _ => ?_
  intro s d rest h
  unfold undescribedReader at h
  split at h
  · split at h
    · next body hbody => exact defaultsAre_of_bodyReader? hV hbody _ d rest h
    · split_ifs at h
  · cases h
  · cases h

/-- The defaults of a schema definition satisfy what the reader of constants guarantees. -/
theorem defaultsAre_of_parseAll (hV : (Value.reader true).Yields V) {text : List Char}
    {definitions : List Definition} (h : parseAll text = .ok definitions) :
    ∀ d ∈ definitions, d.DefaultsAre V := by
  unfold parseAll at h
  split at h
  · next found rest hread =>
    split at h
    · cases h
      exact (defaultsAre_of_reader hV).many text definitions rest hread
    · cases h
  · cases h
  · cases h

end Definition

end Defaults

end GraphQuery
