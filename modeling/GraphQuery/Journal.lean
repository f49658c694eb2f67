/-!
# Journals

What is worth telling about a run besides its result. Entries are data; they are collected in order
next to the result, also when the run fails.

## Main definitions

* `Event`: what can be told, with `Event.level` and `Event.message`.
* `Logged`: a result with the events before it.

## Main results

* `Logged.result_bind`: the result of a sequence does not depend on the events.
-/

namespace GraphQuery

/-- How much attention an event deserves. -/
inductive Level where
  | debug
  | info
  | warn
deriving Repr, DecidableEq, Inhabited

/-- The word for a level. -/
def Level.word : Level → String
  | .debug => "DEBUG"
  | .info => "INFO"
  | .warn => "WARN"

/-- Something worth telling. -/
inductive Event where
  | loadingSchema (path : String)
  | schemaLoaded (root : String) (entryPoints entityTypes : Nat)
  | rootTypeIgnored (operation type : String)
  | compiling (selections : Nat) (operation : Option String)
  | undeclaredVariable (name : String)
  | unusedVariable (name : String)
  | nullFilterOmitted (bound property field : String)
  | argumentsIgnored (type field : String)
  | pageIgnored (type field : String)
  | relationCompiled (type field text : String)
  | statementCompiled (key text : String)
  | compiled (statements : Nat)
deriving Repr, DecidableEq

namespace Event

/-- The level of an event. -/
def level : Event → Level
  | .loadingSchema .. => .info
  | .schemaLoaded .. => .info
  | .rootTypeIgnored .. => .warn
  | .compiling .. => .debug
  | .undeclaredVariable .. => .warn
  | .unusedVariable .. => .debug
  | .nullFilterOmitted .. => .debug
  | .argumentsIgnored .. => .warn
  | .pageIgnored .. => .warn
  | .relationCompiled .. => .debug
  | .statementCompiled .. => .debug
  | .compiled .. => .info

/-- The wording of an event. -/
def message : Event → String
  | .loadingSchema path => "Loading schema from " ++ path
  | .schemaLoaded root entryPoints entityTypes =>
    "Schema loaded: root type `" ++ root ++ "` with " ++ toString entryPoints ++
      " entry points, " ++ toString entityTypes ++ " entity types"
  | .rootTypeIgnored operation type =>
    "Ignoring `" ++ operation ++ ": " ++ type ++
      "` in schema block; only read queries are translated"
  | .compiling selections operation =>
    "Translating " ++ toString selections ++ " root selection(s) of operation " ++
      operation.getD "<anonymous>"
  | .undeclaredVariable name =>
    "Variable $" ++ name ++ " is used but not declared by the operation"
  | .unusedVariable name => "Supplied variable $" ++ name ++ " is not referenced; dropping it"
  | .nullFilterOmitted bound property field =>
    "Omitting null predicate " ++ bound ++ "." ++ property ++ " on field `" ++ field ++ "`"
  | .argumentsIgnored type field =>
    "Ignoring arguments on property `" ++ type ++ "." ++ field ++ "`"
  | .pageIgnored type field =>
    "Ignoring pagination on single-valued relation `" ++ type ++ "." ++ field ++ "`"
  | .relationCompiled type field text =>
    "Compiled relation " ++ type ++ "." ++ field ++ ": " ++ text
  | .statementCompiled key text => "Compiled root field `" ++ key ++ "`: " ++ text
  | .compiled statements => "Translated " ++ toString statements ++ " statement(s)"

end Event

/-- A result or an error, with the events that led to it. -/
structure Logged (ε α : Type) where
  events : List Event
  result : Except ε α

namespace Logged

variable {ε α β : Type}

/-- A result without events. -/
def ofExcept (result : Except ε α) : Logged ε α := ⟨[], result⟩

/-- An error. -/
def fail (error : ε) : Logged ε α := ⟨[], .error error⟩

/-- An event. -/
def note (event : Event) : Logged ε Unit := ⟨[event], .ok ()⟩

/-- Some events. -/
def noteAll (events : List Event) : Logged ε Unit := ⟨events, .ok ()⟩

/-- The same events with another kind of error. -/
def mapError {ε' : Type} (f : ε → ε') (x : Logged ε α) : Logged ε' α :=
  ⟨x.events, x.result.mapError f⟩

/-- Go on with a result; the events of both parts are kept, in order. -/
protected def bind (x : Logged ε α) (f : α → Logged ε β) : Logged ε β :=
  match x.result with
  | .ok a => ⟨x.events ++ (f a).events, (f a).result⟩
  | .error e => ⟨x.events, .error e⟩

instance : Monad (Logged ε) where
  pure a := ⟨[], .ok a⟩
  bind := Logged.bind

@[simp] theorem result_pure (a : α) : (pure a : Logged ε α).result = .ok a := rfl

@[simp] theorem result_ofExcept (r : Except ε α) : (ofExcept r).result = r := rfl

@[simp] theorem result_fail (e : ε) : (fail e : Logged ε α).result = .error e := rfl

@[simp] theorem result_note (e : Event) : (note e : Logged ε Unit).result = .ok () := rfl

/-- The result of a sequence does not depend on the events. -/
theorem result_bind (x : Logged ε α) (f : α → Logged ε β) :
    (x >>= f).result = x.result.bind fun a => (f a).result := by
  change (Logged.bind x f).result = _
  unfold Logged.bind
  cases x.result <;> rfl

end Logged

end GraphQuery
