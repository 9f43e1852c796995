import TypedSchema.Fault

/-!
# Log — what is reported on the way

Loading, resolving and building report events: things left out (warnings), results (information) and
steps.  A computation that reports is a `Traced` value: its events in order, and its outcome.  A
fault ends the computation and keeps the events before it.

Taking the outcome forgets the events and nothing else: `Traced.outcome_bind` says that it turns
sequencing of traced computations into sequencing of plain ones, so laws about outcomes are proved
without looking at events, and `Traced.events_bind` gives the events of a sequence.
-/

namespace TypedSchema

/-! ## Events -/

/-- How much an event matters, most first. -/
inductive Level where
  | error
  | warn
  | info
  | debug
  | trace
  deriving DecidableEq, Repr

/-- The rank of a level; zero matters most. -/
def Level.rank : Level → Nat
  | error => 0
  | warn => 1
  | info => 2
  | debug => 3
  | trace => 4

/-- The name of a level. -/
def Level.label : Level → String
  | error => "ERROR"
  | warn => "WARN"
  | info => "INFO"
  | debug => "DEBUG"
  | trace => "TRACE"

/-- What is reported to a user who asked this often for more. -/
def Level.ofVerbosity : Nat → Level
  | 0 => warn
  | 1 => info
  | 2 => debug
  | _ => trace

/-- Something worth reporting. -/
inductive Event where
  | entryWithoutId (entry : String)
  | loadedSchemas (count : Nat)
  | resolved (shape : Shape)
  | requiredWithoutProperty (record field : String)
  | builtRecord (record : String) (bases fields : Nat)
  | builtEnum (name : String) (values : Nat)
  | declaresNothing (shape : Shape) (id : Option String)
  | assembled (records enums : Nat)
  | loadedInput (path : String) (schemas : Nat)
  | wroteOutput (path : String) (bytes : Nat)
  deriving DecidableEq, Repr

namespace Event

/-- How much an event matters. -/
def level : Event → Level
  | entryWithoutId _ => .warn
  | loadedSchemas _ => .debug
  | resolved _ => .trace
  | requiredWithoutProperty _ _ => .warn
  | builtRecord _ _ _ => .debug
  | builtEnum _ _ => .debug
  | declaresNothing _ _ => .warn
  | assembled _ _ => .info
  | loadedInput _ _ => .debug
  | wroteOutput _ _ => .info

/-- The wording of an event. -/
def message : Event → String
  | entryWithoutId _ => "top-level schema has no id; skipping"
  | loadedSchemas _ => "loaded top-level schemas"
  | resolved _ => "resolved"
  | requiredWithoutProperty _ _ => "required field has no property schema; ignoring"
  | builtRecord _ _ _ => "built record"
  | builtEnum _ _ => "built enum"
  | declaresNothing _ _ => "top-level schema declares no type; skipping"
  | assembled _ _ => "assembled module"
  | loadedInput _ _ => "loaded input"
  | wroteOutput _ _ => "wrote output"

/-- The particulars of an event, by name. -/
def fields : Event → List (String × String)
  | entryWithoutId entry => [("entry", entry)]
  | loadedSchemas count => [("count", Nat.repr count)]
  | resolved shape => [("shape", shape.label)]
  | requiredWithoutProperty record field => [("record", record), ("field", field)]
  | builtRecord record bases fields =>
    [("record", record), ("bases", Nat.repr bases), ("fields", Nat.repr fields)]
  | builtEnum name values => [("enum_", name), ("values", Nat.repr values)]
  | declaresNothing shape id => [("shape", shape.label), ("id", id.getD "<none>")]
  | assembled records enums => [("records", Nat.repr records), ("enums", Nat.repr enums)]
  | loadedInput path schemas => [("path", path), ("schemas", Nat.repr schemas)]
  | wroteOutput path bytes => [("path", path), ("bytes", Nat.repr bytes)]

/-- Whether an event matters at least as much as a level. -/
def reaches (event : Event) (level : Level) : Bool := event.level.rank ≤ level.rank

end Event

/-! ## Computations that report -/

/-- Events in order, and how the computation ended. -/
structure TracedBy (ε α : Type) where
  events : List Event
  outcome : Except ε α

/-- A computation that may end in a fault. -/
abbrev Traced (α : Type) := TracedBy Fault α

namespace TracedBy

variable {ε α β : Type}

/-- One computation after another; a fault in the first is the end. -/
def andThen (x : TracedBy ε α) (f : α → TracedBy ε β) : TracedBy ε β :=
  match x.outcome with
  | .ok a => ⟨x.events ++ (f a).events, (f a).outcome⟩
  | .error e => ⟨x.events, .error e⟩

instance : Monad (TracedBy ε) where
  pure a := ⟨[], .ok a⟩
  bind := andThen

/-- Reports one event. -/
def report (event : Event) : TracedBy ε Unit := ⟨[event], .ok ()⟩

/-- A computation without events. -/
def quiet (outcome : Except ε α) : TracedBy ε α := ⟨[], outcome⟩

/-- Changes the error in which a computation ends. -/
def mapError {δ : Type} (f : ε → δ) (x : TracedBy ε α) : TracedBy δ α :=
  ⟨x.events, x.outcome.mapError f⟩

@[simp] theorem outcome_pure (a : α) : (pure a : TracedBy ε α).outcome = .ok a := rfl

@[simp] theorem outcome_report (event : Event) :
    (report event : TracedBy ε Unit).outcome = .ok () := rfl

@[simp] theorem outcome_quiet (outcome : Except ε α) : (quiet outcome).outcome = outcome := rfl

@[simp] theorem outcome_mapError {δ : Type} (f : ε → δ) (x : TracedBy ε α) :
    (x.mapError f).outcome = x.outcome.mapError f := rfl

@[simp] theorem outcome_bind (x : TracedBy ε α) (f : α → TracedBy ε β) :
    (x >>= f).outcome = x.outcome >>= fun a => (f a).outcome := by
  show (andThen x f).outcome = _
  unfold andThen
  cases x.outcome <;> rfl

theorem events_bind (x : TracedBy ε α) (f : α → TracedBy ε β) :
    (x >>= f).events = x.events ++ (match x.outcome with
      | .ok a => (f a).events
      | .error _ => []) := by
  show (andThen x f).events = _
  unfold andThen
  cases x.outcome <;> simp

end TracedBy
end TypedSchema
