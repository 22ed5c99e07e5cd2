/-!
# Log entries

What a run reports along the way, and computations that report. `Logged ε α` holds the entries of a
computation together with its result; entries written before a failure are kept. The entries never
influence the result: `result_bind` says that results compose as if there were no log.
-/

namespace QueryModule

/-- How important an entry is, least first. -/
inductive Level where
  | trace
  | debug
  | info
  | warn
  | error
  deriving DecidableEq, Repr

namespace Level

/-- The rank of a level; entries of a higher rank are more important. -/
def rank : Level → Nat
  | trace => 0
  | debug => 1
  | info => 2
  | warn => 3
  | error => 4

/-- The name of a level. -/
def label : Level → String
  | trace => "TRACE"
  | debug => "DEBUG"
  | info => "INFO"
  | warn => "WARN"
  | error => "ERROR"

end Level

/-- An entry of a log. -/
structure LogEntry where
  level : Level
  message : String
  deriving DecidableEq, Repr

/-- A result and what was reported on the way to it. -/
structure Logged (ε α : Type) where
  log : List LogEntry
  result : Except ε α

namespace Logged

/-- A result that was reached in silence. -/
def ofExcept (result : Except ε α) : Logged ε α := ⟨[], result⟩

/-- Reports one thing. -/
def note (level : Level) (message : String) : Logged ε Unit := ⟨[⟨level, message⟩], .ok ()⟩

/-- Reports several things. -/
def notes (entries : List LogEntry) : Logged ε Unit := ⟨entries, .ok ()⟩

/-- The same with the error seen as another one. -/
def mapError (f : ε → δ) (x : Logged ε α) : Logged δ α := ⟨x.log, x.result.mapError f⟩

/-- One computation after the other. -/
def andThen (x : Logged ε α) (f : α → Logged ε β) : Logged ε β :=
  match x.result with
  | .error e => ⟨x.log, .error e⟩
  | .ok a => ⟨x.log ++ (f a).log, (f a).result⟩

instance : Monad (Logged ε) where
  pure a := ⟨[], .ok a⟩
  bind := andThen

@[simp] theorem result_pure (a : α) : (pure a : Logged ε α).result = .ok a := rfl

@[simp] theorem result_note (level : Level) (message : String) :
    (note level message : Logged ε Unit).result = .ok () := rfl

@[simp] theorem result_notes (entries : List LogEntry) :
    (notes entries : Logged ε Unit).result = .ok () := rfl

@[simp] theorem result_ofExcept (result : Except ε α) : (ofExcept result).result = result := rfl

/-- The result of two computations in a row is that of their results in a row. -/
@[simp] theorem result_bind (x : Logged ε α) (f : α → Logged ε β) :
    (x >>= f).result = x.result >>= fun a => (f a).result := by
  show (andThen x f).result = _
  unfold andThen
  cases x.result <;> rfl

end Logged

end QueryModule
