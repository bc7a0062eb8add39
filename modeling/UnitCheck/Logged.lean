/-
Computations that may fail and that keep a log.

The log holds what was done before a failure, too.
-/
import UnitCheck.Failure

namespace UnitCheck

/-- How important a log line is. -/
inductive LogLevel where
  | warn
  | info
  | debug
deriving DecidableEq, Repr

namespace LogLevel

/-- The level as log lines show it. -/
def label : LogLevel → String
  | .warn => " WARN"
  | .info => " INFO"
  | .debug => "DEBUG"

/-- How often more detail has to be asked for until lines of the level are shown. -/
def rank : LogLevel → Nat
  | .warn => 0
  | .info => 1
  | .debug => 2

end LogLevel

/-- A line of the log. -/
structure LogLine where
  level : LogLevel
  text : String
deriving DecidableEq, Repr

/-- The lines of a log that are shown at the given verbosity. -/
def LogLine.render (verbosity : Nat) (log : List LogLine) : String :=
  String.join ((log.filter (·.level.rank ≤ verbosity)).map fun line =>
    line.level.label ++ " " ++ line.text ++ "\n")

/-- A log, and a result or a failure. -/
structure Logged (α : Type) where
  log : List LogLine
  result : Except Failure α

namespace Logged

/-- A result without a log. -/
def ofExcept {α : Type} (result : Except Failure α) : Logged α :=
  ⟨[], result⟩

/-- Go on with the result, if there is one. -/
def andThen {α β : Type} (x : Logged α) (f : α → Logged β) : Logged β :=
  match x.result with
  | .ok a => ⟨x.log ++ (f a).log, (f a).result⟩
  | .error failure => ⟨x.log, .error failure⟩

instance : Monad Logged where
  pure a := ofExcept (.ok a)
  bind := andThen

theorem result_bind {α β : Type} (x : Logged α) (f : α → Logged β) :
    (x >>= f).result = x.result.bind fun a => (f a).result := by
  show (x.andThen f).result = _
  unfold andThen
  cases x.result with
  | error failure => rfl
  | ok a => rfl

/-- Add lines to the log. -/
def write (log : List LogLine) : Logged Unit :=
  ⟨log, .ok ()⟩

/-- Fail. -/
def fail {α : Type} (failure : Failure) : Logged α :=
  ofExcept (.error failure)

end Logged

end UnitCheck
