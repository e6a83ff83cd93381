import SaslExchange.Log

/-!
# Steps of an exchange

A party of an exchange is a state and a function that answers one message. The result of a
step is the answer or the cause of failure, the state that the next step starts from, and the
lines that it logged.
-/

namespace SaslExchange

/-- What one call of a party yields. -/
structure Step (State Failure Reply : Type) where
  answer : Except Failure Reply
  next : State
  log : List Log.Line := []

namespace Step

variable {State Failure Reply : Type}

def reply (answer : Reply) (next : State) (log : List Log.Line := []) :
    Step State Failure Reply :=
  ⟨.ok answer, next, log⟩

def fail (cause : Failure) (next : State) (log : List Log.Line := []) :
    Step State Failure Reply :=
  ⟨.error cause, next, log⟩

/-- The step of a party that holds the state of another one. -/
def map {State' : Type} (f : State → State') (step : Step State Failure Reply) :
    Step State' Failure Reply :=
  ⟨step.answer, f step.next, step.log⟩

/-- Logs further lines after those of the step. -/
def andLog (step : Step State Failure Reply) (lines : List Log.Line) :
    Step State Failure Reply :=
  { step with log := step.log ++ lines }

end Step

/-- A coarse classification of failures, which tells what to log and not what to tell the
other party. -/
inductive ErrorKind
  /-- Something malformed or missing, or a step out of turn. -/
  | protocolViolation
  /-- A digest, proof or signature that doesn't verify. -/
  | cryptographicMismatch
  /-- The other party asks for something that isn't offered here. -/
  | unsupportedParameter
  /-- Something went wrong on this side. -/
  | internal
deriving DecidableEq

def ErrorKind.description : ErrorKind → String
  | .protocolViolation => "protocol violation"
  | .cryptographicMismatch => "cryptographic mismatch"
  | .unsupportedParameter => "unsupported parameter"
  | .internal => "internal error"

end SaslExchange
