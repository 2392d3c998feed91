import Mathlib.Algebra.Order.Field.Rat
import Mathlib.Tactic.Common

/-!
# Circuit breakers

`backend/src/services/circuit-breaker.ts`. `execute` is given as what runs before its
function is called, and what runs once it has settled.
-/

namespace ZkVote

/-- A JavaScript number; no rounding. -/
abbrev Number := ℚ

inductive CircuitState where
  | closed | opened | half_open
deriving DecidableEq

structure CircuitBreakerOptions where
  failureThreshold : Number
  resetTimeoutMs : Number
  failureWindowMs : Option Number := none

structure CircuitBreaker where
  options : CircuitBreakerOptions
  state : CircuitState := .closed
  failureTimestamps : List Number := []
  openedAt : Option Number := none
  halfOpenInFlight : Bool := false

namespace CircuitBreaker

variable (b : CircuitBreaker) (now : Number)

def transitionTo (next : CircuitState) : CircuitBreaker :=
  if b.state = next then b
  else
    let openedAt := if b.state = .opened then none else b.openedAt
    { b with
      openedAt := if next = .opened then some now else openedAt
      state := next
      failureTimestamps := [] }

def maybeTransitionToHalfOpen : CircuitBreaker :=
  match b.openedAt with
  | none => b
  | some openedAt =>
    if b.state = .opened ∧ b.options.resetTimeoutMs ≤ now - openedAt then b.transitionTo now .half_open else b

/-- `execute` up to the call of its function; `false` where it throws `CircuitBreakerOpenError`. -/
def enter : CircuitBreaker × Bool :=
  let b := b.maybeTransitionToHalfOpen now
  match b.state with
  | .opened => (b, false)
  | .half_open => if b.halfOpenInFlight then (b, false) else ({ b with halfOpenInFlight := true }, true)
  | .closed => (b, true)

def onSuccess : CircuitBreaker :=
  let b := { b with failureTimestamps := [] }
  if b.state ≠ .closed then b.transitionTo now .closed else b

def onFailure : CircuitBreaker :=
  if b.state = .half_open then b.transitionTo now .opened
  else
    let windowMs := b.options.failureWindowMs.getD 30000
    let failureTimestamps := (b.failureTimestamps ++ [now]).filter fun t => now - t ≤ windowMs
    let b := { b with failureTimestamps := failureTimestamps }
    if b.options.failureThreshold ≤ (failureTimestamps.length : Number) then b.transitionTo now .opened else b

/-- `execute` from the moment its function has settled. -/
def leave (succeeded : Bool) : CircuitBreaker :=
  let b := if succeeded then b.onSuccess now else b.onFailure now
  { b with halfOpenInFlight := false }

end CircuitBreaker

end ZkVote
