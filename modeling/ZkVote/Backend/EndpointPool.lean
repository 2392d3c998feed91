import ZkVote.Backend.CircuitBreaker
import Mathlib.Algebra.Order.Ring.Rat
import Mathlib.Data.Finset.Lattice.Basic
import Mathlib.Logic.Function.Basic

/-!
# The endpoint pool

`backend/src/services/endpoint-pool.ts`: which endpoint a call goes to, and what is
tried after a failure. One event is what runs without another event in between, and it
reads the clocks once.
-/

namespace ZkVote.EndpointPool

/-! ## The fallback matrix -/

inductive OperationClass where
  | read | consistent_read | quote | submit_idempotent | submit_non_idempotent
deriving DecidableEq

structure FallbackRule where
  failover : Bool
  requireFresh : Bool
  retryAmbiguous : Bool

def FALLBACK_MATRIX : OperationClass → FallbackRule
  | .read => ⟨true, false, true⟩
  | .consistent_read => ⟨true, true, true⟩
  | .quote => ⟨true, true, true⟩
  | .submit_idempotent => ⟨true, false, true⟩
  | .submit_non_idempotent => ⟨false, false, false⟩

/-! ## Failures -/

inductive FailureKind where
  | client | rate_limited | unavailable | ambiguous
deriving DecidableEq

structure ClassifiedFailure where
  kind : FailureKind
  retryAfterMs : Option Number := none

/-- A property of an error: missing, a number or anything else. -/
inductive Field where
  | nullish
  | number (n : Number)
  | text (s : String)
  | other

/-- `a ?? b`. -/
def Field.orElse : Field → Field → Field
  | .nullish, b => b
  | a, _ => a

/-- What is thrown, with the properties that are looked at. -/
inductive ErrorValue where
  | CircuitBreakerOpenError
  | EndpointTimeoutError
  | error (status responseStatus code causeCode : Field) (retryAfterMs retryAfterHeader : Option Number)

def NOT_SENT_CODES : List String :=
  ["ECONNREFUSED", "ENOTFOUND", "EAI_AGAIN", "EHOSTUNREACH", "ENETUNREACH", "UND_ERR_CONNECT_TIMEOUT"]

/-- A header `retry-after` stands for what `parseRetryAfterMs` makes of it. -/
def classifyError : ErrorValue → ClassifiedFailure
  | .CircuitBreakerOpenError => { kind := .unavailable }
  | .EndpointTimeoutError => { kind := .ambiguous }
  | .error status responseStatus code causeCode retryAfterMs retryAfterHeader =>
    match status.orElse responseStatus with
    | .number status =>
      if status = 429 then { kind := .rate_limited, retryAfterMs := retryAfterMs.or retryAfterHeader }
      else if status = 502 ∨ status = 503 then { kind := .unavailable }
      else if 500 ≤ status ∨ status = 408 then { kind := .ambiguous }
      else { kind := .client }
    | _ =>
      match code.orElse causeCode with
      | .text code => if code ∈ NOT_SENT_CODES then { kind := .unavailable } else { kind := .ambiguous }
      | _ => { kind := .ambiguous }

/-! ## The retry budget -/

structure RetryPolicy where
  maxAttempts : Number := 3
  baseDelayMs : Number := 200
  budgetRatio : Number := 1 / 5
  budgetMinRetries : Number := 10
  budgetWindowMs : Number := 10000

structure RetryBudget where
  requests : List Number := []
  retries : List Number := []

namespace RetryBudget

variable (policy : RetryPolicy) (budget : RetryBudget) (now : Number)

def prune : RetryBudget :=
  let cutoff := now - policy.budgetWindowMs
  { requests := budget.requests.dropWhile fun t => t < cutoff
    retries := budget.retries.dropWhile fun t => t < cutoff }

def recordRequest : RetryBudget :=
  let budget := budget.prune policy now
  { budget with requests := budget.requests ++ [now] }

def allowed (requests : Nat) : Number :=
  max policy.budgetMinRetries (Rat.floor (requests * policy.budgetRatio) : Int)

def tryAcquire : RetryBudget × Bool :=
  let budget := budget.prune policy now
  if allowed policy budget.requests.length ≤ (budget.retries.length : Number) then (budget, false)
  else ({ budget with retries := budget.retries ++ [now] }, true)

end RetryBudget

/-! ## Endpoints -/

structure EndpointState where
  label : String
  probeHealthy : Bool := true
  latencyEwmaMs : Number := 0
  errorEwma : Number := 0
  ledger : Option Number := none
  ledgerObservedAt : Number := 0
  ingestLagLedgers : Number := 0
  cooldownUntil : Number := 0

structure EndpointPoolOptions where
  /-- `endpointLabel` of the distinct URLs. -/
  labels : List String
  ledgerAware : Bool
  maxLagLedgers : Number := 5
  maxObservationAgeMs : Number := 30000
  retry : RetryPolicy := {}
  breaker : CircuitBreakerOptions := { failureThreshold := 5, resetTimeoutMs := 30000 }

structure ProbeResult where
  ledger : Option Number
  ingestLagLedgers : Option Number

/-- What the clocks read, and what `Math.random` gives. -/
structure Reading where
  now : Number
  /-- `Date.now`, which the breakers go by. -/
  date : Number
  random : Number

/-! ## Calls -/

/-- Where a call of `execute` waits. -/
inductive Phase where
  /-- For `ensureFreshObservations`. -/
  | ensuring
  /-- For the function it was given, called at an endpoint. -/
  | inFlight (ep : Nat) (start : Number)
  /-- For the breaker, which has its answer. -/
  | settled (ep : Nat) (start : Number) (failure : Option ErrorValue)
  /-- For `callEndpoint`, which has its answer. -/
  | answered (ep : Nat) (failure : Option ErrorValue)
  /-- For `sleep`, before it goes to the endpoint. -/
  | sleeping (next : Nat)
  | returned
  /-- It throws the error itself. -/
  | rejected (err : ErrorValue)
  | staleRead
  | dependencyUnavailable (lastError : Option ErrorValue)

structure ExecuteCall where
  opClass : OperationClass
  attempt : Nat := 0
  /-- The endpoints tried, by their place in the pool. -/
  tried : List Nat := []
  lastError : Option ErrorValue := none
  phase : Phase

structure Pool where
  endpoint : Nat → EndpointState
  breaker : String → CircuitBreaker
  budget : RetryBudget := {}
  /-- The calls made so far, under numbers of their own. -/
  call : Nat → Option ExecuteCall := fun _ => none

/-- What an event calls and starts. -/
structure Effect where
  /-- The call whose function is invoked, its class and the endpoint. -/
  invoked : Option (Nat × OperationClass × Nat) := none
  /-- A retry is recorded. -/
  retried : Bool := false
  /-- A request is recorded. -/
  requested : Bool := false

section
variable (o : EndpointPoolOptions)

/-- `new EndpointPool(options)`. -/
def constructor : Pool where
  endpoint := fun i => { label := o.labels.getD i "" }
  breaker := fun _ => { options := o.breaker }

namespace Pool

variable (p : Pool)

/-- `this.endpoints`, by their places. -/
def endpoints : List Nat := List.range o.labels.length

def setEndpoint (ep : Nat) (e : EndpointState) : Pool := { p with endpoint := Function.update p.endpoint ep e }

def setCall (id : Nat) (call : ExecuteCall) : Pool := { p with call := Function.update p.call id (some call) }

def setBreaker (ep : Nat) (b : CircuitBreaker) : Pool :=
  { p with breaker := Function.update p.breaker (p.endpoint ep).label b }

/-! ### Freshness -/

def observationFresh (now : Number) (ep : Nat) : Bool :=
  now - (p.endpoint ep).ledgerObservedAt ≤ o.maxObservationAgeMs

def tipLedger (now : Number) : Option Number :=
  let reporting := (endpoints o).filter fun ep => p.observationFresh o now ep
  let ledgers := (reporting.filterMap fun ep => (p.endpoint ep).ledger).mergeSort fun a b => b ≤ a
  if 3 ≤ ledgers.length then ledgers[1]? else ledgers[0]?

def isFresh (now : Number) (tip : Option Number) (ep : Nat) : Bool :=
  if !o.ledgerAware then true
  else
    match (p.endpoint ep).ledger with
    | none => false
    | some ledger =>
      if !p.observationFresh o now ep then false
      else if o.maxLagLedgers < (p.endpoint ep).ingestLagLedgers then false
      else
        match tip with
        | none => false
        | some tip => |tip - ledger| ≤ o.maxLagLedgers

/-! ### Selection -/

/-- `breaker.getState()` of every endpoint. -/
def observe (date : Number) : Pool :=
  (endpoints o).foldl (fun p ep => p.setBreaker ep ((p.breaker (p.endpoint ep).label).maybeTransitionToHalfOpen date)) p

/-- The breaker lets calls through, and the endpoint has not asked for a pause. -/
def reachable (now : Number) (ep : Nat) : Bool :=
  (p.breaker (p.endpoint ep).label).state ≠ .opened ∧ (p.endpoint ep).cooldownUntil ≤ now

/-- With the breakers observed. -/
def isEligible (rule : FallbackRule) (now : Number) (tip : Option Number) (ep : Nat) : Bool :=
  p.reachable now ep ∧ (p.endpoint ep).probeHealthy = true ∧ (rule.requireFresh = true → p.isFresh o now tip ep = true)

def score (ep : Nat) : Number :=
  let reliability := (1 - (p.endpoint ep).errorEwma) ^ 2
  max (1 / 100) (reliability / (1 + (p.endpoint ep).latencyEwmaMs / 250))

/-- The loop of the weighted pick. -/
def pickFrom : List Nat → Number → Option Nat
  | [], _ => none
  | ep :: rest, pick => if pick - p.score ep ≤ 0 then some ep else pickFrom rest (pick - p.score ep)

/-- At random, in proportion to the scores. -/
def pick (pool : List Nat) (random : Number) : Option Nat :=
  let total := (pool.map p.score).sum
  (p.pickFrom pool (random * total)).or pool.getLast?

/-- Those not tried, if there are any. -/
def untriedFirst (tried candidates : List Nat) : List Nat :=
  let untried := candidates.filter fun ep => ep ∉ tried
  if untried = [] then candidates else untried

/-- With the breakers observed. -/
def eligible (rule : FallbackRule) (now : Number) : List Nat :=
  (endpoints o).filter fun ep => p.isEligible o rule now (p.tipLedger o now) ep

/-- With the breakers observed. The last resort is not for a class that has to be fresh. -/
def select (rule : FallbackRule) (tried : List Nat) (r : Reading) : Option Nat :=
  if p.eligible o rule r.now = [] then
    if rule.requireFresh then none
    else p.pick (untriedFirst tried ((endpoints o).filter fun ep => p.reachable r.now ep)) r.random
  else p.pick (untriedFirst tried (p.eligible o rule r.now)) r.random

/-! ### Attempts -/

def EWMA_ALPHA : Number := 3 / 10

def recordOutcome (ep : Nat) (latencyMs : Number) (failed : Bool) : Pool :=
  let e := p.endpoint ep
  p.setEndpoint ep { e with
    latencyEwmaMs :=
      if e.latencyEwmaMs = 0 then latencyMs else EWMA_ALPHA * latencyMs + (1 - EWMA_ALPHA) * e.latencyEwmaMs
    errorEwma := EWMA_ALPHA * (if failed then 1 else 0) + (1 - EWMA_ALPHA) * e.errorEwma }

/-- `callEndpoint` up to the call of the function. -/
def callEndpoint (id : Nat) (call : ExecuteCall) (ep : Nat) (r : Reading) : Pool × Effect :=
  let (b, admitted) := (p.breaker (p.endpoint ep).label).enter r.date
  let p := p.setBreaker ep b
  if admitted then
    (p.setCall id { call with phase := .inFlight ep r.now }, { invoked := some (id, call.opClass, ep) })
  else (p.setCall id { call with phase := .settled ep r.now (some .CircuitBreakerOpenError) }, {})

/-- What `execute` throws when its loop is left. -/
def lastPhase (call : ExecuteCall) : Phase :=
  if call.lastError.isNone ∧ (FALLBACK_MATRIX call.opClass).requireFresh = true then .staleRead
  else .dependencyUnavailable call.lastError

def finish (id : Nat) (call : ExecuteCall) (r : Reading) : Pool :=
  (p.observe o r.date).setCall id { call with phase := lastPhase call }

/-- The loop of `execute` on its arrival at an attempt. -/
def attempt (id : Nat) (call : ExecuteCall) (ep : Nat) (r : Reading) : Pool × Effect :=
  if (call.attempt : Number) < o.retry.maxAttempts then p.callEndpoint id call ep r
  else (p.finish o id call r, {})

/-- `execute` behind `ensureFreshObservations`. -/
def begin (id : Nat) (opClass : OperationClass) (r : Reading) : Pool × Effect :=
  let call : ExecuteCall := { opClass := opClass, phase := .ensuring }
  let p := { p with budget := p.budget.recordRequest o.retry r.now }
  let p := p.observe o r.date
  match p.select o (FALLBACK_MATRIX opClass) [] r with
  | none => (p.finish o id call r, { requested := true })
  | some ep =>
    let (p, effect) := p.attempt o id call ep r
    (p, { effect with requested := true })

/-- A retry that the budget allows: at once at an endpoint not tried, or else after a while. -/
def retry (id : Nat) (call : ExecuteCall) (next : Nat) (r : Reading) : Pool × Effect :=
  let (budget, acquired) := p.budget.tryAcquire o.retry r.now
  let p := { p with budget := budget }
  if !acquired then (p.finish o id call r, {})
  else if next ∈ call.tried then (p.setCall id { call with phase := .sleeping next }, { retried := true })
  else
    let (p, effect) := p.attempt o id { call with attempt := call.attempt + 1 } next r
    (p, { effect with retried := true })

/-- A rate limit puts the endpoint in cooldown for every call. -/
def coolDown (ep : Nat) (failure : ClassifiedFailure) (now : Number) : Pool :=
  if failure.kind = .rate_limited then
    p.setEndpoint ep { p.endpoint ep with
      cooldownUntil := now + failure.retryAfterMs.getD (o.retry.baseDelayMs * 5) }
  else p

/-- What `execute` does about a failure. -/
def handleFailure (id : Nat) (call : ExecuteCall) (ep : Nat) (err : ErrorValue) (r : Reading) : Pool × Effect :=
  let rule := FALLBACK_MATRIX call.opClass
  let failure := classifyError err
  if failure.kind = .client then ((p.observe o r.date).setCall id { call with phase := .rejected err }, {})
  else
    let call := { call with lastError := some err, tried := ep :: call.tried }
    let p := p.coolDown o ep failure r.now
    if failure.kind = .ambiguous ∧ rule.retryAmbiguous = false then (p.finish o id call r, {})
    else if o.retry.maxAttempts ≤ (call.attempt + 1 : Number) then (p.finish o id call r, {})
    else if rule.failover then
      let p := p.observe o r.date
      match p.select o rule call.tried r with
      | none => (p.finish o id call r, {})
      | some next => p.retry o id call next r
    else p.retry o id call ep r

end Pool

/-! ## Events -/

inductive Event where
  /-- `execute` is called. -/
  | execute (id : Nat) (opClass : OperationClass)
  /-- `ensureFreshObservations` returns. -/
  | ensured (id : Nat)
  /-- The function settles, or runs out of time. -/
  | settle (id : Nat) (failure : Option ErrorValue)
  /-- The breaker's answer reaches `callEndpoint`. -/
  | answer (id : Nat)
  /-- The answer of `callEndpoint` reaches `execute`. -/
  | handle (id : Nat)
  /-- `sleep` returns. -/
  | wake (id : Nat)
  /-- A probe of an endpoint ends, with its result if it has one. -/
  | probed (ep : Nat) (result : Option ProbeResult)
  /-- `publishHealth` or `getStatus`, outside of the calls. -/
  | observed

/-- Whether a failure is charged to the endpoint's breaker. -/
def isCharged (failure : Option ErrorValue) : Bool :=
  match failure with
  | none => false
  | some err => (classifyError err).kind ≠ .client ∧ (classifyError err).kind ≠ .rate_limited

/-- Whether it counts as an error of the endpoint. -/
def isFailed (failure : Option ErrorValue) : Bool :=
  match failure with
  | none => false
  | some err => (classifyError err).kind ≠ .client

/-- One endpoint's part of `probeAll`. -/
def Pool.probed (p : Pool) (ep : Nat) (result : Option ProbeResult) (now : Number) : Pool :=
  let e := p.endpoint ep
  match result with
  | none => p.setEndpoint ep { e with probeHealthy := false }
  | some result =>
    let ingestLagLedgers := max 0 (result.ingestLagLedgers.getD 0)
    match result.ledger with
    | none => p.setEndpoint ep { e with probeHealthy := true, ingestLagLedgers := ingestLagLedgers }
    | some ledger => p.setEndpoint ep { e with
        probeHealthy := true, ingestLagLedgers := ingestLagLedgers, ledger := some ledger, ledgerObservedAt := now }

/-- What an event does; `none` where it cannot happen. -/
def step (p : Pool) (r : Reading) : Event → Option (Pool × Effect)
  | .execute id opClass =>
    match p.call id with
    | some _ => none
    | none =>
      if (FALLBACK_MATRIX opClass).requireFresh then
        some (p.setCall id { opClass := opClass, phase := .ensuring }, {})
      else some (p.begin o id opClass r)
  | .ensured id =>
    match p.call id with
    | some { opClass := opClass, phase := .ensuring, .. } => some (p.begin o id opClass r)
    | _ => none
  | .settle id failure =>
    match p.call id with
    | some call =>
      match call.phase with
      | .inFlight ep start =>
        let b := (p.breaker (p.endpoint ep).label).leave r.date (!isCharged failure)
        some ((p.setBreaker ep b).setCall id { call with phase := .settled ep start failure }, {})
      | _ => none
    | none => none
  | .answer id =>
    match p.call id with
    | some call =>
      match call.phase with
      | .settled ep start failure =>
        some ((p.recordOutcome ep (r.now - start) (isFailed failure)).setCall id
          { call with phase := .answered ep failure }, {})
      | _ => none
    | none => none
  | .handle id =>
    match p.call id with
    | some call =>
      match call.phase with
      | .answered _ none => some ((p.observe o r.date).setCall id { call with phase := .returned }, {})
      | .answered ep (some err) => some (p.handleFailure o id call ep err r)
      | _ => none
    | none => none
  | .wake id =>
    match p.call id with
    | some call =>
      match call.phase with
      | .sleeping next => some (p.attempt o id { call with attempt := call.attempt + 1 } next r)
      | _ => none
    | none => none
  | .probed ep result => some (p.probed ep result r.now, {})
  | .observed => some (p.observe o r.date, {})

end

end ZkVote.EndpointPool
