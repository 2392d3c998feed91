import ZkVote.Lib.Runs
import Mathlib.Algebra.Order.Ring.Rat
import Mathlib.Logic.Function.Basic

/-!
# The confirmation queue

`backend/src/services/confirmation-queue.ts`, with the queue enabled. One event is what runs without another
event in between, and it reads the clock once. A sleep of the worker may end at any time, and
`getTransaction` may answer at any time. Times are whole numbers of milliseconds.
-/

open Lib

namespace ZkVote.ConfirmationQueue

structure Config where
  confirmationInitialDelayMs : Int
  confirmationMaxDelayMs : Int
  confirmationMaxWaitMs : Int
  confirmationBackoffFactor : ℚ
  confirmationJitterEnabled : Bool
  confirmationResultCacheTtlMs : Int

/-- A number that may be Infinity. -/
inductive Bound where
  | finite (n : Int)
  | infinite
  deriving DecidableEq

def Bound.reached : Bound → Int → Bool
  | .finite n, m => decide (n ≤ m)
  | .infinite, _ => false

structure WaitForTransactionOptions where
  maxWaitMs : Option Bound := none
  maxAttempts : Option Bound := none
  initialDelayMs : Option Int := none
  maxDelayMs : Option Int := none
  backoffFactor : Option ℚ := none
  jitter : Option Bool := none

/-- What is left of the options when the defaults are filled in. -/
structure Options where
  maxWaitMs : Int
  maxAttempts : Bound
  initialDelayMs : Int
  maxDelayMs : Int
  backoffFactor : ℚ
  jitter : Bool

structure GetTransactionResponse where
  status : String
  /-- The rest of it, which nobody reads here. -/
  body : String
  deriving DecidableEq

structure TransactionConfirmationTimeoutError where
  hash : String
  waitedMs : Int
  attempts : Nat
  deriving DecidableEq

inductive Settlement where
  | resolved (result : GetTransactionResponse)
  | rejected (error : TransactionConfirmationTimeoutError)
  deriving DecidableEq

/-! ## The state of the queue -/

/-- Callers are numbered. Nobody reads the deadline. -/
structure Waiter where
  id : Nat
  deadline : Int

structure PendingEntry where
  hash : String
  options : Options
  deadline : Int
  startTime : Int
  attempts : Nat := 0
  nextPollAt : ℚ
  pollInFlight : Bool := false
  resolved : Bool := false
  waiters : List Waiter := []

/-- An outcome without a result is that of a hash that has expired. -/
structure CachedOutcome where
  result : Option GetTransactionResponse
  resolvedAt : Int
  enqueuedAt : Int
  attempts : Nat

/-- The timer of a waiter, with the entry that its callback holds. -/
structure Timer where
  entry : Nat
  dueAt : Int

/-- Where a loop of the worker is. -/
inductive Loop where
  /-- In its sleep, or between two turns. -/
  | asleep
  | polling (entry : Nat)
  | left
  deriving DecidableEq

/-- What a caller has asked for: the entry it was put on, if any, and the polls that entry had had. -/
structure Call where
  hash : String
  options : Options
  calledAt : Int
  entry : Option Nat := none
  attemptsBefore : Nat := 0

structure QueueState where
  config : Config
  now : Int
  /-- The entries ever made, by number. -/
  entry : Nat → Option PendingEntry := fun _ => none
  created : Nat := 0
  /-- In the order of insertion. -/
  pending : List (String × Nat) := []
  resultsCache : String → Option CachedOutcome := fun _ => none
  running : Bool := false
  loops : List Loop := []
  /-- The loop whose promise was kept last. -/
  workerPromise : Option Nat := none
  /-- What the calls of `stopConfirmationWorker` in progress wait for. -/
  stops : List (Option Nat) := []
  timer : Nat → Option Timer := fun _ => none
  call : Nat → Option Call := fun _ => none
  called : Nat := 0
  /-- How the promises of the callers were settled, the last one first. -/
  settlements : List (Nat × Settlement) := []

def QueueState.settle (s : QueueState) (id : Nat) (outcome : Settlement) : QueueState :=
  { s with settlements := (id, outcome) :: s.settlements }

def QueueState.modifyEntry (s : QueueState) (e : Nat) (f : PendingEntry → PendingEntry) : QueueState :=
  { s with entry := Function.update s.entry e ((s.entry e).map f) }

/-! ## Backoff and options -/

/-- `random` is the outcome of `Math.random`. -/
def computeBackoffDelay (random : ℚ) (notFoundCount : Nat) (opts : Options) : ℚ :=
  let base : ℚ := min opts.maxDelayMs (opts.initialDelayMs * opts.backoffFactor ^ (notFoundCount - 1))
  if opts.jitter = false then base
  else
    let half := base * (1 / 2)
    (half + random * half).floor

def resolveOptions (config : Config) (o : WaitForTransactionOptions) : Options :=
  let maxAttempts := o.maxAttempts.getD (.finite 60)
  let initialDelayMs := o.initialDelayMs.getD config.confirmationInitialDelayMs
  let derivedWait := match maxAttempts with
    | .finite n => n * initialDelayMs
    | .infinite => config.confirmationMaxWaitMs
  let maxWaitMs := match o.maxWaitMs with
    | some (.finite n) => min n derivedWait
    | some .infinite => derivedWait
    | none => min config.confirmationMaxWaitMs derivedWait
  { maxWaitMs := max 0 maxWaitMs
    maxAttempts := maxAttempts
    initialDelayMs := initialDelayMs
    maxDelayMs := o.maxDelayMs.getD config.confirmationMaxDelayMs
    backoffFactor := o.backoffFactor.getD config.confirmationBackoffFactor
    jitter := o.jitter.getD config.confirmationJitterEnabled }

/-! ## The end of an entry -/

/-- Each waiter has its timer cleared and its promise settled, and the outcome is cached. -/
def closeEntry (t : Int) (e : Nat) (outcome : Settlement) (result : Option GetTransactionResponse)
    (s : QueueState) : QueueState :=
  match s.entry e with
  | none => s
  | some entry =>
    if entry.resolved = true then s
    else
      let ids := entry.waiters.map Waiter.id
      { s with
        entry := Function.update s.entry e (some { entry with resolved := true, waiters := [] })
        pending := s.pending.filter fun p => p.1 ≠ entry.hash
        resultsCache := Function.update s.resultsCache entry.hash (some
          { result := result, resolvedAt := t, enqueuedAt := entry.startTime, attempts := entry.attempts })
        timer := fun id => if id ∈ ids then none else s.timer id
        settlements := ids.reverse.map (fun id => (id, outcome)) ++ s.settlements }

def resolveEntry (t : Int) (e : Nat) (result : GetTransactionResponse) : QueueState → QueueState :=
  closeEntry t e (.resolved result) (some result)

def failEntry (t : Int) (e : Nat) (error : TransactionConfirmationTimeoutError) : QueueState → QueueState :=
  closeEntry t e (.rejected error) none

def timeoutError (t : Int) (entry : PendingEntry) : TransactionConfirmationTimeoutError where
  hash := entry.hash
  waitedMs := t - entry.startTime
  attempts := entry.attempts

/-! ## The worker -/

def isDue (t : Int) (entry : PendingEntry) : Bool :=
  !entry.resolved && !entry.pollInFlight && decide (entry.nextPollAt ≤ t)

/-- A turn of `workerLoop`, up to its next `await`. -/
def loopRuns (t : Int) (i : Nat) (s : QueueState) : QueueState :=
  if s.running = false then { s with loops := s.loops.set i .left }
  else
    match s.pending.find? fun p => (s.entry p.2).any (isDue t) with
    | some (_, e) =>
      { s.modifyEntry e (fun entry => { entry with pollInFlight := true }) with loops := s.loops.set i (.polling e) }
    | none => { s with loops := s.loops.set i .asleep }

/-- `pollEntry` goes on after its `await`. -/
def pollReturns (t : Int) (random : ℚ) (e : Nat) (answer : Except String GetTransactionResponse) (s : QueueState) :
    QueueState :=
  match s.entry e with
  | none => s
  | some entry =>
    let s := match answer with
      | .ok result =>
        let entry := { entry with attempts := entry.attempts + 1 }
        let s := { s with entry := Function.update s.entry e (some entry) }
        if result.status ≠ "NOT_FOUND" then resolveEntry t e result s
        else if entry.deadline ≤ t ∨ entry.options.maxAttempts.reached entry.attempts = true then
          failEntry t e (timeoutError t entry) s
        else
          s.modifyEntry e fun entry =>
            { entry with nextPollAt := t + computeBackoffDelay random entry.attempts entry.options }
      | .error _ =>
        let s := s.modifyEntry e fun entry =>
          { entry with nextPollAt := t + computeBackoffDelay random (entry.attempts + 1) entry.options }
        if entry.deadline ≤ t then failEntry t e (timeoutError t entry) s else s
    s.modifyEntry e fun entry => { entry with pollInFlight := false }

/-- The new loop has its first turn at once. -/
def startConfirmationWorker (t : Int) (s : QueueState) : QueueState :=
  if s.running = true then s
  else
    loopRuns t s.loops.length
      { s with running := true, loops := s.loops ++ [.asleep], workerPromise := some s.loops.length }

def stopConfirmationWorker (s : QueueState) : QueueState :=
  if s.running = false then s else { s with running := false, stops := s.stops ++ [s.workerPromise] }

/-- `stopConfirmationWorker` goes on after its `await`. -/
def stopReturns (t : Int) (awaited : Option Nat) (s : QueueState) : QueueState :=
  (s.pending.map Prod.snd).foldl
    (fun s e => match s.entry e with
      | some entry => failEntry t e (timeoutError t entry) s
      | none => s)
    { s with workerPromise := none, stops := s.stops.erase awaited }

/-! ## The callers -/

def pruneCache (t : Int) (s : QueueState) : QueueState :=
  let cutoff := t - s.config.confirmationResultCacheTtlMs
  { s with resultsCache := fun hash => (s.resultsCache hash).filter fun outcome => !decide (outcome.resolvedAt < cutoff) }

/-- A delay that is no 31-bit number becomes 1. -/
def setTimeoutDelay (ms : Int) : Int := if 1 ≤ ms ∧ ms ≤ 2147483647 then ms else 1

/-- `pending.get`, or a new entry, for which the worker is started if it does not run. -/
def getEntry (t : Int) (hash : String) (opts : Options) (s : QueueState) : QueueState × Nat :=
  match s.pending.lookup hash with
  | some e => (s, e)
  | none =>
    let entry : PendingEntry :=
      { hash := hash, options := opts, deadline := t + opts.maxWaitMs, startTime := t, nextPollAt := t }
    (startConfirmationWorker t { s with
      entry := Function.update s.entry s.created (some entry)
      created := s.created + 1
      pending := s.pending ++ [(hash, s.created)] }, s.created)

def addWaiter (t : Int) (hash : String) (opts : Options) (e : Nat) (s : QueueState) : QueueState :=
  let waiter : Waiter := { id := s.called, deadline := t + opts.maxWaitMs }
  let attempts := ((s.entry e).map PendingEntry.attempts).getD 0
  { s.modifyEntry e (fun entry => { entry with waiters := entry.waiters ++ [waiter] }) with
    timer := Function.update s.timer s.called (some { entry := e, dueAt := t + setTimeoutDelay opts.maxWaitMs })
    call := Function.update s.call s.called (some
      { hash := hash, options := opts, calledAt := t, entry := some e, attemptsBefore := attempts })
    called := s.called + 1 }

/-- A caller who gets the answer at once. -/
def answerNow (t : Int) (hash : String) (opts : Options) (outcome : Settlement) (s : QueueState) : QueueState :=
  { s.settle s.called outcome with
    call := Function.update s.call s.called (some { hash := hash, options := opts, calledAt := t })
    called := s.called + 1 }

def waitForTransaction (t : Int) (hash : String) (options : WaitForTransactionOptions) (s : QueueState) : QueueState :=
  let opts := resolveOptions s.config options
  if opts.maxAttempts.reached 0 = true ∨ opts.maxWaitMs ≤ 0 then
    answerNow t hash opts (.rejected { hash := hash, waitedMs := 0, attempts := 0 }) s
  else
    let s := pruneCache t s
    match s.resultsCache hash with
    | some cached =>
      match cached.result with
      | some result => answerNow t hash opts (.resolved result) s
      | none =>
        answerNow t hash opts (.rejected
          { hash := hash, waitedMs := cached.resolvedAt - cached.enqueuedAt, attempts := cached.attempts }) s
    | none =>
      let r := getEntry t hash opts s
      addWaiter t hash opts r.2 r.1

/-- The timer of a waiter runs out. -/
def timerFires (t : Int) (id : Nat) (s : QueueState) : Option QueueState :=
  match s.timer id with
  | some timer =>
    match s.entry timer.entry with
    | some entry =>
      if timer.dueAt ≤ t then
        some { (s.modifyEntry timer.entry fun entry =>
            { entry with waiters := entry.waiters.filter fun w => w.id ≠ id }).settle id
              (.rejected (timeoutError t entry)) with
          timer := Function.update s.timer id none }
      else none
    | none => none
  | none => none

/-! ## Runs -/

inductive Event where
  | waitForTransaction (hash : String) (options : WaitForTransactionOptions)
  | timerFires (id : Nat)
  /-- A loop of the worker has its next turn. -/
  | wakes (i : Nat)
  /-- `getTransaction` answers the loop. -/
  | pollReturns (i : Nat) (random : ℚ) (answer : Except String GetTransactionResponse)
  | startConfirmationWorker
  | stopConfirmationWorker
  /-- The loop that a call of `stopConfirmationWorker` waits for is left. -/
  | stopReturns (awaited : Option Nat)
  /-- Only the cache is touched. -/
  | getConfirmationStatus

/-- `none` where the event cannot happen. -/
def QueueState.next (s : QueueState) (t : Int) : Event → Option QueueState
  | .waitForTransaction hash options => some (ConfirmationQueue.waitForTransaction t hash options s)
  | .timerFires id => ConfirmationQueue.timerFires t id s
  | .wakes i => if s.loops[i]? = some .asleep then some (loopRuns t i s) else none
  | .pollReturns i random answer =>
    match s.loops[i]? with
    | some (.polling e) =>
      some (ConfirmationQueue.pollReturns t random e answer { s with loops := s.loops.set i .asleep })
    | _ => none
  | .startConfirmationWorker => some (ConfirmationQueue.startConfirmationWorker t s)
  | .stopConfirmationWorker => some (ConfirmationQueue.stopConfirmationWorker s)
  | .stopReturns awaited =>
    if awaited ∈ s.stops ∧ (∀ i, awaited = some i → s.loops[i]? = some .left) then
      some (ConfirmationQueue.stopReturns t awaited s)
    else none
  | .getConfirmationStatus => some (pruneCache t s)

/-- The clock does not run backwards. -/
def Step (s : QueueState) (e : Int × Event) (s' : QueueState) : Prop :=
  ∃ s₁, s.now ≤ e.1 ∧ s.next e.1 e.2 = some s₁ ∧ s' = { s₁ with now := e.1 }

def QueueRun (config : Config) (t₀ : Int) : List (QueueState × Int × Event) → QueueState → Prop :=
  Run Step { config := config, now := t₀ }

end ZkVote.ConfirmationQueue
