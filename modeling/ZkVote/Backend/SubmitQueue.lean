import ZkVote.Lib.Runs

/-!
# The submission queue

`backend/src/services/submit-queue.ts`. One event is what runs without another event in between.
Submissions are numbered as they are enqueued. The clock may read anything, and a timer may fire at any
time it is set.
-/

open Lib

namespace ZkVote.SubmitQueue

structure Submission where
  id : Nat
  enqueuedAt : Int
  timeoutMs : Int
  deriving DecidableEq, Repr

inductive Rejection where
  /-- "SUBMIT_QUEUE_TIMEOUT" -/
  | queueTimeout
  /-- "Submission timeout after ..ms" -/
  | submissionTimeout (timeoutMs : Int)
  /-- "Shutdown timeout" -/
  | shutdownTimeout
  /-- What the execute function itself was rejected with. -/
  | failed (message : String)
  deriving DecidableEq, Repr

def Rejection.isTimeout : Rejection → Bool
  | .queueTimeout | .submissionTimeout _ | .shutdownTimeout => true
  | .failed _ => false

inductive Settlement where
  | resolved
  | rejected (r : Rejection)
  deriving DecidableEq, Repr

/-- What `executeWithTimeout` is waiting for. -/
structure Race where
  submission : Submission
  remainingTimeoutMs : Int
  /-- How the execute function settled, if it has. -/
  result : Option (Except String Unit)

structure QueueState where
  maxDepth : Nat
  itemTimeoutMs : Int
  queue : List Submission := []
  processing : Bool := false
  shutdownRequested : Bool := false
  totalProcessed : Nat := 0
  totalRejected : Nat := 0
  totalTimedOut : Nat := 0
  /-- The number of submissions accepted. -/
  enqueued : Nat := 0
  /-- The race the worker awaits. -/
  race : Option Race := none
  /-- The submissions whose execute function was called, the first one first. -/
  started : List Nat := []
  /-- Those whose execute function has not settled. -/
  running : List Nat := []
  /-- How the promises of the callers were settled, the last one first. -/
  settlements : List (Nat × Settlement) := []

def QueueState.settle (s : QueueState) (id : Nat) (outcome : Settlement) : QueueState :=
  { s with settlements := (id, outcome) :: s.settlements }

/-- `execute` is called, and the worker waits for it or for the timer. No signal is ever aborted
here: `shutdown` aborts the submissions that it drops. -/
def QueueState.start (s : QueueState) (submission : Submission) (remainingTimeoutMs : Int) : QueueState :=
  { s with
    race := some { submission := submission, remainingTimeoutMs := remainingTimeoutMs, result := none }
    started := s.started ++ [submission.id]
    running := submission.id :: s.running }

/-- The loop of `processQueue` over what is queued, up to its next `await`. The clock is read once for
each submission taken. When the loop is left, `finally` finds nothing to restart for. -/
def processQueue (clock : Nat → Int) : List Submission → QueueState → QueueState
  | [], s => { s with queue := [], processing := false }
  | submission :: queue, s =>
    if s.shutdownRequested then { s with queue := submission :: queue, processing := false }
    else
      let waitTimeMs := clock submission.id - submission.enqueuedAt
      if waitTimeMs > submission.timeoutMs then
        processQueue clock queue
          ({ s with totalTimedOut := s.totalTimedOut + 1 }.settle submission.id (.rejected .queueTimeout))
      else { s with queue := queue, processing := true }.start submission (submission.timeoutMs - waitTimeMs)

/-- The worker goes on after an `await`. -/
def QueueState.goOn (s : QueueState) (clock : Nat → Int) : QueueState :=
  processQueue clock s.queue { s with race := none }

def enqueue (s : QueueState) (timeoutMs : Option Int) (now : Int) (clock : Nat → Int) : QueueState :=
  if s.shutdownRequested then s
  else if s.maxDepth ≤ s.queue.length then { s with totalRejected := s.totalRejected + 1 }
  else
    let submission : Submission :=
      { id := s.enqueued, enqueuedAt := now, timeoutMs := timeoutMs.getD s.itemTimeoutMs }
    let s := { s with queue := s.queue ++ [submission], enqueued := s.enqueued + 1 }
    if s.processing then s else processQueue clock s.queue s

/-- The execute function of a submission settles. If the worker waits for it, the race is decided. -/
def executeSettles (s : QueueState) (id : Nat) (result : Except String Unit) : QueueState :=
  let decided (r : Race) : Race :=
    if r.submission.id = id ∧ r.result.isNone then { r with result := some result } else r
  { s with running := s.running.erase id, race := s.race.map decided }

/-- The worker takes up the result of the execute function. -/
def resume (s : QueueState) (clock : Nat → Int) : Option QueueState :=
  match s.race with
  | some ⟨submission, _, some (.ok _)⟩ =>
    some (({ s with totalProcessed := s.totalProcessed + 1 }.settle submission.id .resolved).goOn clock)
  | some ⟨submission, _, some (.error message)⟩ =>
    some ((s.settle submission.id (.rejected (.failed message))).goOn clock)
  | _ => none

/-- The timer is set until the race is decided. The promise is rejected and the worker goes on before
anything else runs. -/
def timerFires (s : QueueState) (clock : Nat → Int) : Option QueueState :=
  match s.race with
  | some ⟨submission, remainingTimeoutMs, none⟩ =>
    some ((s.settle submission.id (.rejected (.submissionTimeout remainingTimeoutMs))).goOn clock)
  | _ => none

/-- `shutdown` finds its deadline passed. -/
def shutdownExpires (s : QueueState) : Option QueueState :=
  if s.shutdownRequested ∧ (s.queue ≠ [] ∨ s.processing) then
    some { s with
      queue := []
      settlements := s.queue.reverse.map (fun item => (item.id, .rejected .shutdownTimeout)) ++ s.settlements }
  else none

inductive Event where
  | enqueue (timeoutMs : Option Int) (now : Int) (clock : Nat → Int)
  /-- An execute function in progress does something. -/
  | act (id : Nat)
  | executeSettles (id : Nat) (result : Except String Unit)
  | resume (clock : Nat → Int)
  | timerFires (clock : Nat → Int)
  | shutdown
  | shutdownExpires

/-- `none` where the event cannot happen. -/
def next (s : QueueState) : Event → Option QueueState
  | .enqueue timeoutMs now clock => some (enqueue s timeoutMs now clock)
  | .act id => if id ∈ s.running then some s else none
  | .executeSettles id result => if id ∈ s.running then some (executeSettles s id result) else none
  | .resume clock => resume s clock
  | .timerFires clock => timerFires s clock
  | .shutdown => some { s with shutdownRequested := true }
  | .shutdownExpires => shutdownExpires s

def Step (s : QueueState) (e : Event) (s' : QueueState) : Prop := next s e = some s'

def new (maxDepth : Nat) (itemTimeoutMs : Int) : QueueState where
  maxDepth := maxDepth
  itemTimeoutMs := itemTimeoutMs

end ZkVote.SubmitQueue
