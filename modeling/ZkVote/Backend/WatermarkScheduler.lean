import Mathlib.Algebra.Order.Floor.Defs
import Mathlib.Data.Rat.Floor
import Mathlib.Tactic.Common

/-!
# The scheduler of the watermark loop

`indexer-scheduler.ts`. One event is what runs without another event in between. The callbacks that it is given may
call `start` and `stop` while they run, and may throw. Numbers are finite, and an interval of zero, by which the code
would divide, is not told apart.
-/

namespace ZkVote.WatermarkScheduler

structure WatermarkSchedulerOptions where
  intervalMs : ℚ
  /-- What the constructor checks. -/
  intervalMs_pos : 0 < intervalMs
  maxConsecutiveOverruns : ℚ := 2
  backpressureFactor : ℚ := 2
  maxIntervalMs : Option ℚ := none
  recoveryCycles : ℚ := 3
  /-- Whether there is a `getQueueDepth`. -/
  hasProbe : Bool := false
  /-- Infinity where there is none. -/
  maxQueueDepth : Option ℚ := none

def DEFAULT_MAX_BACKPRESSURE_LEVEL : Nat := 5

def WatermarkSchedulerOptions.maxInterval (o : WatermarkSchedulerOptions) : ℚ :=
  o.maxIntervalMs.getD (o.intervalMs * o.backpressureFactor ^ DEFAULT_MAX_BACKPRESSURE_LEVEL)

/-! ## The state -/

/-- The fields of the object; a cycle, its promise and its controller go by one number. -/
structure Fields where
  timer : Bool := false
  activeCycle : Option Nat := none
  activeController : Option Nat := none
  nextRunAt : ℚ := 0
  started : Bool := false
  cyclesStarted : Nat := 0
  cyclesCompleted : Nat := 0
  cyclesFailed : Nat := 0
  skippedPolls : Nat := 0
  shedPolls : Nat := 0
  consecutiveOverruns : Nat := 0
  consecutiveOnTime : Nat := 0
  backpressureLevel : Nat := 0

/-- How far a cycle has come: `runCycle` is at work, its promise has settled, or all is done but `finally`. -/
inductive CycleStatus where
  | running
  | settled (fulfilled : Bool)
  | handled
deriving DecidableEq

/-- A call of `stop`: the cycle it waits for, whether there was a `start` after it, and whether it has returned. -/
structure StopCall where
  awaited : Option Nat
  restarted : Bool := false
  returned : Bool := false

/-- The object, the cycles that have begun and not ended, the calls of `stop`, and what is observed of overruns. -/
structure World extends Fields where
  cycles : List (Nat × CycleStatus) := []
  aborted : List Nat := []
  stops : List StopCall := []
  /-- Whether a tick was dropped since the latest cycle began. -/
  overran : Bool := false
  /-- The overruns since the interval was widened or a cycle completed on time. -/
  overruns : Nat := 0
  /-- How many there were each time that the interval was widened. -/
  widenedBy : List Nat := []

def World.new : World := {}

inductive Call where
  | start (now : ℚ)
  | stop

/-- What a callback does to the scheduler while it runs, and whether it then throws. -/
structure Callback where
  calls : List Call := []
  throws : Bool := false

variable (o : WatermarkSchedulerOptions)

def World.currentIntervalMs (w : World) : ℚ :=
  min o.maxInterval (o.intervalMs * o.backpressureFactor ^ w.backpressureLevel)

/-! ## `start` and `stop` -/

def World.start (w : World) (now : ℚ) : World :=
  if w.started = true then w
  else
    { w with
      started := true
      nextRunAt := now + w.currentIntervalMs o
      timer := true
      stops := w.stops.map fun stop => { stop with restarted := true } }

/-- Up to its `await`. -/
def World.stop (w : World) : World :=
  { w with
    started := false
    timer := false
    aborted := w.activeController.toList ++ w.aborted
    stops := w.stops ++ [{ awaited := w.activeCycle }] }

def World.call (w : World) : Call → World
  | .start now => w.start o now
  | .stop => w.stop

def World.during (w : World) (callback : Callback) : World := callback.calls.foldl (World.call o) w

/-! ## Backpressure; `false` where a callback throws -/

def World.widen (w : World) : World :=
  { w with
    backpressureLevel := w.backpressureLevel + 1
    consecutiveOverruns := 0
    widenedBy := w.overruns :: w.widenedBy
    overruns := 0 }

def World.applyBackpressure (w : World) (onBackpressure : Callback) : World × Bool :=
  if (w.consecutiveOverruns : ℚ) < o.maxConsecutiveOverruns then (w, true)
  else if o.maxInterval ≤ w.currentIntervalMs o then (w, true)
  else (w.widen.during o onBackpressure, !onBackpressure.throws)

def World.relieveBackpressure (w : World) (onBackpressure : Callback) : World × Bool :=
  let w := { w with consecutiveOnTime := w.consecutiveOnTime + 1 }
  if w.backpressureLevel = 0 then (w, true)
  else if (w.consecutiveOnTime : ℚ) < o.recoveryCycles then (w, true)
  else
    let w := { w with backpressureLevel := w.backpressureLevel - 1, consecutiveOnTime := 0 }
    (w.during o onBackpressure, !onBackpressure.throws)

def World.count (w : World) (skipped : Nat) : World :=
  { w with
    skippedPolls := w.skippedPolls + skipped
    consecutiveOverruns := w.consecutiveOverruns + skipped
    consecutiveOnTime := 0
    overruns := w.overruns + skipped }

def World.noteOverrun (w : World) (skipped : Nat) (onOverrun onBackpressure : Callback) : World × Bool :=
  let w := (w.count skipped).during o onOverrun
  if onOverrun.throws = true then (w, false) else w.applyBackpressure o onBackpressure

/-! ## A tick -/

/-- What a tick meets: the clock, the callbacks in their order, and the depth of the queue, if the probe does not
throw. -/
structure Tick where
  now : ℚ
  onOverrun : Callback := {}
  onBackpressure : Callback := {}
  probe : Callback := {}
  depth : ℚ := 0
  onShed : Callback := {}
  onShedBackpressure : Callback := {}
  runCycle : Callback := {}

def World.lateIntervals (w : World) (now : ℚ) : Nat := ⌊(now - w.nextRunAt) / w.currentIntervalMs o⌋.toNat

def World.startCycle (w : World) (t : Tick) : World :=
  let cycle := w.cyclesStarted
  let w := { w with
    activeController := some cycle
    cyclesStarted := cycle + 1
    cycles := (cycle, .running) :: w.cycles
    overran := false }
  let w := w.during o t.runCycle
  if t.runCycle.throws = true then { w with cycles := w.cycles.filter fun c => c.1 ≠ cycle }
  else { w with activeCycle := some cycle }

def World.probed (w : World) (t : Tick) : World := if o.hasProbe = true then w.during o t.probe else w

/-- A probe that throws reports a depth of zero. -/
def Tick.full (t : Tick) : Bool :=
  match o.maxQueueDepth with
  | none => false
  | some most => o.hasProbe && decide (most ≤ if t.probe.throws = true then 0 else t.depth)

def World.shed (w : World) (t : Tick) : World :=
  ({ w with shedPolls := w.shedPolls + 1 }.noteOverrun o 1 t.onShed t.onShedBackpressure).1

def World.probeAndStart (w : World) (t : Tick) : World :=
  if t.full o = true then (w.probed o t).shed o t else (w.probed o t).startCycle o t

/-- The next tick is scheduled before anything else is done. -/
def World.advance (w : World) (late : Nat) : World :=
  { w with timer := true, nextRunAt := w.nextRunAt + (late + 1) * w.currentIntervalMs o }

def World.drop (w : World) (late : Nat) (t : Tick) : World :=
  ({ w with overran := true }.noteOverrun o (late + 1) t.onOverrun t.onBackpressure).1

def World.tick (w : World) (t : Tick) : World :=
  if w.started = false then w
  else
    let late := w.lateIntervals o t.now
    let w := w.advance o late
    if w.activeCycle.isSome = true then w.drop o late t
    else if late = 0 then w.probeAndStart o t
    else
      let noted := w.noteOverrun o late t.onOverrun t.onBackpressure
      if noted.2 = true then noted.1.probeAndStart o t else noted.1

/-! ## The end of a cycle -/

def World.setStatus (w : World) (cycle : Nat) (status : CycleStatus) : World :=
  { w with cycles := w.cycles.map fun c => if c.1 = cycle then (cycle, status) else c }

/-- The promise of `runCycle` settles. A cycle that no tick was dropped for has completed on time. -/
def World.settle (w : World) (cycle : Nat) (fulfilled : Bool) : World :=
  let w := w.setStatus cycle (.settled fulfilled)
  if fulfilled = true ∧ w.overran = false then { w with overruns := 0 } else w

/-- `then`, which counts every completion as one on time; what `onBackpressure` throws goes to `catch`. -/
def World.completed (w : World) (cycle : Nat) (onBackpressure : Callback) : World :=
  match { w with cyclesCompleted := w.cyclesCompleted + 1 }.relieveBackpressure o onBackpressure with
  | (w, true) => w.setStatus cycle .handled
  | (w, false) => w.setStatus cycle (.settled false)

/-- `catch`. -/
def World.failed (w : World) (cycle : Nat) (onError : Callback) : World :=
  if cycle ∈ w.aborted then w.setStatus cycle .handled
  else ({ w with cyclesFailed := w.cyclesFailed + 1 }.during o onError).setStatus cycle .handled

/-- `finally`. -/
def World.finish (w : World) (cycle : Nat) : World :=
  { w with
    activeController := none
    activeCycle := none
    cycles := w.cycles.filter fun c => c.1 ≠ cycle }

/-! ## Events -/

inductive Event where
  | call (call : Call)
  | tick (t : Tick)
  | settle (cycle : Nat) (fulfilled : Bool)
  | handle (cycle : Nat) (callback : Callback)
  | finish (cycle : Nat)
  /-- A call of `stop` returns. -/
  | stopped (index : Nat)

/-- The cycle that a call of `stop` waits for, if any, has ended. -/
def World.unblocked (w : World) (stop : StopCall) : Bool :=
  match stop.awaited with
  | none => true
  | some cycle => w.cycles.all fun c => c.1 ≠ cycle

def World.next (w : World) : Event → Option World
  | .call call => some (w.call o call)
  | .tick t => if w.timer = true then some (w.tick o t) else none
  | .settle cycle fulfilled => if (cycle, .running) ∈ w.cycles then some (w.settle cycle fulfilled) else none
  | .handle cycle callback =>
    if (cycle, .settled true) ∈ w.cycles then some (w.completed o cycle callback)
    else if (cycle, .settled false) ∈ w.cycles then some (w.failed o cycle callback)
    else none
  | .finish cycle => if (cycle, .handled) ∈ w.cycles then some (w.finish cycle) else none
  | .stopped index =>
    match w.stops[index]? with
    | none => none
    | some stop =>
      if w.unblocked stop = true then some { w with stops := w.stops.set index { stop with returned := true } }
      else none

def World.Step (w : World) (event : Event) (w' : World) : Prop := w.next o event = some w'

end ZkVote.WatermarkScheduler
