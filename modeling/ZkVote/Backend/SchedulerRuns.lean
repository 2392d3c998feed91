import Mathlib.Algebra.Order.Field.Basic
import Mathlib.Algebra.Order.Field.Rat
import ZkVote.Backend.WatermarkScheduler
import ZkVote.Lib.Runs

/-!
# Runs of the scheduler

Cycles never overlap. The rest of what the scheduler promises holds as long as no callback of a tick stops it before a
cycle begins, and no overrun is still counted when a cycle completes on time.
-/

open Lib

namespace ZkVote.WatermarkScheduler

variable {o : WatermarkSchedulerOptions} {w w' : World} {t : Tick} {log : List (World × Event)}

/-! ## What is promised -/

structure Sound (o : WatermarkSchedulerOptions) (w : World) : Prop where
  single : (w.cycles.filter fun c => c.2 = .running).length ≤ 1
  /-- Once a call of `stop` has returned and no `start` has followed, no cycle is running and none starts. -/
  stopped : ∀ stop ∈ w.stops, stop.returned = true → stop.restarted = false →
    (∀ c ∈ w.cycles, c.2 ≠ .running) ∧ ∀ event w', w.Step o event w' → w'.cyclesStarted = w.cyclesStarted
  bounded : min o.intervalMs o.maxInterval ≤ w.currentIntervalMs o ∧ w.currentIntervalMs o ≤ o.maxInterval
  widened : ∀ n ∈ w.widenedBy, o.maxConsecutiveOverruns ≤ (n : ℚ)

/-- A tick that finds no cycle is not stopped by what it calls before one begins, and where a cycle completes on time,
the overruns before it are forgotten. -/
def Meets (w : World) : Event → Prop
  | .tick t => w.activeCycle = none →
    ∀ callback ∈ [t.onOverrun, t.onBackpressure, t.probe, t.runCycle], Call.stop ∉ callback.calls
  | .settle _ fulfilled => fulfilled = true → w.overran = false → w.consecutiveOverruns = 0
  | _ => True

/-! ## What a step does -/

inductive Moves (o : WatermarkSchedulerOptions) (w : World) : Event → World → Prop
  | call (call : Call) : Moves o w (.call call) (w.call o call)
  | tick (t : Tick) (harmed : w.timer = true) : Moves o w (.tick t) (w.tick o t)
  | settle {cycle : Nat} {fulfilled : Bool} (hcycle : (cycle, .running) ∈ w.cycles) :
      Moves o w (.settle cycle fulfilled) (w.settle cycle fulfilled)
  | completed {cycle : Nat} {callback : Callback} (hcycle : (cycle, .settled true) ∈ w.cycles) :
      Moves o w (.handle cycle callback) (w.completed o cycle callback)
  | failed {cycle : Nat} {callback : Callback} (hcycle : (cycle, .settled false) ∈ w.cycles) :
      Moves o w (.handle cycle callback) (w.failed o cycle callback)
  | finish {cycle : Nat} (hcycle : (cycle, .handled) ∈ w.cycles) : Moves o w (.finish cycle) (w.finish cycle)
  | stopped {index : Nat} {stop : StopCall} (hstop : w.stops[index]? = some stop) (hfree : w.unblocked stop = true) :
      Moves o w (.stopped index) { w with stops := w.stops.set index { stop with returned := true } }

theorem moves_of_step {event : Event} (h : w.Step o event w') : Moves o w event w' := by
  unfold World.Step at h
  cases event with
  | call call =>
    cases h
    exact .call call
  | tick t =>
    change (if w.timer = true then some (w.tick o t) else none) = some w' at h
    split at h
    · next harmed =>
      cases h
      exact .tick t harmed
    · cases h
  | settle cycle fulfilled =>
    change (if (cycle, .running) ∈ w.cycles then some (w.settle cycle fulfilled) else none) = some w' at h
    split at h
    · next hcycle =>
      cases h
      exact .settle hcycle
    · cases h
  | handle cycle callback =>
    change (if (cycle, .settled true) ∈ w.cycles then some (w.completed o cycle callback)
      else if (cycle, .settled false) ∈ w.cycles then some (w.failed o cycle callback) else none) = some w' at h
    split at h
    · next hcycle =>
      cases h
      exact .completed hcycle
    · split at h
      · next hcycle =>
        cases h
        exact .failed hcycle
      · cases h
  | finish cycle =>
    change (if (cycle, .handled) ∈ w.cycles then some (w.finish cycle) else none) = some w' at h
    split at h
    · next hcycle =>
      cases h
      exact .finish hcycle
    · cases h
  | stopped index =>
    unfold World.next at h
    dsimp only at h
    split at h
    · cases h
    · next stop hstop =>
      split at h
      · next hfree =>
        cases h
        exact .stopped hstop hfree
      · cases h

/-! ## What a part of a step keeps -/

section
variable {P : World → Prop} {callback onOverrun onBackpressure : Callback} {skipped : Nat}

theorem during_keeps (hcall : ∀ w, ∀ call ∈ callback.calls, P w → P (w.call o call)) (h : P w) :
    P (w.during o callback) := by
  unfold World.during
  revert hcall
  generalize callback.calls = calls
  intro hcall
  induction calls generalizing w with
  | nil => exact h
  | cons call calls ih =>
    exact ih (hcall w call List.mem_cons_self h) fun w call hmem => hcall w call (List.mem_cons_of_mem _ hmem)

theorem applyBackpressure_keeps (hcall : ∀ w, ∀ call ∈ onBackpressure.calls, P w → P (w.call o call))
    (hwiden : ∀ w : World, P w → o.maxConsecutiveOverruns ≤ (w.consecutiveOverruns : ℚ) → P w.widen) (h : P w) :
    P (w.applyBackpressure o onBackpressure).1 := by
  unfold World.applyBackpressure
  split
  · exact h
  · next henough =>
    split
    · exact h
    · exact during_keeps hcall (hwiden w h (not_lt.mp henough))

/-- An overrun is counted, and may widen the interval; the rest is what the callbacks do. -/
theorem noteOverrun_keeps
    (hcall : ∀ w, ∀ call ∈ onOverrun.calls ++ onBackpressure.calls, P w → P (w.call o call))
    (hwiden : ∀ w : World, P w → o.maxConsecutiveOverruns ≤ (w.consecutiveOverruns : ℚ) → P w.widen)
    (h : P (w.count skipped)) : P (w.noteOverrun o skipped onOverrun onBackpressure).1 := by
  have hcounted : P ((w.count skipped).during o onOverrun) :=
    during_keeps (fun w call hmem => hcall w call (List.mem_append_left _ hmem)) h
  unfold World.noteOverrun
  dsimp only
  split
  · exact hcounted
  · exact applyBackpressure_keeps (fun w call hmem => hcall w call (List.mem_append_right _ hmem)) hwiden hcounted

theorem relieveBackpressure_keeps (hcall : ∀ w, ∀ call ∈ onBackpressure.calls, P w → P (w.call o call))
    (hnarrow : ∀ (w : World) (onTime level : Nat), P w →
      P { w with consecutiveOnTime := onTime, backpressureLevel := level })
    (h : P w) : P (w.relieveBackpressure o onBackpressure).1 := by
  unfold World.relieveBackpressure
  dsimp only
  split
  · exact hnarrow w _ w.backpressureLevel h
  · split
    · exact hnarrow w _ w.backpressureLevel h
    · exact during_keeps hcall (hnarrow w 0 _ h)

end

/-! ## Cycles do not overlap -/

/-- The cycles that have begun and not ended are the active one. -/
def Flight (w : World) : Prop := w.cycles.map Prod.fst = w.activeCycle.toList

theorem call_flight (call : Call) {cycles : List (Nat × CycleStatus)} {active : Option Nat}
    (h : w.cycles = cycles ∧ w.activeCycle = active) :
    (w.call o call).cycles = cycles ∧ (w.call o call).activeCycle = active := by
  cases call with
  | start now =>
    unfold World.call World.start
    dsimp only
    split
    · exact h
    · exact h
  | stop => exact h

theorem during_flight (w : World) (callback : Callback) :
    (w.during o callback).cycles = w.cycles ∧ (w.during o callback).activeCycle = w.activeCycle :=
  during_keeps (P := fun w' => w'.cycles = w.cycles ∧ w'.activeCycle = w.activeCycle)
    (fun _ call _ => call_flight call) ⟨rfl, rfl⟩

theorem noteOverrun_flight (w : World) (skipped : Nat) (onOverrun onBackpressure : Callback) :
    (w.noteOverrun o skipped onOverrun onBackpressure).1.cycles = w.cycles ∧
      (w.noteOverrun o skipped onOverrun onBackpressure).1.activeCycle = w.activeCycle :=
  noteOverrun_keeps (P := fun w' => w'.cycles = w.cycles ∧ w'.activeCycle = w.activeCycle)
    (fun _ call _ => call_flight call) (fun _ h _ => h) ⟨rfl, rfl⟩

theorem flight_of_eq (h : Flight w) (heq : w'.cycles = w.cycles ∧ w'.activeCycle = w.activeCycle) : Flight w' := by
  unfold Flight
  rw [heq.1, heq.2]
  exact h

theorem startCycle_flight (hcycles : w.cycles = []) (hactive : w.activeCycle = none) : Flight (w.startCycle o t) := by
  unfold World.startCycle
  dsimp only
  obtain ⟨hduring, hactive'⟩ := during_flight (o := o) { w with
    activeController := some w.cyclesStarted
    cyclesStarted := w.cyclesStarted + 1
    cycles := (w.cyclesStarted, .running) :: w.cycles
    overran := false } t.runCycle
  split
  · unfold Flight
    dsimp only
    rw [hduring, hactive', hcycles, List.filter_cons_of_neg (by simp), hactive]
    rfl
  · unfold Flight
    dsimp only
    rw [hduring, hcycles]
    rfl

theorem probeAndStart_flight (hcycles : w.cycles = []) (hactive : w.activeCycle = none) :
    Flight (w.probeAndStart o t) := by
  have hprobed : (w.probed o t).cycles = w.cycles ∧ (w.probed o t).activeCycle = w.activeCycle := by
    unfold World.probed
    split
    · exact during_flight w t.probe
    · exact ⟨rfl, rfl⟩
  rw [hcycles, hactive] at hprobed
  have hidle : Flight (w.probed o t) := by
    unfold Flight
    rw [hprobed.1, hprobed.2]
    rfl
  unfold World.probeAndStart
  split
  · exact flight_of_eq hidle (noteOverrun_flight _ 1 t.onShed t.onShedBackpressure)
  · exact startCycle_flight hprobed.1 hprobed.2

theorem tick_flight (h : Flight w) : Flight (w.tick o t) := by
  unfold World.tick
  split
  · exact h
  · dsimp only
    generalize w.lateIntervals o t.now = late
    split
    · exact flight_of_eq h (noteOverrun_flight _ (late + 1) t.onOverrun t.onBackpressure)
    · next hidle =>
      have hactive : w.activeCycle = none := Option.not_isSome_iff_eq_none.mp hidle
      have hcycles : w.cycles = [] := by
        unfold Flight at h
        rw [hactive] at h
        exact List.map_eq_nil_iff.mp h
      have hnoted := noteOverrun_flight (o := o) (w.advance o late) late t.onOverrun t.onBackpressure
      split
      · exact probeAndStart_flight hcycles hactive
      · split
        · exact probeAndStart_flight (hnoted.1.trans hcycles) (hnoted.2.trans hactive)
        · exact flight_of_eq h hnoted

theorem setStatus_flight (cycle : Nat) (status : CycleStatus) (h : Flight w) : Flight (w.setStatus cycle status) := by
  unfold Flight World.setStatus
  dsimp only
  rw [List.map_map, ← show w.cycles.map Prod.fst = w.activeCycle.toList from h]
  refine List.map_congr_left fun c _ => ?_
  rw [Function.comp_apply]
  split
  · next heq => exact heq.symm
  · rfl

theorem finish_flight {cycle : Nat} {status : CycleStatus} (hmem : (cycle, status) ∈ w.cycles) (h : Flight w) :
    Flight (w.finish cycle) := by
  unfold Flight at h
  unfold Flight World.finish
  dsimp only
  cases hactive : w.activeCycle with
  | none =>
    rw [hactive] at h
    rw [List.map_eq_nil_iff.mp h] at hmem
    exact absurd hmem List.not_mem_nil
  | some active =>
    rw [hactive] at h
    obtain ⟨c, hc⟩ : ∃ c, w.cycles = [c] := List.length_eq_one_iff.mp (by rw [← List.length_map Prod.fst, h]; rfl)
    rw [hc] at hmem ⊢
    rw [← List.mem_singleton.mp hmem, List.filter_cons_of_neg (by simp)]
    rfl

theorem handled_flight {cycle : Nat} {callback : Callback} (h : Flight w) :
    Flight (w.completed o cycle callback) ∧ Flight (w.failed o cycle callback) := by
  have hrelieved : Flight ({ w with cyclesCompleted := w.cyclesCompleted + 1 }.relieveBackpressure o callback).1 :=
    flight_of_eq h (relieveBackpressure_keeps (P := fun w' => w'.cycles = w.cycles ∧ w'.activeCycle = w.activeCycle)
      (fun _ call _ => call_flight call) (fun _ _ _ h => h) ⟨rfl, rfl⟩)
  constructor
  · unfold World.completed
    split
    · next hpair =>
      rw [hpair] at hrelieved
      exact setStatus_flight cycle .handled hrelieved
    · next hpair =>
      rw [hpair] at hrelieved
      exact setStatus_flight cycle (.settled false) hrelieved
  · unfold World.failed
    split
    · exact setStatus_flight cycle .handled h
    · exact setStatus_flight cycle .handled (flight_of_eq h (during_flight _ callback))

/-- At no time is there a cycle beside the active one. -/
theorem flight_step {event : Event} (h : Flight w) (hstep : w.Step o event w') : Flight w' := by
  cases moves_of_step hstep with
  | call call => exact flight_of_eq h (call_flight call ⟨rfl, rfl⟩)
  | tick t harmed => exact tick_flight h
  | @settle cycle fulfilled hcycle =>
    have hset := setStatus_flight cycle (.settled fulfilled) h
    unfold World.settle
    dsimp only
    split
    · exact hset
    · exact hset
  | completed hcycle => exact (handled_flight h).1
  | failed hcycle => exact (handled_flight h).2
  | finish hcycle => exact finish_flight hcycle h
  | stopped hstop hfree => exact h

/-! ## The interval -/

theorem interval_bounded (hfactor : 1 ≤ o.backpressureFactor) (w : World) :
    min o.intervalMs o.maxInterval ≤ w.currentIntervalMs o ∧ w.currentIntervalMs o ≤ o.maxInterval := by
  have hwidened : o.intervalMs ≤ o.intervalMs * o.backpressureFactor ^ w.backpressureLevel :=
    le_mul_of_one_le_right o.intervalMs_pos.le (one_le_pow₀ hfactor)
  unfold World.currentIntervalMs
  exact ⟨le_min (min_le_right _ _) ((min_le_left _ _).trans hwidened), min_le_left _ _⟩

/-! ## Stops and overruns -/

/-- A call of `stop` that no `start` followed has left no timer, and no cycle but the one it waits for; what is counted
of overruns is what there was since a cycle completed on time. -/
structure Inv (o : WatermarkSchedulerOptions) (w : World) : Prop where
  armed : w.timer = true → w.started = true
  stopped : ∀ stop ∈ w.stops, stop.restarted = false →
    w.started = false ∧ (w.activeCycle = none ∨ stop.awaited = w.activeCycle)
  returned : ∀ stop ∈ w.stops, stop.restarted = false → stop.returned = true → w.activeCycle = none
  counted : w.consecutiveOverruns = w.overruns
  widened : ∀ n ∈ w.widenedBy, o.maxConsecutiveOverruns ≤ (n : ℚ)

theorem inv_new : Inv o .new where
  armed h := nomatch h
  stopped _ h := absurd h List.not_mem_nil
  returned _ h := absurd h List.not_mem_nil
  counted := rfl
  widened _ h := absurd h List.not_mem_nil

theorem Inv.call (h : Inv o w) (call : Call) : Inv o (w.call o call) := by
  cases call with
  | start now =>
    unfold World.call World.start
    dsimp only
    split
    · exact h
    · have hrestarted : ∀ stop ∈ w.stops.map fun stop => { stop with restarted := true }, stop.restarted = true := by
        intro stop hstop
        obtain ⟨_, _, rfl⟩ := List.mem_map.mp hstop
        rfl
      exact {
        armed := fun _ => rfl
        stopped := fun stop hstop hfalse => by
          rw [hrestarted stop hstop] at hfalse
          cases hfalse
        returned := fun stop hstop hfalse => by
          rw [hrestarted stop hstop] at hfalse
          cases hfalse
        counted := h.counted
        widened := h.widened }
  | stop =>
    exact {
      armed := fun harmed => (nomatch harmed)
      stopped := fun stop hstop hfalse => by
        refine ⟨rfl, ?_⟩
        rcases List.mem_append.mp hstop with hstop | hstop
        · exact (h.stopped stop hstop hfalse).2
        · rw [List.mem_singleton.mp hstop]
          exact .inr rfl
      returned := fun stop hstop hfalse hreturned => by
        rcases List.mem_append.mp hstop with hstop | hstop
        · exact h.returned stop hstop hfalse hreturned
        · rw [List.mem_singleton.mp hstop] at hreturned
          cases hreturned
      counted := h.counted
      widened := h.widened }

theorem Inv.count (h : Inv o w) (skipped : Nat) : Inv o (w.count skipped) :=
  { h with counted := congrArg (· + skipped) h.counted }

theorem Inv.widen (h : Inv o w) (henough : o.maxConsecutiveOverruns ≤ (w.consecutiveOverruns : ℚ)) : Inv o w.widen :=
  { h with
    counted := rfl
    widened := by
      intro n hn
      rcases List.mem_cons.mp hn with rfl | hn
      · exact h.counted ▸ henough
      · exact h.widened n hn }

theorem Inv.noteOverrun (h : Inv o w) (skipped : Nat) (onOverrun onBackpressure : Callback) :
    Inv o (w.noteOverrun o skipped onOverrun onBackpressure).1 :=
  noteOverrun_keeps (fun _ call _ h => h.call call) (fun _ h => h.widen) (h.count skipped)

theorem Inv.during (h : Inv o w) (callback : Callback) : Inv o (w.during o callback) :=
  during_keeps (fun _ call _ h => h.call call) h

/-- In a scheduler that has been started, every `stop` was followed by a `start`. -/
theorem Inv.restarted (h : Inv o w) (hstarted : w.started = true) (stop : StopCall) (hstop : stop ∈ w.stops) :
    stop.restarted = true := by
  by_contra hfalse
  have := (h.stopped stop hstop (Bool.eq_false_iff.mpr hfalse)).1
  rw [hstarted] at this
  cases this

theorem start_of_started {now : ℚ} (hstarted : w.started = true) : w.start o now = w := if_pos hstarted

theorem during_of_quiet {callback : Callback} (hquiet : Call.stop ∉ callback.calls) (hstarted : w.started = true) :
    w.during o callback = w := by
  refine during_keeps (P := fun w' => w' = w) (fun w' call hmem heq => ?_) rfl
  cases call with
  | start now =>
    rw [heq]
    exact start_of_started hstarted
  | stop => exact absurd hmem hquiet

theorem Inv.startCycle (h : Inv o w) (hstarted : w.started = true) (hquiet : Call.stop ∉ t.runCycle.calls) :
    Inv o (w.startCycle o t) := by
  have hactive : ∀ active, Inv o { w with
      activeController := some w.cyclesStarted
      cyclesStarted := w.cyclesStarted + 1
      cycles := (w.cyclesStarted, .running) :: w.cycles
      overran := false
      activeCycle := active } := by
    intro active
    have hfalse : ∀ stop ∈ w.stops, ¬stop.restarted = false := fun stop hstop hfalse =>
      Bool.false_ne_true (hfalse.symm.trans (h.restarted hstarted stop hstop))
    exact {
      armed := h.armed
      stopped := fun stop hstop hrestarted => absurd hrestarted (hfalse stop hstop)
      returned := fun stop hstop hrestarted _ => absurd hrestarted (hfalse stop hstop)
      counted := h.counted
      widened := h.widened }
  have hduring := during_of_quiet (o := o) (w := { w with
    activeController := some w.cyclesStarted
    cyclesStarted := w.cyclesStarted + 1
    cycles := (w.cyclesStarted, .running) :: w.cycles
    overran := false }) hquiet hstarted
  unfold World.startCycle
  dsimp only
  rw [hduring]
  split
  · exact { hactive w.activeCycle with }
  · exact hactive (some w.cyclesStarted)

theorem Inv.probeAndStart (h : Inv o w) (hstarted : w.started = true) (hprobe : Call.stop ∉ t.probe.calls)
    (hrun : Call.stop ∉ t.runCycle.calls) : Inv o (w.probeAndStart o t) := by
  have hprobed : w.probed o t = w := by
    unfold World.probed
    split
    · exact during_of_quiet hprobe hstarted
    · rfl
  unfold World.probeAndStart
  rw [hprobed]
  split
  · have hshed : Inv o { w with shedPolls := w.shedPolls + 1 } := { h with }
    exact hshed.noteOverrun 1 t.onShed t.onShedBackpressure
  · exact h.startCycle hstarted hrun

theorem noteOverrun_started {skipped : Nat} {onOverrun onBackpressure : Callback}
    (hoverrun : Call.stop ∉ onOverrun.calls) (hbackpressure : Call.stop ∉ onBackpressure.calls)
    (hstarted : w.started = true) : (w.noteOverrun o skipped onOverrun onBackpressure).1.started = true := by
  refine noteOverrun_keeps (P := fun w' => w'.started = true) (fun w' call hmem hw' => ?_) (fun _ h _ => h) hstarted
  cases call with
  | start now =>
    rw [World.call, start_of_started hw']
    exact hw'
  | stop => exact absurd hmem (by rw [List.mem_append]; exact not_or.mpr ⟨hoverrun, hbackpressure⟩)

theorem Inv.tick (h : Inv o w) (hmeets : Meets w (.tick t)) : Inv o (w.tick o t) := by
  unfold World.tick
  split
  · exact h
  · next hstarted =>
    rw [Bool.not_eq_false] at hstarted
    dsimp only
    generalize w.lateIntervals o t.now = late
    have hadvance : Inv o (w.advance o late) := { h with armed := fun _ => hstarted }
    split
    · have hdropped : Inv o { w.advance o late with overran := true } := { hadvance with }
      exact hdropped.noteOverrun (late + 1) t.onOverrun t.onBackpressure
    · next hidle =>
      have hquiet := hmeets (Option.not_isSome_iff_eq_none.mp hidle)
      have hprobe : Call.stop ∉ t.probe.calls := hquiet _ (by simp)
      have hrun : Call.stop ∉ t.runCycle.calls := hquiet _ (by simp)
      split
      · exact hadvance.probeAndStart hstarted hprobe hrun
      · have hnoted := hadvance.noteOverrun late t.onOverrun t.onBackpressure
        split
        · exact hnoted.probeAndStart
            (noteOverrun_started (hquiet _ (by simp)) (hquiet _ (by simp)) hstarted) hprobe hrun
        · exact hnoted

theorem Inv.setStatus (h : Inv o w) (cycle : Nat) (status : CycleStatus) : Inv o (w.setStatus cycle status) :=
  { h with }

theorem Inv.settle (h : Inv o w) {cycle : Nat} {fulfilled : Bool} (hmeets : Meets w (.settle cycle fulfilled)) :
    Inv o (w.settle cycle fulfilled) := by
  have hset := h.setStatus cycle (.settled fulfilled)
  unfold World.settle
  dsimp only
  split
  · next honTime => exact { hset with counted := hmeets honTime.1 honTime.2 }
  · exact hset

theorem Inv.completed (h : Inv o w) (cycle : Nat) (callback : Callback) : Inv o (w.completed o cycle callback) := by
  have hcompleted : Inv o { w with cyclesCompleted := w.cyclesCompleted + 1 } := { h with }
  have hrelieved : Inv o ({ w with cyclesCompleted := w.cyclesCompleted + 1 }.relieveBackpressure o callback).1 :=
    relieveBackpressure_keeps (fun _ call _ h => h.call call) (fun _ _ _ h => { h with }) hcompleted
  unfold World.completed
  split
  · next hpair =>
    rw [hpair] at hrelieved
    exact hrelieved.setStatus cycle .handled
  · next hpair =>
    rw [hpair] at hrelieved
    exact hrelieved.setStatus cycle (.settled false)

theorem Inv.failed (h : Inv o w) (cycle : Nat) (callback : Callback) : Inv o (w.failed o cycle callback) := by
  unfold World.failed
  split
  · exact h.setStatus cycle .handled
  · have hfailed : Inv o { w with cyclesFailed := w.cyclesFailed + 1 } := { h with }
    exact (hfailed.during callback).setStatus cycle .handled

theorem Inv.finish (h : Inv o w) (cycle : Nat) : Inv o (w.finish cycle) where
  armed := h.armed
  stopped stop hstop hfalse := ⟨(h.stopped stop hstop hfalse).1, .inl rfl⟩
  returned _ _ _ _ := rfl
  counted := h.counted
  widened := h.widened

/-- The cycle that a call of `stop` has waited for was the active one, if there was any. -/
theorem Inv.returns (h : Inv o w) (hflight : Flight w) {index : Nat} {stop : StopCall}
    (hstop : w.stops[index]? = some stop) (hfree : w.unblocked stop = true) :
    Inv o { w with stops := w.stops.set index { stop with returned := true } } := by
  have hmem : stop ∈ w.stops := List.mem_of_getElem? hstop
  exact { h with
    stopped := fun stop' hstop' hfalse => by
      rcases List.mem_or_eq_of_mem_set hstop' with hold | rfl
      · exact h.stopped stop' hold hfalse
      · exact h.stopped stop hmem hfalse
    returned := fun stop' hstop' hfalse hreturned => by
      rcases List.mem_or_eq_of_mem_set hstop' with hold | rfl
      · exact h.returned stop' hold hfalse hreturned
      · rcases (h.stopped stop hmem hfalse).2 with hidle | hawaited
        · exact hidle
        · cases hactive : w.activeCycle with
          | none => rfl
          | some cycle =>
            have hcycle : cycle ∈ w.cycles.map Prod.fst := by
              rw [show w.cycles.map Prod.fst = w.activeCycle.toList from hflight, hactive]
              exact List.mem_singleton.mpr rfl
            obtain ⟨c, hc, hfst⟩ := List.mem_map.mp hcycle
            unfold World.unblocked at hfree
            rw [hawaited, hactive] at hfree
            exact absurd hfst (of_decide_eq_true (List.all_eq_true.mp hfree c hc)) }

theorem inv_step {event : Event} (h : Inv o w) (hflight : Flight w) (hmeets : Meets w event)
    (hstep : w.Step o event w') : Inv o w' := by
  cases moves_of_step hstep with
  | call call => exact h.call call
  | tick t harmed => exact h.tick hmeets
  | settle hcycle => exact h.settle hmeets
  | completed hcycle => exact h.completed _ _
  | failed hcycle => exact h.failed _ _
  | finish hcycle => exact h.finish _
  | stopped hstop hfree => exact h.returns hflight hstop hfree

theorem call_cyclesStarted (w : World) (call : Call) : (w.call o call).cyclesStarted = w.cyclesStarted := by
  cases call with
  | start now =>
    unfold World.call World.start
    dsimp only
    split
    · rfl
    · rfl
  | stop => rfl

/-- Only a tick starts a cycle. -/
theorem cyclesStarted_step {event : Event} (hdisarmed : w.timer = false) (hstep : w.Step o event w') :
    w'.cyclesStarted = w.cyclesStarted := by
  have hcall : ∀ (w' : World) (call : Call), w'.cyclesStarted = w.cyclesStarted →
      (w'.call o call).cyclesStarted = w.cyclesStarted := fun w' call h => (call_cyclesStarted w' call).trans h
  cases moves_of_step hstep with
  | call call => exact call_cyclesStarted w call
  | tick t harmed =>
    rw [hdisarmed] at harmed
    cases harmed
  | settle hcycle =>
    unfold World.settle
    dsimp only
    split
    · rfl
    · rfl
  | @completed cycle callback hcycle =>
    have hrelieved :
        ({ w with cyclesCompleted := w.cyclesCompleted + 1 }.relieveBackpressure o callback).1.cyclesStarted =
          w.cyclesStarted :=
      relieveBackpressure_keeps (P := fun w' => w'.cyclesStarted = w.cyclesStarted)
        (fun w' call _ => hcall w' call) (fun _ _ _ h => h) rfl
    unfold World.completed
    split
    · next hpair =>
      rw [hpair] at hrelieved
      exact hrelieved
    · next hpair =>
      rw [hpair] at hrelieved
      exact hrelieved
  | @failed cycle callback hcycle =>
    unfold World.failed
    split
    · rfl
    · exact during_keeps (P := fun w' => w'.cyclesStarted = w.cyclesStarted) (fun w' call _ => hcall w' call) rfl
  | finish hcycle => rfl
  | stopped hstop hfree => rfl

theorem sound_of_inv (hfactor : 1 ≤ o.backpressureFactor) (h : Inv o w) (hflight : Flight w) : Sound o w where
  single := by
    refine (List.length_filter_le _ _).trans ?_
    rw [← List.length_map Prod.fst, show w.cycles.map Prod.fst = w.activeCycle.toList from hflight]
    cases w.activeCycle with
    | none => exact Nat.zero_le 1
    | some cycle => exact le_rfl
  stopped stop hstop hreturned hfalse := by
    have hidle : w.cycles.map Prod.fst = w.activeCycle.toList := hflight
    rw [h.returned stop hstop hfalse hreturned] at hidle
    rw [List.map_eq_nil_iff.mp hidle]
    refine ⟨fun c hc => absurd hc List.not_mem_nil, fun event w' => cyclesStarted_step ?_⟩
    by_contra harmed
    have hstarted := h.armed (Bool.not_eq_false _ ▸ harmed)
    rw [(h.stopped stop hstop hfalse).1] at hstarted
    cases hstarted
  bounded := interval_bounded hfactor w
  widened := h.widened

theorem flight_new : Flight .new := rfl

theorem flight_and_inv (hrun : Run (World.Step o) .new log w) (hmeets : ∀ e ∈ log, Meets e.1 e.2) :
    Flight w ∧ Inv o w :=
  hrun.invariant_of (P := fun w => Flight w ∧ Inv o w) (C := Meets) ⟨flight_new, inv_new⟩
    (fun _ _ _ h hmeets hstep => ⟨flight_step h.1 hstep, inv_step h.2 h.1 hmeets hstep⟩) hmeets

theorem scheduling_sound (hrun : Run (World.Step o) .new log w) (hfactor : 1 ≤ o.backpressureFactor)
    (hmeets : ∀ e ∈ log, Meets e.1 e.2) : Sound o w :=
  have ⟨hflight, hinv⟩ := flight_and_inv hrun hmeets
  sound_of_inv hfactor hinv hflight

/-! ## On inputs -/

def everyHundredMs : WatermarkSchedulerOptions where
  intervalMs := 100
  intervalMs_pos := by norm_num

def tickAt (now : ℚ) : Event := .tick { now }

/-- Two overruns in one cycle, after which the interval is widened and the scheduler stopped. -/
def overrunTwice : List Event :=
  [.call (.start 0), tickAt 100, tickAt 200, tickAt 300, .settle 0 true, .handle 0 {}, .finish 0, .call .stop,
    .stopped 0]

def Meets.test (e : World × Event) : Bool :=
  match e.2 with
  | .tick t => [t.onOverrun, t.onBackpressure, t.probe, t.runCycle].all fun callback => callback.calls.isEmpty
  | .settle _ fulfilled => !fulfilled || e.1.overran || e.1.consecutiveOverruns == 0
  | _ => true

theorem Meets.of_test {e : World × Event} (h : Meets.test e = true) : Meets e.1 e.2 := by
  obtain ⟨w, event⟩ := e
  cases event with
  | tick t =>
    intro _ callback hcallback
    rw [List.isEmpty_iff.mp (List.all_eq_true.mp h callback hcallback)]
    exact List.not_mem_nil
  | settle cycle fulfilled =>
    rintro rfl honTime
    dsimp only at honTime
    have hcounted : (!true || w.overran || w.consecutiveOverruns == 0) = true := h
    rw [honTime] at hcounted
    exact eq_of_beq hcounted
  | call _ => trivial
  | handle _ _ => trivial
  | finish _ => trivial
  | stopped _ => trivial

theorem scheduling_sound_of_an_overrun_twice :
    ∃ log w, Run (World.Step everyHundredMs) .new log w ∧ w.widenedBy = [2] ∧ Sound everyHundredMs w := by
  obtain ⟨log, w, hrun, htest⟩ : ∃ log w, Run (World.Step everyHundredMs) .new log w ∧
      (log.all Meets.test && decide (w.widenedBy = [2])) = true :=
    Run.exists_of_replay (fun _ _ _ h => h)
      (show (Run.replay (World.next everyHundredMs) overrunTwice [] .new).any (fun r =>
        r.1.all Meets.test && decide (r.2.widenedBy = [2])) = true by decide +kernel)
  rw [Bool.and_eq_true] at htest
  exact ⟨log, w, hrun, of_decide_eq_true htest.2, scheduling_sound hrun (by decide +kernel)
    fun e he => .of_test (List.all_eq_true.mp htest.1 e he)⟩

/-- An overrun in each of two cycles, and between them a cycle that completes on time. -/
def overrunApart : List Event :=
  [.call (.start 0), tickAt 100, tickAt 200, .settle 0 true, .handle 0 {}, .finish 0, tickAt 300, .settle 1 true,
    .handle 1 {}, .finish 1, tickAt 400, tickAt 500]

theorem widened_by_overruns_apart :
    ¬∀ (o : WatermarkSchedulerOptions) (log : List (World × Event)) (w : World), Run (World.Step o) .new log w →
      Sound o w := by
  intro h
  obtain ⟨log, w, hrun, htest⟩ : ∃ log w, Run (World.Step everyHundredMs) .new log w ∧
      decide (w.widenedBy = [1]) = true :=
    Run.exists_of_replay (fun _ _ _ h => h)
      (show (Run.replay (World.next everyHundredMs) overrunApart [] .new).any (fun r =>
        decide (r.2.widenedBy = [1])) = true by decide +kernel)
  have henough := (h _ log w hrun).widened 1 (by rw [of_decide_eq_true htest]; exact List.mem_singleton_self 1)
  exact absurd henough (by decide +kernel)

end ZkVote.WatermarkScheduler
