import Mathlib.Algebra.GroupWithZero.Nat
import ZkVote.Backend.SubmitLedger

/-!
# Shutting the submission queue down

`shutdown` of `backend/src/services/submit-queue.ts`, and the queue against a clock. All that runs without
another event in between reads the clock once; a sleep may end at any time.
-/

open Lib

namespace ZkVote.SubmitQueue

/-- A call of `shutdown`. -/
structure ShutdownCall where
  calledAt : Int
  timeoutMs : Int
  /-- The queue as the call found it. -/
  found : QueueState
  returned : Option Bool := none

def ShutdownCall.deadline (call : ShutdownCall) : Int := call.calledAt + call.timeoutMs

structure TimedQueue where
  q : QueueState
  now : Int
  /-- When the worker called the last execute function. -/
  startedAt : Int
  shutdowns : List ShutdownCall := []

def TimedQueue.after (s : TimedQueue) (t : Int) (q : QueueState) : TimedQueue :=
  { s with q := q, now := t, startedAt := if q.started = s.q.started then s.startedAt else t }

/-- The loop of `shutdown`, up to its next `await`. -/
def shutdownLoop (t : Int) (call : ShutdownCall) (q : QueueState) : QueueState × ShutdownCall :=
  if q.queue ≠ [] ∨ q.processing = true then
    if call.deadline ≤ t then ((shutdownExpires q).getD q, { call with returned := some false })
    else (q, call)
  else (q, { call with returned := some true })

inductive TimedEvent where
  | enqueue (timeoutMs : Option Int)
  | act (id : Nat)
  | executeSettles (id : Nat) (result : Except String Unit)
  | resume
  | timerFires
  | shutdown (timeoutMs : Int)
  /-- The sleep of a call of `shutdown` is over. -/
  | poll (k : Nat)

def TimedQueue.next (s : TimedQueue) (t : Int) : TimedEvent → Option TimedQueue
  | .enqueue timeoutMs => (SubmitQueue.next s.q (.enqueue timeoutMs t fun _ => t)).map (s.after t)
  | .act id => (SubmitQueue.next s.q (.act id)).map (s.after t)
  | .executeSettles id result => (SubmitQueue.next s.q (.executeSettles id result)).map (s.after t)
  | .resume => (SubmitQueue.next s.q (.resume fun _ => t)).map (s.after t)
  | .timerFires => (SubmitQueue.next s.q (.timerFires fun _ => t)).map (s.after t)
  | .shutdown timeoutMs =>
    let r := shutdownLoop t { calledAt := t, timeoutMs := timeoutMs, found := s.q }
      { s.q with shutdownRequested := true }
    some { s.after t r.1 with shutdowns := s.shutdowns ++ [r.2] }
  | .poll k =>
    match s.shutdowns[k]? with
    | some call =>
      if call.returned = none then
        let r := shutdownLoop t call s.q
        some { s.after t r.1 with shutdowns := s.shutdowns.set k r.2 }
      else none
    | none => none

/-- The clock does not run backwards. -/
def TimedStep (s : TimedQueue) (e : Int × TimedEvent) (s' : TimedQueue) : Prop :=
  s.now ≤ e.1 ∧ s.next e.1 e.2 = some s'

def TimedRun (maxDepth : Nat) (itemTimeoutMs t₀ : Int) : List (TimedQueue × Int × TimedEvent) → TimedQueue → Prop :=
  Run TimedStep { q := new maxDepth itemTimeoutMs, now := t₀, startedAt := t₀ }

/-! ## The promise -/

/-- The worker awaits nothing, and every call of `shutdown` has returned. -/
def AtRest (s : TimedQueue) : Prop := s.q.race = none ∧ ∀ call ∈ s.shutdowns, call.returned ≠ none

/-- The promise of a submission is settled at most once, and once when nothing is under way any more. -/
def SettledOnce (s : TimedQueue) : Prop :=
  ∀ id < s.q.enqueued, (s.q.settlements.map Prod.fst).count id ≤ 1 ∧
    (AtRest s → (s.q.settlements.map Prod.fst).count id = 1)

/-- Each submission is over within the time it needs, from the call of its execute function on. -/
def KeepsTo (need : Nat → Nat) (log : List (TimedQueue × Int × TimedEvent)) : Prop :=
  ∀ e ∈ log, ∀ id, e.1.q.ledger.awaited = some id → e.2.1 ≤ e.1.startedAt + need id

/-- The timeout is longer than what is accepted and not over needs in all. -/
def Ample (need : Nat → Nat) (call : ShutdownCall) : Prop :=
  ((call.found.ledger.awaited.toList ++ call.found.ledger.waiting).map need).sum < call.timeoutMs

/-- A call with an ample timeout returns true, after every submission accepted before it was executed. -/
def Drains (need : Nat → Nat) (s : TimedQueue) : Prop :=
  ∀ call ∈ s.shutdowns, Ample need call → ∀ b, call.returned = some b →
    (∀ id < call.found.enqueued, id ∈ s.q.started) ∧ b = true

/-- A call with an ample timeout finds nothing in the queue, and nothing dropped before. -/
def FindsNothing (need : Nat → Nat) (s : TimedQueue) : Prop :=
  ∀ call ∈ s.shutdowns, Ample need call → call.returned ≠ none →
    call.found.queue = [] ∧ call.found.ledger.dropped = []

/-! ## The worker -/

/-- The worker is at work as long as it awaits something, and until it is told to stop while anything waits. -/
structure Busy (s : QueueState) : Prop where
  processing : s.processing = s.race.isSome
  working : s.shutdownRequested = false → s.processing = false → s.queue = []

section
variable {s s' : QueueState} {clock : Nat → Int} {queue : List Submission}

theorem Busy.idle_iff (h : Busy s) : s.processing = false ↔ s.race = none := by
  rw [h.processing, Option.isSome_eq_false_iff, Option.isNone_iff_eq_none]

theorem Busy.processQueue (h : s.race = none) : Busy (processQueue clock queue s) := by
  refine processQueue_rule (P := fun _ s => s.race = none) (Q := Busy) ?_ ?_ ?_ h
  · intro item q s _ h
    exact h
  · intro q s hstop h
    refine ⟨by simp [h], fun hopen _ => ?_⟩
    rcases hstop with hnil | hclosed
    · exact hnil
    · exact absurd (hopen.symm.trans hclosed) Bool.false_ne_true
  · intro item q s ms _ h
    exact ⟨rfl, fun _ hidle => absurd hidle (by simp [QueueState.start])⟩

theorem Busy.step {e : Event} (h : Busy s) (hstep : Step s e s') : Busy s' := by
  cases step_effect hstep with
  | pushed _ hbusy => exact ⟨h.processing, fun _ hidle => absurd (hidle.symm.trans hbusy) Bool.false_ne_true⟩
  | begun _ hidle => exact Busy.processQueue (h.idle_iff.mp hidle)
  | executed => exact ⟨by simp [executeSettles, h.processing], h.working⟩
  | resumed | overrun => exact Busy.processQueue rfl
  | closed => exact ⟨h.processing, fun hopen => by cases hopen⟩
  | expired => exact ⟨h.processing, fun _ _ => rfl⟩
  | _ => exact ⟨h.processing, h.working⟩

theorem processQueue_shutdownRequested : (processQueue clock queue s).shutdownRequested = s.shutdownRequested := by
  refine processQueue_rule (P := fun _ t => t.shutdownRequested = s.shutdownRequested)
    (Q := fun t => t.shutdownRequested = s.shutdownRequested) ?_ ?_ ?_ rfl
  · intro item q t _ h
    exact h
  · intro q t _ h
    exact h
  · intro item q t ms _ h
    exact h

/-- Only `shutdown` closes the queue. -/
theorem step_shutdownRequested {e : Event} (hstep : Step s e s') (he : e ≠ .shutdown) :
    s'.shutdownRequested = s.shutdownRequested := by
  cases step_effect hstep with
  | begun | resumed | overrun => exact processQueue_shutdownRequested
  | closed => exact absurd rfl he
  | _ => rfl

end

/-! ## Steps -/

/-- What the loop of `shutdown` does. -/
inductive Looped (t : Int) (call : ShutdownCall) (q : QueueState) : QueueState → ShutdownCall → Prop
  | drained (hqueue : q.queue = []) (hidle : q.processing = false) :
      Looped t call q q { call with returned := some true }
  | asleep (hearly : t < call.deadline) : Looped t call q q call
  | expired {q' : QueueState} (hlate : call.deadline ≤ t) (hstep : Step q .shutdownExpires q')
      (hbusy : q.queue ≠ [] ∨ q.processing = true) (hqueue : q'.queue = []) :
      Looped t call q q' { call with returned := some false }

theorem shutdownLoop_looped {t : Int} {call : ShutdownCall} {q : QueueState} (hclosed : q.shutdownRequested = true) :
    Looped t call q (shutdownLoop t call q).1 (shutdownLoop t call q).2 := by
  unfold shutdownLoop
  split
  · next hbusy =>
    split
    · next hlate =>
      have hexpires : shutdownExpires q = some { q with
          queue := []
          settlements := q.queue.reverse.map (fun item => (item.id, .rejected .shutdownTimeout)) ++ q.settlements } := by
        unfold shutdownExpires
        rw [if_pos ⟨hclosed, hbusy⟩]
      rw [hexpires]
      exact .expired hlate hexpires hbusy rfl
    · next hearly => exact .asleep (by omega)
  · next hidle =>
    simp only [ne_eq, not_or, not_not, Bool.not_eq_true] at hidle
    exact .drained hidle.1 hidle.2

/-- An event of the queue, or of a call of `shutdown`. -/
inductive TimedEffect (s : TimedQueue) (t : Int) : TimedQueue → Prop
  | queue {e : Event} {q : QueueState} (hstep : Step s.q e q) (he : e ≠ .shutdown) :
      TimedEffect s t (s.after t q)
  | called {timeoutMs : Int} {q : QueueState} {call : ShutdownCall}
      (hloop : Looped t { calledAt := t, timeoutMs := timeoutMs, found := s.q }
        { s.q with shutdownRequested := true } q call) :
      TimedEffect s t { s.after t q with shutdowns := s.shutdowns ++ [call] }
  | polled {k : Nat} {q : QueueState} {call call' : ShutdownCall} (hk : s.shutdowns[k]? = some call)
      (hpending : call.returned = none)
      (hloop : s.q.shutdownRequested = true → Looped t call s.q q call') :
      TimedEffect s t { s.after t q with shutdowns := s.shutdowns.set k call' }

section
variable {s s' : TimedQueue} {t : Int} {need : Nat → Nat} {log : List (TimedQueue × Int × TimedEvent)} {maxDepth : Nat}
  {itemTimeoutMs t₀ : Int}

theorem timed_effect {e : TimedEvent} (hnext : s.next t e = some s') : TimedEffect s t s' := by
  unfold TimedQueue.next at hnext
  cases e with
  | enqueue timeoutMs =>
    obtain ⟨q, hq, rfl⟩ := Option.map_eq_some_iff.mp hnext
    exact .queue hq (by simp)
  | act id =>
    obtain ⟨q, hq, rfl⟩ := Option.map_eq_some_iff.mp hnext
    exact .queue hq (by simp)
  | executeSettles id result =>
    obtain ⟨q, hq, rfl⟩ := Option.map_eq_some_iff.mp hnext
    exact .queue hq (by simp)
  | resume =>
    obtain ⟨q, hq, rfl⟩ := Option.map_eq_some_iff.mp hnext
    exact .queue hq (by simp)
  | timerFires =>
    obtain ⟨q, hq, rfl⟩ := Option.map_eq_some_iff.mp hnext
    exact .queue hq (by simp)
  | shutdown timeoutMs =>
    cases hnext
    exact .called (shutdownLoop_looped rfl)
  | poll k =>
    simp only at hnext
    split at hnext
    · next call hk =>
      split at hnext
      · next hpending =>
        cases hnext
        exact .polled hk hpending shutdownLoop_looped
      · cases hnext
    · cases hnext

/-! ## What every run keeps -/

/-- What is known of a call of `shutdown` from then on. -/
structure CallOk (need : Nat → Nat) (s : TimedQueue) (call : ShutdownCall) : Prop where
  begun : Begun call.found.ledger
  frozen : Frozen call.found.ledger s.q.ledger
  emptied : call.returned ≠ none → s.q.queue = []
  inTime : Ample need call → call.found.queue = [] →
    call.returned ≠ some false ∧ ∀ id, s.q.ledger.awaited = some id → s.startedAt + need id < call.deadline

structure TimedOk (need : Nat → Nat) (s : TimedQueue) : Prop where
  placed : Placed s.q.ledger
  begun : Begun s.q.ledger
  waits : Waits s.q
  busy : Busy s.q
  since : s.startedAt ≤ s.now
  closed : s.q.shutdownRequested = true → s.shutdowns ≠ []
  calls : ∀ call ∈ s.shutdowns, CallOk need s call

theorem Looped.keeps {q q' : QueueState} {call call' : ShutdownCall} (h : Looped t call q q' call') (hwaits : Waits q)
    (hbusy : Busy q) : Moves q.ledger q'.ledger ∧ Waits q' ∧ Busy q' := by
  cases h with
  | drained => exact ⟨.refl, hwaits, hbusy⟩
  | asleep => exact ⟨.refl, hwaits, hbusy⟩
  | expired _ hstep => exact ⟨step_moves hwaits hstep, hwaits.step hstep, hbusy.step hstep⟩

theorem ledger_waiting {q : QueueState} : q.ledger.waiting = [] ↔ q.queue = [] := List.map_eq_nil_iff

theorem Busy.awaited {q : QueueState} (h : Busy q) (hprocessing : q.processing = true) :
    ∃ id, q.ledger.awaited = some id := by
  rw [h.processing, Option.isSome_iff_exists] at hprocessing
  obtain ⟨r, hr⟩ := hprocessing
  exact ⟨r.submission.id, by simp [QueueState.ledger, QueueState.ledgerOf, hr]⟩

/-- A closed queue starts nothing more. -/
theorem after_startedAt {q : QueueState} (h : q.started = s.q.started) : (s.after t q).startedAt = s.startedAt :=
  if_pos h

theorem CallOk.moves {q : QueueState} {call : ShutdownCall} {calls : List ShutdownCall} (h : CallOk need s call)
    (hmoves : Moves s.q.ledger q.ledger) : CallOk need { s.after t q with shutdowns := calls } call := by
  have hfrozen : Frozen s.q.ledger q.ledger := (Frozen.refl h.frozen.closed).moves hmoves
  refine ⟨h.begun, h.frozen.moves hmoves, fun hreturned => ?_, fun hample hfound => ?_⟩
  · exact ledger_waiting.mp (hfrozen.waiting (ledger_waiting.mpr (h.emptied hreturned)))
  · obtain ⟨hreturned, hawaited⟩ := h.inTime hample hfound
    refine ⟨hreturned, fun id hid => ?_⟩
    change (s.after t q).startedAt + need id < call.deadline
    rw [after_startedAt hfrozen.started]
    rcases hfrozen.awaited with hsame | hnone
    · exact hawaited id (hsame ▸ hid)
    · cases hnone.symm.trans hid

/-- A call whose timeout is ample finds the last submission over before its deadline. -/
theorem CallOk.looped {q : QueueState} {call call' : ShutdownCall} {calls : List ShutdownCall} (h : CallOk need s call)
    (hwaits : Waits s.q) (hbusy : Busy s.q)
    (hkeeps : ∀ id, s.q.ledger.awaited = some id → t ≤ s.startedAt + need id)
    (hloop : Looped t call s.q q call') : CallOk need { s.after t q with shutdowns := calls } call' := by
  have hmoved : CallOk need { s.after t q with shutdowns := calls } call :=
    h.moves (hloop.keeps hwaits hbusy).1
  cases hloop with
  | drained hqueue =>
    exact ⟨hmoved.begun, hmoved.frozen, fun _ => hqueue, fun hample hfound =>
      ⟨by simp, (hmoved.inTime hample hfound).2⟩⟩
  | asleep => exact hmoved
  | expired hlate hstep hrest hqueue =>
    refine ⟨hmoved.begun, hmoved.frozen, fun _ => hqueue, fun hample hfound => ?_⟩
    have hempty := ledger_waiting.mp (h.frozen.waiting (ledger_waiting.mpr hfound))
    obtain ⟨id, hid⟩ := hbusy.awaited (hrest.resolve_left fun hne => hne hempty)
    have hearly := (h.inTime hample hfound).2 id hid
    have hkept := hkeeps id hid
    omega

theorem CallOk.called {q : QueueState} {call : ShutdownCall} {calls : List ShutdownCall} {timeoutMs : Int}
    (hbegun : Begun s.q.ledger) (hwaits : Waits s.q) (hbusy : Busy s.q) (hsince : s.startedAt ≤ t)
    (hloop : Looped t { calledAt := t, timeoutMs := timeoutMs, found := s.q } { s.q with shutdownRequested := true }
      q call) : CallOk need { s.after t q with shutdowns := calls } call := by
  have hclosed : Step s.q .shutdown { s.q with shutdownRequested := true } := rfl
  have hmoves := (hloop.keeps (hwaits.step hclosed) (hbusy.step hclosed)).1
  have hfrozen : Frozen s.q.ledger q.ledger := (Frozen.close s.q.ledger).moves hmoves
  have hstart : (s.after t q).startedAt = s.startedAt := after_startedAt hfrozen.started
  cases hloop with
  | drained hqueue hidle =>
    refine ⟨hbegun, hfrozen, fun _ => hqueue, fun _ _ => ⟨by simp, fun id hid => ?_⟩⟩
    have hnone : s.q.race = none := hbusy.idle_iff.mp hidle
    simp [TimedQueue.after, QueueState.ledger, QueueState.ledgerOf, hnone] at hid
  | asleep hearly =>
    refine ⟨hbegun, hfrozen, fun hreturned => absurd rfl hreturned, fun hample hfound => ⟨by simp, fun id hid => ?_⟩⟩
    have hid' : s.q.ledger.awaited = some id := hid
    unfold Ample at hample
    simp only at hample hfound
    rw [hid', ledger_waiting.mpr hfound] at hample
    change (s.after t _).startedAt + need id < t + timeoutMs
    rw [hstart]
    simp only [Option.toList_some, List.append_nil, List.map_cons, List.map_nil, List.sum_cons, List.sum_nil] at hample
    omega
  | expired hlate hstep hrest hqueue =>
    refine ⟨hbegun, hfrozen, fun _ => hqueue, fun hample _ => ?_⟩
    unfold Ample at hample
    simp only [ShutdownCall.deadline] at hample hlate
    omega

theorem TimedOk.step (h : TimedOk need s) (hnow : s.now ≤ t)
    (hkeeps : ∀ id, s.q.ledger.awaited = some id → t ≤ s.startedAt + need id) (heffect : TimedEffect s t s') :
    TimedOk need s' := by
  have hsince : ∀ q, (s.after t q).startedAt ≤ t := by
    intro q
    unfold TimedQueue.after
    simp only
    have hle := h.since
    split <;> omega
  cases heffect with
  | @queue e q hstep he =>
    have hmoves := step_moves h.waits hstep
    refine ⟨h.placed.moves hmoves, h.begun.moves hmoves, h.waits.step hstep, h.busy.step hstep, hsince q, ?_,
      fun call hcall => (h.calls call hcall).moves hmoves⟩
    change q.shutdownRequested = true → _
    rw [step_shutdownRequested hstep he]
    exact h.closed
  | @called timeoutMs q call hloop =>
    have hclosed : Step s.q .shutdown { s.q with shutdownRequested := true } := rfl
    obtain ⟨hlooped, hwaits, hbusy⟩ := hloop.keeps (h.waits.step hclosed) (h.busy.step hclosed)
    have hmoves : Moves s.q.ledger q.ledger := (step_moves h.waits hclosed).trans hlooped
    refine ⟨h.placed.moves hmoves, h.begun.moves hmoves, hwaits, hbusy, hsince q, fun _ => by simp, ?_⟩
    intro c hc
    rcases List.mem_append.mp hc with hc | hc
    · exact (h.calls c hc).moves hmoves
    · rw [List.mem_singleton] at hc
      subst hc
      exact .called h.begun h.waits h.busy (Int.le_trans h.since hnow) hloop
  | @polled k q call call' hk hpending hloop =>
    have hcall := h.calls call (List.mem_of_getElem? hk)
    have hlooped := hloop hcall.frozen.closed
    obtain ⟨hmoves, hwaits, hbusy⟩ := hlooped.keeps h.waits h.busy
    refine ⟨h.placed.moves hmoves, h.begun.moves hmoves, hwaits, hbusy, hsince q, fun _ => ?_, ?_⟩
    · have hne := List.ne_nil_of_mem (List.mem_of_getElem? hk)
      simpa using hne
    intro c hc
    rcases List.mem_or_eq_of_mem_set hc with hc | rfl
    · exact (h.calls c hc).moves hmoves
    · exact hcall.looped h.waits h.busy hkeeps hlooped

theorem TimedRun.ok (hrun : TimedRun maxDepth itemTimeoutMs t₀ log s) (hkeeps : KeepsTo need log) :
    TimedOk need s := by
  unfold KeepsTo at hkeeps
  induction hrun with
  | start =>
    refine ⟨?_, ?_, ?_, ?_, Int.le_refl _, ?_, ?_⟩
    · simp [Placed, QueueState.ledger, QueueState.ledgerOf, new]
    · simp [Begun, Ledger.dropped, QueueState.ledger, QueueState.ledgerOf, new]
    · constructor <;> simp [new]
    · constructor <;> simp [new]
    · simp [new]
    · simp
  | @call log s s' e hrun hstep ih =>
    rw [List.forall_mem_cons] at hkeeps
    exact (ih hkeeps.2).step hstep.1 hkeeps.1 (timed_effect hstep.2)

/-- A submission is settled once: what was accepted is never lost, and never answered twice. -/
theorem TimedOk.settledOnce (h : TimedOk need s) : SettledOnce s := by
  refine fun id hid => ⟨h.placed.count_settled, fun ⟨hrace, hreturned⟩ => ?_⟩
  have hqueue : s.q.queue = [] := by
    cases hclosed : s.q.shutdownRequested with
    | false => exact h.busy.working hclosed (h.busy.idle_iff.mpr hrace)
    | true =>
      obtain ⟨call, hcall⟩ := List.exists_mem_of_ne_nil _ (h.closed hclosed)
      exact (h.calls call hcall).emptied (hreturned call hcall)
  refine h.placed.count_settled_of_rest ?_ (ledger_waiting.mpr hqueue) hid
  simp [QueueState.ledger, QueueState.ledgerOf, hrace]

/-- Submissions are settled once, and an ample shutdown lets all that was accepted be executed and returns true, if
and only if such a shutdown finds nothing in the queue, and nothing that was dropped before. -/
theorem shutdown_drains_iff (need : Nat → Nat) (hrun : TimedRun maxDepth itemTimeoutMs t₀ log s)
    (hkeeps : KeepsTo need log) : SettledOnce s ∧ Drains need s ↔ FindsNothing need s := by
  have hok := hrun.ok hkeeps
  have hstarted : ∀ call ∈ s.shutdowns, (∀ id < call.found.enqueued, id ∈ s.q.started) ↔
      call.found.queue = [] ∧ call.found.ledger.dropped = [] := by
    intro call hcall
    have hcallOk := hok.calls call hcall
    rw [← ledger_waiting, ← hcallOk.begun.started_iff]
    have hsame : s.q.started = call.found.started := hcallOk.frozen.started
    rw [hsame]
    rfl
  constructor
  · rintro ⟨-, hdrains⟩ call hcall hample hreturned
    obtain ⟨b, hb⟩ := Option.ne_none_iff_exists'.mp hreturned
    exact (hstarted call hcall).mp (hdrains call hcall hample b hb).1
  · refine fun hfinds => ⟨hok.settledOnce, fun call hcall hample b hb => ?_⟩
    have hfound := hfinds call hcall hample (by rw [hb]; simp)
    refine ⟨(hstarted call hcall).mpr hfound, ?_⟩
    have hne := ((hok.calls call hcall).inTime hample hfound.1).1
    rw [hb] at hne
    cases b with
    | true => rfl
    | false => exact absurd rfl hne

end

/-! ## Two runs -/

def TimedQueue.move (s : TimedQueue) (e : Int × TimedEvent) : Option TimedQueue :=
  if s.now ≤ e.1 then s.next e.1 e.2 else none

theorem exists_timed_run (events : List (Int × TimedEvent))
    (test : List (TimedQueue × Int × TimedEvent) → TimedQueue → Bool)
    (h : (Run.replay TimedQueue.move events [] { q := new 100 120000, now := 0, startedAt := 0 }).any
      (fun r => test r.1 r.2) = true) : ∃ log s, TimedRun 100 120000 0 log s ∧ test log s = true := by
  refine Run.exists_of_replay (fun s e s' hs => ?_) h
  unfold TimedQueue.move at hs
  split at hs
  · next hnow => exact ⟨hnow, hs⟩
  · cases hs

instance (need : Nat → Nat) (log : List (TimedQueue × Int × TimedEvent)) : Decidable (KeepsTo need log) :=
  inferInstanceAs (Decidable (∀ e ∈ log, ∀ id, e.1.q.ledger.awaited = some id → e.2.1 ≤ e.1.startedAt + need id))

/-- The last submission is in progress when the queue is told to stop. -/
def stoppedAtLast : List (Int × TimedEvent) :=
  [(0, .enqueue none), (10, .shutdown 30000), (2000, .executeSettles 0 (.ok ())), (2000, .resume), (2010, .poll 0)]

theorem shutdown_drains_iff_at_last : ∃ log s, TimedRun 100 120000 0 log s ∧ KeepsTo (fun _ => 2000) log ∧
    (SettledOnce s ∧ Drains (fun _ => 2000) s ↔ FindsNothing (fun _ => 2000) s) ∧
    s.shutdowns.map ShutdownCall.returned = [some true] := by
  obtain ⟨log, s, hrun, htest⟩ := exists_timed_run stoppedAtLast
    (fun log s => decide (KeepsTo (fun _ => 2000) log ∧ s.shutdowns.map ShutdownCall.returned = [some true]))
    (by decide +kernel)
  obtain ⟨hkeeps, hreturned⟩ := of_decide_eq_true htest
  exact ⟨log, s, hrun, hkeeps, shutdown_drains_iff (fun _ => 2000) hrun hkeeps, hreturned⟩

/-- The same, and one more submission waits behind the last one. -/
def stoppedBefore : List (Int × TimedEvent) :=
  [(0, .enqueue none), (0, .enqueue none), (10, .shutdown 30000), (2000, .executeSettles 0 (.ok ())),
    (2000, .resume), (2010, .poll 0), (30010, .poll 0)]

/-- It would take two seconds, and is thrown away after thirty. -/
theorem left_in_the_queue : ∃ log s, TimedRun 100 120000 0 log s ∧ KeepsTo (fun _ => 2000) log ∧ AtRest s ∧
    ¬ (SettledOnce s ∧ Drains (fun _ => 2000) s) := by
  obtain ⟨log, s, hrun, htest⟩ := exists_timed_run stoppedBefore
    (fun log s => decide (KeepsTo (fun _ => 2000) log) && s.q.race.isNone && s.shutdowns.any (fun call =>
      decide (call.timeoutMs = 30000 ∧
        call.found.ledger.awaited.toList ++ call.found.ledger.waiting = [0, 1])) &&
      s.shutdowns.all fun call => decide (call.returned = some false))
    (by decide +kernel)
  simp only [Bool.and_eq_true, List.any_eq_true, List.all_eq_true, decide_eq_true_eq, Option.isNone_iff_eq_none] at htest
  obtain ⟨⟨⟨hkeeps, hrace⟩, call, hcall, htimeout, hneeded⟩, hreturned⟩ := htest
  refine ⟨log, s, hrun, hkeeps, ⟨hrace, fun call hcall => by simp [hreturned call hcall]⟩, fun ⟨_, hdrains⟩ => ?_⟩
  have hample : Ample (fun _ => 2000) call := by
    unfold Ample
    rw [hneeded, htimeout]
    decide
  cases (hdrains call hcall hample false (hreturned call hcall)).2

end ZkVote.SubmitQueue
