import ZkVote.Backend.SubmitQueue

/-!
# One submission at a time

What the queue promises to the code that relies on its order, and the timer that breaks it.
-/

open Lib

namespace ZkVote.SubmitQueue

/-- The submissions whose promise was rejected as timed out. -/
def timedOut (s : QueueState) : List Nat :=
  s.settlements.filterMap fun
    | (id, .rejected r) => if r.isTimeout then some id else none
    | (_, .resolved) => none

/-- Whatever happens from here on, a submission that has timed out does nothing. -/
def NoEffectAfterTimeout (s : QueueState) : Prop :=
  ∀ id ∈ timedOut s, ∀ log s', Run Step s log s' → ∀ e ∈ log, e.2 ≠ .act id

/-- The promise of the queue, in one state. Submissions are numbered in the order of `enqueue`. -/
structure Serial (s : QueueState) : Prop where
  oneRunning : s.running.length ≤ 1
  inOrder : s.started.Pairwise (· < ·)
  noEffect : NoEffectAfterTimeout s

def Event.isTimer : Event → Bool
  | .timerFires _ => true
  | _ => false

/-! ## What an event does -/

/-- A submission joins the end of the queue. -/
def QueueState.push (s : QueueState) (timeoutMs : Option Int) (now : Int) : QueueState :=
  { s with
    queue := s.queue ++ [⟨s.enqueued, now, timeoutMs.getD s.itemTimeoutMs⟩]
    enqueued := s.enqueued + 1 }

inductive Effect (s : QueueState) : Event → QueueState → Prop
  | refused {timeoutMs : Option Int} {now : Int} {clock : Nat → Int} : Effect s (.enqueue timeoutMs now clock) s
  | full {timeoutMs : Option Int} {now : Int} {clock : Nat → Int} :
      Effect s (.enqueue timeoutMs now clock) { s with totalRejected := s.totalRejected + 1 }
  | pushed {timeoutMs : Option Int} {now : Int} {clock : Nat → Int} (hopen : s.shutdownRequested = false)
      (hbusy : s.processing = true) : Effect s (.enqueue timeoutMs now clock) (s.push timeoutMs now)
  | begun {timeoutMs : Option Int} {now : Int} {clock : Nat → Int} (hopen : s.shutdownRequested = false)
      (hidle : s.processing = false) : Effect s (.enqueue timeoutMs now clock)
        (processQueue clock (s.push timeoutMs now).queue (s.push timeoutMs now))
  | acted {id : Nat} : Effect s (.act id) s
  | executed {id : Nat} {result : Except String Unit} (hrunning : id ∈ s.running) :
      Effect s (.executeSettles id result) (executeSettles s id result)
  | resumed {clock : Nat → Int} {r : Race} {total : Nat} {outcome : Settlement} (hrace : s.race = some r)
      (hdecided : r.result ≠ none) (houtcome : outcome = .resolved ∨ ∃ message, outcome = .rejected (.failed message)) :
      Effect s (.resume clock) (({ s with totalProcessed := total }.settle r.submission.id outcome).goOn clock)
  | overrun {clock : Nat → Int} {r : Race} (hrace : s.race = some r) (hundecided : r.result = none) :
      Effect s (.timerFires clock)
        ((s.settle r.submission.id (.rejected (.submissionTimeout r.remainingTimeoutMs))).goOn clock)
  | closed : Effect s .shutdown { s with shutdownRequested := true }
  | expired (hclosed : s.shutdownRequested = true) (hrest : s.queue ≠ [] ∨ s.processing = true) :
      Effect s .shutdownExpires { s with
        queue := []
        settlements := s.queue.reverse.map (fun item => (item.id, .rejected .shutdownTimeout)) ++ s.settlements }

theorem step_effect {s s' : QueueState} {e : Event} (hstep : Step s e s') : Effect s e s' := by
  unfold Step next at hstep
  cases e with
  | enqueue timeoutMs now clock =>
    cases hstep
    unfold enqueue
    split
    · exact .refused
    · next hopen =>
      rw [Bool.not_eq_true] at hopen
      split
      · exact .full
      · simp only
        split
        · next hbusy => exact .pushed hopen hbusy
        · next hidle => exact .begun hopen (by simpa using hidle)
  | act id =>
    simp only at hstep
    split at hstep
    · cases hstep
      exact .acted
    · cases hstep
  | executeSettles id result =>
    simp only at hstep
    split at hstep
    · next hrunning =>
      cases hstep
      exact .executed hrunning
    · cases hstep
  | resume clock =>
    simp only [resume] at hstep
    split at hstep
    · next hrace =>
      cases hstep
      exact .resumed hrace (by simp) (.inl rfl)
    · next message hrace =>
      cases hstep
      exact .resumed hrace (by simp) (.inr ⟨message, rfl⟩)
    · cases hstep
  | timerFires clock =>
    simp only [timerFires] at hstep
    split at hstep
    · next hrace =>
      cases hstep
      exact .overrun hrace rfl
    · cases hstep
  | shutdown =>
    cases hstep
    exact .closed
  | shutdownExpires =>
    simp only [shutdownExpires] at hstep
    split at hstep
    · next hclosed =>
      cases hstep
      exact .expired hclosed.1 hclosed.2
    · cases hstep

/-! ## The loop of the worker -/

variable {s s' : QueueState} {clock : Nat → Int} {queue : List Submission} {id maxDepth : Nat} {itemTimeoutMs : Int}

def QueueState.skip (s : QueueState) (id : Nat) : QueueState :=
  { s with totalTimedOut := s.totalTimedOut + 1 }.settle id (.rejected .queueTimeout)

/-- Submissions are skipped one by one, until the worker stops or starts one. -/
theorem processQueue_rule {P : List Submission → QueueState → Prop} {Q : QueueState → Prop}
    (hskip : ∀ item q s, s.shutdownRequested = false → P (item :: q) s → P q (s.skip item.id))
    (hstop : ∀ q s, q = [] ∨ s.shutdownRequested = true → P q s → Q { s with queue := q, processing := false })
    (hstart : ∀ item q s ms, s.shutdownRequested = false → P (item :: q) s →
      Q ({ s with queue := q, processing := true }.start item ms))
    (hP : P queue s) : Q (processQueue clock queue s) := by
  induction queue generalizing s with
  | nil =>
    unfold processQueue
    exact hstop [] s (.inl rfl) hP
  | cons item queue ih =>
    unfold processQueue
    split
    · next hclosed => exact hstop _ s (.inr hclosed) hP
    · next hopen =>
      rw [Bool.not_eq_true] at hopen
      simp only
      split
      · exact ih (hskip item queue s hopen hP)
      · exact hstart item queue s _ hopen hP

@[simp] theorem timedOut_settle (s : QueueState) (id : Nat) (outcome : Settlement) :
    timedOut (s.settle id outcome) =
      (match outcome with
        | .rejected r => if r.isTimeout then [id] else []
        | .resolved => []) ++ timedOut s := by
  unfold timedOut QueueState.settle
  cases outcome with
  | resolved => simp
  | rejected r => cases h : r.isTimeout <;> simp [h]

@[simp] theorem timedOut_skip (s : QueueState) (id : Nat) : timedOut (s.skip id) = id :: timedOut s := by
  unfold QueueState.skip
  rw [timedOut_settle]
  rfl

/-! ## A submission that is over -/

/-- The submission was taken from the queue and is not in progress. -/
def Over (id : Nat) (queue : List Submission) (s : QueueState) : Prop :=
  id < s.enqueued ∧ id ∉ queue.map Submission.id ∧ id ∉ s.running

theorem Over.processQueue (h : Over id queue s) :
    Over id (processQueue clock queue s).queue (processQueue clock queue s) := by
  refine processQueue_rule (Q := fun s => Over id s.queue s) ?_ ?_ ?_ h
  · intro item q s _ ⟨hlt, hqueue, hrunning⟩
    simp only [List.map_cons, List.mem_cons, not_or] at hqueue
    exact ⟨hlt, hqueue.2, hrunning⟩
  · intro q s _ h
    exact h
  · intro item q s ms _ ⟨hlt, hqueue, hrunning⟩
    simp only [List.map_cons, List.mem_cons, not_or] at hqueue
    refine ⟨hlt, hqueue.2, ?_⟩
    simp only [QueueState.start, List.mem_cons, not_or]
    exact ⟨hqueue.1, hrunning⟩

theorem Over.push {timeoutMs : Option Int} {now : Int} (h : Over id s.queue s) :
    Over id (s.push timeoutMs now).queue (s.push timeoutMs now) := by
  obtain ⟨hlt, hqueue, hrunning⟩ := h
  refine ⟨Nat.lt_succ_of_lt hlt, ?_, hrunning⟩
  simp only [QueueState.push, List.map_append, List.map_cons, List.map_nil, List.mem_append, List.mem_singleton,
    not_or]
  exact ⟨hqueue, by omega⟩

theorem Over.step {e : Event} (h : Over id s.queue s) (hstep : Step s e s') : Over id s'.queue s' := by
  have ⟨hlt, hqueue, hrunning⟩ := h
  cases step_effect hstep with
  | pushed => exact h.push
  | begun => exact h.push.processQueue
  | executed => exact ⟨hlt, hqueue, fun hmem => hrunning (List.mem_of_mem_erase hmem)⟩
  | resumed | overrun => exact Over.processQueue ⟨hlt, hqueue, hrunning⟩
  | expired => exact ⟨hlt, by simp, hrunning⟩
  | _ => exact ⟨hlt, hqueue, hrunning⟩

theorem Over.run {log : List (QueueState × Event)} (h : Over id s.queue s) (hrun : Run Step s log s') :
    Over id s'.queue s' :=
  hrun.invariant (P := fun s => Over id s.queue s) h fun _ _ _ hover hstep => hover.step hstep

theorem Over.no_act {log : List (QueueState × Event)} (h : Over id s.queue s) (hrun : Run Step s log s') :
    ∀ e ∈ log, e.2 ≠ .act id := by
  intro e he hact
  obtain ⟨before, after, s₁, -, hbefore, hstep, -⟩ := hrun.split he
  have hover := h.run hbefore
  rw [hact] at hstep
  unfold Step next at hstep
  simp [hover.2.2] at hstep

/-! ## Numbers -/

/-- Submissions were started, wait and come in the order of their numbers. -/
structure Sorted (queue : List Submission) (s : QueueState) : Prop where
  ordered : (s.started ++ queue.map Submission.id).Pairwise (· < ·)
  below : ∀ id ∈ s.started ++ queue.map Submission.id, id < s.enqueued

theorem Sorted.tail {item : Submission} (h : Sorted (item :: queue) s) : Sorted queue s := by
  have hsub : (s.started ++ queue.map Submission.id).Sublist (s.started ++ (item :: queue).map Submission.id) := by
    apply List.Sublist.append_left
    simp
  exact ⟨h.ordered.sublist hsub, fun id hid => h.below id (hsub.subset hid)⟩

theorem Sorted.processQueue (h : Sorted queue s) :
    Sorted (processQueue clock queue s).queue (processQueue clock queue s) := by
  refine processQueue_rule (Q := fun s => Sorted s.queue s) ?_ ?_ ?_ h
  · intro item q s _ h
    exact ⟨h.tail.ordered, h.tail.below⟩
  · intro q s _ h
    exact ⟨h.ordered, h.below⟩
  · intro item q s ms _ h
    have happend : s.started ++ [item.id] ++ q.map Submission.id = s.started ++ (item :: q).map Submission.id := by
      simp
    constructor
    · change (s.started ++ [item.id] ++ q.map Submission.id).Pairwise (· < ·)
      rw [happend]
      exact h.ordered
    · change ∀ id ∈ s.started ++ [item.id] ++ q.map Submission.id, id < s.enqueued
      rw [happend]
      exact h.below

theorem Sorted.push {timeoutMs : Option Int} {now : Int} (h : Sorted s.queue s) :
    Sorted (s.push timeoutMs now).queue (s.push timeoutMs now) := by
  unfold QueueState.push
  constructor
  · rw [List.map_append, ← List.append_assoc, List.pairwise_append]
    refine ⟨h.ordered, by simp, ?_⟩
    intro a ha b hb
    simp only [List.map_cons, List.map_nil, List.mem_singleton] at hb
    rw [hb]
    exact h.below a ha
  · intro id hid
    simp only [List.map_append, List.map_cons, List.map_nil, ← List.append_assoc] at hid
    rcases List.mem_append.mp hid with hid | hid
    · exact Nat.lt_succ_of_lt (h.below id hid)
    · rw [List.mem_singleton.mp hid]
      exact Nat.lt_succ_self _

theorem Sorted.step {e : Event} (h : Sorted s.queue s) (hstep : Step s e s') : Sorted s'.queue s' := by
  cases step_effect hstep with
  | pushed => exact h.push
  | begun => exact h.push.processQueue
  | resumed | overrun => exact Sorted.processQueue ⟨h.ordered, h.below⟩
  | expired =>
    have hnil := h.ordered.sublist (List.sublist_append_left _ _)
    refine ⟨by simpa using hnil, fun id hid => h.below id ?_⟩
    rw [List.map_nil, List.append_nil] at hid
    exact List.mem_append_left _ hid
  | _ => exact ⟨h.ordered, h.below⟩

theorem sorted_of_run {log : List (QueueState × Event)} (hrun : Run Step (new maxDepth itemTimeoutMs) log s) :
    Sorted s.queue s := by
  refine hrun.invariant (P := fun s => Sorted s.queue s) ?_ fun _ _ _ h hstep => h.step hstep
  constructor <;> simp [new]

/-! ## The worker and its race -/

/-- What the worker awaits is in progress, and it awaits nothing when it is not at work. -/
structure Waits (s : QueueState) : Prop where
  idle : s.processing = false → s.race = none
  awaited : ∀ r, s.race = some r → r.result = none → r.submission.id ∈ s.running

theorem Waits.processQueue (h : s.race = none) : Waits (processQueue clock queue s) := by
  refine processQueue_rule (P := fun _ s => s.race = none) (Q := Waits) ?_ ?_ ?_ h
  · intro item q s _ h
    exact h
  · intro q s _ h
    exact ⟨fun _ => h, fun r hr => by simp [h] at hr⟩
  · intro item q s ms _ h
    constructor
    · intro hidle
      cases hidle
    · intro r hr _
      cases hr
      exact List.mem_cons_self

theorem Waits.executeSettles {result : Except String Unit} (h : Waits s) : Waits (executeSettles s id result) := by
  constructor
  · intro hidle
    simp [SubmitQueue.executeSettles, h.idle hidle]
  · intro r hr hnone
    simp only [SubmitQueue.executeSettles, Option.map_eq_some_iff] at hr
    obtain ⟨r₀, hr₀, rfl⟩ := hr
    by_cases hdecided : r₀.submission.id = id ∧ r₀.result.isNone
    · simp [hdecided] at hnone
    · rw [if_neg hdecided] at hnone ⊢
      have hother : r₀.submission.id ≠ id := fun heq => hdecided ⟨heq, by simp [hnone]⟩
      exact (List.mem_erase_of_ne hother).mpr (h.awaited r₀ hr₀ hnone)

theorem Waits.step {e : Event} (h : Waits s) (hstep : Step s e s') : Waits s' := by
  cases step_effect hstep with
  | begun _ hidle => exact Waits.processQueue (h.idle hidle)
  | executed => exact h.executeSettles
  | resumed | overrun => exact Waits.processQueue rfl
  | _ => exact ⟨h.idle, h.awaited⟩

theorem waits_of_run {log : List (QueueState × Event)} (hrun : Run Step (new maxDepth itemTimeoutMs) log s) :
    Waits s := by
  refine hrun.invariant ?_ fun _ _ _ h hstep => h.step hstep
  constructor <;> simp [new]

/-- The timer leaves behind a submission that is rejected as timed out and still in progress. -/
theorem not_serial_of_timer (h : Waits s) (hstep : Step s (.timerFires clock) s') : ¬ Serial s' := by
  intro hserial
  cases step_effect hstep with
  | @overrun _ r hrace hundecided =>
    have hrunning : r.submission.id ∈ s.running := h.awaited r hrace hundecided
    set s' := (s.settle r.submission.id (.rejected (.submissionTimeout r.remainingTimeoutMs))).goOn clock
    have hlate : r.submission.id ∈ timedOut s' ∧ r.submission.id ∈ s'.running := by
      refine processQueue_rule (P := fun _ s => r.submission.id ∈ timedOut s ∧ r.submission.id ∈ s.running)
        (Q := fun s => r.submission.id ∈ timedOut s ∧ r.submission.id ∈ s.running) ?_ ?_ ?_ ?_
      · intro item q s _ ⟨htimedOut, hrunning⟩
        rw [timedOut_skip]
        exact ⟨List.mem_cons_of_mem _ htimedOut, hrunning⟩
      · intro q s _ h
        exact h
      · intro item q s ms _ ⟨htimedOut, hrunning⟩
        exact ⟨htimedOut, List.mem_cons_of_mem _ hrunning⟩
      · refine ⟨?_, hrunning⟩
        simp [timedOut, QueueState.settle, Rejection.isTimeout]
    -- It can act at once.
    have hact : Step s' (.act r.submission.id) s' := by
      unfold Step next
      simp [hlate.2]
    exact hserial.noEffect _ hlate.1 _ _ (.call .start hact) _ List.mem_cons_self rfl

/-! ## Without the timer -/

/-- The submission in progress that the worker waits for. -/
def pending (s : QueueState) : List Nat :=
  match s.race with
  | some ⟨submission, _, none⟩ => [submission.id]
  | _ => []

/-- No more is in progress than the worker knows of. -/
structure Calm (s : QueueState) : Prop where
  running : s.running = pending s
  begun : ∀ id ∈ s.running, id ∈ s.started
  lapsed : ∀ id ∈ timedOut s, Over id s.queue s

/-- The worker is between two submissions. -/
structure Between (queue : List Submission) (s : QueueState) : Prop where
  race : s.race = none
  running : s.running = []
  sorted : Sorted queue s
  lapsed : ∀ id ∈ timedOut s, Over id queue s

theorem Sorted.head_over {item : Submission} (h : Sorted (item :: queue) s) (hrunning : s.running = []) :
    Over item.id queue s := by
  refine ⟨h.below item.id (by simp), ?_, by simp [hrunning]⟩
  have hqueue := h.ordered.sublist (List.sublist_append_right _ _)
  rw [List.map_cons, List.pairwise_cons] at hqueue
  intro hmem
  exact absurd (hqueue.1 _ hmem) (Nat.lt_irrefl _)

theorem Between.processQueue (h : Between queue s) : Calm (processQueue clock queue s) := by
  refine processQueue_rule (P := Between) (Q := Calm) ?_ ?_ ?_ h
  · intro item q s _ h
    refine ⟨h.race, h.running, ⟨h.sorted.tail.ordered, h.sorted.tail.below⟩, ?_⟩
    rw [timedOut_skip]
    intro id hid
    rcases List.mem_cons.mp hid with rfl | hid
    · exact h.sorted.head_over h.running
    · obtain ⟨hlt, hqueue, hrunning⟩ := h.lapsed id hid
      simp only [List.map_cons, List.mem_cons, not_or] at hqueue
      exact ⟨hlt, hqueue.2, hrunning⟩
  · intro q s _ h
    refine ⟨?_, by simp [h.running], h.lapsed⟩
    simp [pending, h.race, h.running]
  · intro item q s ms _ h
    refine ⟨?_, ?_, ?_⟩
    · simp [QueueState.start, pending, h.running]
    · simp [QueueState.start, h.running]
    · intro id hid
      obtain ⟨hlt, hqueue, -⟩ := h.lapsed id hid
      simp only [List.map_cons, List.mem_cons, not_or] at hqueue
      refine ⟨hlt, hqueue.2, ?_⟩
      simp [QueueState.start, h.running, hqueue.1]

theorem Calm.executeSettles {result : Except String Unit} (h : Calm s) (hmem : id ∈ s.running) :
    Calm (executeSettles s id result) := by
  refine ⟨?_, fun id' hid' => h.begun id' (List.mem_of_mem_erase hid'), ?_⟩
  · rw [h.running] at hmem
    cases hrace : s.race with
    | none => simp [pending, hrace] at hmem
    | some r =>
      obtain ⟨submission, ms, settled⟩ := r
      cases settled with
      | some settled => simp [pending, hrace] at hmem
      | none =>
        simp only [pending, hrace, List.mem_singleton] at hmem
        simp [SubmitQueue.executeSettles, h.running, pending, hrace, hmem]
  · intro id' hid'
    obtain ⟨hlt, hqueue, hrunning⟩ := h.lapsed id' hid'
    exact ⟨hlt, hqueue, fun hmem' => hrunning (List.mem_of_mem_erase hmem')⟩

theorem Calm.step {e : Event} (h : Calm s) (hsorted : Sorted s.queue s) (hwaits : Waits s)
    (hquiet : e.isTimer = false) (hstep : Step s e s') : Calm s' := by
  cases step_effect hstep with
  | pushed => exact ⟨h.running, h.begun, fun id hid => (h.lapsed id hid).push⟩
  | begun _ hidle =>
    have hrace := hwaits.idle hidle
    refine Between.processQueue ⟨hrace, ?_, hsorted.push, fun id hid => (h.lapsed id hid).push⟩
    simp [QueueState.push, h.running, pending, hrace]
  | executed hrunning => exact h.executeSettles hrunning
  | @resumed _ r _ _ hrace hdecided houtcome =>
    have hrunning : s.running = [] := by
      rw [h.running]
      unfold pending
      split
      · next hrace' =>
        cases hrace'.symm.trans hrace
        exact absurd rfl hdecided
      · rfl
    refine Between.processQueue ⟨rfl, hrunning, ⟨hsorted.ordered, hsorted.below⟩, ?_⟩
    rcases houtcome with rfl | ⟨message, rfl⟩
    · exact h.lapsed
    · exact h.lapsed
  | overrun => cases hquiet
  | expired =>
    refine ⟨h.running, h.begun, ?_⟩
    intro id hid
    -- What is dropped was never started.
    simp only [timedOut, List.filterMap_append, List.mem_append, List.mem_filterMap, List.mem_map,
      List.mem_reverse] at hid
    rcases hid with ⟨_, ⟨item, hitem, rfl⟩, hid⟩ | hid
    · have hqueued : item.id ∈ s.queue.map Submission.id := List.mem_map_of_mem hitem
      simp only [Rejection.isTimeout, if_true, Option.some.injEq] at hid
      rw [← hid]
      refine ⟨hsorted.below _ (List.mem_append_right _ hqueued), by simp, fun hrunning => ?_⟩
      have hlt := (List.pairwise_append.mp hsorted.ordered).2.2 _ (h.begun _ hrunning) _ hqueued
      exact Nat.lt_irrefl _ hlt
    · obtain ⟨hlt, -, hrunning⟩ := h.lapsed id (List.mem_filterMap.mpr hid)
      exact ⟨hlt, by simp, hrunning⟩
  | _ => exact ⟨h.running, h.begun, h.lapsed⟩

theorem calm_of_run {log : List (QueueState × Event)} (hrun : Run Step (new maxDepth itemTimeoutMs) log s)
    (hquiet : ∀ e ∈ log, e.2.isTimer = false) : Calm s := by
  induction hrun with
  | start => constructor <;> simp [new, pending, timedOut]
  | call hrun hstep ih =>
    rw [List.forall_mem_cons] at hquiet
    exact (ih hquiet.2).step (sorted_of_run hrun) (waits_of_run hrun) hquiet.1 hstep

theorem serial_of_calm (hsorted : Sorted s.queue s) (h : Calm s) : Serial s := by
  refine ⟨?_, ?_, ?_⟩
  · rw [h.running]
    unfold pending
    split <;> simp
  · exact hsorted.ordered.sublist (List.sublist_append_left _ _)
  · intro id hid log s' hrun
    exact (h.lapsed id hid).no_act hrun

/-- Submissions are serial throughout a run exactly if no timer runs out before the execute function
that it races has settled. -/
theorem serial_iff_no_timer {log : List (QueueState × Event)}
    (hrun : Run Step (new maxDepth itemTimeoutMs) log s) :
    (∀ t ∈ Run.states log s, Serial t) ↔ ∀ e ∈ log, e.2.isTimer = false := by
  refine hrun.forall_states_iff (C := fun _ e => e.isTimer = false) ?_ ?_
  · intro log s hrun hquiet
    exact serial_of_calm (sorted_of_run hrun) (calm_of_run hrun hquiet)
  · intro log s e s' hrun hstep htimer
    cases e with
    | timerFires clock => exact not_serial_of_timer (waits_of_run hrun) hstep
    | _ => exact absurd rfl htimer

/-! ## Two runs -/

theorem exists_run (events : List Event) (test : List (QueueState × Event) → QueueState → Bool)
    (h : (Run.replay next events [] (new 100 120000)).any (fun r => test r.1 r.2) = true) :
    ∃ log s, Run Step (new 100 120000) log s ∧ test log s = true :=
  Run.exists_of_replay (fun _ _ _ hnext => hnext) h

/-- Two submissions, of which the first one settles in time. -/
def twoInTime : List Event :=
  [.enqueue none 0 fun _ => 0, .enqueue none 10 fun _ => 10, .act 0, .executeSettles 0 (.ok ()),
    .resume fun _ => 2000, .act 1, .executeSettles 1 (.ok ()), .resume fun _ => 4000]

theorem serial_iff_no_timer_in_time : ∃ log s, Run Step (new 100 120000) log s ∧
    ((∀ t ∈ Run.states log s, Serial t) ↔ ∀ e ∈ log, e.2.isTimer = false) := by
  obtain ⟨log, s, hrun, -⟩ := exists_run twoInTime (fun _ s => s.started = [0, 1]) (by decide +kernel)
  exact ⟨log, s, hrun, serial_iff_no_timer hrun⟩

/-- Two submissions, and the first one still runs after its two minutes. -/
def firstOverruns : List Event :=
  [.enqueue none 0 fun _ => 0, .enqueue (some 300000) 10 fun _ => 10, .timerFires fun _ => 120000, .act 0]

/-- The second submission starts beside the first, which was rejected and acts all the same. -/
theorem overrun_breaks_serial : ∃ log s, Run Step (new 100 120000) log s ∧
    ¬ ∀ t ∈ Run.states log s, Serial t := by
  obtain ⟨log, s, hrun, htest⟩ := exists_run firstOverruns
    (fun _ s => s.running = [1, 0] ∧ timedOut s = [0]) (by decide +kernel)
  refine ⟨log, s, hrun, fun hserial => ?_⟩
  have hone := (hserial s List.mem_cons_self).oneRunning
  rw [(of_decide_eq_true htest).1] at hone
  simp at hone

end ZkVote.SubmitQueue
