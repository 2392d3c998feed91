import ZkVote.Backend.EndpointMoves
import ZkVote.Lib.Runs
import ZkVote.Lib.SlidingWindow

/-!
# The endpoint pool: runs

Any calls in any order, whatever becomes of them: where a function is invoked again,
how fresh its endpoint is, and how many retries there are.
-/

open Lib Lib.SlidingWindow

namespace ZkVote.EndpointPool

abbrev Log := List (Pool × Reading × Event)

def Accepts (o : EndpointPoolOptions) (p : Pool) (event : Reading × Event) (p' : Pool) : Prop :=
  ∃ effect, step o p event.1 event.2 = some (p', effect)

def PoolRun (o : EndpointPoolOptions) : Log → Pool → Prop := Run (Accepts o) (constructor o)

/-! ## What has happened -/

/-- What the event calls and starts in the state. -/
def effectOf (o : EndpointPoolOptions) (p : Pool) (event : Reading × Event) : Effect :=
  ((step o p event.1 event.2).map Prod.snd).getD {}

/-- The endpoint at which the function of the call is invoked. -/
def invokedAt (id : Nat) (effect : Effect) : Option Nat :=
  match effect.invoked with
  | some (id', _, ep) => if id' = id then some ep else none
  | none => none

/-- The kind of the failure that the function of the call settles with. -/
def failedWith (id : Nat) : Event → Option FailureKind
  | .settle id' (some err) => if id' = id then some (classifyError err).kind else none
  | _ => none

/-- Where the function of the call was invoked, the last time first. -/
def invocations (o : EndpointPoolOptions) (id : Nat) (log : Log) : List Nat :=
  log.filterMap fun e => invokedAt id (effectOf o e.1 e.2)

/-- How it has failed, the last time first. -/
def failures (id : Nat) (log : Log) : List FailureKind := log.filterMap fun e => failedWith id e.2.2

/-- When the retries were recorded, the last one first. -/
def retriesAt (o : EndpointPoolOptions) (log : Log) : List Number :=
  log.filterMap fun e => if (effectOf o e.1 e.2).retried then some e.2.1.now else none

def requestsAt (o : EndpointPoolOptions) (log : Log) : List Number :=
  log.filterMap fun e => if (effectOf o e.1 e.2).requested then some e.2.1.now else none

/-! ## A function invoked again -/

/-- The failures after which a function that must not run twice may be invoked again. -/
def Repeats (kind : FailureKind) : Prop := kind = .rate_limited ∨ kind = .unavailable

/-- Each time before, the function was invoked at the endpoint, and failed so that it may be again. -/
structure Repeatable (eps : List Nat) (kinds : List FailureKind) (ep : Nat) : Prop where
  place : ∀ ep' ∈ eps, ep' = ep
  failed : eps.length = kinds.length
  kinds : ∀ kind ∈ kinds, Repeats kind

/-- What the phase of a call that must not move tells of its past. -/
def Pinned (eps : List Nat) (kinds : List FailureKind) : Phase → Prop
  | .ensuring => Repeatable eps kinds 0 ∧ eps = []
  | .inFlight ep _ => ∃ eps', eps = ep :: eps' ∧ Repeatable eps' kinds ep
  | .settled ep _ (some err) | .answered ep (some err) =>
    (∀ ep' ∈ eps, ep' = ep) ∧ eps.length = kinds.length ∧
      (Repeats (classifyError err).kind → ∀ kind ∈ kinds, Repeats kind)
  | .sleeping next => Repeatable eps kinds next
  | _ => True

section
variable {o : EndpointPoolOptions} {p p' : Pool} {log : Log} {r : Reading} {event : Event} {out : Pool × Effect}
  {id id' ep : Nat} {eps : List Nat} {kinds : List FailureKind} {opClass : OperationClass} {phase : Phase}
  {invoked : Option Nat} {now : Number}

theorem repeatable_nil : Repeatable [] [] ep := ⟨by simp, rfl, by simp⟩

theorem Phase.IsOver.pinned (h : phase.IsOver) : Pinned eps kinds phase := by
  cases phase with
  | returned | rejected | staleRead | dependencyUnavailable => trivial
  | ensuring | inFlight | settled | answered | sleeping => cases h

theorem Arrives.pinned (h : Arrives ep phase invoked) (hs : Repeatable eps kinds ep) :
    (∀ ep', invoked = some ep' → Repeatable eps kinds ep') ∧ Pinned (invoked.toList ++ eps) kinds phase := by
  cases h with
  | invoked start =>
    refine ⟨fun ep' heq => ?_, eps, rfl, hs⟩
    cases heq
    exact hs
  | refused start => exact ⟨fun ep' heq => (by cases heq), hs.place, hs.failed, fun _ => hs.kinds⟩
  | ended hover => exact ⟨fun ep' heq => (by cases heq), hover.pinned⟩

theorem Move.pinned (h : Move o p now id .submit_non_idempotent event phase invoked)
    (hnew : p.call id = none → eps = [] ∧ kinds = [])
    (hstands : ∀ phase, Stands p id .submit_non_idempotent phase → Pinned eps kinds phase) :
    (∀ ep, invoked = some ep → Repeatable eps kinds ep) ∧
      Pinned (invoked.toList ++ eps) ((failedWith id event).toList ++ kinds) phase := by
  cases h with
  | ensure new fresh => cases fresh
  | @begin _ ep _ _ found arrives current =>
    have hnil : eps = [] ∧ kinds = [] ∧ failedWith id event = none := by
      rcases found with ⟨rfl, hnone⟩ | ⟨rfl, hfound⟩
      · exact ⟨(hnew hnone).1, (hnew hnone).2, rfl⟩
      · obtain ⟨hs, hnil⟩ := hstands _ hfound
        have hlength := hs.failed
        subst hnil
        exact ⟨rfl, List.eq_nil_of_length_eq_zero hlength.symm, rfl⟩
    obtain ⟨rfl, rfl, hfailed⟩ := hnil
    rw [hfailed]
    exact arrives.pinned repeatable_nil
  | @settle ep start failure found =>
    obtain ⟨eps', rfl, hs⟩ := hstands _ found
    refine ⟨fun ep heq => (by cases heq), ?_⟩
    cases failure with
    | none => trivial
    | some err =>
      have hfailed : failedWith id (.settle id (some err)) = some (classifyError err).kind := if_pos rfl
      rw [hfailed]
      refine ⟨?_, ?_, ?_⟩
      · intro ep' hep'
        rcases List.mem_cons.mp hep' with rfl | hep'
        · rfl
        · exact hs.place ep' hep'
      · exact congrArg (· + 1) hs.failed
      · intro hkind kind hmem
        rcases List.mem_cons.mp hmem with rfl | hmem
        · exact hkind
        · exact hs.kinds kind hmem
  | @answer ep start failure found =>
    refine ⟨fun ep heq => (by cases heq), ?_⟩
    cases failure with
    | none => trivial
    | some err =>
      have hsettled := hstands _ found
      exact hsettled
  | @sleep ep next err found chosen =>
    obtain ⟨hplace, hlength, hkinds⟩ := hstands _ found
    have hnext := chosen.place rfl
    subst hnext
    have hkind : Repeats (classifyError err).kind := by
      have hclient := chosen.notClient
      have hambiguous := chosen.ambiguous
      unfold Repeats
      cases hk : (classifyError err).kind with
      | client => exact absurd hk hclient
      | rate_limited => exact .inl rfl
      | unavailable => exact .inr rfl
      | ambiguous => cases hambiguous hk
    exact ⟨fun ep heq => (by cases heq), hplace, hlength, hkinds hkind⟩
  | again found chosen other arrives => exact absurd (chosen.place rfl) other
  | wake found arrives => exact arrives.pinned (hstands _ found)
  | ended found hover => exact ⟨fun ep heq => (by cases heq), hover.pinned⟩

/-! ## Runs -/

theorem effectOf_eq {effect : Effect} (h : step o p r event = some (p', effect)) : effectOf o p (r, event) = effect := by
  unfold effectOf
  rw [h]
  rfl

theorem invocations_cons (e : Pool × Reading × Event) :
    invocations o id (e :: log) = (invokedAt id (effectOf o e.1 e.2)).toList ++ invocations o id log := by
  unfold invocations
  rw [List.filterMap_cons]
  cases invokedAt id (effectOf o e.1 e.2) <;> rfl

theorem failures_cons (e : Pool × Reading × Event) :
    failures id (e :: log) = (failedWith id e.2.2).toList ++ failures id log := by
  unfold failures
  rw [List.filterMap_cons]
  cases failedWith id e.2.2 <;> rfl

theorem Moved.invokedAt_self {effect : Effect} (h : Moved id opClass p (p', effect) phase invoked) :
    invokedAt id effect = invoked := by
  unfold invokedAt
  rw [h.invoked]
  cases invoked with
  | none => rfl
  | some ep => exact if_pos rfl

theorem Moved.invokedAt_other {effect : Effect} (h : Moved id opClass p (p', effect) phase invoked) (hne : id ≠ id') :
    invokedAt id' effect = none := by
  unfold invokedAt
  rw [h.invoked]
  cases invoked with
  | none => rfl
  | some ep => exact if_neg hne

theorem Move.failedWith_other (h : Move o p now id opClass event phase invoked) (hne : id ≠ id') :
    failedWith id' event = none := by
  cases h with
  | ensure | answer | sleep | again | wake => rfl
  | begin found => rcases found with ⟨rfl, -⟩ | ⟨rfl, -⟩ <;> rfl
  | ended found => rcases found with ⟨rfl, -⟩ | ⟨-, rfl | rfl⟩ <;> rfl
  | @settle ep start failure =>
    cases failure with
    | none => rfl
    | some err => exact if_neg hne

/-- The call is as the phase of a call that must not move tells. -/
structure Tells (o : EndpointPoolOptions) (id : Nat) (log : Log) (p : Pool) : Prop where
  new : p.call id = none → invocations o id log = [] ∧ failures id log = []
  stands : ∀ phase, Stands p id .submit_non_idempotent phase → Pinned (invocations o id log) (failures id log) phase

theorem tells_of_same {e : Pool × Reading × Event} (h : Tells o id log p) (hcall : p'.call id = p.call id)
    (hinvoked : invokedAt id (effectOf o e.1 e.2) = none) (hfailed : failedWith id e.2.2 = none) :
    Tells o id (e :: log) p' := by
  have hinvocations : invocations o id (e :: log) = invocations o id log := by
    rw [invocations_cons, hinvoked]
    rfl
  have hfailures : failures id (e :: log) = failures id log := by
    rw [failures_cons, hfailed]
    rfl
  refine ⟨fun hnew => ?_, fun phase hstands => ?_⟩
  · rw [hinvocations, hfailures]
    exact h.new (hcall ▸ hnew)
  · rw [hinvocations, hfailures]
    unfold Stands at hstands
    rw [hcall] at hstands
    exact h.stands phase hstands

/-- A function that must not run twice is invoked again as it may be, and its call tells so. -/
theorem tells_step {effect : Effect} (hid : Tells o id log p) (h : step o p r event = some (p', effect)) :
    (∀ ep, effect.invoked = some (id, .submit_non_idempotent, ep) →
        Repeatable (invocations o id log) (failures id log) ep) ∧
      Tells o id ((p, r, event) :: log) p' := by
  have heffect := effectOf_eq h
  rcases (step_effect h).moved with ⟨id', opClass, phase, invoked, hmoved, hmove⟩ | ⟨hcall, hnone, houtside⟩
  · obtain ⟨call, hcall, hclass, hphase⟩ := hmoved.call
    by_cases hne : id' ≠ id
    · refine ⟨fun ep hinvoked => ?_, tells_of_same hid ?_ ?_ (hmove.failedWith_other hne)⟩
      · have hat := hmoved.invokedAt_other hne
        unfold invokedAt at hat
        rw [hinvoked] at hat
        simp at hat
      · rw [hcall, Function.update_of_ne hne.symm]
      · rw [heffect]
        exact hmoved.invokedAt_other hne
    · obtain rfl : id' = id := not_not.mp hne
      by_cases hpinned : opClass = .submit_non_idempotent
      · subst hpinned
        obtain ⟨hsecure, hafter⟩ := hmove.pinned hid.new hid.stands
        refine ⟨fun ep hinvoked => hsecure ep ?_, fun hnew => ?_, fun phase' hstands => ?_⟩
        · have hself := hmoved.invokedAt_self
          unfold invokedAt at hself
          rw [hinvoked] at hself
          simpa using hself.symm
        · rw [hcall, Function.update_self] at hnew
          cases hnew
        · obtain ⟨call', hcall', -, hphase'⟩ := hstands
          rw [hcall, Function.update_self, Option.some.injEq] at hcall'
          subst hcall'
          rw [invocations_cons, failures_cons, heffect, hmoved.invokedAt_self, ← hphase', hphase]
          exact hafter
      · refine ⟨fun ep hinvoked => ?_, fun hnew => ?_, fun phase' hstands => ?_⟩
        · have hsome := hmoved.invoked
          rw [hinvoked] at hsome
          cases invoked with
          | none => cases hsome
          | some ep' =>
            simp only [Option.map_some, Option.some.injEq, Prod.mk.injEq, true_and] at hsome
            exact absurd hsome.1.symm hpinned
        · rw [hcall, Function.update_self] at hnew
          cases hnew
        · obtain ⟨call', hcall', hclass', -⟩ := hstands
          rw [hcall, Function.update_self, Option.some.injEq] at hcall'
          subst hcall'
          exact absurd (hclass.symm.trans hclass') hpinned
  · have hat : invokedAt id effect = none := by
      unfold invokedAt
      rw [hnone]
    have hfailed : failedWith id event = none := by
      cases event with
      | probed | observed => rfl
      | execute | ensured | settle | answer | handle | wake => cases houtside
    refine ⟨fun ep hinvoked => ?_, tells_of_same hid (congrFun hcall id) (heffect ▸ hat) hfailed⟩
    rw [hnone] at hinvoked
    cases hinvoked

theorem PoolRun.tells (hrun : PoolRun o log p) (id : Nat) : Tells o id log p := by
  refine Run.invariant_log (P := fun log p => Tells o id log p) ⟨fun _ => ⟨rfl, rfl⟩, fun phase hstands => ?_⟩
    (fun log p event p' _ hid hstep => ?_) hrun
  · obtain ⟨call, hcall, -⟩ := hstands
    cases hcall
  · obtain ⟨effect, hstep⟩ := hstep
    exact (tells_step hid hstep).2

end

/-! ## Freshness -/

/-- The call that the event is about. -/
def Event.callId : Event → Option Nat
  | .execute id _ | .ensured id | .settle id _ | .answer id | .handle id | .wake id => some id
  | .probed .. | .observed => none

/-- The last event of the call. -/
def lastOf (id : Nat) (log : Log) : Option (Pool × Reading × Event) := log.find? fun e => e.2.2.callId = some id

/-- The last thing the call did was to choose the endpoint after a failure, and the endpoint was current. -/
def ChoseCurrent (o : EndpointPoolOptions) (id : Nat) (log : Log) (ep : Nat) : Prop :=
  ∃ e, lastOf id log = some e ∧ e.2.2 = .handle id ∧ Current o e.1 e.2.1.now ep

/-- A call sleeps before an endpoint that was current. -/
def SleepsWell (o : EndpointPoolOptions) (id : Nat) (log : Log) (p : Pool) : Prop :=
  ∀ opClass next, Stands p id opClass (.sleeping next) → (FALLBACK_MATRIX opClass).requireFresh = true →
    ChoseCurrent o id log next

section
variable {o : EndpointPoolOptions} {p p' : Pool} {log : Log} {r : Reading} {event : Event} {id ep : Nat}
  {opClass : OperationClass} {phase : Phase} {invoked : Option Nat} {now : Number}

theorem Move.callId (h : Move o p now id opClass event phase invoked) : event.callId = some id := by
  cases h with
  | ensure | settle | answer | sleep | again | wake => rfl
  | begin found => rcases found with ⟨rfl, -⟩ | ⟨rfl, -⟩ <;> rfl
  | ended found => rcases found with ⟨rfl, -⟩ | ⟨-, rfl | rfl⟩ <;> rfl

theorem lastOf_cons_self {e : Pool × Reading × Event} (h : e.2.2.callId = some id) : lastOf id (e :: log) = some e :=
  List.find?_cons_of_pos (by simpa using h)

theorem lastOf_cons_other {e : Pool × Reading × Event} (h : e.2.2.callId ≠ some id) :
    lastOf id (e :: log) = lastOf id log := List.find?_cons_of_neg (by simpa using h)

theorem Arrives.eq (h : Arrives ep phase invoked) {ep' : Nat} (heq : invoked = some ep') : ep' = ep := by
  cases h with
  | invoked => exact (Option.some.inj heq).symm
  | refused | ended => cases heq

theorem Arrives.not_sleeping {next : Nat} (h : Arrives ep (.sleeping next) invoked) : False := by
  cases h with
  | ended hover => cases hover

theorem Move.fresh (hledger : o.ledgerAware = true) (h : Move o p r.now id opClass event phase invoked)
    (hfresh : (FALLBACK_MATRIX opClass).requireFresh = true)
    (hsleeps : ∀ next, Stands p id opClass (.sleeping next) → ChoseCurrent o id log next) :
    (∀ ep, invoked = some ep → Current o p r.now ep ∨ event = .wake id ∧ ChoseCurrent o id log ep) ∧
      ∀ next, phase = .sleeping next → ChoseCurrent o id ((p, r, event) :: log) next := by
  cases h with
  | ensure => exact ⟨fun ep heq => (by cases heq), fun next heq => by cases heq⟩
  | settle => exact ⟨fun ep heq => (by cases heq), fun next heq => by cases heq⟩
  | answer => exact ⟨fun ep heq => (by cases heq), fun next heq => by cases heq⟩
  | begin found arrives current =>
    refine ⟨fun ep heq => .inl (arrives.eq heq ▸ current hfresh hledger), fun next heq => ?_⟩
    subst heq
    exact arrives.not_sleeping.elim
  | sleep found chosen =>
    refine ⟨fun ep heq => (by cases heq), fun next heq => ?_⟩
    cases heq
    exact ⟨_, lastOf_cons_self rfl, rfl, chosen.current hfresh hledger⟩
  | again found chosen other arrives =>
    refine ⟨fun ep heq => .inl (arrives.eq heq ▸ chosen.current hfresh hledger), fun next heq => ?_⟩
    subst heq
    exact arrives.not_sleeping.elim
  | wake found arrives =>
    refine ⟨fun ep heq => .inr ⟨rfl, arrives.eq heq ▸ hsleeps _ found⟩, fun next heq => ?_⟩
    subst heq
    exact arrives.not_sleeping.elim
  | ended found hover =>
    refine ⟨fun ep heq => (by cases heq), fun next heq => ?_⟩
    subst heq
    cases hover

theorem sleepsWell_step (hledger : o.ledgerAware = true) {effect : Effect} (hid : SleepsWell o id log p)
    (h : step o p r event = some (p', effect)) :
    (∀ opClass ep, effect.invoked = some (id, opClass, ep) → (FALLBACK_MATRIX opClass).requireFresh = true →
        Current o p r.now ep ∨ event = .wake id ∧ ChoseCurrent o id log ep) ∧
      SleepsWell o id ((p, r, event) :: log) p' := by
  rcases (step_effect h).moved with ⟨id', opClass, phase, invoked, hmoved, hmove⟩ | ⟨hcall, hnone, houtside⟩
  · obtain ⟨call, hcall, hclass, hphase⟩ := hmoved.call
    have hsome := hmoved.invoked
    by_cases hne : id' = id
    · subst hne
      refine ⟨fun opClass' ep hinvoked hfresh => ?_, fun opClass' next hstands hfresh => ?_⟩
      · rw [hinvoked] at hsome
        cases invoked with
        | none => cases hsome
        | some ep' =>
          simp only [Option.map_some, Option.some.injEq, Prod.mk.injEq, true_and] at hsome
          obtain ⟨rfl, rfl⟩ := hsome
          exact (hmove.fresh hledger hfresh fun next hnext => hid _ next hnext hfresh).1 ep rfl
      · obtain ⟨call', hcall', hclass', hphase'⟩ := hstands
        rw [hcall, Function.update_self, Option.some.injEq] at hcall'
        subst hcall'
        rw [← hclass', hclass] at hfresh
        refine (hmove.fresh hledger hfresh fun next hnext => hid _ next hnext hfresh).2 next ?_
        rw [← hphase, hphase']
    · refine ⟨fun opClass' ep hinvoked _ => ?_, fun opClass' next hstands hfresh => ?_⟩
      · rw [hinvoked] at hsome
        cases invoked with
        | none => cases hsome
        | some ep' =>
          simp only [Option.map_some, Option.some.injEq, Prod.mk.injEq] at hsome
          exact absurd hsome.1.symm hne
      · unfold Stands at hstands
        rw [hcall, Function.update_of_ne (Ne.symm hne)] at hstands
        have hother : event.callId ≠ some id := by
          rw [hmove.callId]
          exact fun heq => hne (Option.some.inj heq)
        unfold ChoseCurrent
        rw [lastOf_cons_other hother]
        exact hid opClass' next hstands hfresh
  · refine ⟨fun opClass ep hinvoked => ?_, fun opClass next hstands hfresh => ?_⟩
    · rw [hnone] at hinvoked
      cases hinvoked
    · have hother : event.callId ≠ some id := by
        cases event with
        | probed | observed => simp [Event.callId]
        | execute | ensured | settle | answer | handle | wake => cases houtside
      unfold Stands at hstands
      rw [hcall] at hstands
      unfold ChoseCurrent
      rw [lastOf_cons_other hother]
      exact hid opClass next hstands hfresh

theorem PoolRun.sleepsWell (hledger : o.ledgerAware = true) (hrun : PoolRun o log p) (id : Nat) :
    SleepsWell o id log p := by
  refine Run.invariant_log (P := fun log p => SleepsWell o id log p) (fun opClass next hstands => ?_)
    (fun log p event p' _ hid hstep => ?_) hrun
  · obtain ⟨call, hcall, -⟩ := hstands
    cases hcall
  · obtain ⟨effect, hstep⟩ := hstep
    exact (sleepsWell_step hledger hid hstep).2

end

/-! ## The retry budget -/

/-- What opens the window at a moment. -/
def cutoffAt (o : EndpointPoolOptions) (now : Number) : Number := now - o.retry.budgetWindowMs

/-- No reading is ahead of this one, and the clock was not put back over what opens the window. -/
structure ClockHolds (o : EndpointPoolOptions) (log : Log) (now : Number) : Prop where
  ahead : ∀ e ∈ log, e.2.1.now ≤ now
  window : log.Pairwise fun later earlier =>
    cutoffAt o now ≤ earlier.2.1.now → cutoffAt o now ≤ later.2.1.now

/-- The budget tells what is in the window now, or will be later. -/
def BudgetTells (o : EndpointPoolOptions) (log : Log) (p : Pool) : Prop :=
  ∀ cutoff, (∀ e ∈ log, cutoffAt o e.2.1.now ≤ cutoff) →
    Keeps p.budget.requests (requestsAt o log).reverse cutoff ∧ Keeps p.budget.retries (retriesAt o log).reverse cutoff

/-- The retries recorded in the window have not reached what the requests in it allow. -/
def WithinBudget (o : EndpointPoolOptions) (log : Log) (now : Number) : Prop :=
  ((since (cutoffAt o now) (retriesAt o log)).length : Number) <
    RetryBudget.allowed o.retry (since (cutoffAt o now) (requestsAt o log)).length

section
variable {o : EndpointPoolOptions} {p p' : Pool} {log : Log} {r : Reading} {event : Event} {now : Number}
  {b b' : RetryBudget}

theorem tryAcquire_true (h : b.tryAcquire o.retry now = (b', true)) :
    ((b.prune o.retry now).retries.length : Number) <
        RetryBudget.allowed o.retry (b.prune o.retry now).requests.length ∧
      b' = { b.prune o.retry now with retries := (b.prune o.retry now).retries ++ [now] } := by
  unfold RetryBudget.tryAcquire at h
  dsimp only at h
  split at h
  · cases h
  · next hlt =>
    cases h
    exact ⟨not_le.mp hlt, rfl⟩

theorem tryAcquire_false (h : b.tryAcquire o.retry now = (b', false)) : b' = b.prune o.retry now := by
  unfold RetryBudget.tryAcquire at h
  dsimp only at h
  split at h
  · cases h
    rfl
  · cases h

theorem requestsAt_cons {effect : Effect} (h : effectOf o p (r, event) = effect) :
    requestsAt o ((p, r, event) :: log) = (if effect.requested then [r.now] else []) ++ requestsAt o log := by
  unfold requestsAt
  rw [List.filterMap_cons, h]
  cases effect.requested <;> rfl

theorem retriesAt_cons {effect : Effect} (h : effectOf o p (r, event) = effect) :
    retriesAt o ((p, r, event) :: log) = (if effect.retried then [r.now] else []) ++ retriesAt o log := by
  unfold retriesAt
  rw [List.filterMap_cons, h]
  cases effect.retried <;> rfl

theorem steady_filterMap {f : Pool × Reading × Event → Option Number} {cutoff : Number}
    (hf : ∀ e t, f e = some t → t = e.2.1.now)
    (hlog : log.Pairwise fun later earlier => cutoff ≤ earlier.2.1.now → cutoff ≤ later.2.1.now) :
    Steady cutoff (log.filterMap f).reverse := by
  unfold Steady
  rw [List.pairwise_reverse, List.pairwise_filterMap]
  apply hlog.imp
  intro later earlier hwindow t ht t' ht' hcutoff
  rw [hf _ _ ht]
  rw [hf _ _ ht'] at hcutoff
  exact hwindow hcutoff

theorem requestsAt_steady (h : ClockHolds o log now) : Steady (cutoffAt o now) (requestsAt o log).reverse := by
  refine steady_filterMap (fun e t ht => ?_) h.window
  split at ht
  · exact (Option.some.inj ht).symm
  · cases ht

theorem retriesAt_steady (h : ClockHolds o log now) : Steady (cutoffAt o now) (retriesAt o log).reverse := by
  refine steady_filterMap (fun e t ht => ?_) h.window
  split at ht
  · exact (Option.some.inj ht).symm
  · cases ht

/-- A retry is recorded while there is room for it in the window. -/
theorem tryAcquire_within (hlog : BudgetTells o log p) (hclock : ClockHolds o log now)
    (h : p.budget.tryAcquire o.retry now = (b', true)) : WithinBudget o log now := by
  have hbefore : ∀ e ∈ log, cutoffAt o e.2.1.now ≤ cutoffAt o now :=
    fun e he => sub_le_sub_right (hclock.ahead e he) _
  obtain ⟨hrequests, hretries⟩ := hlog _ hbefore
  have hroom := (tryAcquire_true h).1
  have hrequests' : (p.budget.prune o.retry now).requests = since (cutoffAt o now) (requestsAt o log).reverse :=
    hrequests _ le_rfl (requestsAt_steady hclock)
  have hretries' : (p.budget.prune o.retry now).retries = since (cutoffAt o now) (retriesAt o log).reverse :=
    hretries _ le_rfl (retriesAt_steady hclock)
  rw [hrequests', hretries', length_since_reverse, length_since_reverse] at hroom
  exact hroom

theorem budgetTells_step {effect : Effect} (hlog : BudgetTells o log p) (h : step o p r event = some (p', effect)) :
    BudgetTells o ((p, r, event) :: log) p' := by
  have heffect := effectOf_eq h
  intro cutoff hcutoff
  rw [List.forall_mem_cons] at hcutoff
  obtain ⟨hrequests, hretries⟩ := hlog cutoff hcutoff.2
  have hpruned : Keeps (p.budget.prune o.retry r.now).requests (requestsAt o log).reverse cutoff ∧
      Keeps (p.budget.prune o.retry r.now).retries (retriesAt o log).reverse cutoff :=
    ⟨hrequests.dropWhile hcutoff.1, hretries.dropWhile hcutoff.1⟩
  rw [requestsAt_cons heffect, retriesAt_cons heffect]
  cases (step_effect h).spent with
  | nothing retried requested same =>
    rw [retried, requested, same]
    exact ⟨hrequests, hretries⟩
  | request retried requested recorded =>
    rw [retried, requested, recorded]
    refine ⟨?_, hpruned.2⟩
    have hpushed := hpruned.1.append (x := r.now)
    rw [← List.reverse_cons] at hpushed
    exact hpushed
  | retry retried requested acquired =>
    rw [retried, requested, (tryAcquire_true acquired).2]
    refine ⟨hpruned.1, ?_⟩
    have hpushed := hpruned.2.append (x := r.now)
    rw [← List.reverse_cons] at hpushed
    exact hpushed
  | refused retried requested refused =>
    rw [retried, requested, tryAcquire_false refused]
    exact hpruned

theorem PoolRun.budgetTells (hrun : PoolRun o log p) : BudgetTells o log p := by
  refine Run.invariant_log (P := fun log p => BudgetTells o log p) (fun cutoff _ => ⟨.nil, .nil⟩)
    (fun log p event p' _ hlog hstep => ?_) hrun
  obtain ⟨effect, hstep⟩ := hstep
  exact budgetTells_step hlog hstep

theorem within_of_retried {effect : Effect} (hlog : BudgetTells o log p) (hclock : ClockHolds o log r.now)
    (h : step o p r event = some (p', effect)) (hretried : effect.retried = true) : WithinBudget o log r.now := by
  cases (step_effect h).spent with
  | retry retried requested acquired => exact tryAcquire_within hlog hclock acquired
  | nothing retried | request retried | refused retried => cases retried.symm.trans hretried

end

/-! ## Every run -/

/-- What is true of an event with its past: a function that must not run twice is invoked again at its endpoint only,
and after failures that allow it; one that has to be served by a fresh endpoint goes to one that was current when it
was chosen, which is now unless the call has slept since; and a retry is within the budget as long as the clock holds. -/
structure Disciplined (o : EndpointPoolOptions) (m : Moment Pool (Reading × Event)) : Prop where
  pinned : ∀ id ep, (effectOf o m.pre m.call).invoked = some (id, .submit_non_idempotent, ep) →
    Repeatable (invocations o id m.past) (failures id m.past) ep
  fresh : o.ledgerAware = true → ∀ id opClass ep, (effectOf o m.pre m.call).invoked = some (id, opClass, ep) →
    (FALLBACK_MATRIX opClass).requireFresh = true →
      Current o m.pre m.call.1.now ep ∨ m.call.2 = .wake id ∧ ChoseCurrent o id m.past ep
  budget : ClockHolds o m.past m.call.1.now → (effectOf o m.pre m.call).retried = true →
    WithinBudget o m.past m.call.1.now

theorem calls_disciplined (o : EndpointPoolOptions) {log : Log} {p : Pool} (hrun : PoolRun o log p) :
    ∀ m ∈ Run.moments log p, Disciplined o m := by
  refine Run.forall_moments (fun log p event p' hr hs => ?_) hrun
  obtain ⟨effect, hstep⟩ := hs
  have heffect : effectOf o p event = effect := effectOf_eq hstep
  refine ⟨fun id ep hinvoked => ?_, fun hledger id opClass ep hinvoked hfresh => ?_, fun hclock hretried => ?_⟩
  · rw [heffect] at hinvoked
    exact (tells_step (PoolRun.tells hr id) hstep).1 ep hinvoked
  · rw [heffect] at hinvoked
    exact (sleepsWell_step hledger (PoolRun.sleepsWell hledger hr id) hstep).1 opClass ep hinvoked hfresh
  · rw [heffect] at hretried
    exact within_of_retried (PoolRun.budgetTells hr) hclock hstep hretried

/-! ## Four runs -/

def next (o : EndpointPoolOptions) (p : Pool) (event : Reading × Event) : Option Pool :=
  (step o p event.1 event.2).map Prod.fst

theorem exists_run (o : EndpointPoolOptions) (events : List (Reading × Event)) (test : Log → Bool)
    (h : (Run.replay (next o) events [] (constructor o)).any (fun r => test r.1) = true) :
    ∃ log p, PoolRun o log p ∧ test log = true := by
  refine Run.exists_of_replay (fun p event p' hnext => ?_) (p := fun log _ => test log) h
  obtain ⟨out, hout, rfl⟩ := Option.map_eq_some_iff.mp hnext
  exact ⟨out.2, hout⟩

/-- Both clocks read the time. -/
def seenAt (now : Number) (event : Event) : Reading × Event := (⟨now, now, 0⟩, event)

def statusError (status : Number) : ErrorValue := .error (.number status) .nullish .nullish .nullish none none

/-- The function of the call fails, and the failure is dealt with. -/
def failsAt (id : Nat) (now status : Number) : List (Reading × Event) :=
  [seenAt now (.settle id (some (statusError status))), seenAt now (.answer id), seenAt now (.handle id)]

def rpc : EndpointPoolOptions where
  labels := ["rpc"]
  ledgerAware := true

/-- A transfer that was not sent is tried again where it was. -/
theorem transfer_sent_again : ∃ log p, PoolRun rpc log p ∧ invocations rpc 0 log = [0, 0] ∧
    ∀ m ∈ Run.moments log p, Disciplined rpc m := by
  obtain ⟨log, p, hrun, htest⟩ := exists_run rpc
    (seenAt 0 (.execute 0 .submit_non_idempotent) :: failsAt 0 100 503 ++ [seenAt 400 (.wake 0)])
    (fun log => invocations rpc 0 log = [0, 0]) (by decide +kernel)
  exact ⟨log, p, hrun, of_decide_eq_true htest, calls_disciplined rpc hrun⟩

/-- Of every pool, at the moment of the invocation and with any clock. -/
structure StrictlyDisciplined (o : EndpointPoolOptions) (m : Moment Pool (Reading × Event)) : Prop where
  pinned : ∀ id ep, (effectOf o m.pre m.call).invoked = some (id, .submit_non_idempotent, ep) →
    Repeatable (invocations o id m.past) (failures id m.past) ep
  fresh : ∀ id opClass ep, (effectOf o m.pre m.call).invoked = some (id, opClass, ep) →
    (FALLBACK_MATRIX opClass).requireFresh = true → Current o m.pre m.call.1.now ep
  budget : (effectOf o m.pre m.call).retried = true → WithinBudget o m.past m.call.1.now

/-- The last event invokes a function that has to be served by a fresh endpoint at one that is not. -/
def endsStale (o : EndpointPoolOptions) : Log → Bool
  | [] => false
  | e :: _ =>
    match (effectOf o e.1 e.2).invoked with
    | none => false
    | some (_, opClass, ep) => (FALLBACK_MATRIX opClass).requireFresh ∧
        ¬ e.1.isFresh { o with ledgerAware := true } e.2.1.now (e.1.tipLedger o e.2.1.now) ep

/-- It records a retry for which the window has no room. -/
def endsOverBudget (o : EndpointPoolOptions) : Log → Bool
  | [] => false
  | e :: log => (effectOf o e.1 e.2).retried ∧
      RetryBudget.allowed o.retry (since (cutoffAt o e.2.1.now) (requestsAt o log)).length ≤
        ((since (cutoffAt o e.2.1.now) (retriesAt o log)).length : Number)

section
variable {o : EndpointPoolOptions} {log : Log} {p : Pool}

theorem not_strict_of_stale (h : endsStale o log = true) :
    ¬ ∀ m ∈ Run.moments log p, StrictlyDisciplined o m := by
  intro hall
  cases log with
  | nil => cases h
  | cons e log =>
    have hlast := (hall _ List.mem_cons_self).fresh
    unfold endsStale at h
    dsimp only at h
    split at h
    · cases h
    · next id opClass ep hinvoked =>
      rw [decide_eq_true_eq] at h
      have hcurrent : Current { o with ledgerAware := true } e.1 e.2.1.now ep := hlast id opClass ep hinvoked h.1
      exact h.2 ((isFresh_iff rfl).mpr hcurrent)

theorem not_strict_of_over_budget (h : endsOverBudget o log = true) :
    ¬ ∀ m ∈ Run.moments log p, StrictlyDisciplined o m := by
  intro hall
  cases log with
  | nil => cases h
  | cons e log =>
    unfold endsOverBudget at h
    rw [decide_eq_true_eq] at h
    exact absurd ((hall _ List.mem_cons_self).budget h.1) (not_lt.mpr h.2)

end

def anchor : EndpointPoolOptions where
  labels := ["anchor"]
  ledgerAware := false

def tight : EndpointPoolOptions where
  labels := ["anchor"]
  ledgerAware := false
  retry := { budgetRatio := 1, budgetMinRetries := 0, budgetWindowMs := 10 }

/-- An endpoint that has gone stale while the call slept, one of a pool that knows of no ledgers, and a second retry for
one request in the window, after the clock was put back. -/
theorem discipline_is_loose :
    (∃ log p, PoolRun rpc log p ∧ ¬ ∀ m ∈ Run.moments log p, StrictlyDisciplined rpc m) ∧
    (∃ log p, PoolRun anchor log p ∧ ¬ ∀ m ∈ Run.moments log p, StrictlyDisciplined anchor m) ∧
    (∃ log p, PoolRun tight log p ∧ ¬ ∀ m ∈ Run.moments log p, StrictlyDisciplined tight m) := by
  refine ⟨?_, ?_, ?_⟩
  · obtain ⟨log, p, hrun, htest⟩ := exists_run rpc
      ([seenAt 1000 (.probed 0 (some ⟨some 100, none⟩)), seenAt 1000 (.execute 0 .consistent_read),
        seenAt 1000 (.ensured 0)] ++ failsAt 0 2000 503 ++ [seenAt 40000 (.wake 0)])
      (endsStale rpc) (by decide +kernel)
    exact ⟨log, p, hrun, not_strict_of_stale htest⟩
  · obtain ⟨log, p, hrun, htest⟩ := exists_run anchor
      [seenAt 0 (.execute 0 .quote), seenAt 0 (.ensured 0)] (endsStale anchor) (by decide +kernel)
    exact ⟨log, p, hrun, not_strict_of_stale htest⟩
  · obtain ⟨log, p, hrun, htest⟩ := exists_run tight
      ([seenAt 100 (.execute 0 .read), seenAt 50 (.execute 1 .read)] ++ failsAt 0 105 503 ++ failsAt 1 105 503)
      (endsOverBudget tight) (by decide +kernel)
    exact ⟨log, p, hrun, not_strict_of_over_budget htest⟩

end ZkVote.EndpointPool
