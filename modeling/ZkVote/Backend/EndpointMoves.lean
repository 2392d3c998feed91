import ZkVote.Backend.EndpointPool

/-!
# The endpoint pool: what an event can do

To the call it is about, to the budget, and to what is known of the endpoints.
-/

namespace ZkVote.EndpointPool

/-! ## Freshness -/

/-- The endpoint is within the bound of the tip, as was observed a short while ago. -/
def Current (o : EndpointPoolOptions) (p : Pool) (now : Number) (ep : Nat) : Prop :=
  ∃ ledger tip, (p.endpoint ep).ledger = some ledger ∧ p.tipLedger o now = some tip ∧
    now - (p.endpoint ep).ledgerObservedAt ≤ o.maxObservationAgeMs ∧
    (p.endpoint ep).ingestLagLedgers ≤ o.maxLagLedgers ∧ |tip - ledger| ≤ o.maxLagLedgers

/-- What is known of the ledgers is the same. -/
def SameLedgers (p p' : Pool) : Prop :=
  ∀ ep, (p'.endpoint ep).ledger = (p.endpoint ep).ledger ∧
    (p'.endpoint ep).ledgerObservedAt = (p.endpoint ep).ledgerObservedAt ∧
    (p'.endpoint ep).ingestLagLedgers = (p.endpoint ep).ingestLagLedgers

section
variable {o : EndpointPoolOptions} {p p' : Pool} {r : Reading} {now : Number} {ep next id : Nat}
  {call : ExecuteCall} {opClass : OperationClass} {err : ErrorValue} {tried : List Nat}

theorem isFresh_iff (hledger : o.ledgerAware = true) :
    p.isFresh o now (p.tipLedger o now) ep = true ↔ Current o p now ep := by
  unfold Pool.isFresh Pool.observationFresh Current
  rw [hledger]
  cases (p.endpoint ep).ledger with
  | none => simp
  | some ledger =>
    cases p.tipLedger o now with
    | none => simp
    | some tip =>
      simp only [Bool.not_true, Bool.false_eq_true, if_false, Option.some.injEq]
      by_cases hage : now - (p.endpoint ep).ledgerObservedAt ≤ o.maxObservationAgeMs
      · by_cases hingest : (p.endpoint ep).ingestLagLedgers ≤ o.maxLagLedgers
        · simp [hage, hingest, not_lt.mpr hingest]
        · simp [hage, hingest, not_le.mp hingest]
      · simp [hage]

theorem SameLedgers.observationFresh (h : SameLedgers p p') :
    p'.observationFresh o now = p.observationFresh o now := by
  funext ep
  unfold Pool.observationFresh
  rw [(h ep).2.1]

theorem SameLedgers.tipLedger (h : SameLedgers p p') : p'.tipLedger o now = p.tipLedger o now := by
  have hledgers : (fun ep => (p'.endpoint ep).ledger) = fun ep => (p.endpoint ep).ledger :=
    funext fun ep => (h ep).1
  unfold Pool.tipLedger
  rw [h.observationFresh, hledgers]

theorem SameLedgers.current (h : SameLedgers p p') (hcurrent : Current o p' now ep) : Current o p now ep := by
  obtain ⟨hledger, hobserved, hingest⟩ := h ep
  unfold Current at hcurrent ⊢
  rwa [h.tipLedger, hledger, hobserved, hingest] at hcurrent

theorem SameLedgers.refl : SameLedgers p p := fun _ => ⟨rfl, rfl, rfl⟩

/-! ## Selection -/

@[simp] theorem setBreaker_endpoint (b : CircuitBreaker) : (p.setBreaker ep b).endpoint = p.endpoint := rfl
@[simp] theorem setBreaker_budget (b : CircuitBreaker) : (p.setBreaker ep b).budget = p.budget := rfl
@[simp] theorem setBreaker_call (b : CircuitBreaker) : (p.setBreaker ep b).call = p.call := rfl

theorem observe_same (o : EndpointPoolOptions) (p : Pool) (date : Number) :
    (p.observe o date).endpoint = p.endpoint ∧ (p.observe o date).budget = p.budget ∧
      (p.observe o date).call = p.call := by
  unfold Pool.observe
  generalize Pool.endpoints o = eps
  induction eps generalizing p with
  | nil => exact ⟨rfl, rfl, rfl⟩
  | cons ep eps ih => exact ih (p.setBreaker ep _)

theorem pickFrom_mem {eps : List Nat} {pick : Number} (h : p.pickFrom eps pick = some ep) : ep ∈ eps := by
  induction eps generalizing pick with
  | nil => cases h
  | cons x eps ih =>
    unfold Pool.pickFrom at h
    split at h
    · cases h
      exact List.mem_cons_self
    · exact List.mem_cons_of_mem _ (ih h)

theorem pick_mem {eps : List Nat} {random : Number} (h : p.pick eps random = some ep) : ep ∈ eps := by
  unfold Pool.pick at h
  rw [Option.or_eq_some_iff] at h
  rcases h with h | ⟨-, h⟩
  · exact pickFrom_mem h
  · exact List.mem_of_getLast? h

theorem mem_of_mem_untriedFirst {candidates : List Nat} (h : ep ∈ Pool.untriedFirst tried candidates) :
    ep ∈ candidates := by
  unfold Pool.untriedFirst at h
  dsimp only at h
  split at h
  · exact h
  · exact (List.mem_filter.mp h).1

/-- For a class that has to be fresh, what is selected is. -/
theorem select_current {rule : FallbackRule} (hrule : rule.requireFresh = true) (hledger : o.ledgerAware = true)
    (h : p.select o rule tried r = some ep) : Current o p r.now ep := by
  unfold Pool.select at h
  rw [hrule] at h
  split at h
  · cases h
  · have hmem : ep ∈ p.eligible o rule r.now := mem_of_mem_untriedFirst (pick_mem h)
    have heligible := (List.mem_filter.mp hmem).2
    unfold Pool.isEligible at heligible
    rw [decide_eq_true_eq] at heligible
    exact (isFresh_iff hledger).mp (heligible.2.2 hrule)

end

/-! ## Moves of a call -/

def Phase.IsOver : Phase → Prop
  | .returned | .rejected _ | .staleRead | .dependencyUnavailable _ => True
  | _ => False

/-- What becomes of an attempt at an endpoint: the function is invoked there, the breaker refuses, or there are no
attempts left. -/
inductive Arrives (ep : Nat) : Phase → Option Nat → Prop where
  | invoked (start : Number) : Arrives ep (.inFlight ep start) (some ep)
  | refused (start : Number) : Arrives ep (.settled ep start (some .CircuitBreakerOpenError)) none
  | ended {phase : Phase} (ended : phase.IsOver) : Arrives ep phase none

/-- The call goes to a phase, and its function is invoked at an endpoint or not. -/
structure Moved (id : Nat) (opClass : OperationClass) (p : Pool) (out : Pool × Effect) (phase : Phase)
    (invoked : Option Nat) : Prop where
  call : ∃ call, out.1.call = Function.update p.call id (some call) ∧ call.opClass = opClass ∧ call.phase = phase
  invoked : out.2.invoked = invoked.map fun ep => (id, opClass, ep)

/-- What an event does to the budget. -/
inductive Spent (policy : RetryPolicy) (now : Number) (b b' : RetryBudget) (effect : Effect) : Prop where
  | nothing (retried : effect.retried = false) (requested : effect.requested = false) (same : b' = b)
  | request (retried : effect.retried = false) (requested : effect.requested = true)
      (recorded : b' = b.recordRequest policy now)
  | retry (retried : effect.retried = true) (requested : effect.requested = false)
      (acquired : b.tryAcquire policy now = (b', true))
  | refused (retried : effect.retried = false) (requested : effect.requested = false)
      (refused : b.tryAcquire policy now = (b', false))

/-- The endpoint that is next after a failure. -/
structure Next (o : EndpointPoolOptions) (p : Pool) (now : Number) (opClass : OperationClass) (ep : Nat)
    (err : ErrorValue) (next : Nat) : Prop where
  notClient : (classifyError err).kind ≠ .client
  ambiguous : (classifyError err).kind = .ambiguous → (FALLBACK_MATRIX opClass).retryAmbiguous = true
  place : (FALLBACK_MATRIX opClass).failover = false → next = ep
  current : (FALLBACK_MATRIX opClass).requireFresh = true → o.ledgerAware = true → Current o p now next

section
variable {o : EndpointPoolOptions} {p p' : Pool} {r : Reading} {ep next id : Nat} {call : ExecuteCall}
  {opClass : OperationClass} {err : ErrorValue}

theorem moved_setCall {q : Pool} {effect : Effect} (call : ExecuteCall) {invoked : Option Nat} (hcall : q.call = p.call)
    (hinvoked : effect.invoked = invoked.map fun ep => (id, call.opClass, ep)) :
    Moved id call.opClass p (q.setCall id call, effect) call.phase invoked :=
  ⟨⟨call, by rw [Pool.setCall, hcall], rfl, rfl⟩, hinvoked⟩

theorem Moved.of_call {q : Pool} {out : Pool × Effect} {phase : Phase} {invoked : Option Nat}
    (h : Moved id opClass q out phase invoked) (hcall : q.call = p.call) : Moved id opClass p out phase invoked := by
  obtain ⟨hmoved, hinvoked⟩ := h
  rw [hcall] at hmoved
  exact ⟨hmoved, hinvoked⟩

/-- The other parts of the effect say nothing of the call. -/
theorem Moved.of_invoked {effect effect' : Effect} {phase : Phase} {invoked : Option Nat}
    (h : Moved id opClass p (p', effect) phase invoked) (heffect : effect'.invoked = effect.invoked) :
    Moved id opClass p (p', effect') phase invoked := ⟨h.call, heffect.trans h.invoked⟩

theorem finish_moved (o : EndpointPoolOptions) (p : Pool) (r : Reading) (id : Nat) (call : ExecuteCall) (effect : Effect)
    (hinvoked : effect.invoked = none) :
    ∃ phase, Moved id call.opClass p (p.finish o id call r, effect) phase none ∧ phase.IsOver := by
  have hover : (Pool.lastPhase call).IsOver := by
    unfold Pool.lastPhase
    split <;> trivial
  exact ⟨_, moved_setCall { call with phase := Pool.lastPhase call } (observe_same o p r.date).2.2 hinvoked, hover⟩

@[simp] theorem finish_budget : (p.finish o id call r).budget = p.budget := (observe_same o p r.date).2.1

/-- What an attempt leaves. -/
structure Attempted (id : Nat) (opClass : OperationClass) (ep : Nat) (p : Pool) (out : Pool × Effect) : Prop where
  moved : ∃ phase invoked, Moved id opClass p out phase invoked ∧ Arrives ep phase invoked
  budget : out.1.budget = p.budget
  retried : out.2.retried = false
  requested : out.2.requested = false

theorem callEndpoint_attempted : Attempted id call.opClass ep p (p.callEndpoint id call ep r) := by
  unfold Pool.callEndpoint
  dsimp only
  split
  · exact ⟨⟨_, _, moved_setCall { call with phase := .inFlight ep r.now } rfl rfl, .invoked r.now⟩, rfl, rfl, rfl⟩
  · exact ⟨⟨_, none, moved_setCall { call with phase := .settled ep r.now (some .CircuitBreakerOpenError) } rfl rfl,
      .refused r.now⟩, rfl, rfl, rfl⟩

theorem attempt_attempted (o : EndpointPoolOptions) (p : Pool) (r : Reading) (id ep : Nat) (call : ExecuteCall) :
    Attempted id call.opClass ep p (p.attempt o id call ep r) := by
  unfold Pool.attempt
  split
  · exact callEndpoint_attempted
  · obtain ⟨phase, hmoved, hover⟩ := finish_moved o p r id call {} rfl
    exact ⟨⟨phase, none, hmoved, .ended hover⟩, finish_budget, rfl, rfl⟩

/-- A retry sleeps, or goes to an endpoint that was not tried, or is not made. -/
theorem retry_moved (o : EndpointPoolOptions) (p : Pool) (r : Reading) (id next : Nat) (call : ExecuteCall) :
    ∃ phase invoked, Moved id call.opClass p (p.retry o id call next r) phase invoked ∧
    ((phase = .sleeping next ∧ invoked = none) ∨ (next ∉ call.tried ∧ Arrives next phase invoked) ∨
      (phase.IsOver ∧ invoked = none)) ∧
    Spent o.retry r.now p.budget (p.retry o id call next r).1.budget (p.retry o id call next r).2 := by
  obtain ⟨⟨budget, acquired⟩, hacquire⟩ : ∃ b, p.budget.tryAcquire o.retry r.now = b := ⟨_, rfl⟩
  cases acquired with
  | false =>
    have hretry : p.retry o id call next r = (Pool.finish o { p with budget := budget } id call r, {}) := by
      unfold Pool.retry
      rw [hacquire]
      rfl
    obtain ⟨phase, hmoved, hover⟩ := finish_moved o { p with budget := budget } r id call {} rfl
    rw [hretry]
    refine ⟨phase, none, hmoved.of_call rfl, .inr (.inr ⟨hover, rfl⟩), .refused rfl rfl ?_⟩
    rw [hacquire, finish_budget]
  | true =>
    by_cases htried : next ∈ call.tried
    · have hretry : p.retry o id call next r =
          ({ p with budget := budget }.setCall id { call with phase := .sleeping next }, { retried := true }) := by
        unfold Pool.retry
        rw [hacquire]
        exact if_pos htried
      rw [hretry]
      exact ⟨.sleeping next, none, moved_setCall { call with phase := .sleeping next } rfl rfl, .inl ⟨rfl, rfl⟩,
        .retry rfl rfl hacquire⟩
    · obtain ⟨⟨q, effect⟩, hout⟩ : ∃ out, Pool.attempt o { p with budget := budget } id
          { call with attempt := call.attempt + 1 } next r = out := ⟨_, rfl⟩
      have hattempt := attempt_attempted o { p with budget := budget } r id next { call with attempt := call.attempt + 1 }
      rw [hout] at hattempt
      obtain ⟨⟨phase, invoked, hmoved, harrives⟩, hbudget, hretried, hrequested⟩ := hattempt
      have hretry : p.retry o id call next r = (q, { effect with retried := true }) := by
        unfold Pool.retry
        rw [hacquire]
        simp only [Bool.not_true, Bool.false_eq_true, if_false, if_neg htried, hout]
      have hfrom : Moved id call.opClass p (q, effect) phase invoked := hmoved.of_call rfl
      rw [hretry]
      refine ⟨phase, invoked, hfrom.of_invoked rfl, .inr (.inl ⟨htried, harrives⟩),
        .retry rfl hrequested ?_⟩
      rw [hacquire, hbudget]

/-- A call begins by recording a request and going to an endpoint, if one is selected. -/
theorem begin_moved (o : EndpointPoolOptions) (p : Pool) (r : Reading) (id : Nat) (opClass : OperationClass) :
    ∃ phase invoked, Moved id opClass p (p.begin o id opClass r) phase invoked ∧
      ((phase.IsOver ∧ invoked = none) ∨ ∃ ep, Arrives ep phase invoked ∧
        ((FALLBACK_MATRIX opClass).requireFresh = true → o.ledgerAware = true → Current o p r.now ep)) ∧
      Spent o.retry r.now p.budget (p.begin o id opClass r).1.budget (p.begin o id opClass r).2 := by
  have hsame := observe_same o { p with budget := p.budget.recordRequest o.retry r.now } r.date
  unfold Pool.begin
  dsimp only
  generalize Pool.observe o { p with budget := p.budget.recordRequest o.retry r.now } r.date = q at hsame
  obtain ⟨hendpoint, hbudget, hcall⟩ := hsame
  cases hselect : q.select o (FALLBACK_MATRIX opClass) [] r with
  | none =>
    obtain ⟨phase, hmoved, hover⟩ :=
      finish_moved o q r id { opClass := opClass, phase := .ensuring } { requested := true } rfl
    exact ⟨phase, none, hmoved.of_call hcall, .inl ⟨hover, rfl⟩, .request rfl rfl (by rw [finish_budget, hbudget])⟩
  | some ep =>
    obtain ⟨⟨phase, invoked, hmoved, harrives⟩, hsame, hretried, hrequested⟩ :=
      attempt_attempted o q r id ep { opClass := opClass, phase := .ensuring }
    obtain ⟨⟨q', effect⟩, hout⟩ : ∃ out, q.attempt o id { opClass := opClass, phase := .ensuring } ep r = out := ⟨_, rfl⟩
    rw [hout] at hmoved hsame hretried
    have hfrom : Moved id opClass p (q', effect) phase invoked := hmoved.of_call hcall
    simp only [hout]
    refine ⟨phase, invoked, hfrom.of_invoked rfl, .inr ⟨ep, harrives, fun hfresh hledger => ?_⟩,
      .request hretried rfl (hsame.trans hbudget)⟩
    refine SameLedgers.current (fun i => ?_) (select_current hfresh hledger hselect)
    rw [hendpoint]
    exact ⟨rfl, rfl, rfl⟩

theorem coolDown_same (o : EndpointPoolOptions) (p : Pool) (ep : Nat) (failure : ClassifiedFailure) (now : Number) :
    SameLedgers p (p.coolDown o ep failure now) ∧ (p.coolDown o ep failure now).budget = p.budget ∧
      (p.coolDown o ep failure now).call = p.call := by
  unfold Pool.coolDown
  split
  · refine ⟨fun i => ?_, rfl, rfl⟩
    by_cases hi : i = ep
    · subst hi
      simp [Pool.setEndpoint]
    · simp [Pool.setEndpoint, hi]
  · exact ⟨.refl, rfl, rfl⟩

/-- What stays where it is need not be fresh. -/
theorem requireFresh_of_not_failover (h : (FALLBACK_MATRIX opClass).failover = false) :
    (FALLBACK_MATRIX opClass).requireFresh = false := by
  cases opClass <;> first | rfl | cases h

/-- What a failure leaves: the call is over, or there is a retry at the next endpoint. -/
structure Handled (o : EndpointPoolOptions) (p : Pool) (r : Reading) (id : Nat) (opClass : OperationClass) (ep : Nat)
    (err : ErrorValue) (out : Pool × Effect) : Prop where
  moved : ∃ phase invoked, Moved id opClass p out phase invoked ∧
    ((phase.IsOver ∧ invoked = none) ∨ ∃ next, Next o p r.now opClass ep err next ∧
      ((phase = .sleeping next ∧ invoked = none) ∨ (next ≠ ep ∧ Arrives next phase invoked)))
  spent : Spent o.retry r.now p.budget out.1.budget out.2

theorem handled_of_finish {q : Pool} (call : ExecuteCall) (hcall : q.call = p.call) (hbudget : q.budget = p.budget) :
    Handled o p r id call.opClass ep err (q.finish o id call r, {}) := by
  obtain ⟨phase, hmoved, hover⟩ := finish_moved o q r id call {} rfl
  refine ⟨⟨phase, none, hmoved.of_call hcall, .inl ⟨hover, rfl⟩⟩, .nothing rfl rfl ?_⟩
  rw [finish_budget, hbudget]

theorem handled_of_retry {q : Pool} (call : ExecuteCall) (hcall : q.call = p.call) (hbudget : q.budget = p.budget)
    (htried : ep ∈ call.tried) (hnext : Next o p r.now call.opClass ep err next) :
    Handled o p r id call.opClass ep err (q.retry o id call next r) := by
  obtain ⟨phase, invoked, hmoved, hphase, hspent⟩ := retry_moved o q r id next call
  rw [hbudget] at hspent
  refine ⟨⟨phase, invoked, hmoved.of_call hcall, ?_⟩, hspent⟩
  rcases hphase with hsleeps | ⟨huntried, harrives⟩ | hover
  · exact .inr ⟨next, hnext, .inl hsleeps⟩
  · have hne : next ≠ ep := fun heq => huntried (heq ▸ htried)
    exact .inr ⟨next, hnext, .inr ⟨hne, harrives⟩⟩
  · exact .inl hover

theorem handleFailure_handled (o : EndpointPoolOptions) (p : Pool) (r : Reading) (id ep : Nat) (call : ExecuteCall)
    (err : ErrorValue) : Handled o p r id call.opClass ep err (p.handleFailure o id call ep err r) := by
  obtain ⟨hledgers, hbudget, hcall⟩ := coolDown_same o p ep (classifyError err) r.now
  unfold Pool.handleFailure
  dsimp only
  generalize p.coolDown o ep (classifyError err) r.now = q at hledgers hbudget hcall
  by_cases hclient : (classifyError err).kind = .client
  · obtain ⟨-, hbudget, hcall⟩ := observe_same o p r.date
    rw [if_pos hclient]
    exact ⟨⟨_, none, moved_setCall { call with phase := .rejected err } hcall rfl, .inl ⟨trivial, rfl⟩⟩,
      .nothing rfl rfl hbudget⟩
  rw [if_neg hclient]
  by_cases hambiguous : (classifyError err).kind = .ambiguous ∧ (FALLBACK_MATRIX call.opClass).retryAmbiguous = false
  · rw [if_pos hambiguous]
    exact handled_of_finish { call with lastError := some err, tried := ep :: call.tried } hcall hbudget
  rw [if_neg hambiguous]
  have hretryable (h : (classifyError err).kind = .ambiguous) : (FALLBACK_MATRIX call.opClass).retryAmbiguous = true := by
    simpa using fun hfalse => hambiguous ⟨h, hfalse⟩
  split
  · exact handled_of_finish { call with lastError := some err, tried := ep :: call.tried } hcall hbudget
  cases hfailover : (FALLBACK_MATRIX call.opClass).failover with
  | false =>
    have hstale := requireFresh_of_not_failover hfailover
    refine handled_of_retry { call with lastError := some err, tried := ep :: call.tried } hcall hbudget
      List.mem_cons_self ⟨hclient, hretryable, fun _ => rfl, fun hfresh => ?_⟩
    cases hstale.symm.trans hfresh
  | true =>
    obtain ⟨hendpoint, hbudget', hcall'⟩ := observe_same o q r.date
    simp only [if_true]
    generalize q.observe o r.date = q' at hendpoint hbudget' hcall'
    split
    · exact handled_of_finish { call with lastError := some err, tried := ep :: call.tried }
        (hcall'.trans hcall) (hbudget'.trans hbudget)
    · next next hselect =>
      refine handled_of_retry { call with lastError := some err, tried := ep :: call.tried }
        (hcall'.trans hcall) (hbudget'.trans hbudget) List.mem_cons_self ⟨hclient, hretryable, ?_, fun hfresh hledger => ?_⟩
      · intro hfalse
        cases hfailover.symm.trans hfalse
      · refine hledgers.current (SameLedgers.current (fun i => ?_) (select_current hfresh hledger hselect))
        rw [hendpoint]
        exact ⟨rfl, rfl, rfl⟩

/-! ## Events -/

/-- The call stands at a phase. -/
def Stands (p : Pool) (id : Nat) (opClass : OperationClass) (phase : Phase) : Prop :=
  ∃ call, p.call id = some call ∧ call.opClass = opClass ∧ call.phase = phase

/-- How an event takes a call from phase to phase, and where it invokes its function. -/
inductive Move (o : EndpointPoolOptions) (p : Pool) (now : Number) (id : Nat) (opClass : OperationClass) :
    Event → Phase → Option Nat → Prop where
  | ensure (new : p.call id = none) (fresh : (FALLBACK_MATRIX opClass).requireFresh = true) :
      Move o p now id opClass (.execute id opClass) .ensuring none
  | begin {event : Event} {ep : Nat} {phase : Phase} {invoked : Option Nat}
      (found : event = .execute id opClass ∧ p.call id = none ∨
        event = .ensured id ∧ Stands p id opClass .ensuring)
      (arrives : Arrives ep phase invoked)
      (current : (FALLBACK_MATRIX opClass).requireFresh = true → o.ledgerAware = true → Current o p now ep) :
      Move o p now id opClass event phase invoked
  | settle {ep : Nat} {start : Number} {failure : Option ErrorValue} (found : Stands p id opClass (.inFlight ep start)) :
      Move o p now id opClass (.settle id failure) (.settled ep start failure) none
  | answer {ep : Nat} {start : Number} {failure : Option ErrorValue}
      (found : Stands p id opClass (.settled ep start failure)) :
      Move o p now id opClass (.answer id) (.answered ep failure) none
  | sleep {ep next : Nat} {err : ErrorValue} (found : Stands p id opClass (.answered ep (some err)))
      (chosen : Next o p now opClass ep err next) : Move o p now id opClass (.handle id) (.sleeping next) none
  | again {ep next : Nat} {err : ErrorValue} {phase : Phase} {invoked : Option Nat}
      (found : Stands p id opClass (.answered ep (some err))) (chosen : Next o p now opClass ep err next)
      (other : next ≠ ep) (arrives : Arrives next phase invoked) : Move o p now id opClass (.handle id) phase invoked
  | wake {next : Nat} {phase : Phase} {invoked : Option Nat} (found : Stands p id opClass (.sleeping next))
      (arrives : Arrives next phase invoked) : Move o p now id opClass (.wake id) phase invoked
  | ended {event : Event} {phase : Phase} (found : event = .execute id opClass ∧ p.call id = none ∨
        (∃ phase, Stands p id opClass phase) ∧ (event = .ensured id ∨ event = .handle id))
      (ended : phase.IsOver) : Move o p now id opClass event phase none

/-- The event is about no call. -/
def Event.IsOutside : Event → Prop
  | .probed .. | .observed => True
  | _ => False

/-- What an event does: one call moves, or none. -/
structure StepEffect (o : EndpointPoolOptions) (p : Pool) (r : Reading) (event : Event) (out : Pool × Effect) : Prop where
  moved : (∃ id opClass phase invoked, Moved id opClass p out phase invoked ∧
      Move o p r.now id opClass event phase invoked) ∨
    (out.1.call = p.call ∧ out.2.invoked = none ∧ event.IsOutside)
  spent : Spent o.retry r.now p.budget out.1.budget out.2

theorem execute_effect {out : Pool × Effect} (h : step o p r (.execute id opClass) = some out) :
    StepEffect o p r (.execute id opClass) out := by
  unfold step at h
  dsimp only at h
  split at h
  · cases h
  · next hnew =>
    split at h
    · next hfresh =>
      cases h
      exact ⟨.inl ⟨id, opClass, .ensuring, none, moved_setCall { opClass := opClass, phase := .ensuring } rfl rfl,
        .ensure hnew hfresh⟩, .nothing rfl rfl rfl⟩
    · cases h
      obtain ⟨phase, invoked, hmoved, hphase, hspent⟩ := begin_moved o p r id opClass
      refine ⟨.inl ⟨id, opClass, phase, invoked, hmoved, ?_⟩, hspent⟩
      rcases hphase with ⟨hover, rfl⟩ | ⟨ep, harrives, hcurrent⟩
      · exact .ended (.inl ⟨rfl, hnew⟩) hover
      · exact .begin (.inl ⟨rfl, hnew⟩) harrives hcurrent

theorem ensured_effect {out : Pool × Effect} (h : step o p r (.ensured id) = some out) :
    StepEffect o p r (.ensured id) out := by
  unfold step at h
  dsimp only at h
  split at h
  · next opClass _ _ _ hfound =>
    cases h
    obtain ⟨phase, invoked, hmoved, hphase, hspent⟩ := begin_moved o p r id opClass
    have hstands : Stands p id opClass .ensuring := ⟨_, hfound, rfl, rfl⟩
    refine ⟨.inl ⟨id, opClass, phase, invoked, hmoved, ?_⟩, hspent⟩
    rcases hphase with ⟨hover, rfl⟩ | ⟨ep, harrives, hcurrent⟩
    · exact .ended (.inr ⟨⟨_, hstands⟩, .inl rfl⟩) hover
    · exact .begin (.inr ⟨rfl, hstands⟩) harrives hcurrent
  · cases h

theorem settle_effect {failure : Option ErrorValue} {out : Pool × Effect}
    (h : step o p r (.settle id failure) = some out) : StepEffect o p r (.settle id failure) out := by
  unfold step at h
  dsimp only at h
  split at h
  · next call hfound =>
    split at h
    · next ep start hphase =>
      cases h
      exact ⟨.inl ⟨id, call.opClass, _, none, moved_setCall { call with phase := .settled ep start failure } rfl rfl,
        .settle ⟨call, hfound, rfl, hphase⟩⟩, .nothing rfl rfl rfl⟩
    · cases h
  · cases h

theorem answer_effect {out : Pool × Effect} (h : step o p r (.answer id) = some out) :
    StepEffect o p r (.answer id) out := by
  unfold step at h
  dsimp only at h
  split at h
  · next call hfound =>
    split at h
    · next ep start failure hphase =>
      cases h
      exact ⟨.inl ⟨id, call.opClass, _, none, moved_setCall { call with phase := .answered ep failure } rfl rfl,
        .answer ⟨call, hfound, rfl, hphase⟩⟩, .nothing rfl rfl rfl⟩
    · cases h
  · cases h

theorem handle_effect {out : Pool × Effect} (h : step o p r (.handle id) = some out) :
    StepEffect o p r (.handle id) out := by
  unfold step at h
  dsimp only at h
  split at h
  · next call hfound =>
    split at h
    · next ep hphase =>
      cases h
      obtain ⟨-, hbudget, hcall⟩ := observe_same o p r.date
      exact ⟨.inl ⟨id, call.opClass, _, none, moved_setCall { call with phase := .returned } hcall rfl,
        .ended (.inr ⟨⟨_, call, hfound, rfl, hphase⟩, .inr rfl⟩) trivial⟩, .nothing rfl rfl hbudget⟩
    · next ep err hphase =>
      cases h
      have hstands : Stands p id call.opClass (.answered ep (some err)) := ⟨call, hfound, rfl, hphase⟩
      obtain ⟨⟨phase, invoked, hmoved, hcases⟩, hspent⟩ := handleFailure_handled o p r id ep call err
      refine ⟨.inl ⟨id, call.opClass, phase, invoked, hmoved, ?_⟩, hspent⟩
      rcases hcases with ⟨hover, rfl⟩ | ⟨next, hnext, ⟨rfl, rfl⟩ | ⟨hother, harrives⟩⟩
      · exact .ended (.inr ⟨⟨_, hstands⟩, .inr rfl⟩) hover
      · exact .sleep hstands hnext
      · exact .again hstands hnext hother harrives
    · cases h
  · cases h

theorem wake_effect {out : Pool × Effect} (h : step o p r (.wake id) = some out) : StepEffect o p r (.wake id) out := by
  unfold step at h
  dsimp only at h
  split at h
  · next call hfound =>
    split at h
    · next next hphase =>
      cases h
      obtain ⟨⟨phase, invoked, hmoved, harrives⟩, hbudget, hretried, hrequested⟩ :=
        attempt_attempted o p r id next { call with attempt := call.attempt + 1 }
      exact ⟨.inl ⟨id, call.opClass, phase, invoked, hmoved, .wake ⟨call, hfound, rfl, hphase⟩ harrives⟩,
        .nothing hretried hrequested hbudget⟩
    · cases h
  · cases h

theorem probed_same (ep : Nat) (result : Option ProbeResult) (now : Number) :
    (p.probed ep result now).call = p.call ∧ (p.probed ep result now).budget = p.budget := by
  unfold Pool.probed
  dsimp only
  split
  · exact ⟨rfl, rfl⟩
  · split <;> exact ⟨rfl, rfl⟩

theorem step_effect {event : Event} {out : Pool × Effect} (h : step o p r event = some out) :
    StepEffect o p r event out := by
  cases event with
  | execute id opClass => exact execute_effect h
  | ensured id => exact ensured_effect h
  | settle id failure => exact settle_effect h
  | answer id => exact answer_effect h
  | handle id => exact handle_effect h
  | wake id => exact wake_effect h
  | probed ep result =>
    cases h
    obtain ⟨hcall, hbudget⟩ := probed_same (p := p) ep result r.now
    exact ⟨.inr ⟨hcall, rfl, trivial⟩, .nothing rfl rfl hbudget⟩
  | observed =>
    cases h
    obtain ⟨-, hbudget, hcall⟩ := observe_same o p r.date
    exact ⟨.inr ⟨hcall, rfl, trivial⟩, .nothing rfl rfl hbudget⟩

end

end ZkVote.EndpointPool
