import ZkVote.Backend.ConfirmationBooks

/-!
# Waiting for a confirmation

What becomes of the callers, whichever budgets they bring to one entry.
-/

open Lib

namespace ZkVote.ConfirmationQueue

/-! ## The moves of an event -/

/-- Rejected without having waited: the hash has expired for someone else, or the worker is stopped. -/
def Excused (s : QueueState) (t : Int) : Event → Nat → Prop
  | .waitForTransaction hash _, id =>
    id = s.called ∧ ∃ cached, (pruneCache t s).resultsCache hash = some cached ∧ cached.result = none
  | .stopReturns _, _ => True
  | _, _ => False

section
variable {t : Int} {X : Nat → Prop} {s s' : QueueState} {b : Books} {e : Nat} {random : ℚ}

theorem modifyEntry_moves {f : PendingEntry → PendingEntry} (hf : ∀ entry, Polled entry (f entry))
    (h : Moves t X b s.books) : Moves t X b (s.modifyEntry e f).books := by
  cases hentry : s.entry e with
  | none =>
    have hsame : (s.modifyEntry e f).books = s.books := by
      unfold QueueState.modifyEntry QueueState.books
      simp only [hentry, Option.map_none]
      rw [← hentry, Function.update_eq_self]
    rw [hsame]
    exact h
  | some entry =>
    have hmove := Move.poll (t := t) (X := X) s.books e entry (f entry) hentry (hf entry)
    have hsame : (s.modifyEntry e f).books =
        { s.books with entry := Function.update s.books.entry e (some (f entry)) } := by
      unfold QueueState.modifyEntry QueueState.books
      simp only [hentry, Option.map_some]
    rw [hsame]
    exact h.tail hmove

theorem closeEntry_moves {outcome : Settlement} {result : Option GetTransactionResponse}
    (hwhy : ∀ entry, s.entry e = some entry → ∀ error, outcome = .rejected error →
      entry.Spent t ∨ ∀ w ∈ entry.waiters, X w.id) (h : Moves t X b s.books) :
    Moves t X b (closeEntry t e outcome result s).books := by
  unfold closeEntry
  split
  · exact h
  · next entry hentry =>
    split
    · exact h
    · exact h.tail (.close s.books e entry outcome hentry (hwhy entry hentry))

theorem loopRuns_moves {i : Nat} (h : Moves t X b s.books) : Moves t X b (loopRuns t i s).books := by
  unfold loopRuns
  split
  · exact h
  · split
    · exact modifyEntry_moves (fun _ => ⟨rfl, rfl, rfl, Nat.le_refl _, rfl, rfl⟩) h
    · exact h

theorem startConfirmationWorker_moves (h : Moves t X b s.books) :
    Moves t X b (startConfirmationWorker t s).books := by
  unfold startConfirmationWorker
  split
  · exact h
  · exact loopRuns_moves h

theorem pollReturns_moves {answer : Except String GetTransactionResponse} (h : Moves t X b s.books) :
    Moves t X b (pollReturns t random e answer s).books := by
  unfold pollReturns
  split
  · exact h
  · next entry hentry =>
    refine modifyEntry_moves (fun _ => ⟨rfl, rfl, rfl, Nat.le_refl _, rfl, rfl⟩) ?_
    cases answer with
    | ok result =>
      have hcounted : Moves t X b ({ s with
          entry := Function.update s.entry e (some { entry with attempts := entry.attempts + 1 }) } : QueueState).books :=
        h.tail (.poll s.books e entry _ hentry ⟨rfl, rfl, rfl, Nat.le_succ _, rfl, rfl⟩)
      simp only
      split
      · exact closeEntry_moves (fun _ _ error herror => by cases herror) hcounted
      · split
        · next hspent =>
          refine closeEntry_moves (fun x hx _ _ => .inl ?_) hcounted
          cases (Function.update_self e _ s.entry).symm.trans hx
          exact hspent
        · exact modifyEntry_moves (fun _ => ⟨rfl, rfl, rfl, Nat.le_refl _, rfl, rfl⟩) hcounted
    | error message =>
      have hplanned := modifyEntry_moves (s := s) (e := e) (t := t) (X := X)
        (f := fun entry =>
          { entry with nextPollAt := t + computeBackoffDelay random (entry.attempts + 1) entry.options })
        (fun _ => ⟨rfl, rfl, rfl, Nat.le_refl _, rfl, rfl⟩) h
      simp only
      split
      · next hlate =>
        refine closeEntry_moves (fun x hx _ _ => .inl (.inl ?_)) hplanned
        simp only [QueueState.modifyEntry, Function.update_self, hentry, Option.map_some, Option.some.injEq] at hx
        rw [← hx]
        exact hlate
      · exact hplanned

theorem stopReturns_moves {awaited : Option Nat} (hX : ∀ id, X id) (h : Moves t X b s.books) :
    Moves t X b (stopReturns t awaited s).books := by
  have hfold : ∀ (fail : QueueState → Nat → QueueState),
      (∀ s e, Moves t X b s.books → Moves t X b (fail s e).books) →
      ∀ (ids : List Nat) (s : QueueState), Moves t X b s.books → Moves t X b (ids.foldl fail s).books := by
    intro fail hfail ids
    induction ids with
    | nil => exact fun s h => h
    | cons e ids ih =>
      intro s h
      rw [List.foldl_cons]
      exact ih _ (hfail s e h)
  unfold stopReturns
  refine hfold _ (fun s e h => ?_) _ _ h
  split
  · exact closeEntry_moves (fun _ _ _ _ => .inr fun w _ => hX w.id) h
  · exact h

theorem mem_of_lookup {hash : String} {l : List (String × Nat)} (h : l.lookup hash = some e) : (hash, e) ∈ l := by
  induction l with
  | nil => cases h
  | cons p l ih =>
    rw [List.lookup_cons] at h
    split at h
    · next heq =>
      rw [beq_iff_eq] at heq
      cases h
      rw [heq]
      exact List.mem_cons_self ..
    · exact List.mem_cons_of_mem _ (ih h)

theorem startConfirmationWorker_pending : (startConfirmationWorker t s).pending = s.pending := by
  unfold startConfirmationWorker loopRuns
  split
  · rfl
  · split
    · rfl
    · split <;> rfl

theorem getEntry_moves (hash : String) (opts : Options) (h : Moves t X b s.books) :
    Moves t X b (getEntry t hash opts s).1.books ∧
      (hash, (getEntry t hash opts s).2) ∈ (getEntry t hash opts s).1.pending := by
  unfold getEntry
  split
  · next e he => exact ⟨h, mem_of_lookup he⟩
  · refine ⟨startConfirmationWorker_moves ?_, ?_⟩
    · exact h.tail (.make s.books _ rfl rfl)
    · simp only [startConfirmationWorker_pending]
      exact List.mem_append_right _ (List.mem_singleton.mpr rfl)

theorem addWaiter_moves {hash : String} {opts : Options} (hok : BooksOk b) (hwait : 0 < opts.maxWaitMs)
    (hpending : (hash, e) ∈ s.pending) (h : Moves t X b s.books) :
    Moves t X b (addWaiter t hash opts e s).books := by
  obtain ⟨entry, hentry, -, hopen⟩ := (hok.moves h).pending (hash, e) hpending
  have hmove := Move.add (t := t) (X := X) s.books e entry
    { hash := hash, options := opts, calledAt := t, entry := some e, attemptsBefore := entry.attempts }
    (t + opts.maxWaitMs) hentry hopen rfl hwait
  refine h.tail ?_
  have hentry' : s.entry e = some entry := hentry
  unfold addWaiter QueueState.modifyEntry QueueState.books
  simp only [hentry', Option.map_some, Option.getD_some]
  exact hmove

theorem answerNow_moves {hash : String} {opts : Options} {outcome : Settlement}
    (hwhy : ∀ error, outcome = .rejected error →
      opts.maxAttempts.reached 0 = true ∨ t + opts.maxWaitMs ≤ t ∨ X s.called)
    (h : Moves t X b s.books) : Moves t X b (answerNow t hash opts outcome s).books :=
  h.tail (.answer s.books _ outcome rfl hwhy)

theorem waitForTransaction_moves {hash : String} {options : WaitForTransactionOptions} (hok : BooksOk s.books) :
    Moves t (Excused s t (.waitForTransaction hash options)) s.books
      (waitForTransaction t hash options s).books := by
  unfold waitForTransaction
  simp only
  split
  · next hnone =>
    refine answerNow_moves (fun _ _ => ?_) .refl
    rcases hnone with hreached | hle
    · exact .inl hreached
    · exact .inr (.inl (by omega))
  · next hsome =>
    split
    · next cached hcached =>
      split
      · exact answerNow_moves (fun error herror => by cases herror) .refl
      · next hexpired =>
        exact answerNow_moves (fun _ _ => .inr (.inr ⟨rfl, cached, hcached, hexpired⟩)) .refl
    · obtain ⟨hmoves, hpending⟩ := getEntry_moves hash (resolveOptions s.config options) (s := pruneCache t s)
        (t := t) (X := Excused s t (.waitForTransaction hash options)) (b := s.books) .refl
      refine addWaiter_moves hok ?_ hpending hmoves
      by_contra hle
      exact hsome (.inr (by omega))

theorem timerFires_moves {id : Nat} (h : timerFires t id s = some s') : Moves t X s.books s'.books := by
  unfold timerFires at h
  split at h
  · next timer htimer =>
    split at h
    · next entry hentry =>
      split at h
      · next hdue =>
        cases h
        have hmove := Move.fire (t := t) (X := X) s.books id timer entry (.rejected (timeoutError t entry)) htimer
          hentry hdue
        refine .single ?_
        unfold QueueState.settle QueueState.modifyEntry QueueState.books
        simp only [hentry, Option.map_some]
        exact hmove
      · cases h
    · cases h
  · cases h

theorem step_moves {event : Event} (hok : BooksOk s.books) (hstep : Step s (t, event) s') :
    Moves t (Excused s t event) s.books s'.books := by
  obtain ⟨s₁, -, hnext, rfl⟩ := hstep
  change Moves t (Excused s t event) s.books s₁.books
  unfold QueueState.next at hnext
  cases event with
  | waitForTransaction hash options =>
    cases hnext
    exact waitForTransaction_moves hok
  | timerFires id => exact timerFires_moves hnext
  | wakes i =>
    simp only at hnext
    split at hnext
    · cases hnext
      exact loopRuns_moves .refl
    · cases hnext
  | pollReturns i random answer =>
    simp only at hnext
    split at hnext
    · cases hnext
      exact pollReturns_moves .refl
    · cases hnext
  | startConfirmationWorker =>
    cases hnext
    exact startConfirmationWorker_moves .refl
  | stopConfirmationWorker =>
    cases hnext
    unfold stopConfirmationWorker
    split
    · exact .refl
    · exact .refl
  | stopReturns awaited =>
    simp only at hnext
    split at hnext
    · cases hnext
      exact stopReturns_moves (fun _ => trivial) .refl
    · cases hnext
  | getConfirmationStatus =>
    cases hnext
    exact .refl

end

/-! ## Runs -/

/-- No caller waits. -/
def AtRest (s : QueueState) : Prop := ∀ id, s.timer id = none

/-- A call is settled at most once, and once when no caller waits any more. -/
def SettledOnce (s : QueueState) : Prop :=
  ∀ id < s.called, (s.settlements.map Prod.fst).count id ≤ 1 ∧ (AtRest s → (s.settlements.map Prod.fst).count id = 1)

/-- Whom the event rejects, and what its call was. -/
def Rejects (m : Moment QueueState (Int × Event)) (id : Nat) (c : Call) : Prop :=
  (∃ error, (id, .rejected error) ∈ m.post.settlements ∧ (id, .rejected error) ∉ m.pre.settlements) ∧
    m.post.call id = some c

/-- Whoever is rejected has spent its own budget. -/
def BudgetsKept (m : Moment QueueState (Int × Event)) : Prop :=
  ∀ id c, Rejects m id c → Exhausted m.post.books m.call.1 c

/-- So it is for whoever fits on its entry, unless the worker is stopped or the hash has expired before. -/
def FittingBudgetsKept (m : Moment QueueState (Int × Event)) : Prop :=
  ∀ id c, Rejects m id c → Fits m.post.books c → ¬ Excused m.pre m.call.1 m.call.2 id →
    Exhausted m.post.books m.call.1 c

/-- Whoever waits on the entry gets the terminal status that its poll has found. -/
def ResolvesAll (m : Moment QueueState (Int × Event)) : Prop :=
  ∀ i e random result, m.call.2 = .pollReturns i random (.ok result) → m.pre.loops[i]? = some (.polling e) →
    result.status ≠ "NOT_FOUND" → ∀ id c, m.pre.call id = some c → c.entry = some e →
      id ∉ m.pre.settlements.map Prod.fst → (id, .resolved result) ∈ m.post.settlements

section
variable {t t₀ : Int} {s s' : QueueState} {e id : Nat} {random : ℚ} {config : Config}
  {log : List (QueueState × Int × Event)} {event : Event}

theorem pollReturns_resolves {result : GetTransactionResponse} {c : Call} (hok : BooksOk s.books)
    (hstatus : result.status ≠ "NOT_FOUND") (hc : s.call id = some c) (hce : c.entry = some e)
    (hunsettled : id ∉ s.settlements.map Prod.fst) :
    (id, .resolved result) ∈ (pollReturns t random e (.ok result) s).settlements := by
  have hcalled : id < s.called := by
    by_contra hle
    cases (hok.uncalled id (by simpa [QueueState.books] using hle)).2.symm.trans hc
  obtain ⟨timer, htimer⟩ : ∃ timer, s.timer id = some timer := by
    rw [← Option.ne_none_iff_exists']
    intro hnone
    have hcount : (s.settlements.map Prod.fst).count id = 1 := (hok.settled id).trans (if_pos ⟨hcalled, hnone⟩)
    exact hunsettled (List.count_pos_iff.mp (by omega))
  obtain ⟨c', entry, hc', hce', hentry, hid, -⟩ := hok.waiting id timer htimer
  cases hc.symm.trans hc'
  cases hce.symm.trans hce'
  have hentry' : s.entry timer.entry = some entry := hentry
  have hopen : entry.resolved = false := by
    by_contra hresolved
    rw [hok.emptied _ entry hentry (by simpa using hresolved)] at hid
    cases hid
  unfold pollReturns
  simp only [hentry', if_pos hstatus, resolveEntry, closeEntry, Function.update_self, hopen, Bool.false_eq_true,
    if_false]
  refine List.mem_append_left _ (List.mem_map.mpr ⟨id, ?_, rfl⟩)
  exact List.mem_reverse.mpr hid

theorem QueueRun.ok (hrun : QueueRun config t₀ log s) : BooksOk s.books := by
  refine Run.invariant (P := fun s => BooksOk s.books) ?_ (fun s e s' hok hstep => hok.moves (step_moves hok hstep)) hrun
  constructor <;> simp [QueueState.books]

theorem BooksOk.settledOnce (h : BooksOk s.books) : SettledOnce s := by
  intro id hid
  have hcount : (s.settlements.map Prod.fst).count id = if id < s.called ∧ s.timer id = none then 1 else 0 := h.settled id
  refine ⟨?_, fun hrest => ?_⟩
  · rw [hcount]
    split <;> omega
  · rw [hcount, if_pos ⟨hid, hrest id⟩]

theorem step_fittingBudgetsKept (hok : BooksOk s.books) (hstep : Step s (t, event) s') :
    FittingBudgetsKept ⟨log, s, (t, event), s'⟩ := by
  rintro id c ⟨⟨error, hnew, hold⟩, hc⟩ hfits hexcused
  rcases (step_moves hok hstep).rejects hok hnew with hmem | hX | ⟨c', hc', -, hlaw⟩
  · exact absurd hmem hold
  · exact absurd hX hexcused
  · cases hc.symm.trans hc'
    exact hlaw hfits

theorem step_resolvesAll (hok : BooksOk s.books) (hstep : Step s (t, event) s') :
    ResolvesAll ⟨log, s, (t, event), s'⟩ := by
  rintro i e random result rfl hloop hstatus id c hc hce hunsettled
  obtain ⟨s₁, -, hnext, rfl⟩ := hstep
  simp only at hloop
  simp only [QueueState.next, hloop, Option.some.injEq] at hnext
  subst hnext
  exact pollReturns_resolves (s := { s with loops := s.loops.set i .asleep }) hok hstatus hc hce hunsettled

/-- In every run each call is settled once, whoever is rejected on an entry that it fits on has spent its own budget,
and a terminal status goes to whoever waits for it. -/
theorem waits_settled (hrun : QueueRun config t₀ log s) :
    SettledOnce s ∧ (∀ m ∈ Run.moments log s, FittingBudgetsKept m) ∧ ∀ m ∈ Run.moments log s, ResolvesAll m := by
  refine ⟨(QueueRun.ok hrun).settledOnce, ?_, ?_⟩
  · exact Run.forall_moments (fun _ _ _ _ hr hstep => step_fittingBudgetsKept (QueueRun.ok hr) hstep) hrun
  · exact Run.forall_moments (fun _ _ _ _ hr hstep => step_resolvesAll (QueueRun.ok hr) hstep) hrun

end

/-! ## Two callers of one hash -/

def QueueState.move (s : QueueState) (e : Int × Event) : Option QueueState :=
  if s.now ≤ e.1 then (s.next e.1 e.2).map fun s₁ => { s₁ with now := e.1 } else none

/-- The defaults. -/
def sampleConfig : Config where
  confirmationInitialDelayMs := 2000
  confirmationMaxDelayMs := 30000
  confirmationMaxWaitMs := 60000
  confirmationBackoffFactor := 2
  confirmationJitterEnabled := true
  confirmationResultCacheTtlMs := 300000

theorem step_of_move {s s' : QueueState} {e : Int × Event} (h : s.move e = some s') : Step s e s' := by
  unfold QueueState.move at h
  split at h
  · next hnow =>
    obtain ⟨s₁, hs₁, rfl⟩ := Option.map_eq_some_iff.mp h
    exact ⟨s₁, hnow, hs₁, rfl⟩
  · cases h

theorem exists_run (events : List (Int × Event)) (test : List (QueueState × Int × Event) → QueueState → Bool)
    (h : (Run.replay QueueState.move events [] { config := sampleConfig, now := 0 }).any
      (fun r => test r.1 r.2) = true) : ∃ log s, QueueRun sampleConfig 0 log s ∧ test log s = true := by
  refine Run.exists_of_replay (fun s e s' hs => ?_) h
  exact step_of_move hs

/-- The one is ready to wait for a second, the other for a minute. -/
def twoWaiters : List (Int × Event) :=
  [(0, .waitForTransaction "tx" { maxWaitMs := some (.finite 1000) }), (0, .waitForTransaction "tx" {})]

def found : GetTransactionResponse := { status := "SUCCESS", body := "" }

theorem waits_settled_for_two : ∃ log s, QueueRun sampleConfig 0 log s ∧
    (SettledOnce s ∧ (∀ m ∈ Run.moments log s, FittingBudgetsKept m) ∧ ∀ m ∈ Run.moments log s, ResolvesAll m) ∧
    s.settlements = [(1, .resolved found), (0, .resolved found)] := by
  obtain ⟨log, s, hrun, htest⟩ := exists_run (twoWaiters ++ [(900, .pollReturns 0 0 (.ok found))])
    (fun _ s => decide (s.settlements = [(1, .resolved found), (0, .resolved found)])) (by decide +kernel)
  exact ⟨log, s, hrun, waits_settled hrun, of_decide_eq_true htest⟩

def notFound : TransactionConfirmationTimeoutError := { hash := "tx", waitedMs := 1200, attempts := 1 }

/-- The event rejects a caller that would have waited longer. -/
def rejectsEarly (s s' : QueueState) (t : Int) (id : Nat) : Bool :=
  decide ((id, .rejected notFound) ∉ s.settlements ∧ (id, .rejected notFound) ∈ s'.settlements) &&
    (s'.call id).any fun c =>
      decide (t < c.calledAt + c.options.maxWaitMs) && !c.options.maxAttempts.reached (s'.books.polls c)

theorem not_budgetsKept {log : List (QueueState × Int × Event)} {s s' : QueueState} {e : Int × Event} {id : Nat}
    (h : rejectsEarly s s' e.1 id = true) : ¬ BudgetsKept ⟨log, s, e, s'⟩ := by
  simp only [rejectsEarly, Bool.and_eq_true, decide_eq_true_eq, Option.any_eq_true, Bool.not_eq_true'] at h
  obtain ⟨⟨hold, hnew⟩, c, hc, hearly, hpolls⟩ := h
  intro hkept
  rcases hkept id c ⟨⟨notFound, hnew, hold⟩, hc⟩ with hlate | hreached
  · change c.calledAt + c.options.maxWaitMs ≤ e.1 at hlate
    omega
  · exact absurd (hreached.symm.trans hpolls) Bool.false_ne_true.symm

/-- The first has given up, and the poll finds nothing. -/
def pollFindsNothing : Int × Event := (1200, .pollReturns 0 0 (.ok { status := "NOT_FOUND", body := "" }))

/-- A third caller, ready to wait for a minute too. -/
def thirdCaller : Int × Event := (1300, .waitForTransaction "tx" {})

/-- The second caller is rejected after 1.2 seconds, and the third one at once. -/
theorem rejected_for_others : ∃ log s s₁ s₂, QueueRun sampleConfig 0 log s ∧
    Step s pollFindsNothing s₁ ∧ ¬ BudgetsKept ⟨log, s, pollFindsNothing, s₁⟩ ∧
    Step s₁ thirdCaller s₂ ∧ ¬ BudgetsKept ⟨(s, pollFindsNothing) :: log, s₁, thirdCaller, s₂⟩ := by
  obtain ⟨log, s, hrun, htest⟩ := exists_run (twoWaiters ++ [(1000, .timerFires 0)])
    (fun _ s => (s.move pollFindsNothing).any fun s₁ => rejectsEarly s s₁ 1200 1 &&
      (s₁.move thirdCaller).any fun s₂ => rejectsEarly s₁ s₂ 1300 2) (by decide +kernel)
  simp only [Option.any_eq_true, Bool.and_eq_true] at htest
  obtain ⟨s₁, hs₁, hsecond, s₂, hs₂, hthird⟩ := htest
  exact ⟨log, s, s₁, s₂, hrun, step_of_move hs₁, not_budgetsKept hsecond, step_of_move hs₂, not_budgetsKept hthird⟩

end ZkVote.ConfirmationQueue
