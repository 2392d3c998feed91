import Mathlib.Logic.Relation
import Mathlib.Data.List.Nodup
import ZkVote.Backend.ConfirmationQueue

/-!
# The books of the confirmation queue

Entries, timers, calls and how they were settled. An event makes a few moves in them, of six kinds.
-/

open Lib

namespace ZkVote.ConfirmationQueue

structure Books where
  entry : Nat → Option PendingEntry
  created : Nat
  pending : List (String × Nat)
  timer : Nat → Option Timer
  call : Nat → Option Call
  called : Nat
  settlements : List (Nat × Settlement)

def QueueState.books (s : QueueState) : Books where
  entry := s.entry
  created := s.created
  pending := s.pending
  timer := s.timer
  call := s.call
  called := s.called
  settlements := s.settlements

/-- The polls of the hash that have been answered since the call. -/
def Books.polls (b : Books) (c : Call) : Int :=
  match c.entry.bind b.entry with
  | some entry => entry.attempts - c.attemptsBefore
  | none => 0

/-- The caller has waited as long, or for as many polls, as it was ready to. -/
def Exhausted (b : Books) (t : Int) (c : Call) : Prop :=
  c.calledAt + c.options.maxWaitMs ≤ t ∨ c.options.maxAttempts.reached (b.polls c) = true

/-- The caller waits no longer, and for no more polls, than the entry it was put on. -/
def Fits (b : Books) (c : Call) : Prop :=
  c.options.maxWaitMs ≤ 2147483647 ∧ ∀ e entry, c.entry = some e → b.entry e = some entry →
    c.calledAt + c.options.maxWaitMs ≤ entry.deadline ∧
      ∀ n, entry.options.maxAttempts = .finite n → ∃ m, c.options.maxAttempts = .finite m ∧ c.attemptsBefore + m ≤ n

/-- The entry has come to the end of its own budget. -/
def PendingEntry.Spent (entry : PendingEntry) (t : Int) : Prop :=
  entry.deadline ≤ t ∨ entry.options.maxAttempts.reached entry.attempts = true

/-- Polls are counted, and the next one is planned. -/
structure Polled (entry entry' : PendingEntry) : Prop where
  hash : entry'.hash = entry.hash
  options : entry'.options = entry.options
  deadline : entry'.deadline = entry.deadline
  attempts : entry.attempts ≤ entry'.attempts
  resolved : entry'.resolved = entry.resolved
  waiters : entry'.waiters = entry.waiters

/-- What an event does to the books at time `t`. It may reject whom `X` says. -/
inductive Move (t : Int) (X : Nat → Prop) : Books → Books → Prop
  | poll (b : Books) (e : Nat) (entry entry' : PendingEntry) (hentry : b.entry e = some entry)
      (hpolled : Polled entry entry') : Move t X b { b with entry := Function.update b.entry e (some entry') }
  | close (b : Books) (e : Nat) (entry : PendingEntry) (outcome : Settlement) (hentry : b.entry e = some entry)
      (hwhy : ∀ error, outcome = .rejected error → entry.Spent t ∨ ∀ w ∈ entry.waiters, X w.id) :
      Move t X b { b with
        entry := Function.update b.entry e (some { entry with resolved := true, waiters := [] })
        pending := b.pending.filter fun p => p.1 ≠ entry.hash
        timer := fun id => if id ∈ entry.waiters.map Waiter.id then none else b.timer id
        settlements := (entry.waiters.map Waiter.id).reverse.map (fun id => (id, outcome)) ++ b.settlements }
  | make (b : Books) (entry : PendingEntry) (hopen : entry.resolved = false) (hwaiters : entry.waiters = []) :
      Move t X b { b with
        entry := Function.update b.entry b.created (some entry)
        created := b.created + 1
        pending := b.pending ++ [(entry.hash, b.created)] }
  | add (b : Books) (e : Nat) (entry : PendingEntry) (c : Call) (deadline : Int) (hentry : b.entry e = some entry)
      (hopen : entry.resolved = false) (hcall : c.entry = some e) (hwait : 0 < c.options.maxWaitMs) :
      Move t X b { b with
        entry := Function.update b.entry e
          (some { entry with waiters := entry.waiters ++ [{ id := b.called, deadline := deadline }] })
        timer := Function.update b.timer b.called
          (some { entry := e, dueAt := c.calledAt + setTimeoutDelay c.options.maxWaitMs })
        call := Function.update b.call b.called (some c)
        called := b.called + 1 }
  | answer (b : Books) (c : Call) (outcome : Settlement) (hcall : c.entry = none)
      (hwhy : ∀ error, outcome = .rejected error →
        c.options.maxAttempts.reached 0 = true ∨ c.calledAt + c.options.maxWaitMs ≤ t ∨ X b.called) :
      Move t X b { b with
        call := Function.update b.call b.called (some c)
        called := b.called + 1
        settlements := (b.called, outcome) :: b.settlements }
  | fire (b : Books) (id : Nat) (timer : Timer) (entry : PendingEntry) (outcome : Settlement)
      (htimer : b.timer id = some timer) (hentry : b.entry timer.entry = some entry) (hdue : timer.dueAt ≤ t) :
      Move t X b { b with
        entry := Function.update b.entry timer.entry
          (some { entry with waiters := entry.waiters.filter fun w => w.id ≠ id })
        timer := Function.update b.timer id none
        settlements := (id, outcome) :: b.settlements }

abbrev Moves (t : Int) (X : Nat → Prop) : Books → Books → Prop := Relation.ReflTransGen (Move t X)

/-! ## What every move keeps -/

/-- Who waits has a timer, and is on the list of the entry that the timer names. -/
structure BooksOk (b : Books) : Prop where
  waiting : ∀ id timer, b.timer id = some timer → ∃ c entry, b.call id = some c ∧ c.entry = some timer.entry ∧
    b.entry timer.entry = some entry ∧ id ∈ entry.waiters.map Waiter.id ∧
    timer.dueAt = c.calledAt + setTimeoutDelay c.options.maxWaitMs ∧ 0 < c.options.maxWaitMs
  listed : ∀ e entry, b.entry e = some entry → ∀ id ∈ entry.waiters.map Waiter.id, ∃ due, b.timer id = some ⟨e, due⟩
  apart : ∀ e entry, b.entry e = some entry → (entry.waiters.map Waiter.id).Nodup
  emptied : ∀ e entry, b.entry e = some entry → entry.resolved = true → entry.waiters = []
  pending : ∀ p ∈ b.pending, ∃ entry, b.entry p.2 = some entry ∧ entry.hash = p.1 ∧ entry.resolved = false
  unmade : ∀ e, b.created ≤ e → b.entry e = none
  uncalled : ∀ id, b.called ≤ id → b.timer id = none ∧ b.call id = none
  known : ∀ id < b.called, ∃ c, b.call id = some c
  settled : ∀ id, (b.settlements.map Prod.fst).count id = if id < b.called ∧ b.timer id = none then 1 else 0

section
variable {t : Int} {X : Nat → Prop} {b b' : Books} {e : Nat} {entry entry' : PendingEntry} {c : Call}

theorem update_eq_some {α : Type} {f : Nat → Option α} {i j : Nat} {v x : α}
    (h : Function.update f i (some v) j = some x) : j = i ∧ x = v ∨ j ≠ i ∧ f j = some x := by
  by_cases hj : j = i
  · rw [hj, Function.update_self] at h
    exact .inl ⟨hj, (Option.some.inj h).symm⟩
  · rw [Function.update_of_ne hj] at h
    exact .inr ⟨hj, h⟩

/-- An entry that is there is not the next one to be made. -/
theorem BooksOk.ne_of_le {e' : Nat} (h : BooksOk b) (hentry : b.entry e = some entry) (hle : b.created ≤ e') :
    e' ≠ e := by
  rintro rfl
  cases (h.unmade e' hle).symm.trans hentry

theorem BooksOk.poll (h : BooksOk b) (hentry : b.entry e = some entry) (hpolled : Polled entry entry') :
    BooksOk { b with entry := Function.update b.entry e (some entry') } := by
  have hfound : ∀ e' x, Function.update b.entry e (some entry') e' = some x →
      ∃ x₀, b.entry e' = some x₀ ∧ x.waiters = x₀.waiters ∧ x.resolved = x₀.resolved := by
    intro e' x hx
    rcases update_eq_some hx with ⟨rfl, rfl⟩ | ⟨-, hx⟩
    · exact ⟨entry, hentry, hpolled.waiters, hpolled.resolved⟩
    · exact ⟨x, hx, rfl, rfl⟩
  have hkept : ∀ e' x, b.entry e' = some x → ∃ x₁, Function.update b.entry e (some entry') e' = some x₁ ∧
      x₁.waiters = x.waiters ∧ x₁.hash = x.hash ∧ x₁.resolved = x.resolved := by
    intro e' x hx
    by_cases he : e' = e
    · cases (he ▸ hx).symm.trans hentry
      exact ⟨entry', by rw [he, Function.update_self], hpolled.waiters, hpolled.hash, hpolled.resolved⟩
    · exact ⟨x, by rw [Function.update_of_ne he, hx], rfl, rfl, rfl⟩
  refine ⟨fun id timer htimer => ?_, fun e' x hx id hid => ?_, fun e' x hx => ?_, fun e' x hx hresolved => ?_,
    fun p hp => ?_, fun e' hle => ?_, h.uncalled, h.known, h.settled⟩
  · obtain ⟨c, x, hc, hce, hx, hid, hdue⟩ := h.waiting id timer htimer
    obtain ⟨x₁, hx₁, hwaiters, -⟩ := hkept _ x hx
    exact ⟨c, x₁, hc, hce, hx₁, hwaiters ▸ hid, hdue⟩
  · obtain ⟨x₀, hx₀, hwaiters, -⟩ := hfound e' x hx
    exact h.listed e' x₀ hx₀ id (hwaiters ▸ hid)
  · obtain ⟨x₀, hx₀, hwaiters, -⟩ := hfound e' x hx
    rw [hwaiters]
    exact h.apart e' x₀ hx₀
  · obtain ⟨x₀, hx₀, hwaiters, hsame⟩ := hfound e' x hx
    rw [hwaiters]
    exact h.emptied e' x₀ hx₀ (hsame ▸ hresolved)
  · obtain ⟨x, hx, hhash, hopen⟩ := h.pending p hp
    obtain ⟨x₁, hx₁, -, hhash₁, hresolved⟩ := hkept _ x hx
    exact ⟨x₁, hx₁, hhash₁.trans hhash, hresolved.trans hopen⟩
  · exact (Function.update_of_ne (h.ne_of_le hentry hle) _ _).trans (h.unmade e' hle)

theorem BooksOk.close {outcome : Settlement} (h : BooksOk b) (hentry : b.entry e = some entry) :
    BooksOk { b with
      entry := Function.update b.entry e (some { entry with resolved := true, waiters := [] })
      pending := b.pending.filter fun p => p.1 ≠ entry.hash
      timer := fun id => if id ∈ entry.waiters.map Waiter.id then none else b.timer id
      settlements := (entry.waiters.map Waiter.id).reverse.map (fun id => (id, outcome)) ++ b.settlements } := by
  set ids := entry.waiters.map Waiter.id with hids
  -- Who is still on a list is on another one.
  have hother : ∀ e' x, e' ≠ e → b.entry e' = some x → ∀ id ∈ x.waiters.map Waiter.id, id ∉ ids := by
    intro e' x hne hx id hid hmem
    obtain ⟨due, hdue⟩ := h.listed e' x hx id hid
    obtain ⟨due', hdue'⟩ := h.listed e entry hentry id hmem
    cases hdue.symm.trans hdue'
    exact hne rfl
  refine ⟨fun id timer htimer => ?_, fun e' x hx id hid => ?_, fun e' x hx => ?_, fun e' x hx hresolved => ?_,
    fun p hp => ?_, fun e' hle => ?_, fun id hle => ?_, h.known, fun id => ?_⟩
  · simp only at htimer
    split at htimer
    · cases htimer
    · next hid =>
      obtain ⟨c, x, hc, hce, hx, hmem, hdue⟩ := h.waiting id timer htimer
      have hne : timer.entry ≠ e := by
        intro heq
        cases (heq ▸ hx).symm.trans hentry
        exact hid hmem
      exact ⟨c, x, hc, hce, (Function.update_of_ne hne _ _).trans hx, hmem, hdue⟩
  · rcases update_eq_some hx with ⟨rfl, rfl⟩ | ⟨hne, hx⟩
    · cases hid
    · obtain ⟨due, hdue⟩ := h.listed e' x hx id hid
      exact ⟨due, by simp only [if_neg (hother e' x hne hx id hid), hdue]⟩
  · rcases update_eq_some hx with ⟨rfl, rfl⟩ | ⟨-, hx⟩
    · exact List.nodup_nil
    · exact h.apart e' x hx
  · rcases update_eq_some hx with ⟨rfl, rfl⟩ | ⟨-, hx⟩
    · rfl
    · exact h.emptied e' x hx hresolved
  · obtain ⟨hp, hhash⟩ := List.mem_filter.mp hp
    obtain ⟨x, hx, hxhash, hopen⟩ := h.pending p hp
    have hne : p.2 ≠ e := by
      intro heq
      cases (heq ▸ hx).symm.trans hentry
      exact of_decide_eq_true hhash hxhash.symm
    exact ⟨x, (Function.update_of_ne hne _ _).trans hx, hxhash, hopen⟩
  · exact (Function.update_of_ne (h.ne_of_le hentry hle) _ _).trans (h.unmade e' hle)
  · refine ⟨?_, (h.uncalled id hle).2⟩
    simp only [(h.uncalled id hle).1, ite_self]
  · have hcount := h.settled id
    have hfst : ids.reverse.map (Prod.fst ∘ fun id => (id, outcome)) = ids.reverse := by simp [Function.comp_def]
    simp only [List.map_append, List.map_map, List.count_append, hcount, hfst, List.count_reverse]
    by_cases hid : id ∈ ids
    · obtain ⟨due, hdue⟩ := h.listed e entry hentry id hid
      have hlt : id < b.called := by
        by_contra hle
        rw [(h.uncalled id (by omega)).1] at hdue
        cases hdue
      rw [List.count_eq_one_of_mem (h.apart e entry hentry) hid]
      simp [hid, hdue, hlt]
    · rw [List.count_eq_zero_of_not_mem hid]
      simp [hid]

theorem BooksOk.make (h : BooksOk b) (hopen : entry.resolved = false) (hwaiters : entry.waiters = []) :
    BooksOk { b with
      entry := Function.update b.entry b.created (some entry)
      created := b.created + 1
      pending := b.pending ++ [(entry.hash, b.created)] } := by
  have hkept : ∀ e' x, b.entry e' = some x → Function.update b.entry b.created (some entry) e' = some x := by
    intro e' x hx
    have hne : e' ≠ b.created := fun heq => h.ne_of_le hx (Nat.le_refl _) heq.symm
    rw [Function.update_of_ne hne, hx]
  refine ⟨fun id timer htimer => ?_, fun e' x hx id hid => ?_, fun e' x hx => ?_, fun e' x hx hresolved => ?_,
    fun p hp => ?_, fun e' hle => ?_, h.uncalled, h.known, h.settled⟩
  · obtain ⟨c, x, hc, hce, hx, hid, hdue⟩ := h.waiting id timer htimer
    exact ⟨c, x, hc, hce, hkept _ x hx, hid, hdue⟩
  · rcases update_eq_some hx with ⟨rfl, rfl⟩ | ⟨-, hx⟩
    · rw [hwaiters] at hid
      cases hid
    · exact h.listed e' x hx id hid
  · rcases update_eq_some hx with ⟨rfl, rfl⟩ | ⟨-, hx⟩
    · rw [hwaiters]
      exact List.nodup_nil
    · exact h.apart e' x hx
  · rcases update_eq_some hx with ⟨rfl, rfl⟩ | ⟨-, hx⟩
    · exact hwaiters
    · exact h.emptied e' x hx hresolved
  · rcases List.mem_append.mp hp with hp | hp
    · obtain ⟨x, hx, hhash, hopen⟩ := h.pending p hp
      exact ⟨x, hkept _ x hx, hhash, hopen⟩
    · rw [List.mem_singleton] at hp
      subst hp
      exact ⟨entry, Function.update_self .., rfl, hopen⟩
  · simp only at hle
    have hne : e' ≠ b.created := by omega
    exact (Function.update_of_ne hne _ _).trans (h.unmade e' (by omega))

theorem BooksOk.add {deadline : Int} (h : BooksOk b) (hentry : b.entry e = some entry) (hopen : entry.resolved = false)
    (hcall : c.entry = some e) (hwait : 0 < c.options.maxWaitMs) :
    BooksOk { b with
      entry := Function.update b.entry e
        (some { entry with waiters := entry.waiters ++ [{ id := b.called, deadline := deadline }] })
      timer := Function.update b.timer b.called
        (some { entry := e, dueAt := c.calledAt + setTimeoutDelay c.options.maxWaitMs })
      call := Function.update b.call b.called (some c)
      called := b.called + 1 } := by
  have hnew : ∀ e' x, b.entry e' = some x → ∀ id ∈ x.waiters.map Waiter.id, id ≠ b.called := by
    rintro e' x hx id hid rfl
    obtain ⟨due, hdue⟩ := h.listed e' x hx _ hid
    cases (h.uncalled _ (Nat.le_refl _)).1.symm.trans hdue
  refine ⟨fun id timer htimer => ?_, fun e' x hx id hid => ?_, fun e' x hx => ?_, fun e' x hx hresolved => ?_,
    fun p hp => ?_, fun e' hle => ?_, fun id hle => ?_, fun id hlt => ?_, fun id => ?_⟩
  · rcases update_eq_some htimer with ⟨rfl, rfl⟩ | ⟨hne, htimer⟩
    · exact ⟨c, _, Function.update_self .., hcall, Function.update_self .., by simp, rfl, hwait⟩
    · obtain ⟨c', x, hc, hce, hx, hid, hdue⟩ := h.waiting id timer htimer
      have hcall' := (Function.update_of_ne hne (some c) b.call).trans hc
      by_cases he : timer.entry = e
      · cases (he ▸ hx).symm.trans hentry
        refine ⟨c', _, hcall', hce, (congrArg _ he).trans (Function.update_self ..), ?_, hdue⟩
        rw [List.map_append]
        exact List.mem_append_left _ hid
      · exact ⟨c', x, hcall', hce, (Function.update_of_ne he _ _).trans hx, hid, hdue⟩
  · rcases update_eq_some hx with ⟨rfl, rfl⟩ | ⟨-, hx⟩
    · rw [List.map_append, List.mem_append] at hid
      rcases hid with hid | hid
      · obtain ⟨due, hdue⟩ := h.listed e' entry hentry id hid
        exact ⟨due, (Function.update_of_ne (hnew e' entry hentry id hid) _ b.timer).trans hdue⟩
      · rw [List.map_singleton, List.mem_singleton] at hid
        subst hid
        exact ⟨_, Function.update_self ..⟩
    · obtain ⟨due, hdue⟩ := h.listed e' x hx id hid
      exact ⟨due, (Function.update_of_ne (hnew e' x hx id hid) _ b.timer).trans hdue⟩
  · rcases update_eq_some hx with ⟨rfl, rfl⟩ | ⟨-, hx⟩
    · rw [List.map_append, List.nodup_append]
      refine ⟨h.apart e' entry hentry, List.nodup_singleton _, fun id hid id' hid' => ?_⟩
      rw [List.map_singleton, List.mem_singleton] at hid'
      rw [hid']
      exact hnew e' entry hentry id hid
    · exact h.apart e' x hx
  · rcases update_eq_some hx with ⟨rfl, rfl⟩ | ⟨-, hx⟩
    · exact absurd (hopen.symm.trans hresolved) Bool.false_ne_true
    · exact h.emptied e' x hx hresolved
  · obtain ⟨x, hx, hhash, hx'⟩ := h.pending p hp
    by_cases he : p.2 = e
    · cases (he ▸ hx).symm.trans hentry
      exact ⟨_, (congrArg _ he).trans (Function.update_self ..), hhash, hx'⟩
    · exact ⟨x, (Function.update_of_ne he _ _).trans hx, hhash, hx'⟩
  · exact (Function.update_of_ne (h.ne_of_le hentry hle) _ _).trans (h.unmade e' hle)
  · simp only at hle
    have hne : id ≠ b.called := by omega
    obtain ⟨htimer, hcall⟩ := h.uncalled id (by omega)
    exact ⟨(Function.update_of_ne hne _ _).trans htimer, (Function.update_of_ne hne _ _).trans hcall⟩
  · by_cases hid : id = b.called
    · exact ⟨c, by rw [hid]; exact Function.update_self ..⟩
    · simp only at hlt
      obtain ⟨c', hc'⟩ := h.known id (by omega)
      exact ⟨c', (Function.update_of_ne hid _ _).trans hc'⟩
  · have hcount := h.settled id
    by_cases hid : id = b.called
    · rw [hid] at hcount ⊢
      simpa using hcount
    · have hlt : id < b.called + 1 ↔ id < b.called := by omega
      simpa [hid, hlt] using hcount

theorem BooksOk.answer {outcome : Settlement} (h : BooksOk b) :
    BooksOk { b with
      call := Function.update b.call b.called (some c)
      called := b.called + 1
      settlements := (b.called, outcome) :: b.settlements } := by
  refine ⟨fun id timer htimer => ?_, h.listed, h.apart, h.emptied, h.pending, h.unmade, fun id hle => ?_, fun id hlt => ?_,
    fun id => ?_⟩
  · obtain ⟨c', x, hc, hrest⟩ := h.waiting id timer htimer
    have hne : id ≠ b.called := by
      rintro rfl
      cases (h.uncalled _ (Nat.le_refl _)).2.symm.trans hc
    exact ⟨c', x, (Function.update_of_ne hne _ _).trans hc, hrest⟩
  · simp only at hle
    have hne : id ≠ b.called := by omega
    obtain ⟨htimer, hcall⟩ := h.uncalled id (by omega)
    exact ⟨htimer, (Function.update_of_ne hne _ _).trans hcall⟩
  · by_cases hid : id = b.called
    · exact ⟨c, by rw [hid]; exact Function.update_self ..⟩
    · simp only at hlt
      obtain ⟨c', hc'⟩ := h.known id (by omega)
      exact ⟨c', (Function.update_of_ne hid _ _).trans hc'⟩
  · have hcount := h.settled id
    rw [List.map_cons, List.count_cons, hcount]
    by_cases hid : id = b.called
    · rw [hid]
      simp [(h.uncalled _ (Nat.le_refl _)).1]
    · have hlt : id < b.called + 1 ↔ id < b.called := by omega
      have hne : ¬ b.called = id := fun heq => hid heq.symm
      simp [hlt, hne]

theorem BooksOk.fire {id : Nat} {timer : Timer} {outcome : Settlement} (h : BooksOk b) (htimer : b.timer id = some timer)
    (hentry : b.entry timer.entry = some entry) :
    BooksOk { b with
      entry := Function.update b.entry timer.entry
        (some { entry with waiters := entry.waiters.filter fun w => w.id ≠ id })
      timer := Function.update b.timer id none
      settlements := (id, outcome) :: b.settlements } := by
  have hids : (entry.waiters.filter fun w => w.id ≠ id).map Waiter.id =
      (entry.waiters.map Waiter.id).filter fun i => i ≠ id := by
    simp only [List.filter_map, Function.comp_def]
  have hother : ∀ id' timer', Function.update b.timer id none id' = some timer' →
      id' ≠ id ∧ b.timer id' = some timer' := by
    intro id' timer' h'
    by_cases hid : id' = id
    · rw [hid, Function.update_self] at h'
      cases h'
    · exact ⟨hid, (Function.update_of_ne hid _ _).symm.trans h'⟩
  have hlt : id < b.called := by
    by_contra hle
    cases (h.uncalled id (by omega)).1.symm.trans htimer
  refine ⟨fun id' timer' htimer' => ?_, fun e' x hx id' hid' => ?_, fun e' x hx => ?_, fun e' x hx hresolved => ?_,
    fun p hp => ?_, fun e' hle => ?_, fun id' hle => ?_, h.known, fun id' => ?_⟩
  · obtain ⟨hne, htimer'⟩ := hother id' timer' htimer'
    obtain ⟨c, x, hc, hce, hx, hid, hdue⟩ := h.waiting id' timer' htimer'
    by_cases he : timer'.entry = timer.entry
    · cases (he ▸ hx).symm.trans hentry
      refine ⟨c, _, hc, hce, (congrArg _ he).trans (Function.update_self ..), ?_, hdue⟩
      rw [hids, List.mem_filter]
      exact ⟨hid, by simpa using hne⟩
    · exact ⟨c, x, hc, hce, (Function.update_of_ne he _ _).trans hx, hid, hdue⟩
  · rcases update_eq_some hx with ⟨rfl, rfl⟩ | ⟨hne, hx⟩
    · rw [hids, List.mem_filter] at hid'
      obtain ⟨due, hdue⟩ := h.listed _ entry hentry id' hid'.1
      exact ⟨due, (Function.update_of_ne (by simpa using hid'.2) _ b.timer).trans hdue⟩
    · obtain ⟨due, hdue⟩ := h.listed e' x hx id' hid'
      refine ⟨due, (Function.update_of_ne ?_ _ b.timer).trans hdue⟩
      rintro rfl
      cases hdue.symm.trans htimer
      exact hne rfl
  · rcases update_eq_some hx with ⟨rfl, rfl⟩ | ⟨-, hx⟩
    · rw [hids]
      exact (h.apart _ entry hentry).filter _
    · exact h.apart e' x hx
  · rcases update_eq_some hx with ⟨rfl, rfl⟩ | ⟨-, hx⟩
    · simp [h.emptied _ entry hentry hresolved]
    · exact h.emptied e' x hx hresolved
  · obtain ⟨x, hx, hhash, hopen⟩ := h.pending p hp
    by_cases he : p.2 = timer.entry
    · cases (he ▸ hx).symm.trans hentry
      exact ⟨_, (congrArg _ he).trans (Function.update_self ..), hhash, hopen⟩
    · exact ⟨x, (Function.update_of_ne he _ _).trans hx, hhash, hopen⟩
  · exact (Function.update_of_ne (h.ne_of_le hentry hle) _ _).trans (h.unmade e' hle)
  · simp only at hle
    have hne : id' ≠ id := by omega
    exact ⟨(Function.update_of_ne hne _ b.timer).trans (h.uncalled id' hle).1, (h.uncalled id' hle).2⟩
  · have hcount := h.settled id'
    rw [List.map_cons, List.count_cons, hcount]
    by_cases hid : id' = id
    · rw [hid]
      simp [htimer, hlt]
    · have hne : ¬ id = id' := fun heq => hid heq.symm
      simp [hid, hne]

theorem BooksOk.move (h : BooksOk b) (hmove : Move t X b b') : BooksOk b' := by
  cases hmove with
  | poll e entry entry' hentry hpolled => exact h.poll hentry hpolled
  | close e entry outcome hentry => exact h.close hentry
  | make entry hopen hwaiters => exact h.make hopen hwaiters
  | add e entry c deadline hentry hopen hcall hwait => exact h.add hentry hopen hcall hwait
  | answer => exact h.answer
  | fire id timer entry outcome htimer hentry => exact h.fire htimer hentry

theorem BooksOk.moves (h : BooksOk b) (hmoves : Moves t X b b') : BooksOk b' := by
  induction hmoves with
  | refl => exact h
  | tail _ hmove ih => exact ih.move hmove

/-! ## Who is rejected -/

theorem Bound.reached_mono {bound : Bound} {m n : Int} (h : bound.reached m = true) (hle : m ≤ n) :
    bound.reached n = true := by
  cases bound with
  | finite k =>
    simp only [Bound.reached, decide_eq_true_eq] at h ⊢
    omega
  | infinite => exact h

/-- Calls stay as they are, and entries with their budgets. -/
structure Frame (b b' : Books) : Prop where
  call : ∀ id c, b.call id = some c → b'.call id = some c
  entry : ∀ e entry, b.entry e = some entry → ∃ entry', b'.entry e = some entry' ∧
    entry'.deadline = entry.deadline ∧ entry'.options = entry.options ∧ entry.attempts ≤ entry'.attempts

theorem frame_update {v : PendingEntry} (hentry : b.entry e = some entry) (hdeadline : v.deadline = entry.deadline)
    (hoptions : v.options = entry.options) (hattempts : entry.attempts ≤ v.attempts) {e' : Nat} {x : PendingEntry}
    (hx : b.entry e' = some x) : ∃ x', Function.update b.entry e (some v) e' = some x' ∧
      x'.deadline = x.deadline ∧ x'.options = x.options ∧ x.attempts ≤ x'.attempts := by
  by_cases he : e' = e
  · cases (he ▸ hx).symm.trans hentry
    exact ⟨v, by rw [he, Function.update_self], hdeadline, hoptions, hattempts⟩
  · exact ⟨x, by rw [Function.update_of_ne he, hx], rfl, rfl, Nat.le_refl _⟩

theorem BooksOk.call_update (h : BooksOk b) {id : Nat} {c' : Call} (hc : b.call id = some c') :
    Function.update b.call b.called (some c) id = some c' := by
  have hne : id ≠ b.called := by
    rintro rfl
    cases (h.uncalled _ (Nat.le_refl _)).2.symm.trans hc
  exact (Function.update_of_ne hne _ _).trans hc

theorem Move.frame (h : BooksOk b) (hmove : Move t X b b') : Frame b b' := by
  cases hmove with
  | poll e entry entry' hentry hpolled =>
    exact ⟨fun _ _ hc => hc, fun e' x hx =>
      frame_update hentry hpolled.deadline hpolled.options hpolled.attempts hx⟩
  | close e entry outcome hentry =>
    refine ⟨fun _ _ hc => hc, fun e' x hx => frame_update hentry ?_ ?_ ?_ hx⟩
    all_goals simp
  | make entry =>
    refine ⟨fun _ _ hc => hc, fun e' x hx => ⟨x, ?_, rfl, rfl, Nat.le_refl _⟩⟩
    have hne : e' ≠ b.created := fun heq => h.ne_of_le hx (Nat.le_refl _) heq.symm
    exact (Function.update_of_ne hne _ _).trans hx
  | add e entry c deadline hentry =>
    refine ⟨fun _ _ hc => h.call_update hc, fun e' x hx => frame_update hentry ?_ ?_ ?_ hx⟩
    all_goals simp
  | answer => exact ⟨fun _ _ hc => h.call_update hc, fun e' x hx => ⟨x, hx, rfl, rfl, Nat.le_refl _⟩⟩
  | fire id timer entry outcome htimer hentry =>
    refine ⟨fun _ _ hc => hc, fun e' x hx => frame_update hentry ?_ ?_ ?_ hx⟩
    all_goals simp

/-- The caller was put on no entry, or on one that is there, and has nothing left if its budget is the smaller one. -/
def Rightly (b : Books) (t : Int) (id : Nat) : Prop :=
  ∃ c, b.call id = some c ∧ (∀ e, c.entry = some e → ∃ entry, b.entry e = some entry) ∧ (Fits b c → Exhausted b t c)

theorem Rightly.frame {id : Nat} (h : Rightly b t id) (hframe : Frame b b') : Rightly b' t id := by
  obtain ⟨c, hc, hentered, hlaw⟩ := h
  refine ⟨c, hframe.call id c hc, fun e he => ?_, fun hfits => ?_⟩
  · obtain ⟨entry, hentry⟩ := hentered e he
    obtain ⟨entry', hentry', -⟩ := hframe.entry e entry hentry
    exact ⟨entry', hentry'⟩
  have hfits' : Fits b c := by
    refine ⟨hfits.1, fun e entry he hentry => ?_⟩
    obtain ⟨entry', hentry', hdeadline, hoptions, -⟩ := hframe.entry e entry hentry
    rw [← hdeadline, ← hoptions]
    exact hfits.2 e entry' he hentry'
  refine (hlaw hfits').imp_right fun hreached => Bound.reached_mono hreached ?_
  unfold Books.polls
  cases he : c.entry with
  | none => rfl
  | some e =>
    obtain ⟨entry, hentry⟩ := hentered e he
    obtain ⟨entry', hentry', -, -, hattempts⟩ := hframe.entry e entry hentry
    simp only [Option.bind_some, hentry, hentry']
    omega

theorem setTimeoutDelay_of_fits {ms : Int} (hpos : 0 < ms) (hle : ms ≤ 2147483647) : setTimeoutDelay ms = ms :=
  if_pos ⟨hpos, hle⟩

/-- Whoever is on the list of an entry that is spent. -/
theorem BooksOk.rightly_of_spent (h : BooksOk b) (hentry : b.entry e = some entry) (hspent : entry.Spent t) {id : Nat}
    (hid : id ∈ entry.waiters.map Waiter.id) : Rightly b t id := by
  obtain ⟨due, hdue⟩ := h.listed e entry hentry id hid
  obtain ⟨c, x, hc, hce, hx, -⟩ := h.waiting id _ hdue
  refine ⟨c, hc, fun e' he' => ?_, fun hfits => ?_⟩
  · cases hce.symm.trans he'
    exact ⟨x, hx⟩
  obtain ⟨hdeadline, hcapped⟩ := hfits.2 e entry hce hentry
  rcases hspent with hlate | hreached
  · exact .inl (Int.le_trans hdeadline hlate)
  · refine .inr ?_
    cases hcap : entry.options.maxAttempts with
    | infinite =>
      rw [hcap] at hreached
      cases hreached
    | finite n =>
      obtain ⟨m, hm, hle⟩ := hcapped n hcap
      rw [hcap] at hreached
      unfold Books.polls
      simp only [Bound.reached, decide_eq_true_eq, hm, hce, Option.bind_some, hentry] at hreached ⊢
      omega

/-- A rejection is an old one, excused, or right. -/
theorem Move.rejects {id : Nat} {error : TransactionConfirmationTimeoutError} (h : BooksOk b) (hmove : Move t X b b')
    (hid : (id, .rejected error) ∈ b'.settlements) :
    (id, .rejected error) ∈ b.settlements ∨ X id ∨ Rightly b' t id := by
  have hframe := hmove.frame h
  cases hmove with
  | poll e entry entry' hentry hpolled => exact .inl hid
  | close e entry outcome hentry hwhy =>
    rcases List.mem_append.mp hid with hid | hid
    · obtain ⟨id', hid', heq⟩ := List.mem_map.mp hid
      obtain ⟨rfl, rfl⟩ := Prod.mk.injEq .. ▸ heq
      have hmem := List.mem_reverse.mp hid'
      rcases hwhy error rfl with hspent | hexcused
      · exact .inr (.inr ((h.rightly_of_spent hentry hspent hmem).frame hframe))
      · obtain ⟨w, hw, rfl⟩ := List.mem_map.mp hmem
        exact .inr (.inl (hexcused w hw))
    · exact .inl hid
  | make entry => exact .inl hid
  | add e entry c deadline hentry => exact .inl hid
  | answer c outcome hcall hwhy =>
    rcases List.mem_cons.mp hid with heq | hid
    · obtain ⟨rfl, rfl⟩ := Prod.mk.injEq .. ▸ heq
      have hnone : ∀ e, c.entry ≠ some e := fun e he => by cases hcall.symm.trans he
      rcases hwhy error rfl with hreached | hlate | hexcused
      · refine .inr (.inr ⟨c, Function.update_self .., fun e he => absurd he (hnone e), fun _ => .inr ?_⟩)
        unfold Books.polls
        rw [hcall]
        exact hreached
      · exact .inr (.inr ⟨c, Function.update_self .., fun e he => absurd he (hnone e), fun _ => .inl hlate⟩)
      · exact .inr (.inl hexcused)
    · exact .inl hid
  | fire id' timer entry outcome htimer hentry hdue =>
    rcases List.mem_cons.mp hid with heq | hid
    · obtain ⟨rfl, -⟩ := Prod.mk.injEq .. ▸ heq
      obtain ⟨c, x, hc, hce, hx, -, hdueAt, hpos⟩ := h.waiting _ timer htimer
      have hright : Rightly b t id := by
        refine ⟨c, hc, fun e' he' => ?_, fun hfits => .inl ?_⟩
        · cases hce.symm.trans he'
          exact ⟨x, hx⟩
        · rw [setTimeoutDelay_of_fits hpos hfits.1] at hdueAt
          omega
      exact .inr (.inr (hright.frame hframe))
    · exact .inl hid

theorem Moves.rejects {id : Nat} {error : TransactionConfirmationTimeoutError} (h : BooksOk b) (hmoves : Moves t X b b')
    (hid : (id, .rejected error) ∈ b'.settlements) :
    (id, .rejected error) ∈ b.settlements ∨ X id ∨ Rightly b' t id := by
  induction hmoves with
  | refl => exact .inl hid
  | tail hmoves hmove ih =>
    have hok := h.moves hmoves
    rcases hmove.rejects hok hid with hold | hnew
    · exact (ih hold).imp_right fun hnew => hnew.imp_right fun hright => hright.frame (hmove.frame hok)
    · exact .inr hnew

end

end ZkVote.ConfirmationQueue
