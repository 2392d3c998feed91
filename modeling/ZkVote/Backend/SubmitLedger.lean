import Mathlib.Logic.Relation
import Mathlib.Data.List.Nodup
import ZkVote.Backend.SerialSubmission

/-!
# The ledger of the submission queue

Where each submission is: waiting, awaited by the worker, or settled. An event makes a few moves.
-/

open Lib

namespace ZkVote.SubmitQueue

/-- Settled without its execute function having been called. -/
def Settlement.isDrop : Settlement → Bool
  | .rejected .queueTimeout | .rejected .shutdownTimeout => true
  | _ => false

structure Ledger where
  waiting : List Nat
  awaited : Option Nat
  started : List Nat
  settled : List (Nat × Settlement)
  enqueued : Nat
  closed : Bool

def Ledger.dropped (l : Ledger) : List Nat := (l.settled.filter fun e => e.2.isDrop).map Prod.fst

/-- Where a submission goes. -/
inductive Move : Ledger → Ledger → Prop
  | push (l : Ledger) (hopen : l.closed = false) :
      Move l { l with waiting := l.waiting ++ [l.enqueued], enqueued := l.enqueued + 1 }
  | skip (l : Ledger) (id : Nat) (rest : List Nat) (hopen : l.closed = false) (hwaiting : l.waiting = id :: rest) :
      Move l { l with waiting := rest, settled := (id, .rejected .queueTimeout) :: l.settled }
  | start (l : Ledger) (id : Nat) (rest : List Nat) (hopen : l.closed = false) (hwaiting : l.waiting = id :: rest)
      (hidle : l.awaited = none) :
      Move l { l with waiting := rest, awaited := some id, started := l.started ++ [id] }
  | settle (l : Ledger) (id : Nat) (outcome : Settlement) (hawaited : l.awaited = some id)
      (hdrop : outcome.isDrop = false) : Move l { l with awaited := none, settled := (id, outcome) :: l.settled }
  | close (l : Ledger) : Move l { l with closed := true }
  | drop (l : Ledger) (hclosed : l.closed = true) :
      Move l { l with
        waiting := []
        settled := l.waiting.reverse.map (fun id => (id, .rejected .shutdownTimeout)) ++ l.settled }

abbrev Moves : Ledger → Ledger → Prop := Relation.ReflTransGen Move

/-! ## What every move keeps -/

/-- Each submission is awaited, or waits, or is settled, and all that once. -/
def Placed (l : Ledger) : Prop :=
  (l.awaited.toList ++ l.waiting ++ l.settled.map Prod.fst).Perm (List.range l.enqueued)

/-- Each submission was started, or waits, or was dropped. -/
def Begun (l : Ledger) : Prop := (l.started ++ l.waiting ++ l.dropped).Perm (List.range l.enqueued)

section
variable {l l' l'' : Ledger}

theorem Placed.move (h : Placed l) (hmove : Move l l') : Placed l' := by
  unfold Placed at h ⊢
  cases hmove with
  | push =>
    rw [List.range_succ]
    refine List.Perm.trans ?_ (h.append_right [l.enqueued])
    simp only [List.append_assoc]
    exact ((List.perm_append_comm).append_left _).append_left _
  | skip id rest hopen hwaiting =>
    rw [hwaiting] at h
    refine List.Perm.trans ?_ h
    simp only [List.map_cons, List.append_assoc, List.cons_append]
    exact List.perm_middle.append_left _
  | start id rest hopen hwaiting hidle =>
    rw [hwaiting, hidle] at h
    exact h
  | settle id outcome hawaited =>
    rw [hawaited] at h
    refine List.Perm.trans ?_ h
    exact List.perm_middle
  | close => exact h
  | drop =>
    refine List.Perm.trans ?_ h
    rw [List.map_append, List.map_map, List.append_nil, List.append_assoc]
    refine List.Perm.append_left _ (List.Perm.append_right _ ?_)
    simp [Function.comp_def, List.reverse_perm]

theorem Begun.move (h : Begun l) (hmove : Move l l') : Begun l' := by
  unfold Begun at h ⊢
  cases hmove with
  | push =>
    rw [List.range_succ]
    refine List.Perm.trans ?_ (h.append_right [l.enqueued])
    simp only [List.append_assoc]
    exact ((List.perm_append_comm).append_left _).append_left _
  | skip id rest hopen hwaiting =>
    rw [hwaiting] at h
    refine List.Perm.trans ?_ h
    simp only [Ledger.dropped, List.append_assoc, List.cons_append]
    exact List.perm_middle.append_left _
  | start id rest hopen hwaiting hidle =>
    rw [hwaiting] at h
    simpa [Ledger.dropped] using h
  | settle id outcome hawaited hdrop =>
    simpa [Ledger.dropped, hdrop] using h
  | close => exact h
  | drop =>
    refine List.Perm.trans ?_ h
    simp only [Ledger.dropped, List.filter_append, List.map_append, List.append_nil, List.append_assoc]
    refine List.Perm.append_left _ (List.Perm.append_right _ ?_)
    simp [List.filter_map, Function.comp_def, Settlement.isDrop, List.reverse_perm]

theorem Placed.moves (h : Placed l) (hmoves : Moves l l') : Placed l' := by
  induction hmoves with
  | refl => exact h
  | tail _ hmove ih => exact ih.move hmove

theorem Begun.moves (h : Begun l) (hmoves : Moves l l') : Begun l' := by
  induction hmoves with
  | refl => exact h
  | tail _ hmove ih => exact ih.move hmove

/-- What can have become of a ledger since it was closed. -/
structure Frozen (l l' : Ledger) : Prop where
  closed : l'.closed = true
  started : l'.started = l.started
  enqueued : l'.enqueued = l.enqueued
  awaited : l'.awaited = l.awaited ∨ l'.awaited = none
  waiting : l.waiting = [] → l'.waiting = []

theorem Frozen.move (h : Frozen l l') (hmove : Move l' l'') : Frozen l l'' := by
  cases hmove with
  | push hopen => exact absurd (hopen.symm.trans h.closed) Bool.false_ne_true
  | skip _ _ hopen => exact absurd (hopen.symm.trans h.closed) Bool.false_ne_true
  | start _ _ hopen => exact absurd (hopen.symm.trans h.closed) Bool.false_ne_true
  | settle => exact ⟨h.closed, h.started, h.enqueued, .inr rfl, h.waiting⟩
  | close => exact ⟨rfl, h.started, h.enqueued, h.awaited, h.waiting⟩
  | drop => exact ⟨h.closed, h.started, h.enqueued, h.awaited, fun _ => rfl⟩

theorem Frozen.moves (h : Frozen l l') (hmoves : Moves l' l'') : Frozen l l'' := by
  induction hmoves with
  | refl => exact h
  | tail _ hmove ih => exact ih.move hmove

theorem Frozen.refl (h : l.closed = true) : Frozen l l := ⟨h, rfl, rfl, .inl rfl, fun h => h⟩

theorem Frozen.close (l : Ledger) : Frozen l { l with closed := true } := ⟨rfl, rfl, rfl, .inl rfl, fun h => h⟩

theorem Placed.count_settled {id : Nat} (h : Placed l) : (l.settled.map Prod.fst).count id ≤ 1 := by
  have hnodup : (l.awaited.toList ++ l.waiting ++ l.settled.map Prod.fst).Nodup := h.nodup_iff.mpr List.nodup_range
  exact List.nodup_iff_count_le_one.mp (List.nodup_append.mp hnodup).2.1 id

theorem Placed.count_settled_of_rest {id : Nat} (h : Placed l) (hawaited : l.awaited = none) (hwaiting : l.waiting = [])
    (hid : id < l.enqueued) : (l.settled.map Prod.fst).count id = 1 := by
  unfold Placed at h
  rw [hawaited, hwaiting] at h
  have hcount := h.count_eq id
  rw [List.count_eq_one_of_mem List.nodup_range (List.mem_range.mpr hid)] at hcount
  exact hcount

/-- All were started if and only if none waits and none was dropped. -/
theorem Begun.started_iff (h : Begun l) : (∀ id < l.enqueued, id ∈ l.started) ↔ l.waiting = [] ∧ l.dropped = [] := by
  have hnodup : (l.started ++ l.waiting ++ l.dropped).Nodup := h.nodup_iff.mpr List.nodup_range
  rw [List.append_assoc] at hnodup
  have hapart := (List.nodup_append.mp hnodup).2.2
  constructor
  · intro hall
    rw [← List.append_eq_nil_iff, List.eq_nil_iff_forall_not_mem]
    intro id hid
    have hmem : id ∈ l.started ++ l.waiting ++ l.dropped := by
      rw [List.append_assoc]
      exact List.mem_append_right _ hid
    exact hapart id (hall id (List.mem_range.mp (h.mem_iff.mp hmem))) id hid rfl
  · rintro ⟨hwaiting, hdropped⟩ id hid
    have hmem := h.mem_iff.mpr (List.mem_range.mpr hid)
    rwa [hwaiting, hdropped, List.append_nil, List.append_nil] at hmem

end

/-! ## The moves of an event -/

/-- The ledger of the queue, with what the loop of the worker has left to look at. -/
def QueueState.ledgerOf (s : QueueState) (queue : List Submission) : Ledger where
  waiting := queue.map Submission.id
  awaited := s.race.map fun r => r.submission.id
  started := s.started
  settled := s.settlements
  enqueued := s.enqueued
  closed := s.shutdownRequested

def QueueState.ledger (s : QueueState) : Ledger := s.ledgerOf s.queue

section
variable {s s' : QueueState} {clock : Nat → Int} {queue : List Submission} {maxDepth : Nat} {itemTimeoutMs : Int}

theorem processQueue_moves {l : Ledger} (hidle : s.race = none) (h : Moves l (s.ledgerOf queue)) :
    Moves l (processQueue clock queue s).ledger := by
  refine processQueue_rule (P := fun q s => s.race = none ∧ Moves l (s.ledgerOf q)) (Q := fun s => Moves l s.ledger)
    ?_ ?_ ?_ ⟨hidle, h⟩
  · rintro item q s hopen ⟨hidle, h⟩
    exact ⟨hidle, h.tail (.skip _ item.id _ hopen rfl)⟩
  · rintro q s - ⟨-, h⟩
    exact h
  · rintro item q s ms hopen ⟨hidle, h⟩
    exact h.tail (.start (s.ledgerOf (item :: q)) item.id _ hopen rfl (by simp [QueueState.ledgerOf, hidle]))

theorem resume_moves {q : QueueState} {r : Race} {outcome : Settlement} (hrace : s.race = some r)
    (hdrop : outcome.isDrop = false) (hledger : q.ledger = s.ledger) :
    Moves s.ledger (((q.settle r.submission.id outcome).goOn clock).ledger) := by
  refine processQueue_moves rfl ?_
  have hawaited : s.ledger.awaited = some r.submission.id := by simp [QueueState.ledger, QueueState.ledgerOf, hrace]
  have hmove := Move.settle s.ledger r.submission.id outcome hawaited hdrop
  rw [← hledger] at hmove ⊢
  exact .single hmove

theorem push_moves {timeoutMs : Option Int} {now : Int} (hopen : s.shutdownRequested = false) :
    Moves s.ledger (s.push timeoutMs now).ledger := by
  have hmove := Move.push s.ledger hopen
  have hqueue : (s.push timeoutMs now).queue.map Submission.id = s.ledger.waiting ++ [s.ledger.enqueued] := by
    simp [QueueState.push, QueueState.ledger, QueueState.ledgerOf]
  rw [← hqueue] at hmove
  exact .single hmove

theorem executeSettles_ledger {id : Nat} {result : Except String Unit} :
    (executeSettles s id result).ledger = s.ledger := by
  cases hrace : s.race with
  | none => simp [executeSettles, QueueState.ledger, QueueState.ledgerOf, hrace]
  | some r =>
    simp only [executeSettles, QueueState.ledger, QueueState.ledgerOf, hrace, Option.map_some]
    split <;> rfl

theorem step_moves {e : Event} (hwaits : Waits s) (hstep : Step s e s') : Moves s.ledger s'.ledger := by
  cases step_effect hstep with
  | pushed hopen => exact push_moves hopen
  | begun hopen hidle => exact processQueue_moves (hwaits.idle hidle) (push_moves hopen)
  | executed => rw [executeSettles_ledger]
  | @resumed _ r total outcome hrace _ houtcome =>
    have hdrop : outcome.isDrop = false := by
      rcases houtcome with rfl | ⟨message, rfl⟩
      · rfl
      · rfl
    exact resume_moves (q := { s with totalProcessed := total }) hrace hdrop rfl
  | overrun hrace => exact resume_moves hrace rfl rfl
  | closed => exact .single (.close _)
  | expired hclosed =>
    have hmove := Move.drop s.ledger hclosed
    have hdropped : s.ledger.waiting.reverse.map (fun id => (id, Settlement.rejected .shutdownTimeout)) =
        s.queue.reverse.map fun item => (item.id, Settlement.rejected .shutdownTimeout) := by
      simp [QueueState.ledger, QueueState.ledgerOf, ← List.map_reverse, Function.comp_def]
    rw [hdropped] at hmove
    exact .single hmove
  | _ => exact .refl

end

end ZkVote.SubmitQueue
