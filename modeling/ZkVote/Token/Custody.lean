import ZkVote.Token.Steps
import ZkVote.Token.Supply

/-!
# The token: custody of the shielded pool

A note is what `shield` has recorded, worth what was shielded with it. The
contract never sees how a nullifier comes from a note: `N` is that derivation.
-/

open Lib Lib.Outcome

namespace ZkVote.Token

def Call.shields (a : Address) : Call → Prop
  | .shield from_ .. => from_ = a
  | _ => False

def HasShielded (log : List (TokenState × Env × Call)) (a : Address) : Prop := ∃ e ∈ log, e.2.2.shields a

/-- An address that has shielded funds before has signed. -/
def DepositorSigned (past : List (TokenState × Env × Call)) (env : Env) : Prop :=
  ∃ a, env.auths a = true ∧ HasShielded past a

/-- The worth of a note that the call shields, if its nullifier is spent. -/
def Call.noteValue (N : BytesN 32 → BytesN 32) (spent : BytesN 32 → Prop) [DecidablePred spent] : Call → Int
  | .shield _ amount note_commitment => if spent (N note_commitment) then amount else 0
  | _ => 0

/-- The worth of the spent notes, each of them counted once. -/
def spentValue (N : BytesN 32 → BytesN 32) (spent : BytesN 32 → Prop) [DecidablePred spent]
    (log : List (TokenState × Env × Call)) : Int := (log.map fun e => e.2.2.noteValue N spent).sum

/-- What has left the pool. -/
def withdrawn (log : List (TokenState × Env × Call)) : Int := (log.map fun e => e.2.2.withdrawal).sum

/-- The last call, if it has lowered the pool, was signed by a depositor. -/
def WithdrawalSigned : List (TokenState × Env × Call) → TokenState → Prop
  | [], _ => True
  | (s, env, _) :: past, s' => s'.shielded_pool_balance < s.shielded_pool_balance → DepositorSigned past env

/-- What has left the pool is the worth of spent notes, and no nullifier was spent twice. -/
structure Custody (N : BytesN 32 → BytesN 32) (log : List (TokenState × Env × Call)) (s : TokenState) : Prop where
  signed : WithdrawalSigned log s
  once : withdrawn log ≤ spentValue N (fun n => s.nullifier_spent n = true) log
  nullifiers : (log.flatMap fun e => e.2.2.nullifiers).Nodup

/-- The nullifiers that are spent once the call has spent its own. -/
def SpentWith (s : TokenState) (call : Call) (n : BytesN 32) : Prop :=
  n ∈ call.nullifiers ∨ s.nullifier_spent n = true

instance (s : TokenState) (call : Call) : DecidablePred (SpentWith s call) :=
  fun _ => inferInstanceAs (Decidable (_ ∨ _))

/-- A withdrawal is signed by a depositor, and the spent notes pay for it. -/
def Paid (N : BytesN 32 → BytesN 32) (m : Moment TokenState (Env × Call)) : Prop :=
  0 < m.call.2.withdrawal → DepositorSigned m.past m.call.1 ∧
    withdrawn m.past + m.call.2.withdrawal ≤ spentValue N (SpentWith m.pre m.call.2) m.past

section
variable {X : TokenHost} {admin : Address} {N : BytesN 32 → BytesN 32} {log : List (TokenState × Env × Call)}
  {s s' : TokenState} {call : Env × Call}

theorem noteValue_nonneg (N : BytesN 32 → BytesN 32) (spent : BytesN 32 → Prop) [DecidablePred spent] {call : Call}
    (hdeposit : 0 ≤ call.deposit) : 0 ≤ call.noteValue N spent := by
  cases call with
  | shield from_ amount note_commitment =>
    simp only [Call.noteValue]
    split
    · exact hdeposit
    · exact le_rfl
  | _ => exact le_rfl

theorem noteValue_le {spent spent' : BytesN 32 → Prop} [DecidablePred spent] [DecidablePred spent']
    (hspent : ∀ n, spent n → spent' n) {call : Call} (hdeposit : 0 ≤ call.deposit) :
    call.noteValue N spent ≤ call.noteValue N spent' := by
  cases call with
  | shield from_ amount note_commitment =>
    simp only [Call.noteValue]
    by_cases h : spent (N note_commitment)
    · rw [if_pos h, if_pos (hspent _ h)]
    · rw [if_neg h]
      exact noteValue_nonneg N spent' hdeposit
  | _ => exact le_rfl

theorem noteValue_eq_zero {spent : BytesN 32 → Prop} [DecidablePred spent] {call : Call}
    (hwithdrawal : 0 < call.withdrawal) : call.noteValue N spent = 0 := by
  cases call with
  | shield => exact absurd hwithdrawal (lt_irrefl 0)
  | _ => rfl

theorem spentValue_le {spent spent' : BytesN 32 → Prop} [DecidablePred spent] [DecidablePred spent']
    (hspent : ∀ n, spent n → spent' n) (hdeposits : ∀ e ∈ log, 0 ≤ e.2.2.deposit) :
    spentValue N spent log ≤ spentValue N spent' log := by
  induction log with
  | nil => exact le_rfl
  | cons e log ih =>
    rw [List.forall_mem_cons] at hdeposits
    have hfirst : e.2.2.noteValue N spent ≤ e.2.2.noteValue N spent' := noteValue_le hspent hdeposits.1
    have hrest := ih hdeposits.2
    simp only [spentValue, List.map_cons, List.sum_cons] at hrest ⊢
    omega

theorem TokenRun.deposits (hrun : TokenRun X admin log s) : ∀ e ∈ log, 0 ≤ e.2.2.deposit := by
  refine Run.invariant_log (P := fun log _ => ∀ e ∈ log, 0 ≤ e.2.2.deposit) (by simp)
    (fun log s call s' _ ih h => ?_) hrun
  rw [List.forall_mem_cons]
  exact ⟨(step_flows h).deposit, ih⟩

theorem TokenRun.spent_iff (hrun : TokenRun X admin log s) (n : BytesN 32) :
    s.nullifier_spent n = true ↔ n ∈ log.flatMap fun e => e.2.2.nullifiers := by
  refine Run.invariant_log (P := fun log s => s.nullifier_spent n = true ↔ n ∈ log.flatMap fun e => e.2.2.nullifiers)
    (by simp [constructor]) (fun log s call s' _ ih h => ?_) hrun
  rw [(step_moves h).nullifiers.spent, ih, List.flatMap_cons, List.mem_append]

theorem TokenRun.nullifiers_nodup (hrun : TokenRun X admin log s) :
    (log.flatMap fun e => e.2.2.nullifiers).Nodup := by
  refine Run.invariant_log (P := fun log _ => (log.flatMap fun e => e.2.2.nullifiers).Nodup)
    (by simp) (fun log s call s' hrun ih h => ?_) hrun
  have hspends := (step_moves h).nullifiers
  rw [List.flatMap_cons, List.nodup_append]
  refine ⟨hspends.nodup, ih, fun n hn m hm hnm => ?_⟩
  have hstale := (TokenRun.spent_iff hrun m).mpr hm
  rw [← hnm, hspends.fresh n hn] at hstale
  cases hstale

theorem TokenRun.custody_cons_iff (hrun : TokenRun X admin log s) (hcustody : Custody N log s)
    (h : Accepts X s call s') : Custody N ((s, call) :: log) s' ↔ Paid N ⟨log, s, call, s'⟩ := by
  have hstep := step_moves h
  obtain ⟨hdeposit, hwithdrawal, hone, -⟩ := step_flows h
  have hpool := hstep.pool
  have hnodup := TokenRun.nullifiers_nodup (Run.call hrun h)
  have hspent (n : BytesN 32) : s'.nullifier_spent n = true ↔ SpentWith s call.2 n := hstep.nullifiers.spent n
  have honce : withdrawn ((s, call) :: log) ≤ spentValue N (fun n => s'.nullifier_spent n = true) ((s, call) :: log) ↔
      withdrawn log + call.2.withdrawal ≤ call.2.noteValue N (fun n => s'.nullifier_spent n = true) +
        spentValue N (SpentWith s call.2) log := by
    have hvalue : spentValue N (fun n => s'.nullifier_spent n = true) log = spentValue N (SpentWith s call.2) log :=
      le_antisymm (spentValue_le (fun n => (hspent n).mp) hrun.deposits)
        (spentValue_le (fun n => (hspent n).mpr) hrun.deposits)
    rw [← hvalue, add_comm (withdrawn log)]
    rfl
  by_cases hpays : 0 < call.2.withdrawal
  · rw [noteValue_eq_zero hpays, zero_add] at honce
    have hlowered : s'.shielded_pool_balance < s.shielded_pool_balance := by omega
    constructor
    · intro hnext _
      exact ⟨hnext.signed hlowered, honce.mp hnext.once⟩
    · intro hpaid
      obtain ⟨hsigned, hle⟩ := hpaid hpays
      exact ⟨fun _ => hsigned, honce.mpr hle, hnodup⟩
  · refine iff_of_true ⟨fun hlowered => ?_, honce.mpr ?_, hnodup⟩ (fun h => absurd h hpays)
    · omega
    · have hnote := noteValue_nonneg N (fun n => s'.nullifier_spent n = true) hdeposit
      have hmono : spentValue N (fun n => s.nullifier_spent n = true) log ≤ spentValue N (SpentWith s call.2) log :=
        spentValue_le (fun n hn => .inr hn) hrun.deposits
      have hbefore := hcustody.once
      omega

/-- In every run, the pool is only lowered with a depositor's signature and for spent notes, each of them once, if
and only if every withdrawal is signed by a depositor and paid for by notes that its call or an earlier one has
spent. -/
theorem custody_iff (hrun : TokenRun X admin log s) :
    (∀ t ∈ Run.prefixes log s, Custody N t.1 t.2) ↔ ∀ m ∈ Run.moments log s, Paid N m :=
  Run.forall_prefixes_iff_moments (P := fun log s => Custody N log s) ⟨trivial, le_rfl, List.nodup_nil⟩
    (fun _ _ _ _ hrun hcustody h => TokenRun.custody_cons_iff hrun hcustody h) hrun

end

/-- The depositor takes back the note, whose nullifier is the commitment itself. -/
theorem custody_iff_for_a_depositor : ∃ log s, TokenRun sampleHost 0 log s ∧
    ((∀ t ∈ Run.prefixes log s, Custody id t.1 t.2) ↔ ∀ m ∈ Run.moments log s, Paid id m) ∧
    s.shielded_pool_balance = 0 ∧ s.balance 5 = 100 := by
  obtain ⟨log, s, hrun, htest⟩ := exists_run (X := sampleHost) (a := 0)
    (shieldedCalls ++ [.unshield 5 40 (note 1) (note 2)])
    (fun _ s => decide (s.shielded_pool_balance = 0 ∧ s.balance 5 = 100)) (by decide +kernel)
  exact ⟨log, s, hrun, custody_iff hrun, of_decide_eq_true htest⟩

/-- Signed by nobody, with a nullifier of no note. -/
def unshieldAll : Env × Call := ({ sampleEnv with auths := fun _ => false }, .unshield 9 40 (note 7) (note 8))

theorem unshielded_by_a_stranger : ∃ log s s', TokenRun sampleHost 0 log s ∧ Accepts sampleHost s unshieldAll s' ∧
    s.shielded_pool_balance = 40 ∧ s'.shielded_pool_balance = 0 ∧ s'.balance 9 = 40 ∧
    ∀ N, ¬ ∀ t ∈ Run.prefixes ((s, unshieldAll) :: log) s', Custody N t.1 t.2 := by
  obtain ⟨log, s, hrun, htest⟩ := exists_run (X := sampleHost) (a := 0) shieldedCalls
    (fun _ s => decide (s.shielded_pool_balance = 40) && (next sampleHost s unshieldAll).any fun (s' : TokenState) =>
      decide (s'.shielded_pool_balance = 0 ∧ s'.balance 9 = 40)) (by decide +kernel)
  simp only [Bool.and_eq_true, decide_eq_true_eq, Option.any_eq_true] at htest
  obtain ⟨hbefore, s', hs, hafter, hreceived⟩ := htest
  refine ⟨log, s, s', hrun, toOption_eq_some.mp hs, hbefore, hafter, hreceived, fun N hcustody => ?_⟩
  have hlast : Custody N ((s, unshieldAll) :: log) s' := hcustody _ (Run.past_mem_prefixes _ _)
  have hlowered : s'.shielded_pool_balance < s.shielded_pool_balance := by omega
  obtain ⟨a, hauth, -⟩ := hlast.signed hlowered
  cases hauth

end ZkVote.Token
