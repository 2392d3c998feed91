import ZkVote.Lib.Quorum
import ZkVote.Lib.History
import ZkVote.Token.Allowances
import ZkVote.Token.Debits

/-!
# The token: clawbacks

The log says what was proposed under an id, who has approved it and whether it was executed. What
a stored proposal says agrees with it.
-/

open Lib Lib.Outcome

namespace ZkVote.Token

abbrev TokenMoment := Moment TokenState (Env × Call)

/-- The account and the amount that a call proposes under the id. -/
def Call.proposesClawback (s : TokenState) (id : Nat) : Call → Option (Address × Int)
  | .propose_clawback target amount _ => if s.clawback_proposal_count + 1 = id then some (target, amount) else none
  | _ => none

/-- What has been proposed under the id, the last one first. -/
def clawbacksProposed (id : Nat) (log : List (TokenState × Env × Call)) : List (Address × Int) :=
  log.filterMap fun e => e.2.2.proposesClawback e.1 id

/-- Whether the call makes an approval of the proposal: its own, or the one that comes with the proposal. -/
def Call.approves (s : TokenState) (id : Nat) : Call → Bool
  | .propose_clawback .. => decide (s.clawback_proposal_count + 1 = id)
  | .approve_clawback proposal_id => decide (proposal_id = id)
  | _ => false

def Call.executesClawback (id : Nat) : Call → Bool
  | .execute_clawback proposal_id => decide (proposal_id = id)
  | _ => false

/-- In a call of the log, the account has signed an approval of the proposal. -/
def Approved (log : List (TokenState × Env × Call)) (id : Nat) (a : Address) : Prop :=
  ∃ e ∈ log, e.2.2.approves e.1 id = true ∧ e.1.admin = a ∧ e.2.1.auths a = true

/-- One approval at least is required, and as many of the governors there are have approved. Nobody has executed the
proposal before. What was proposed is taken from the account that was named, and from the supply, and nothing else. -/
structure ByQuorum (m : TokenMoment) (id : Nat) : Prop where
  required : 1 ≤ m.pre.required_approvals
  quorum : ∃ governors : Finset Address, m.pre.required_approvals ≤ governors.card ∧
    ∀ a ∈ governors, a ∈ m.pre.governors ∧ Approved m.past id a
  first : ∀ e ∈ m.past, e.2.2.executesClawback id = false
  exactly : ∃ target amount, clawbacksProposed id m.past = [(target, amount)] ∧
    m.post.balance = Function.update m.pre.balance target (m.pre.balance target - amount) ∧
    m.post.total_supply = m.pre.total_supply - amount ∧
    m.post.shielded_pool_balance = m.pre.shielded_pool_balance

def ExecutedByQuorum (m : TokenMoment) : Prop := ∀ id, m.call.2.executesClawback id = true → ByQuorum m id

def isGovernor (s : TokenState) (a : Address) : Bool := decide (a ∈ s.governors)

/-- An approval is required, and there are approvals to spare for those that are no governors now. -/
def Spare (m : TokenMoment) : Prop :=
  ∀ id proposal, m.call.2.executesClawback id = true → m.pre.clawback_proposal id = some proposal →
    1 ≤ m.pre.required_approvals ∧
      lapsed proposal.approvals (isGovernor m.pre) + m.pre.required_approvals ≤ proposal.approvals.length

/-! ## The log and the stored proposals -/

/-- Nothing has been done under the id. -/
structure Untouched (log : List (TokenState × Env × Call)) (id : Nat) : Prop where
  proposed : clawbacksProposed id log = []
  approvals : ∀ e ∈ log, e.2.2.approves e.1 id = false
  executed : ∀ e ∈ log, e.2.2.executesClawback id = false

/-- What is stored under an id of the first `count` agrees with the log. -/
structure ClawbackLogged (log : List (TokenState × Env × Call)) (count id : Nat) (p : ClawbackProposal) : Prop where
  numbered : id ≤ count
  terms : clawbacksProposed id log = [(p.target, p.amount)]
  approvals : ∀ a, a ∈ p.approvals ↔ Approved log id a
  distinct : p.approvals.Nodup
  executed : p.executed = true ↔ ∃ e ∈ log, e.2.2.executesClawback id = true

def ClawbacksLogged (log : List (TokenState × Env × Call)) (s : TokenState) : Prop :=
  Records s.clawback_proposal (Untouched log) (ClawbackLogged log s.clawback_proposal_count)

/-- A call that does nothing under the id. -/
structure PassesBy (s : TokenState) (call : Call) (id : Nat) : Prop where
  proposed : call.proposesClawback s id = none
  approvals : call.approves s id = false
  executed : call.executesClawback id = false

/-! ## What the other calls leave -/

def Call.clawback : Call → Bool
  | .propose_clawback .. | .approve_clawback _ | .execute_clawback _ => true
  | _ => false

/-- A call that has to do with allowances. -/
def Call.allowing : Call → Bool
  | .allowance .. | .approve .. | .increase_allowance .. | .decrease_allowance .. | .transfer_from .. | .burn_from ..
  | .permit .. | .transfer_with_permit .. | .batch_approve .. => true
  | _ => false

structure SameClawbacks (s s' : TokenState) : Prop where
  proposal : s'.clawback_proposal = s.clawback_proposal
  count : s'.clawback_proposal_count = s.clawback_proposal_count
  history : s'.clawback_history_count = s.clawback_history_count
  period : s'.clawback_period_total = s.clawback_period_total

structure SameRecords (s s' : TokenState) : Prop extends SameClawbacks s s' where
  allowance : s'.allowance = s.allowance

section
variable {X : TokenHost} {env : Env} {s s' s'' : TokenState} {from_ to_ spender owner : Address} {amount : Int}
  {call : Call} {log : List (TokenState × Env × Call)} {id : Nat} {proposal : ClawbackProposal}

theorem SameClawbacks.refl : SameClawbacks s s := ⟨rfl, rfl, rfl, rfl⟩

theorem SameClawbacks.trans (h : SameClawbacks s s') (h' : SameClawbacks s' s'') : SameClawbacks s s'' :=
  ⟨h'.proposal.trans h.proposal, h'.count.trans h.count, h'.history.trans h.history, h'.period.trans h.period⟩

theorem SameRecords.of_eq (hproposal : s'.clawback_proposal = s.clawback_proposal)
    (hcount : s'.clawback_proposal_count = s.clawback_proposal_count)
    (hhistory : s'.clawback_history_count = s.clawback_history_count)
    (hperiod : s'.clawback_period_total = s.clawback_period_total) (hallowance : s'.allowance = s.allowance) :
    SameRecords s s' := ⟨⟨hproposal, hcount, hhistory, hperiod⟩, hallowance⟩

theorem SameRecords.refl : SameRecords s s := .of_eq rfl rfl rfl rfl rfl

theorem SameRecords.trans (h : SameRecords s s') (h' : SameRecords s' s'') : SameRecords s s'' :=
  ⟨h.toSameClawbacks.trans h'.toSameClawbacks, h'.allowance.trans h.allowance⟩

theorem receive_balance_same (h : receive_balance env s to_ amount = .ok s') : SameRecords s s' := by
  unfold receive_balance at h
  split at h
  · cases h
    exact .refl
  · simp at h
    obtain ⟨-, rfl⟩ := h
    exact .of_eq rfl rfl rfl rfl rfl

theorem spend_balance_same (h : spend_balance env s from_ amount = .ok s') : SameRecords s s' := by
  unfold spend_balance at h
  split at h
  · cases h
    exact .refl
  · simp at h
    obtain ⟨-, -, rfl⟩ := h
    exact .of_eq rfl rfl rfl rfl rfl

theorem xfer_same (h : xfer env s from_ to_ amount = .ok s') : SameRecords s s' := by
  obtain ⟨s₁, hspend, hreceive⟩ := bind_eq_ok.mp h
  exact (spend_balance_same hspend).trans (receive_balance_same hreceive)

theorem mint_balance_same (h : mint_balance env s to_ amount = .ok s') : SameRecords s s' := by
  obtain ⟨s₁, hreceive, hsupply⟩ := bind_eq_ok.mp h
  simp [increment_supply] at hsupply
  obtain ⟨-, -, rfl⟩ := hsupply
  exact (receive_balance_same hreceive).trans (.of_eq rfl rfl rfl rfl rfl)

theorem burn_balance_same (h : burn_balance env s from_ amount = .ok s') : SameRecords s s' := by
  obtain ⟨s₁, hspend, h⟩ := bind_eq_ok.mp h
  obtain ⟨s₂, hsupply, hrecord⟩ := bind_eq_ok.mp h
  simp [decrement_supply] at hsupply
  obtain ⟨-, -, -, rfl⟩ := hsupply
  simp [store_burn_record] at hrecord
  obtain ⟨-, rfl⟩ := hrecord
  exact (spend_balance_same hspend).trans (.of_eq rfl rfl rfl rfl rfl)

theorem for_each_same {α : Type} {f : TokenState → α → Outcome TokenError TokenState} {items : List α}
    (hf : ∀ s item s', f s item = .ok s' → SameRecords s s') (h : for_each f s items = .ok s') :
    SameRecords s s' :=
  for_each_induction (fun _ => .refl) (fun _ _ _ => .trans) (fun item _ s s' => hf s item s') h

theorem insert_commitment_same {commitment : BytesN 32} (h : insert_commitment s commitment = .ok s') :
    SameRecords s s' := by
  simp [insert_commitment] at h
  obtain ⟨-, rfl⟩ := h
  exact .of_eq rfl rfl rfl rfl rfl

theorem spend_nullifier_same {nullifier : BytesN 32} (h : spend_nullifier s nullifier = .ok s') :
    SameRecords s s' := by
  simp [spend_nullifier] at h
  obtain ⟨-, rfl⟩ := h
  exact .of_eq rfl rfl rfl rfl rfl

theorem pay_public_fee_same {public_fee : Int} (h : pay_public_fee s public_fee = .ok s') : SameRecords s s' := by
  unfold pay_public_fee at h
  split at h
  · simp at h
    obtain ⟨-, -, rfl⟩ := h
    exact .of_eq rfl rfl rfl rfl rfl
  · cases h
    exact .refl

/-- What only moves tokens, or sets other parameters, leaves allowances and clawbacks alone. -/
theorem step_records (h : step X s env call = .ok s') (hclawback : call.clawback = false)
    (hallowing : call.allowing = false) : SameRecords s s' := by
  unfold step at h
  cases call with
  | propose_clawback | approve_clawback | execute_clawback => cases hclawback
  | allowance | approve | increase_allowance | decrease_allowance | transfer_from | burn_from | permit
  | transfer_with_permit | batch_approve => cases hallowing
  | set_admin =>
    simp [set_admin] at h
    obtain ⟨-, rfl⟩ := h
    exact .of_eq rfl rfl rfl rfl rfl
  | set_checkpoint_retention =>
    simp [set_checkpoint_retention] at h
    obtain ⟨-, rfl⟩ := h
    exact .of_eq rfl rfl rfl rfl rfl
  | set_max_supply =>
    simp [set_max_supply] at h
    obtain ⟨-, -, rfl⟩ := h
    exact .of_eq rfl rfl rfl rfl rfl
  | transfer =>
    obtain ⟨_, -, h⟩ := bind_eq_ok.mp h
    obtain ⟨_, -, h⟩ := bind_eq_ok.mp h
    exact xfer_same h
  | burn =>
    obtain ⟨_, -, h⟩ := bind_eq_ok.mp h
    obtain ⟨_, -, h⟩ := bind_eq_ok.mp h
    exact burn_balance_same h
  | mint =>
    obtain ⟨_, -, h⟩ := bind_eq_ok.mp h
    obtain ⟨_, -, h⟩ := bind_eq_ok.mp h
    obtain ⟨_, -, h⟩ := bind_eq_ok.mp h
    exact mint_balance_same h
  | set_governors =>
    simp [set_governors] at h
    obtain ⟨-, -, rfl⟩ := h
    exact .of_eq rfl rfl rfl rfl rfl
  | set_clawback_period_limit =>
    simp [set_clawback_period_limit] at h
    obtain ⟨-, rfl⟩ := h
    exact .of_eq rfl rfl rfl rfl rfl
  | delegate =>
    simp [Token.delegate] at h
    obtain ⟨-, -, rfl⟩ := h
    exact .of_eq rfl rfl rfl rfl rfl
  | undelegate =>
    simp [undelegate] at h
    obtain ⟨-, rfl⟩ := h
    exact .of_eq rfl rfl rfl rfl rfl
  | batch_transfer =>
    simp only [batch_transfer, bind_eq_ok] at h
    obtain ⟨_, -, _, -, _, -, _, -, hloop⟩ := h
    exact for_each_same (fun _ _ _ => xfer_same) hloop
  | batch_mint =>
    simp only [batch_mint, bind_eq_ok] at h
    obtain ⟨_, -, _, -, _, -, _, -, hloop⟩ := h
    exact for_each_same (fun _ _ _ => mint_balance_same) hloop
  | shield =>
    simp only [shield, bind_eq_ok] at h
    obtain ⟨_, -, _, -, _, -, s₁, hspend, pool, -, hinsert⟩ := h
    have hpool : SameRecords s₁ { s₁ with shielded_pool_balance := pool } := .of_eq rfl rfl rfl rfl rfl
    exact ((spend_balance_same hspend).trans hpool).trans (insert_commitment_same hinsert)
  | transfer_shielded =>
    simp only [transfer_shielded, bind_eq_ok] at h
    obtain ⟨_, -, s₁, hspend, s₂, hinsert, hfee⟩ := h
    exact (for_each_same (fun _ _ _ => spend_nullifier_same) hspend).trans
      ((for_each_same (fun _ _ _ => insert_commitment_same) hinsert).trans (pay_public_fee_same hfee))
  | unshield =>
    simp only [unshield, bind_eq_ok] at h
    obtain ⟨_, -, _, -, s₁, hspend, s₂, hinsert, pool, -, hreceive⟩ := h
    have hpool : SameRecords s₂ { s₂ with shielded_pool_balance := pool } := .of_eq rfl rfl rfl rfl rfl
    exact (spend_nullifier_same hspend).trans
      ((insert_commitment_same hinsert).trans (hpool.trans (receive_balance_same hreceive)))

theorem spend_allowance_same (h : spend_allowance env s from_ spender amount = .ok s') : SameClawbacks s s' := by
  simp [spend_allowance] at h
  obtain ⟨-, -, rfl⟩ := h
  rw [write_allowance_entry, read_allowance_snd]
  exact ⟨rfl, rfl, rfl, rfl⟩

theorem permit_same {deadline : Nat} {signature : BytesN 64}
    (h : permit X env s owner spender amount deadline signature = .ok s') : SameClawbacks s s' := by
  simp [permit, increment_nonce, read_allowance_amount_eq, write_allowance_entry] at h
  obtain ⟨-, -, -, -, -, -, -, -, -, rfl⟩ := h
  exact ⟨rfl, rfl, rfl, rfl⟩

theorem step_same (h : step X s env call = .ok s') (hcall : call.clawback = false) : SameClawbacks s s' := by
  have hstep := h
  unfold step at h
  cases call with
  | propose_clawback | approve_clawback | execute_clawback => cases hcall
  | allowance =>
    simp [Token.allowance, read_allowance_amount_eq] at h
    subst h
    exact ⟨rfl, rfl, rfl, rfl⟩
  | approve =>
    obtain ⟨-, -, rfl⟩ := approve_eq_ok.mp h
    exact ⟨rfl, rfl, rfl, rfl⟩
  | increase_allowance =>
    simp [increase_allowance, read_allowance_snd, write_allowance_entry] at h
    obtain ⟨-, -, -, rfl⟩ := h
    exact ⟨rfl, rfl, rfl, rfl⟩
  | decrease_allowance =>
    simp [decrease_allowance, read_allowance_snd, write_allowance_entry] at h
    obtain ⟨-, -, _, -, rfl⟩ := h
    exact ⟨rfl, rfl, rfl, rfl⟩
  | transfer_from =>
    obtain ⟨_, -, h⟩ := bind_eq_ok.mp h
    obtain ⟨_, -, h⟩ := bind_eq_ok.mp h
    obtain ⟨s₁, hspend, h⟩ := bind_eq_ok.mp h
    exact (spend_allowance_same hspend).trans (xfer_same h).toSameClawbacks
  | burn_from =>
    obtain ⟨_, -, h⟩ := bind_eq_ok.mp h
    obtain ⟨_, -, h⟩ := bind_eq_ok.mp h
    obtain ⟨s₁, hspend, h⟩ := bind_eq_ok.mp h
    exact (spend_allowance_same hspend).trans (burn_balance_same h).toSameClawbacks
  | permit => exact permit_same h
  | transfer_with_permit =>
    obtain ⟨s₁, hpermit, h⟩ := bind_eq_ok.mp h
    obtain ⟨s₂, hspend, h⟩ := bind_eq_ok.mp h
    exact (permit_same hpermit).trans ((spend_allowance_same hspend).trans (xfer_same h).toSameClawbacks)
  | batch_approve =>
    simp only [batch_approve, bind_eq_ok] at h
    obtain ⟨_, -, _, -, s₁, hchecks, hwrites⟩ := h
    have hloop {f : TokenState → Approval → Outcome TokenError TokenState} {approvals : List Approval}
        {s s' : TokenState} (hf : ∀ s t s', f s t = .ok s' → SameClawbacks s s') (h : for_each f s approvals = .ok s') :
        SameClawbacks s s' :=
      for_each_induction (fun _ => .refl) (fun _ _ _ => .trans) (fun item _ s s' => hf s item s') h
    refine (hloop (fun s t s' h => ?_) hchecks).trans (hloop (fun s t s' h => ?_) hwrites)
    · obtain ⟨-, -, rfl⟩ := check_approval_eq_ok.mp h
      exact ⟨rfl, rfl, rfl, rfl⟩
    · cases h
      rw [write_allowance_entry]
      exact ⟨rfl, rfl, rfl, rfl⟩
  | _ => exact (step_records hstep rfl rfl).toSameClawbacks

/-! ## What the log says of one id -/

theorem approved_cons {a : Address} : Approved ((s, env, call) :: log) id a ↔
    (call.approves s id = true ∧ s.admin = a ∧ env.auths a = true) ∨ Approved log id a := by
  simp [Approved]

theorem PassesBy.proposed_cons (h : PassesBy s call id) :
    clawbacksProposed id ((s, env, call) :: log) = clawbacksProposed id log := List.filterMap_cons_none h.proposed

theorem passesBy_of_other (h : call.clawback = false) : PassesBy s call id := by
  cases call with
  | propose_clawback | approve_clawback | execute_clawback => cases h
  | _ => exact ⟨rfl, rfl, rfl⟩

theorem PassesBy.untouched (h : PassesBy s call id) (hlog : Untouched log id) :
    Untouched ((s, env, call) :: log) id where
  proposed := h.proposed_cons.trans hlog.proposed
  approvals := List.forall_mem_cons.mpr ⟨h.approvals, hlog.approvals⟩
  executed := List.forall_mem_cons.mpr ⟨h.executed, hlog.executed⟩

theorem PassesBy.logged {count count' : Nat} (h : PassesBy s call id)
    (hlog : ClawbackLogged log count id proposal) (hcount : count ≤ count') :
    ClawbackLogged ((s, env, call) :: log) count' id proposal where
  numbered := hlog.numbered.trans hcount
  terms := h.proposed_cons.trans hlog.terms
  approvals a := by
    rw [hlog.approvals, approved_cons, h.approvals]
    simp
  distinct := hlog.distinct
  executed := by
    rw [hlog.executed]
    simp [h.executed]

theorem ClawbacksLogged.of_other (h : ClawbacksLogged log s) (hs : Token.step X s env call = .ok s')
    (hcall : call.clawback = false) : ClawbacksLogged ((s, env, call) :: log) s' := by
  have hsame := step_same hs hcall
  have hpasses (id : Nat) : PassesBy s call id := passesBy_of_other hcall
  unfold ClawbacksLogged
  rw [hsame.proposal, hsame.count]
  exact Records.mono h (fun id => (hpasses id).untouched) fun id p hp => (hpasses id).logged hp le_rfl

theorem ClawbacksLogged.of_update (h : ClawbacksLogged log s)
    (hproposals : s'.clawback_proposal = Function.update s.clawback_proposal id (some proposal))
    (hcount : s.clawback_proposal_count ≤ s'.clawback_proposal_count)
    (hpasses : ∀ id', id' ≠ id → PassesBy s call id')
    (hlogged : ClawbackLogged ((s, env, call) :: log) s'.clawback_proposal_count id proposal) :
    ClawbacksLogged ((s, env, call) :: log) s' := by
  unfold ClawbacksLogged
  rw [hproposals]
  exact Records.update h hlogged (fun id' hne => (hpasses id' hne).untouched)
    fun id' hne p hp => (hpasses id' hne).logged hp hcount

/-! ## Proposals, approvals and executions -/

/-- All that an accepted proposal does. -/
structure ClawbackProposed (env : Env) (s s' : TokenState) (target : Address) (amount : Int) (p : ClawbackProposal) :
    Prop where
  signed : env.auths s.admin = true
  terms : (p.target, p.amount) = (target, amount)
  positive : 0 < amount
  approvals : p.approvals = [s.admin]
  fresh : p.executed = false
  fits : s.clawback_proposal_count + 1 < 2 ^ 32
  post : s' = { s with
    clawback_proposal := Function.update s.clawback_proposal (s.clawback_proposal_count + 1) (some p)
    clawback_proposal_count := s.clawback_proposal_count + 1 }

theorem propose_clawback_proposed {target : Address} {reason : Bytes}
    (h : step X s env (.propose_clawback target amount reason) = .ok s') :
    ∃ p, ClawbackProposed env s s' target amount p := by
  simp [step, propose_clawback] at h
  obtain ⟨hsigned, hpositive, hfits, rfl⟩ := h
  exact ⟨_, hsigned, rfl, hpositive, rfl, rfl, hfits, rfl⟩

/-- All that an accepted approval does. -/
structure ClawbackApproved (env : Env) (s s' : TokenState) (id : Nat) (p : ClawbackProposal) : Prop where
  signed : env.auths s.admin = true
  found : s.clawback_proposal id = some p
  fresh : p.executed = false
  governor : s.admin ∈ s.governors
  new : s.admin ∉ p.approvals
  post : s' = { s with
    clawback_proposal :=
      Function.update s.clawback_proposal id (some { p with approvals := p.approvals ++ [s.admin] }) }

theorem approve_clawback_approved (h : approve_clawback env s id = .ok s') :
    ∃ p, ClawbackApproved env s s' id p := by
  simp [approve_clawback] at h
  obtain ⟨hsigned, p, hfound, hfresh, hgovernor, hnew, rfl⟩ := h
  exact ⟨p, hsigned, hfound, hfresh, hgovernor, hnew, rfl⟩

/-- All that an accepted execution says, and what it does to the clawbacks, the balances and the supply. -/
structure ClawbackDone (env : Env) (s s' : TokenState) (id : Nat) (p : ClawbackProposal) : Prop where
  found : s.clawback_proposal id = some p
  fresh : p.executed = false
  counted : s.required_approvals ≤ p.approvals.length
  balance : s'.balance = Function.update s.balance p.target (s.balance p.target - p.amount)
  total_supply : s'.total_supply = s.total_supply - p.amount
  total_burned : s'.total_burned = s.total_burned + p.amount
  pool : s'.shielded_pool_balance = s.shielded_pool_balance
  proposal : s'.clawback_proposal = Function.update s.clawback_proposal id (some { p with executed := true })
  count : s'.clawback_proposal_count = s.clawback_proposal_count
  history : s'.clawback_history_count = s.clawback_history_count + 1
  period : s'.clawback_period_total = (get_clawback_period_total env s).1 + p.amount

theorem spend_balance_eq (h : spend_balance env s from_ amount = .ok s') : ∃ checkpoints, s' = { s with
    balance := Function.update s.balance from_ (s.balance from_ - amount), checkpoints := checkpoints } := by
  unfold spend_balance at h
  split at h
  · rename_i h0
    cases h
    refine ⟨s.checkpoints, ?_⟩
    rw [h0, sub_zero, Function.update_eq_self]
  · simp at h
    obtain ⟨-, -, rfl⟩ := h
    exact ⟨_, rfl⟩

theorem execute_clawback_done (h : execute_clawback env s id = .ok s') : ∃ p, ClawbackDone env s s' id p := by
  obtain ⟨total, start, hperiod⟩ : ∃ total start, (get_clawback_period_total env s).2 =
    { s with clawback_period_total := total, clawback_period_start := start } := get_clawback_period_total_eq
  simp only [execute_clawback, bind_eq_ok, require_eq_ok, orPanic_eq_ok, pure_eq_ok, i128_eq_ok, checkedAdd_eq_some,
    store_clawback_record] at h
  obtain ⟨-, -, p, hfound, -, hfresh, -, hcounted, -, -, _, ⟨-, rfl⟩, -, -, s₁, hspend, s₂, hburn, _, ⟨-, rfl⟩, rfl⟩ := h
  rw [hperiod] at hspend
  obtain ⟨checkpoints, rfl⟩ := spend_balance_eq hspend
  simp [decrement_supply] at hburn
  obtain ⟨-, -, -, rfl⟩ := hburn
  exact ⟨p, hfound, hfresh, Nat.le_of_not_lt hcounted, rfl, rfl, rfl, rfl, rfl, rfl, rfl, rfl⟩

theorem ClawbacksLogged.step (h : ClawbacksLogged log s) (hs : Token.step X s env call = .ok s') :
    ClawbacksLogged ((s, env, call) :: log) s' := by
  cases call with
  | propose_clawback target amount reason =>
    obtain ⟨p, hproposed⟩ := propose_clawback_proposed hs
    obtain ⟨htarget, hamount⟩ := Prod.mk.inj hproposed.terms
    obtain rfl := hproposed.post
    have hnone : s.clawback_proposal (s.clawback_proposal_count + 1) = none := by
      by_contra hne
      obtain ⟨p', hp'⟩ := Option.ne_none_iff_exists'.mp hne
      exact absurd (h.logged _ p' hp').numbered (Nat.not_succ_le_self _)
    have habsent := h.absent _ hnone
    refine h.of_update rfl (Nat.le_succ _) (fun id hne => ⟨if_neg hne.symm, decide_eq_false hne.symm, rfl⟩)
      ⟨le_rfl, ?_, fun a => ?_, ?_, ?_⟩
    · rw [htarget, hamount, ← habsent.proposed]
      exact List.filterMap_cons_some (if_pos rfl)
    · have hpast : ¬ Approved log (s.clawback_proposal_count + 1) a := by
        rintro ⟨e, he, happroves, -⟩
        rw [habsent.approvals e he] at happroves
        cases happroves
      rw [approved_cons, hproposed.approvals, List.mem_singleton]
      constructor
      · rintro rfl
        exact .inl ⟨decide_eq_true rfl, rfl, hproposed.signed⟩
      · rintro (⟨-, rfl, -⟩ | happroved)
        · rfl
        · exact absurd happroved hpast
    · rw [hproposed.approvals]
      exact List.nodup_singleton _
    · rw [hproposed.fresh]
      refine iff_of_false nofun ?_
      rintro ⟨e, he, hexecutes⟩
      rcases List.mem_cons.mp he with rfl | he
      · cases hexecutes
      · rw [habsent.executed e he] at hexecutes
        cases hexecutes
  | approve_clawback id =>
    obtain ⟨p, happroved⟩ := approve_clawback_approved hs
    obtain rfl := happroved.post
    have hlogged := h.logged id p happroved.found
    refine h.of_update rfl le_rfl (fun id' hne => ⟨rfl, decide_eq_false hne.symm, rfl⟩)
      ⟨hlogged.numbered, hlogged.terms, fun a => ?_, ?_, ?_⟩
    · rw [approved_cons, List.mem_append, List.mem_singleton, hlogged.approvals, or_comm]
      refine or_congr_left ?_
      constructor
      · rintro rfl
        exact ⟨decide_eq_true rfl, rfl, happroved.signed⟩
      · rintro ⟨-, rfl, -⟩
        rfl
    · exact hlogged.distinct.append (List.nodup_singleton _) (by simpa using happroved.new)
    · rw [hlogged.executed]
      simp [Call.executesClawback]
  | execute_clawback id =>
    obtain ⟨p, hdone⟩ := execute_clawback_done hs
    have hlogged := h.logged id p hdone.found
    refine h.of_update hdone.proposal hdone.count.ge (fun id' hne => ⟨rfl, rfl, decide_eq_false hne.symm⟩)
      ⟨hlogged.numbered.trans hdone.count.ge, hlogged.terms, fun a => ?_, hlogged.distinct, ?_⟩
    · rw [approved_cons, hlogged.approvals]
      simp [Call.approves]
    · exact iff_of_true rfl ⟨_, List.mem_cons_self, decide_eq_true rfl⟩
  | _ => exact h.of_other hs rfl

theorem TokenRun.clawbacksLogged {admin : Address} (hrun : TokenRun X admin log s) : ClawbacksLogged log s := by
  refine Run.invariant_log (P := ClawbacksLogged) ?_ (fun _ _ _ _ _ h hs => h.step hs) hrun
  exact Records.empty fun _ => ⟨rfl, List.forall_mem_nil _, List.forall_mem_nil _⟩

/-! ## Executions -/

/-- Enough approvals to spare, and enough governors who have approved, are the same. -/
theorem quorum_of_log_iff {count : Nat} (h : ClawbackLogged log count id proposal) (n : Nat) :
    (∃ governors : Finset Address, n ≤ governors.card ∧ ∀ a ∈ governors, a ∈ s.governors ∧ Approved log id a) ↔
      lapsed proposal.approvals (isGovernor s) + n ≤ proposal.approvals.length := by
  rw [← quorum_iff h.distinct]
  constructor
  · rintro ⟨governors, hn, hall⟩
    refine hn.trans (Finset.card_le_card fun a ha => ?_)
    rw [mem_backers, h.approvals, isGovernor, decide_eq_true_eq]
    exact (hall a ha).symm
  · intro hn
    refine ⟨_, hn, fun a ha => ?_⟩
    rw [mem_backers, h.approvals, isGovernor, decide_eq_true_eq] at ha
    exact ha.symm

theorem byQuorum_iff {admin : Address} (hrun : TokenRun X admin log s) (hdone : ClawbackDone env s s' id proposal) :
    ByQuorum ⟨log, s, (env, call), s'⟩ id ↔ 1 ≤ s.required_approvals ∧
      lapsed proposal.approvals (isGovernor s) + s.required_approvals ≤ proposal.approvals.length := by
  have hlogged := hrun.clawbacksLogged.logged id proposal hdone.found
  rw [← quorum_of_log_iff hlogged]
  constructor
  · intro hquorum
    exact ⟨hquorum.required, hquorum.quorum⟩
  · rintro ⟨hrequired, hquorum⟩
    refine ⟨hrequired, hquorum, fun e he => ?_, proposal.target, proposal.amount, hlogged.terms, hdone.balance,
      hdone.total_supply, hdone.pool⟩
    by_contra hagain
    have hexecuted := hlogged.executed.mpr ⟨e, he, Bool.not_eq_false _ ▸ hagain⟩
    rw [hdone.fresh] at hexecuted
    cases hexecuted

theorem executedByQuorum_iff {admin : Address} (hrun : TokenRun X admin log s)
    (h : Token.step X s env call = .ok s') :
    ExecutedByQuorum ⟨log, s, (env, call), s'⟩ ↔ Spare ⟨log, s, (env, call), s'⟩ := by
  by_cases hcall : ∃ id, call.executesClawback id = true
  · obtain ⟨id, hcall⟩ := hcall
    cases call with
    | execute_clawback id' =>
      obtain rfl := of_decide_eq_true hcall
      obtain ⟨p, hdone⟩ := execute_clawback_done h
      have hiff : ByQuorum ⟨log, s, (env, .execute_clawback id'), s'⟩ id' ↔ _ := byQuorum_iff hrun hdone
      constructor
      · intro hquorum id p₁ hcall hp
        obtain rfl := of_decide_eq_true hcall
        obtain rfl := Option.some.inj (hdone.found.symm.trans hp)
        exact hiff.mp (hquorum _ hcall)
      · intro hspare id hcall
        obtain rfl := of_decide_eq_true hcall
        exact hiff.mpr (hspare _ p hcall hdone.found)
    | _ => cases hcall
  · exact iff_of_true (fun id he => absurd ⟨id, he⟩ hcall) fun id _ he => absurd ⟨id, he⟩ hcall

/-- In every run, clawbacks are executed once, as proposed, and by a quorum of the governors there are, if and only
if each execution finds an approval required and approvals to spare for those that are no governors. -/
theorem clawbacks_by_quorum_iff {admin : Address} (hrun : TokenRun X admin log s) :
    (∀ m ∈ Run.moments log s, ExecutedByQuorum m) ↔ ∀ m ∈ Run.moments log s, Spare m :=
  Run.forall_moments_iff (fun _ _ _ _ hrun h => executedByQuorum_iff hrun h) hrun

end

/-! ## A clawback that no governor has approved -/

theorem clawbacks_by_quorum_iff_for_one_clawback : ∃ log s, TokenRun sampleHost 0 log s ∧
    ((∀ m ∈ Run.moments log s, ExecutedByQuorum m) ↔ ∀ m ∈ Run.moments log s, Spare m) ∧ s.balance 5 = 60 := by
  obtain ⟨log, s, hrun, htest⟩ := exists_run_at (X := sampleHost) (a := 0)
    [(sampleEnv, .set_governors [0, 7] 1), (sampleEnv, .mint 5 100), (sampleEnv, .propose_clawback 5 40 []), executeAlone]
    (fun _ s => decide (s.balance 5 = 60)) (by decide +kernel)
  exact ⟨log, s, hrun, clawbacks_by_quorum_iff hrun, of_decide_eq_true htest⟩

/-- The admin, who is no governor, has proposed it, and executes it alone. -/
theorem clawback_without_a_governor : ∃ log s s', TokenRun sampleHost 0 log s ∧
    Accepts sampleHost s executeAlone s' ∧ s.governors = [7, 8] ∧ s.required_approvals = 1 ∧
    s.balance 5 = 100 ∧ s'.balance 5 = 60 ∧ ¬ ExecutedByQuorum ⟨log, s, executeAlone, s'⟩ := by
  obtain ⟨log, s, hrun, htest⟩ := exists_run (X := sampleHost) (a := 0) clawbackCalls
    (fun _ s => losesToClawback s) (by decide +kernel)
  simp only [losesToClawback, Bool.and_eq_true, Option.any_eq_true, beq_iff_eq, decide_eq_true_eq] at htest
  obtain ⟨⟨⟨⟨hgovernors, hrequired, hbefore⟩, p, hfound, ⟨-, -⟩, happrovals⟩, -⟩, s', hs, hafter⟩ := htest
  have haccepted : Accepts sampleHost s executeAlone s' := toOption_eq_some.mp hs
  refine ⟨log, s, s', hrun, haccepted, hgovernors, hrequired, hbefore, hafter, fun hquorum => ?_⟩
  have hspare := ((executedByQuorum_iff hrun haccepted).mp hquorum 1 p rfl hfound).2
  have hgovernor : isGovernor s 0 = false := by
    rw [isGovernor, hgovernors]
    decide
  rw [happrovals, hrequired, lapsed] at hspare
  simp [hgovernor] at hspare

end ZkVote.Token
