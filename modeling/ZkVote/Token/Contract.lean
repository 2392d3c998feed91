import ZkVote.Lib.Runs
import ZkVote.Token.State

/-! # The token: entry points -/

open Lib Lib.Outcome

namespace ZkVote.Token

/-- A checked operation on `i128`. -/
def i128 (a : Int) : Outcome TokenError Int := orPanic (checkedInt 128 a) .Overflow

/-- The same with the operator, which traps. -/
def i128_op (a : Int) : Outcome TokenError Int := expect (checkedInt 128 a)

/-! ## Allowances -/

/-- An expired entry is removed by the read. -/
def read_allowance (env : Env) (s : TokenState) (from_ spender : Address) : (Int × Nat) × TokenState :=
  match s.allowance (from_, spender) with
  | some (amount, expiration_ledger) =>
    if env.sequence ≤ expiration_ledger then ((amount, expiration_ledger), s)
    else ((0, 0), { s with allowance := Function.update s.allowance (from_, spender) none })
  | none => ((0, 0), s)

def read_allowance_amount (env : Env) (s : TokenState) (from_ spender : Address) : Int × TokenState :=
  let (a, s) := read_allowance env s from_ spender
  (a.1, s)

def write_allowance (s : TokenState) (from_ spender : Address) (amount : Int) (expiration_ledger : Nat) :
    TokenState :=
  if amount = 0 ∧ expiration_ledger = 0 then
    { s with allowance := Function.update s.allowance (from_, spender) none }
  else
    { s with
      allowance := Function.update s.allowance (from_, spender) (some (amount, expiration_ledger)) }

/-! ## Balances -/

/-- A second change in one ledger overwrites the first. Then the oldest are dropped, if there are too many. -/
def push_checkpoint (env : Env) (retention : Nat) (checkpoints : List Checkpoint) (balance : Int) :
    List Checkpoint :=
  let new : Checkpoint := { ledger_sequence := env.sequence, balance := balance }
  if checkpoints.getLast?.any (fun last => last.ledger_sequence = env.sequence) = true then
    checkpoints.dropLast ++ [new]
  else
    let checkpoints := checkpoints ++ [new]
    if 0 < retention ∧ retention < checkpoints.length then
      checkpoints.drop (checkpoints.length - retention)
    else checkpoints

def create_checkpoint (env : Env) (s : TokenState) (address : Address) (balance : Int) : TokenState :=
  let pushed := push_checkpoint env s.checkpoint_retention (s.checkpoints address) balance
  { s with checkpoints := Function.update s.checkpoints address pushed }

def receive_balance (env : Env) (s : TokenState) (to_ : Address) (amount : Int) :
    Outcome TokenError TokenState :=
  if amount = 0 then return s
  else do
    let new ← i128 (s.balance to_ + amount)
    return create_checkpoint env { s with balance := Function.update s.balance to_ new } to_ new

def spend_balance (env : Env) (s : TokenState) (from_ : Address) (amount : Int) :
    Outcome TokenError TokenState :=
  if amount = 0 then return s
  else do
    let current := s.balance from_
    require (¬ current < amount) .InsufficientBalance
    let new ← i128_op (current - amount)
    return create_checkpoint env { s with balance := Function.update s.balance from_ new } from_ new

def xfer (env : Env) (s : TokenState) (from_ to_ : Address) (amount : Int) :
    Outcome TokenError TokenState := do
  let s ← spend_balance env s from_ amount
  receive_balance env s to_ amount

/-! ## Supply -/

def increment_supply (s : TokenState) (amount : Int) : Outcome TokenError TokenState := do
  let new ← i128 (s.total_supply + amount)
  let new_minted ← i128 (s.total_minted + amount)
  return { s with total_supply := new, total_minted := new_minted }

def decrement_supply (s : TokenState) (amount : Int) : Outcome TokenError TokenState := do
  require (¬ s.total_supply < amount) .Overflow
  let new ← i128_op (s.total_supply - amount)
  let new_burned ← i128 (s.total_burned + amount)
  return { s with total_supply := new, total_burned := new_burned }

def store_burn_record (env : Env) (s : TokenState) (from_ : Address) (amount new_supply : Int) :
    Outcome TokenError TokenState := do
  let new_count ← orPanic (checkedAdd 32 s.burn_history_count 1) .Overflow
  let record : BurnRecord :=
    { id := new_count, from_ := from_, amount := amount, new_supply := new_supply, ledger := env.sequence }
  return { s with
    burn_record := Function.update s.burn_record new_count (some record)
    burn_history_count := new_count }

def spend_allowance (env : Env) (s : TokenState) (from_ spender : Address) (amount : Int) :
    Outcome TokenError TokenState := do
  let ((current_allowance, expiration_ledger), s) := read_allowance env s from_ spender
  require (¬ current_allowance < amount) .InsufficientAllowance
  let new_allowance ← i128_op (current_allowance - amount)
  return write_allowance s from_ spender new_allowance expiration_ledger

/-! ## Administration -/

def constructor (admin : Address) : TokenState := { admin := admin }

def set_admin (env : Env) (s : TokenState) (new_admin : Address) : Outcome TokenError TokenState := do
  require_auth env s.admin
  return { s with admin := new_admin }

def set_checkpoint_retention (env : Env) (s : TokenState) (retention : Nat) :
    Outcome TokenError TokenState := do
  require_auth env s.admin
  return { s with checkpoint_retention := retention }

def set_max_supply (env : Env) (s : TokenState) (max_supply : Int) : Outcome TokenError TokenState := do
  require_auth env s.admin
  require (¬ max_supply < 0) .InvalidAmount
  return { s with max_supply := some max_supply }

/-! ## Approvals -/

/-- One nonzero allowance is not replaced by another. -/
def is_race_rejected (current amount : Int) : Prop := current ≠ 0 ∧ amount ≠ 0 ∧ current ≠ amount

instance (current amount : Int) : Decidable (is_race_rejected current amount) :=
  inferInstanceAs (Decidable (_ ∧ _))

/-- The read alone. -/
def allowance (env : Env) (s : TokenState) (from_ spender : Address) : Outcome TokenError TokenState :=
  let (_, s) := read_allowance_amount env s from_ spender
  return s

def approve (env : Env) (s : TokenState) (from_ spender : Address) (amount : Int) (expiration_ledger : Nat) :
    Outcome TokenError TokenState := do
  require_auth env from_
  let (current, s) := read_allowance_amount env s from_ spender
  require (¬ is_race_rejected current amount) .AllowanceRaceRejected
  return write_allowance s from_ spender amount expiration_ledger

def increase_allowance (env : Env) (s : TokenState) (from_ spender : Address) (add_amount : Int)
    (expiration_ledger : Nat) : Outcome TokenError TokenState := do
  require_auth env from_
  require (¬ add_amount < 0) .NegativeAllowance
  let ((current, _), s) := read_allowance env s from_ spender
  let new ← i128 (current + add_amount)
  return write_allowance s from_ spender new expiration_ledger

/-- What is left, not below zero. -/
def reduce (current sub_amount : Int) : Outcome TokenError Int :=
  if current ≤ sub_amount then return 0 else i128_op (current - sub_amount)

def decrease_allowance (env : Env) (s : TokenState) (from_ spender : Address) (sub_amount : Int)
    (expiration_ledger : Nat) : Outcome TokenError TokenState := do
  require_auth env from_
  require (¬ sub_amount < 0) .NegativeAllowance
  let ((current, _), s) := read_allowance env s from_ spender
  let new ← reduce current sub_amount
  return write_allowance s from_ spender new expiration_ledger

/-! ## Transfers, burns and mints -/

def transfer (env : Env) (s : TokenState) (from_ to_ : Address) (amount : Int) :
    Outcome TokenError TokenState := do
  require_auth env from_
  require (¬ amount < 0) .InvalidAmount
  xfer env s from_ to_ amount

def transfer_from (env : Env) (s : TokenState) (spender from_ to_ : Address) (amount : Int) :
    Outcome TokenError TokenState := do
  require_auth env spender
  require (¬ amount < 0) .InvalidAmount
  let s ← spend_allowance env s from_ spender amount
  xfer env s from_ to_ amount

/-- What `burn` and `burn_from` do once they may. -/
def burn_balance (env : Env) (s : TokenState) (from_ : Address) (amount : Int) :
    Outcome TokenError TokenState := do
  let s ← spend_balance env s from_ amount
  let s ← decrement_supply s amount
  store_burn_record env s from_ amount s.total_supply

def burn (env : Env) (s : TokenState) (from_ : Address) (amount : Int) : Outcome TokenError TokenState := do
  require_auth env from_
  require (¬ amount < 0) .InvalidAmount
  burn_balance env s from_ amount

def burn_from (env : Env) (s : TokenState) (spender from_ : Address) (amount : Int) :
    Outcome TokenError TokenState := do
  require_auth env spender
  require (¬ amount < 0) .InvalidAmount
  let s ← spend_allowance env s from_ spender amount
  burn_balance env s from_ amount

/-- The cap is not passed by `amount` more. -/
def check_supply_cap (s : TokenState) (amount : Int) : Outcome TokenError Unit :=
  match s.max_supply with
  | none => .ok ()
  | some cap => do
    let new_supply ← i128 (s.total_supply + amount)
    require (¬ cap < new_supply) .SupplyCapExceeded

def mint_balance (env : Env) (s : TokenState) (to_ : Address) (amount : Int) :
    Outcome TokenError TokenState := do
  let s ← receive_balance env s to_ amount
  increment_supply s amount

def mint (env : Env) (s : TokenState) (to_ : Address) (amount : Int) : Outcome TokenError TokenState := do
  require_auth env s.admin
  require (¬ amount < 0) .InvalidAmount
  check_supply_cap s amount
  mint_balance env s to_ amount

/-! ## Clawback -/

def set_governors (env : Env) (s : TokenState) (governors : List Address) (required_approvals : Nat) :
    Outcome TokenError TokenState := do
  require_auth env s.admin
  require (¬ (required_approvals = 0 ∨ governors.length < required_approvals)) .InvalidAmount
  return { s with governors := governors, required_approvals := required_approvals }

def propose_clawback (env : Env) (s : TokenState) (target : Address) (amount : Int) (reason : Bytes) :
    Outcome TokenError (Nat × TokenState) := do
  let proposer := s.admin
  require_auth env proposer
  require (¬ amount ≤ 0) .InvalidAmount
  let new_count ← orPanic (checkedAdd 32 s.clawback_proposal_count 1) .Overflow
  let proposal : ClawbackProposal :=
    { id := new_count
      target := target
      amount := amount
      reason := reason
      proposer := proposer
      approvals := [proposer]
      created_ledger := env.sequence
      executed := false }
  return (new_count, { s with
    clawback_proposal := Function.update s.clawback_proposal new_count (some proposal)
    clawback_proposal_count := new_count })

/-- The governor is the admin, who has approved already by proposing unless the admin has changed since. -/
def approve_clawback (env : Env) (s : TokenState) (proposal_id : Nat) : Outcome TokenError TokenState := do
  let governor := s.admin
  require_auth env governor
  let proposal ← orPanic (s.clawback_proposal proposal_id) .ClawbackNotFound
  require (proposal.executed = false) .ClawbackAlreadyExecuted
  require (governor ∈ s.governors) .ClawbackNotGovernor
  require (governor ∉ proposal.approvals) .ClawbackAlreadyApproved
  let proposal := { proposal with approvals := proposal.approvals ++ [governor] }
  return { s with clawback_proposal := Function.update s.clawback_proposal proposal_id (some proposal) }

/-- The total of the current period. A period that is over is forgotten. -/
def get_clawback_period_total (env : Env) (s : TokenState) : Int × TokenState :=
  let period_start := s.clawback_period_start.getD 0
  if period_start ≤ env.sequence ∧ CLAWBACK_PERIOD_LEDGERS < env.sequence - period_start then
    (0, { s with clawback_period_total := 0, clawback_period_start := none })
  else (s.clawback_period_total, s)

def set_clawback_period_total (env : Env) (s : TokenState) (total : Int) : TokenState :=
  { s with
    clawback_period_total := total
    clawback_period_start := some (s.clawback_period_start.getD env.sequence) }

def store_clawback_record (env : Env) (s : TokenState) (target : Address) (amount : Int) (reason : Bytes)
    (executor : Address) : Outcome TokenError TokenState := do
  let new_count ← orPanic (checkedAdd 32 s.clawback_history_count 1) .Overflow
  let record : ClawbackRecord :=
    { target := target, amount := amount, reason := reason, executor := executor, ledger := env.sequence }
  return { s with
    clawback_record := Function.update s.clawback_record new_count (some record)
    clawback_history_count := new_count }

def execute_clawback (env : Env) (s : TokenState) (proposal_id : Nat) : Outcome TokenError TokenState := do
  let executor := s.admin
  require_auth env executor
  let proposal ← orPanic (s.clawback_proposal proposal_id) .ClawbackNotFound
  require (proposal.executed = false) .ClawbackAlreadyExecuted
  require (¬ proposal.approvals.length < s.required_approvals) .ClawbackInsufficientApprovals
  require (¬ env.sequence - proposal.created_ledger < CLAWBACK_DELAY_LEDGERS) .ClawbackNotReady
  let (period_total, s) := get_clawback_period_total env s
  let new_total ← i128 (period_total + proposal.amount)
  require (¬ s.clawback_period_limit < new_total) .ClawbackPeriodLimitExceeded
  let s := set_clawback_period_total env s new_total
  let s ← spend_balance env s proposal.target proposal.amount
  let s ← decrement_supply s proposal.amount
  let executed := { proposal with executed := true }
  let s := { s with clawback_proposal := Function.update s.clawback_proposal proposal_id (some executed) }
  store_clawback_record env s proposal.target proposal.amount proposal.reason executor

def set_clawback_period_limit (env : Env) (s : TokenState) (limit : Int) : Outcome TokenError TokenState := do
  require_auth env s.admin
  return { s with clawback_period_limit := limit }

/-! ## Permits -/

/-- The key in the XDR of an account or of a contract. -/
def address_to_32bytes (X : TokenHost) (address : Address) : Outcome TokenError (BytesN 32) :=
  let xdr_bytes := X.address_xdr address
  if xdr_bytes.length = 44 then return Vector.ofFn fun i => xdr_bytes.getD (12 + i) 0
  else if xdr_bytes.length = 40 then return Vector.ofFn fun i => xdr_bytes.getD (8 + i) 0
  else trap

/-- `i128::to_be_bytes`. -/
def i128_to_be_bytes (a : Int) : Bytes := toBeBytes 16 (a % 2 ^ 128).toNat

def build_permit_digest (X : TokenHost) (owner spender : Address) (amount : Int) (nonce deadline : Nat) :
    Outcome TokenError Bytes := do
  let contract_key ← address_to_32bytes X X.current_contract_address
  let owner_key ← address_to_32bytes X owner
  let spender_key ← address_to_32bytes X spender
  return contract_key.toList ++ owner_key.toList ++ spender_key.toList ++ i128_to_be_bytes amount ++
    toBeBytes 4 nonce ++ toBeBytes 8 deadline

def increment_nonce (s : TokenState) (owner : Address) : Outcome TokenError TokenState := do
  let new ← orPanic (checkedAdd 32 (s.nonce owner) 1) .Overflow
  return { s with nonce := Function.update s.nonce owner new }

/-- The allowance it writes expires at ledger 0. -/
def permit (X : TokenHost) (env : Env) (s : TokenState) (owner spender : Address) (amount : Int)
    (deadline : Nat) (signature : BytesN 64) : Outcome TokenError TokenState := do
  require (¬ amount < 0) .InvalidAmount
  require (¬ deadline < env.timestamp) .PermitExpired
  let digest ← build_permit_digest X owner spender amount (s.nonce owner) deadline
  let pk ← address_to_32bytes X owner
  trapUnless (X.ed25519_verify pk digest signature = true)
  let s ← increment_nonce s owner
  let (current, s) := read_allowance_amount env s owner spender
  require (¬ is_race_rejected current amount) .AllowanceRaceRejected
  return write_allowance s owner spender amount 0

def transfer_with_permit (X : TokenHost) (env : Env) (s : TokenState) (owner spender to_ : Address)
    (amount : Int) (deadline : Nat) (signature : BytesN 64) : Outcome TokenError TokenState := do
  let s ← permit X env s owner spender amount deadline signature
  let s ← spend_allowance env s owner spender amount
  xfer env s owner to_ amount

/-! ## Delegation -/

def delegate (env : Env) (s : TokenState) (delegator delegatee : Address) : Outcome TokenError TokenState := do
  require_auth env delegator
  require (delegator ≠ delegatee) .SelfDelegation
  return { s with delegate := Function.update s.delegate delegator (some delegatee) }

def undelegate (env : Env) (s : TokenState) (delegator : Address) : Outcome TokenError TokenState := do
  require_auth env delegator
  return { s with delegate := Function.update s.delegate delegator none }

/-! ## Batches -/

def check_batch_size (len : Nat) : Outcome TokenError Unit := do
  require (len ≠ 0) .EmptyBatch
  require (len ≤ MAX_BATCH_SIZE) .BatchTooLarge

/-- The sum of the amounts, none of them negative. -/
def batch_total : Int → List (Address × Int) → Outcome TokenError Int
  | total, [] => .ok total
  | total, (_, amount) :: rest => do
    require (¬ amount < 0) .InvalidAmount
    let total ← i128 (total + amount)
    batch_total total rest

/-- One after the other. -/
def for_each {α : Type} (f : TokenState → α → Outcome TokenError TokenState) :
    TokenState → List α → Outcome TokenError TokenState
  | s, [] => .ok s
  | s, item :: rest => do
    let s ← f s item
    for_each f s rest

def batch_transfer (env : Env) (s : TokenState) (from_ : Address) (transfers : List (Address × Int)) :
    Outcome TokenError TokenState := do
  require_auth env from_
  check_batch_size transfers.length
  let total ← batch_total 0 transfers
  require (¬ s.balance from_ < total) .InsufficientBalance
  for_each (fun s (to_, amount) => xfer env s from_ to_ amount) s transfers

def batch_mint (env : Env) (s : TokenState) (mints : List (Address × Int)) : Outcome TokenError TokenState := do
  require_auth env s.admin
  check_batch_size mints.length
  let total ← batch_total 0 mints
  check_supply_cap s total
  for_each (fun s (to_, amount) => mint_balance env s to_ amount) s mints

/-- One approval of a batch. -/
abbrev Approval := Address × Int × Nat

def check_approval (env : Env) (from_ : Address) (s : TokenState) (approval : Approval) :
    Outcome TokenError TokenState := do
  let (spender, amount, _) := approval
  require (¬ amount < 0) .NegativeAllowance
  let (current, s) := read_allowance_amount env s from_ spender
  require (¬ is_race_rejected current amount) .AllowanceRaceRejected
  return s

/-- Every approval is checked before one is written. -/
def batch_approve (env : Env) (s : TokenState) (from_ : Address) (approvals : List Approval) :
    Outcome TokenError TokenState := do
  require_auth env from_
  check_batch_size approvals.length
  let s ← for_each (check_approval env from_) s approvals
  for_each (fun s (spender, amount, expiration_ledger) =>
    return write_allowance s from_ spender amount expiration_ledger) s approvals

/-! ## The shielded pool -/

def insert_commitment (s : TokenState) (commitment : BytesN 32) : Outcome TokenError TokenState := do
  let count := s.shielded_commitment_count
  let next ← expect (checkedAdd 32 count 1)
  return { s with
    shielded_commitment := Function.update s.shielded_commitment count (some commitment)
    shielded_commitment_count := next }

def spend_nullifier (s : TokenState) (nullifier : BytesN 32) : Outcome TokenError TokenState := do
  require (s.nullifier_spent nullifier = false) .NullifierAlreadySpent
  return { s with nullifier_spent := Function.update s.nullifier_spent nullifier true }

def shield (env : Env) (s : TokenState) (from_ : Address) (amount : Int) (note_commitment : BytesN 32) :
    Outcome TokenError TokenState := do
  require_auth env from_
  require (¬ amount ≤ 0) .InvalidAmount
  require (¬ s.balance from_ < amount) .InsufficientBalance
  let s ← spend_balance env s from_ amount
  let new_pool_balance ← i128 (s.shielded_pool_balance + amount)
  insert_commitment { s with shielded_pool_balance := new_pool_balance } note_commitment

/-- The fee leaves the pool if there is one. -/
def pay_public_fee (s : TokenState) (public_fee : Int) : Outcome TokenError TokenState :=
  if 0 < public_fee then do
    require (¬ s.shielded_pool_balance < public_fee) .ShieldedPoolExhausted
    let new_pool_balance ← i128_op (s.shielded_pool_balance - public_fee)
    return { s with shielded_pool_balance := new_pool_balance }
  else return s

/-- It asks for no signature and no proof, and the fee goes to nobody. -/
def transfer_shielded (s : TokenState) (nullifiers commitments : List (BytesN 32)) (public_fee : Int) :
    Outcome TokenError TokenState := do
  require (¬ public_fee < 0) .InvalidAmount
  let s ← for_each spend_nullifier s nullifiers
  let s ← for_each insert_commitment s commitments
  pay_public_fee s public_fee

def unshield (env : Env) (s : TokenState) (to_ : Address) (amount : Int)
    (nullifier remainder_commitment : BytesN 32) : Outcome TokenError TokenState := do
  require (¬ amount ≤ 0) .InvalidAmount
  let pool_balance := s.shielded_pool_balance
  require (¬ pool_balance < amount) .ShieldedPoolExhausted
  let s ← spend_nullifier s nullifier
  let s ← insert_commitment s remainder_commitment
  let new_pool_balance ← i128_op (pool_balance - amount)
  receive_balance env { s with shielded_pool_balance := new_pool_balance } to_ amount

/-! ## Steps -/

inductive Call where
  | set_admin (new_admin : Address)
  | set_checkpoint_retention (retention : Nat)
  | set_max_supply (max_supply : Int)
  | allowance (from_ spender : Address)
  | approve (from_ spender : Address) (amount : Int) (expiration_ledger : Nat)
  | increase_allowance (from_ spender : Address) (add_amount : Int) (expiration_ledger : Nat)
  | decrease_allowance (from_ spender : Address) (sub_amount : Int) (expiration_ledger : Nat)
  | transfer (from_ to_ : Address) (amount : Int)
  | transfer_from (spender from_ to_ : Address) (amount : Int)
  | burn (from_ : Address) (amount : Int)
  | burn_from (spender from_ : Address) (amount : Int)
  | mint (to_ : Address) (amount : Int)
  | set_governors (governors : List Address) (required_approvals : Nat)
  | propose_clawback (target : Address) (amount : Int) (reason : Bytes)
  | approve_clawback (proposal_id : Nat)
  | execute_clawback (proposal_id : Nat)
  | set_clawback_period_limit (limit : Int)
  | permit (owner spender : Address) (amount : Int) (deadline : Nat) (signature : BytesN 64)
  | transfer_with_permit (owner spender to_ : Address) (amount : Int) (deadline : Nat)
      (signature : BytesN 64)
  | delegate (delegator delegatee : Address)
  | undelegate (delegator : Address)
  | batch_transfer (from_ : Address) (transfers : List (Address × Int))
  | batch_mint (mints : List (Address × Int))
  | batch_approve (from_ : Address) (approvals : List Approval)
  | shield (from_ : Address) (amount : Int) (note_commitment : BytesN 32)
  | transfer_shielded (nullifiers commitments : List (BytesN 32)) (public_fee : Int)
  | unshield (to_ : Address) (amount : Int) (nullifier remainder_commitment : BytesN 32)

def step (X : TokenHost) (s : TokenState) (env : Env) : Call → Outcome TokenError TokenState
  | .set_admin new_admin => set_admin env s new_admin
  | .set_checkpoint_retention retention => set_checkpoint_retention env s retention
  | .set_max_supply max_supply => set_max_supply env s max_supply
  | .allowance from_ spender => allowance env s from_ spender
  | .approve from_ spender amount expiration_ledger => approve env s from_ spender amount expiration_ledger
  | .increase_allowance from_ spender add_amount expiration_ledger =>
    increase_allowance env s from_ spender add_amount expiration_ledger
  | .decrease_allowance from_ spender sub_amount expiration_ledger =>
    decrease_allowance env s from_ spender sub_amount expiration_ledger
  | .transfer from_ to_ amount => transfer env s from_ to_ amount
  | .transfer_from spender from_ to_ amount => transfer_from env s spender from_ to_ amount
  | .burn from_ amount => burn env s from_ amount
  | .burn_from spender from_ amount => burn_from env s spender from_ amount
  | .mint to_ amount => mint env s to_ amount
  | .set_governors governors required_approvals => set_governors env s governors required_approvals
  | .propose_clawback target amount reason => do
    let (_, s) ← propose_clawback env s target amount reason
    return s
  | .approve_clawback proposal_id => approve_clawback env s proposal_id
  | .execute_clawback proposal_id => execute_clawback env s proposal_id
  | .set_clawback_period_limit limit => set_clawback_period_limit env s limit
  | .permit owner spender amount deadline signature =>
    permit X env s owner spender amount deadline signature
  | .transfer_with_permit owner spender to_ amount deadline signature =>
    transfer_with_permit X env s owner spender to_ amount deadline signature
  | .delegate delegator delegatee => delegate env s delegator delegatee
  | .undelegate delegator => undelegate env s delegator
  | .batch_transfer from_ transfers => batch_transfer env s from_ transfers
  | .batch_mint mints => batch_mint env s mints
  | .batch_approve from_ approvals => batch_approve env s from_ approvals
  | .shield from_ amount note_commitment => shield env s from_ amount note_commitment
  | .transfer_shielded nullifiers commitments public_fee =>
    transfer_shielded s nullifiers commitments public_fee
  | .unshield to_ amount nullifier remainder_commitment =>
    unshield env s to_ amount nullifier remainder_commitment

/-- An accepted call. -/
def Accepts (X : TokenHost) (s : TokenState) (call : Env × Call) (s' : TokenState) : Prop :=
  step X s call.1 call.2 = .ok s'

/-- A run from the deployment of the contract. -/
def TokenRun (X : TokenHost) (admin : Address) : List (TokenState × Env × Call) → TokenState → Prop :=
  Run (Accepts X) (constructor admin)

end ZkVote.Token
