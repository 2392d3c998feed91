import Mathlib.Logic.Function.Basic
import ZkVote.Host

/-!
# The token: storage

`contracts/token/src/lib.rs` and `allowance.rs`. An entry that is missing reads as
its default, so an entry that is only ever read that way is a plain value.
-/

open Lib Lib.Outcome

namespace ZkVote.Token

inductive TokenError where
  | AlreadyInitialized | InsufficientBalance | InsufficientAllowance | Unauthorized | InvalidAmount
  | Overflow | AllowanceRaceRejected | NotAdmin | NegativeAllowance | ClawbackNotGovernor
  | ClawbackInsufficientApprovals | ClawbackAlreadyApproved | ClawbackNotReady
  | ClawbackAlreadyExecuted | ClawbackPeriodLimitExceeded | ClawbackNotFound | InvalidSignature
  | PermitExpired | PermitReplay | SupplyCapExceeded | SelfDelegation | BatchTooLarge | EmptyBatch
  | NullifierAlreadySpent | InvalidShieldedProof | ShieldedPoolExhausted
  deriving DecidableEq, Repr

def CLAWBACK_DELAY_LEDGERS : Nat := 34560
def CLAWBACK_PERIOD_LEDGERS : Nat := 5184000
def MAX_BATCH_SIZE : Nat := 50

/-- `i128::MAX`. -/
def i128Max : Int := 2 ^ 127 - 1

structure Checkpoint where
  ledger_sequence : Nat
  balance : Int
  deriving DecidableEq

structure BurnRecord where
  id : Nat
  from_ : Address
  amount : Int
  new_supply : Int
  ledger : Nat
  deriving DecidableEq

structure ClawbackProposal where
  id : Nat
  target : Address
  amount : Int
  reason : Bytes
  proposer : Address
  approvals : List Address
  created_ledger : Nat
  executed : Bool
  deriving DecidableEq

structure ClawbackRecord where
  target : Address
  amount : Int
  reason : Bytes
  executor : Address
  ledger : Nat
  deriving DecidableEq

structure TokenState where
  admin : Address
  balance : Address → Int := fun _ => 0
  total_supply : Int := 0
  total_minted : Int := 0
  total_burned : Int := 0
  burn_history_count : Nat := 0
  burn_record : Nat → Option BurnRecord := fun _ => none
  governors : List Address := []
  required_approvals : Nat := 0
  clawback_proposal_count : Nat := 0
  clawback_proposal : Nat → Option ClawbackProposal := fun _ => none
  clawback_history_count : Nat := 0
  clawback_record : Nat → Option ClawbackRecord := fun _ => none
  clawback_period_total : Int := 0
  clawback_period_start : Option Nat := none
  clawback_period_limit : Int := i128Max
  nonce : Address → Nat := fun _ => 0
  max_supply : Option Int := none
  checkpoints : Address → List Checkpoint := fun _ => []
  checkpoint_retention : Nat := 0
  delegate : Address → Option Address := fun _ => none
  shielded_pool_balance : Int := 0
  nullifier_spent : BytesN 32 → Bool := fun _ => false
  shielded_commitment : Nat → Option (BytesN 32) := fun _ => none
  shielded_commitment_count : Nat := 0
  /-- Amount and expiration ledger of an owner's allowance to a spender. -/
  allowance : Address × Address → Option (Int × Nat) := fun _ => none

/-- What the contract asks of the host besides the ledger. -/
structure TokenHost where
  ed25519_verify : BytesN 32 → Bytes → BytesN 64 → Bool
  /-- `Address::to_xdr`. -/
  address_xdr : Address → Bytes
  current_contract_address : Address

end ZkVote.Token
