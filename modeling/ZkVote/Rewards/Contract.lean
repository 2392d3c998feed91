import ZkVote.Voting.Contract

/-!
# The rewards contract

`contracts/rewards/src/lib.rs`. A voter claims a reward once, from the treasury of
the DAO, with a proof that ties the claim to a ballot.
-/

open Lib Lib.Outcome

namespace ZkVote.Rewards

open Voting (VerificationKey Proof Crypto BN254_FR_MODULUS)

inductive RewardsError where
  | NotAdmin | Unauthorized | VkIcLengthMismatch | VkIcTooLarge | NotVoted | ClaimNullifierUsed
  | InvalidProof | VkNotSet | VkVersionMismatch | AlreadyInitialized | InvalidState | InvalidG1Point
  | SignalNotInField | InvalidNullifier | RootMismatch | RootNotInHistory | RootPredatesProposal
  | RootPredatesRemoval | VkChanged | TreasuryInsufficient | InvalidRewardAmount | FundingCapExceeded
  | InvalidTreasury
  | InvalidInput | EligibilityFailed | ProofInvalid | AlreadySubmitted | WindowClosed
  | InsufficientFunds | ConfigError
  deriving DecidableEq, Repr

/-- What an anonymous caller is told. -/
def RewardsError.to_coarse : RewardsError → RewardsError
  | .SignalNotInField | .InvalidNullifier | .InvalidG1Point => .InvalidInput
  | .NotVoted | .RootMismatch | .RootNotInHistory | .RootPredatesProposal | .RootPredatesRemoval =>
    .EligibilityFailed
  | .InvalidProof | .VkIcLengthMismatch | .VkIcTooLarge | .VkChanged | .VkVersionMismatch => .ProofInvalid
  | .ClaimNullifierUsed => .AlreadySubmitted
  | .TreasuryInsufficient => .InsufficientFunds
  | .VkNotSet | .InvalidState => .ConfigError
  | other => other

def MAX_IC_LENGTH : Nat := 21
def CLAIM_CIRCUIT_IC_LEN : Nat := 6
def MAX_FUNDING_CAP : Int := 10000000000000000
def MAX_REWARD_PER_CLAIM : Int := 100000000000
def DEFAULT_REWARD : Int := 1000000000

/-- The modes this contract can decode. -/
inductive VoteMode where
  | Fixed | Trailing
  deriving DecidableEq, Repr

def VoteMode.decode : Voting.VoteMode → Option VoteMode
  | .Fixed => some .Fixed
  | .Trailing => some .Trailing
  | .Quadratic => none

structure RewardsState where
  registry : Address
  /-- By DAO, proposal and nullifier. -/
  claim_nullifier : Nat × Nat × U256 → Bool := fun _ => false
  voting_key : Nat → Option VerificationKey := fun _ => none
  vk_version : Nat → Option Nat := fun _ => none
  vk_by_version : Nat × Nat → Option VerificationKey := fun _ => none
  treasury : Nat → Int := fun _ => 0
  reward_amount : Nat → Option Int := fun _ => none
  claimed_count : Nat × Nat → Nat := fun _ => 0
  total_claimed : Nat → Nat := fun _ => 0

/-- One call, with the voting contract and the tree that both ask. -/
structure RewardsEnv extends Voting.VotingEnv where
  voting : Voting.VotingState

/-! ## Verification keys -/

def constructor (registry : Address) : RewardsState where
  registry := registry

def assert_admin (env : RewardsEnv) (s : RewardsState) (dao_id : Nat) (admin : Address) :
    Outcome RewardsError Unit := do
  let dao_admin ← expect (env.get_admin s.registry dao_id)
  require (dao_admin = admin) .NotAdmin

def validate_vk (vk : VerificationKey) : Outcome RewardsError Unit := do
  require (vk.ic.length = CLAIM_CIRCUIT_IC_LEN) .VkIcLengthMismatch
  require (vk.ic.length ≤ MAX_IC_LENGTH) .VkIcTooLarge

/-- `bump_vk_version` and the two writes that follow it. -/
def store_vk (s : RewardsState) (dao_id : Nat) (vk : VerificationKey) : Outcome RewardsError RewardsState := do
  let new_version ← expect (checkedAdd 32 ((s.vk_version dao_id).getD 0) 1)
  return { s with
    vk_version := Function.update s.vk_version dao_id (some new_version)
    voting_key := Function.update s.voting_key dao_id (some vk)
    vk_by_version := Function.update s.vk_by_version (dao_id, new_version) (some vk) }

def set_vk (env : RewardsEnv) (s : RewardsState) (dao_id : Nat) (vk : VerificationKey) (admin : Address) :
    Outcome RewardsError RewardsState := do
  require_auth env.toEnv admin
  assert_admin env s dao_id admin
  validate_vk vk
  store_vk s dao_id vk

def set_vk_from_registry (env : RewardsEnv) (s : RewardsState) (dao_id : Nat) (vk : VerificationKey) :
    Outcome RewardsError RewardsState := do
  require_auth env.toEnv s.registry
  validate_vk vk
  store_vk s dao_id vk

def get_vk_by_version (s : RewardsState) (dao_id version : Nat) :
    Outcome RewardsError VerificationKey :=
  orPanic (s.vk_by_version (dao_id, version)) .VkVersionMismatch

/-! ## Treasury -/

def set_reward (env : RewardsEnv) (s : RewardsState) (dao_id : Nat) (amount : Int) (admin : Address) :
    Outcome RewardsError RewardsState := do
  require_auth env.toEnv admin
  assert_admin env s dao_id admin
  require (¬ (amount ≤ 0 ∨ MAX_REWARD_PER_CLAIM < amount)) .InvalidRewardAmount
  return { s with reward_amount := Function.update s.reward_amount dao_id (some amount) }

def fund_treasury (env : RewardsEnv) (s : RewardsState) (dao_id : Nat) (amount : Int) (admin : Address) :
    Outcome RewardsError RewardsState := do
  require_auth env.toEnv admin
  assert_admin env s dao_id admin
  require (¬ amount ≤ 0) .InvalidTreasury
  let new_bal ← expect (checkedInt 128 (s.treasury dao_id + amount))
  require (¬ MAX_FUNDING_CAP < new_bal) .FundingCapExceeded
  return { s with treasury := Function.update s.treasury dao_id new_bal }

def get_treasury (s : RewardsState) (dao_id : Nat) : Int := s.treasury dao_id

/-- The reward a claim pays. -/
def reward (s : RewardsState) (dao_id : Nat) : Int := (s.reward_amount dao_id).getD DEFAULT_REWARD

/-- It traps on a DAO that has set none. -/
def get_reward_amount (s : RewardsState) (dao_id : Nat) : Outcome RewardsError Int := do
  extend_ttl (s.reward_amount dao_id).isSome
  return reward s dao_id

def get_claimed_count (s : RewardsState) (dao_id proposal_id : Nat) : Nat := s.claimed_count (dao_id, proposal_id)

def is_claimed (s : RewardsState) (dao_id proposal_id : Nat) (claim_nullifier : U256) : Bool :=
  s.claim_nullifier (dao_id, proposal_id, claim_nullifier)

/-! ## Claims -/

def assert_in_field (value : U256) : Outcome RewardsError Unit :=
  require (value < BN254_FR_MODULUS) RewardsError.SignalNotInField.to_coarse

/-- The answers of the tree as errors. -/
def check_eligibility (env : RewardsEnv) (dao_id : Nat) (root : U256) (earliest : Nat) :
    Outcome RewardsError Unit :=
  match Tree.root_eligibility env.tree dao_id root earliest with
  | 0 => .ok ()
  | 1 => fail RewardsError.RootNotInHistory.to_coarse
  | 2 => fail RewardsError.RootPredatesProposal.to_coarse
  | _ => fail RewardsError.RootPredatesRemoval.to_coarse

def assert_root_not_revoked (env : RewardsEnv) (dao_id : Nat) (root : U256) : Outcome RewardsError Unit :=
  check_eligibility env dao_id root 0

/-- The rule for the root in each mode. -/
def check_root (env : RewardsEnv) (dao_id : Nat) (proposal : Voting.ProposalInfo) (root : U256) :
    VoteMode → Outcome RewardsError Unit
  | .Fixed => do
    require (root = proposal.eligible_root) RewardsError.RootMismatch.to_coarse
    assert_root_not_revoked env dao_id root
  | .Trailing => check_eligibility env dao_id root proposal.earliest_root_index

def verify_groth16 (C : Crypto) (vk : VerificationKey) (proof : Proof) (pub_signals : List U256) : Bool :=
  if pub_signals.length + 1 ≠ vk.ic.length then false else C.verify_groth16 vk proof pub_signals

def claim (C : Crypto) (env : RewardsEnv) (s : RewardsState) (dao_id proposal_id : Nat)
    (vote_nullifier claim_nullifier root : U256) (proof : Proof) : Outcome RewardsError RewardsState := do
  assert_in_field vote_nullifier
  assert_in_field claim_nullifier
  assert_in_field root
  require (¬ (vote_nullifier = 0 ∨ claim_nullifier = 0)) RewardsError.InvalidNullifier.to_coarse
  require (s.claim_nullifier (dao_id, proposal_id, claim_nullifier) = false)
    RewardsError.ClaimNullifierUsed.to_coarse
  let election := env.voting.elections dao_id proposal_id
  require (Voting.nullifier_is_used election.ballots vote_nullifier = true) RewardsError.NotVoted.to_coarse
  let proposal ← expect election.proposal
  let mode ← expect (VoteMode.decode proposal.vote_mode)
  check_root env dao_id proposal root mode
  let vk_ver ← orPanic (s.vk_version dao_id) RewardsError.VkNotSet.to_coarse
  require (vk_ver ≠ 0) RewardsError.VkNotSet.to_coarse
  let vk ← get_vk_by_version s dao_id vk_ver
  let treasury := s.treasury dao_id
  let reward := reward s dao_id
  require (¬ treasury < reward) RewardsError.TreasuryInsufficient.to_coarse
  let pub_signals := [root, vote_nullifier, claim_nullifier, dao_id, proposal_id]
  require (verify_groth16 C vk proof pub_signals = true) RewardsError.InvalidProof.to_coarse
  let count ← expect (checkedAdd 64 (s.claimed_count (dao_id, proposal_id)) 1)
  let total ← expect (checkedAdd 64 (s.total_claimed dao_id) 1)
  return { s with
    claim_nullifier := Function.update s.claim_nullifier (dao_id, proposal_id, claim_nullifier) true
    treasury := Function.update s.treasury dao_id (treasury - reward)
    claimed_count := Function.update s.claimed_count (dao_id, proposal_id) count
    total_claimed := Function.update s.total_claimed dao_id total }

/-! ## Runs -/

inductive Call where
  | set_vk (dao_id : Nat) (vk : VerificationKey) (admin : Address)
  | set_vk_from_registry (dao_id : Nat) (vk : VerificationKey)
  | set_reward (dao_id : Nat) (amount : Int) (admin : Address)
  | fund_treasury (dao_id : Nat) (amount : Int) (admin : Address)
  | claim (dao_id proposal_id : Nat) (vote_nullifier claim_nullifier root : U256) (proof : Proof)

def step (C : Crypto) (s : RewardsState) (env : RewardsEnv) : Call → Outcome RewardsError RewardsState
  | .set_vk dao_id vk admin => set_vk env s dao_id vk admin
  | .set_vk_from_registry dao_id vk => set_vk_from_registry env s dao_id vk
  | .set_reward dao_id amount admin => set_reward env s dao_id amount admin
  | .fund_treasury dao_id amount admin => fund_treasury env s dao_id amount admin
  | .claim dao_id proposal_id vote_nullifier claim_nullifier root proof =>
    claim C env s dao_id proposal_id vote_nullifier claim_nullifier root proof

/-- An accepted call. -/
def Accepts (C : Crypto) (s : RewardsState) (call : RewardsEnv × Call) (s' : RewardsState) : Prop :=
  step C s call.1 call.2 = .ok s'

/-- A run from the deployment of the contract. -/
def RewardsRun (C : Crypto) (registry : Address) : List (RewardsState × RewardsEnv × Call) → RewardsState → Prop :=
  Run (Accepts C) (constructor registry)

end ZkVote.Rewards
