import ZkVote.Tree.Contract

/-!
# The voting contract: storage

`contracts/voting/src/lib.rs`. The instance entries are one record, the entries
keyed by a DAO another, and the entries keyed by a DAO and a proposal a third.
-/

open Lib Lib.Outcome

namespace ZkVote.Voting

inductive VotingError where
  | NotAdmin | Unauthorized | VkIcLengthMismatch | VkIcTooLarge | TitleTooLong | NotDaoMember
  | EndTimeInvalid | NullifierUsed | VotingClosed | CommitmentRevokedAtCreation
  | CommitmentRevokedDuringVoting | RootMismatch | RootNotInHistory | RootPredatesProposal
  | VkChanged | InvalidProof | VkNotSet | VkVersionMismatch | AlreadyInitialized | InvalidState
  | InvalidContentCid | OnlyAdminCanPropose | InvalidG1Point | RootPredatesRemoval
  | SignalNotInField | InvalidNullifier | WeightOutOfRange | InvalidDomainTag | TallyProofInvalid
  | TallyProofMissing | TallyVkNotSet | TallyOverflow | RecursiveProofInvalid
  | RandomnessCommitmentMissing | RandomnessRevealMismatch | CandidateSeedFinalized
  | InsufficientRandomness | RandomnessAlreadyRevealed | RandomnessParticipantLimit
  | NotQuadraticProposal | QvVkNotSet | QvBudgetExceeded | QvTallyVkNotSet | QvTallyLengthMismatch
  | ReentrantCall | VdfVerificationFailed | VdfAlreadySubmitted | VdfDelayNotElapsed
  | VdfInvalidDelay | VdfInputNotAvailable | MerkleRootLocked | CommitmentWindowExpired
  | StorageVersionDowngrade | UpgradeVersionMismatch | UpgradePayloadTooLarge
  | InvalidCandidateIndex | InvalidMerkleDepth | InvalidBatchSize | DuplicateNullifierInBatch
  | CommitRevealNotConfigured | CommitPhaseClosed | CommitAlreadyExists | RevealPhaseNotOpen
  | RevealPhaseClosed | VoteCommitmentNotFound | VoteCommitmentMismatch | AlreadyRevealed
  | VdfNotFinalized | InvalidRevealSchedule | WeightAboveSybilCap | VkNotAttested
  | EncryptedTallyNotConfigured | EncryptedVkNotSet | EncryptedTallyAlreadyFinalized
  | EncryptedTallyNotReady | InvalidCiphertext | EpochMismatch | EpochStale
  | InsufficientCeremonyApprovals | InvalidCeremonyAuthority | BridgeContractNotSet
  | InvalidBalanceCommitment | UnknownBalanceCommitment
  | InvalidInput | EligibilityFailed | ProofInvalid | AlreadySubmitted | WindowClosed
  | InsufficientFunds | ConfigError
  | ContractPaused | NotGuardian | RandomnessCommitClosed | RandomnessRevealClosed
  | RandomnessAlreadyCommitted
  deriving DecidableEq, Repr

inductive PathContext where
  | Admin | Anonymous
  deriving DecidableEq, Repr

/-- An anonymous caller only learns the category of an error. -/
def VotingError.to_coarse (e : VotingError) : PathContext → VotingError
  | .Admin => e
  | .Anonymous =>
    match e with
    | .SignalNotInField | .InvalidNullifier | .InvalidCandidateIndex | .InvalidDomainTag
    | .WeightOutOfRange | .InvalidBalanceCommitment | .InvalidMerkleDepth | .InvalidBatchSize
    | .DuplicateNullifierInBatch => .InvalidInput
    | .RootMismatch | .RootNotInHistory | .RootPredatesProposal | .RootPredatesRemoval
    | .UnknownBalanceCommitment | .CommitmentRevokedAtCreation
    | .CommitmentRevokedDuringVoting => .EligibilityFailed
    | .InvalidProof | .VkChanged => .ProofInvalid
    | .NullifierUsed => .AlreadySubmitted
    | .VotingClosed => .WindowClosed
    | .VkNotSet | .VkVersionMismatch | .NotQuadraticProposal | .TallyOverflow => .ConfigError
    | other => other

/-! ## Constants -/

def VERSION : Nat := 2
def STORAGE_VERSION : Nat := 1
def MAX_IC_LENGTH : Nat := 21
def MAX_TITLE_LEN : Nat := 100
def MAX_CID_LEN : Nat := 64
def MAX_UPGRADE_PAYLOAD_LEN : Nat := 4096
def MAX_MERKLE_DEPTH : Nat := 32
/-- `MAX_BATCH_SIZE` of `zkvote-groth16/src/batch.rs`. -/
def MAX_VOTE_BATCH : Nat := 1
def VOTE_CIRCUIT_IC_LEN : Nat := 7
def ENCRYPTED_CIRCUIT_IC_LEN : Nat := 16
def TALLY_CIRCUIT_IC_LEN : Nat := 7
def QV_CIRCUIT_IC_LEN : Nat := 7
def SYBIL_CIRCUIT_IC_LEN : Nat := 10
def COMMIT_CIRCUIT_IC_LEN : Nat := 5
def WEIGHTED_CIRCUIT_IC_LEN : Nat := 4
def EPOCH_GRACE_SECS : Nat := 300
def MIN_SATISFIABLE_NUM_CANDIDATES : Nat := 2
def MAX_PAUSE_DURATION : Nat := 72 * 60 * 60
def RANDOMNESS_COMMIT_WINDOW : Nat := 3600
def RANDOMNESS_REVEAL_WINDOW : Nat := 3600
def MIN_RANDOMNESS_PARTICIPANTS : Nat := 2
def MAX_RANDOMNESS_PARTICIPANTS : Nat := 32
def MAX_QV_BUDGET : Nat := 100
def MAX_WEIGHT : Nat := 1000000
def MIN_WEIGHT : Nat := 1
def DOMAIN_TAG_WEIGHTED : Nat := 0x77745f76
def MAX_SYBIL_WEIGHT : Nat := 10
def BASE_SYBIL_WEIGHT : Nat := 1
def MIN_BLINDING_LEN : Nat := 32
def UNBOUNDED_CANDIDATE_SIGNAL : Nat := u32Max

/-- The BN254 and BLS12-381 scalar field moduli, from `zkvote-groth16/src/lib.rs`. -/
def BN254_FR_MODULUS : Nat :=
  21888242871839275222246405745257275088548364400416034343698204186575808495617
def BLS12_381_FR_MODULUS : Nat :=
  52435875175126190479447740508185965837690552500527637822603658699938581184513

/-! ## Data -/

structure VerificationKey where
  alpha : BytesN 64
  beta : BytesN 128
  gamma : BytesN 128
  delta : BytesN 128
  ic : List (BytesN 64)
  deriving DecidableEq

structure VerificationKeyBls381 where
  alpha : BytesN 96
  beta : BytesN 192
  gamma : BytesN 192
  delta : BytesN 192
  ic : List (BytesN 96)
  deriving DecidableEq

structure Proof where
  a : BytesN 64
  b : BytesN 128
  c : BytesN 64
  deriving DecidableEq

structure ProofBls381 where
  a : BytesN 96
  b : BytesN 192
  c : BytesN 96
  deriving DecidableEq

inductive CurveId where
  | Bn254 | Bls12381
  deriving DecidableEq, Repr

inductive VoteMode where
  | Fixed | Trailing | Quadratic
  deriving DecidableEq, Repr

inductive ProposalState where
  | Registration | Active | Closed | Archived
  deriving DecidableEq, Repr

def ProposalState.is_valid_transition : ProposalState → ProposalState → Bool
  | .Registration, .Active | .Active, .Closed | .Closed, .Archived => true
  | _, _ => false

structure ProposalInfo where
  id : Nat
  dao_id : Nat
  title : Bytes
  content_cid : Bytes
  yes_votes : Nat := 0
  no_votes : Nat := 0
  end_time : Nat
  created_by : Address
  created_at : Nat
  state : ProposalState := .Active
  vk_hash : BytesN 32
  vk_version : Nat
  eligible_root : U256
  vote_mode : VoteMode
  earliest_root_index : Nat
  snapshot_ledger : Nat
  eligibility_snapshot_root : U256
  /-- Written by `close_proposal`; the struct in the source does not declare it. -/
  trailing_finalized_at : Option Nat := none
  deriving DecidableEq

structure ElectionConfig where
  snapshot_ledger : Nat := 0
  min_balance : Int := 0
  twab_window : Nat := 0
  candidate_seed : Option (BytesN 32) := none
  num_candidates : Nat := 0
  vdf_output : Option (BytesN 32) := none
  vdf_delay : Nat := 0
  max_revotes : Nat := 0
  merkle_root_set_at : Option Nat := none
  commitment_window : Nat := 0
  merkle_depth : Nat := 0
  deriving DecidableEq

structure BatchVote where
  vote_choice : Bool
  nullifier : U256
  root : U256
  proof : Proof

structure CommitRevealConfig where
  commit_deadline : Nat
  reveal_opens_at : Nat
  reveal_closes_at : Nat
  require_vdf : Bool
  deriving DecidableEq

structure WeightedTally where
  yes_weight : Nat := 0
  no_weight : Nat := 0
  yes_ballots : Nat := 0
  no_ballots : Nat := 0
  deriving DecidableEq

structure QvBallot where
  allocations_hash : U256
  total_credits_spent : Nat
  deriving DecidableEq

structure RecursiveTallyInfo where
  num_votes : Nat
  yes_votes : Nat
  no_votes : Nat
  final_nullifier_acc : U256
  finalized_at : Nat
  deriving DecidableEq

structure CreateEncryptedProposalParams where
  title : Bytes
  content_cid : Bytes
  end_time : Nat
  vote_mode : VoteMode
  public_key_x : U256
  public_key_y : U256
  threshold : Nat
  authorities : List Address
  epoch : Nat

structure EncryptedTallyConfig where
  public_key_x : U256
  public_key_y : U256
  threshold : Nat
  total_authorities : Nat
  authorities : List Address
  epoch : Nat
  vk_hash : BytesN 32
  vk_version : Nat
  finalized : Bool
  deriving DecidableEq

structure EncryptedBallot where
  nullifier : U256
  c1 : BytesN 64
  c_yes : BytesN 64
  c_no : BytesN 64
  epoch : Nat
  deriving DecidableEq

structure EncryptedTallyResult where
  yes_votes : Nat
  no_votes : Nat
  aggregate_c1 : BytesN 64
  aggregate_c_yes : BytesN 64
  aggregate_c_no : BytesN 64
  ballot_count : Nat
  epoch : Nat
  finalized_at : Nat
  deriving DecidableEq

structure FinalizeEncryptedTallyParams where
  yes_votes : Nat
  no_votes : Nat
  aggregate_c1 : BytesN 64
  aggregate_c_yes : BytesN 64
  aggregate_c_no : BytesN 64
  epoch : Nat
  approvers : List Address

structure MigrationInfo where
  old_circuit_id : Bytes
  new_circuit_id : Bytes
  deadline : Nat

structure ContractMigrationInfo where
  from_version : Nat
  to_version : Nat
  storage_version : Nat
  payload_hash : BytesN 32
  applied_at : Nat

structure BalanceSnapshotInfo where
  snapshot_ledger : Nat
  timestamp : Nat

structure MerkleRootRecord where
  root : U256
  set_at : Nat
  set_by : Address

/-! ## Storage -/

/-- The instance entries, and the two upgrade tables. -/
structure Instance where
  registry : Address
  guardian : Address
  version : Nat := VERSION
  storage_version : Nat := STORAGE_VERSION
  paused : Bool := false
  paused_at : Nat := 0
  circuit_registry : Option Address := none
  transcript_registry : Option Address := none
  bridge_contract : Option Address := none
  reentrancy_lock : Bool := false
  upgrade_migration : Nat → Option ContractMigrationInfo := fun _ => none
  upgrade_rollback : Nat → Option Nat := fun _ => none

/-- The verification keys of a DAO. -/
structure Keys where
  voting_key : Option VerificationKey := none
  vk_version : Option Nat := none
  vk_by_version : Nat → Option VerificationKey := fun _ => none
  curve_id : Option CurveId := none
  voting_key_bls381 : Option VerificationKeyBls381 := none
  vk_version_bls381 : Option Nat := none
  vk_by_version_bls381 : Nat → Option VerificationKeyBls381 := fun _ => none
  depth_vk : Nat → Option VerificationKey := fun _ => none
  tally_vk : Option VerificationKey := none
  recursive_vk : Option Bytes := none
  qv_voting_key : Option VerificationKey := none
  qv_vk_version : Option Nat := none
  qv_vk_by_version : Nat → Option VerificationKey := fun _ => none
  qv_tally_key : Option VerificationKey := none
  commit_voting_key : Option VerificationKey := none
  sybil_voting_key : Option VerificationKey := none
  weighted_voting_key : Option VerificationKey := none
  encrypted_vk : Option VerificationKey := none
  encrypted_vk_version : Option Nat := none

/-- The entries keyed by a DAO. -/
structure Dao where
  keys : Keys := {}
  proposal_count : Nat := 0
  weighted_balance_commitment : U256 → Bool := fun _ => false
  dao_current_circuit : Option Bytes := none
  dao_migration : Option MigrationInfo := none
  transfer_cooldown : Address → Option Nat := fun _ => none
  balance_checkpoint : Address → Nat → Option Int := fun _ _ => none

/-- What the ballots of an election leave behind, its two plain counters apart. -/
structure Ballots where
  /-- `Nullifier` in Persistent storage. -/
  nullifier : U256 → Bool := fun _ => false
  /-- `Nullifier` in Temporary storage. -/
  nullifier_temporary : U256 → Bool := fun _ => false
  nullifier_accumulator : Option U256 := none
  weighted_tally : Option WeightedTally := none
  vote_commit : U256 → Option (BytesN 32) := fun _ => none
  vote_revealed : U256 → Bool := fun _ => false
  vote_commit_count : Nat := 0
  qv_ballot : U256 → Option QvBallot := fun _ => none
  qv_ballot_count : Nat := 0
  qv_credits_total : Nat := 0
  encrypted_ballot : U256 → Option EncryptedBallot := fun _ => none
  encrypted_ballot_count : Nat := 0

/-- The entries keyed by a DAO and a proposal. -/
structure Election where
  proposal : Option ProposalInfo := none
  ballots : Ballots := {}
  proposal_curve : Option CurveId := none
  proposal_end_time : Option Nat := none
  proposal_depth_vk_hash : Option (BytesN 32) := none
  config : Option ElectionConfig := none
  merkle_root_history : List MerkleRootRecord := []
  balance_snapshot : Option BalanceSnapshotInfo := none
  recursive_tally : Option RecursiveTallyInfo := none
  tally_proof : Option Proof := none
  sybil_weight_cap : Option Nat := none
  attestation_root : Option U256 := none
  commit_reveal : Option CommitRevealConfig := none
  qv_tally : Nat → Option Nat := fun _ => none
  qv_tally_finalized : Bool := false
  encrypted_config : Option EncryptedTallyConfig := none
  encrypted_tally : Option EncryptedTallyResult := none
  randomness_commit : Address → Option (BytesN 32) := fun _ => none
  randomness_reveal : Address → Option (BytesN 32) := fun _ => none
  randomness_committers : List Address := []
  vdf_delay : Option Nat := none
  vdf_input : Option (BytesN 32) := none
  vdf_output : Option (BytesN 32) := none
  vdf_proof : Option (List (BytesN 32)) := none
  vdf_finalized : Bool := false

structure VotingState where
  inst : Instance
  daos : Nat → Dao := fun _ => {}
  elections : Nat → Nat → Election := fun _ _ => {}
  /-- The old flat namespace. No function writes it. -/
  legacy_nullifier_used : U256 → Bool := fun _ => false

def VotingState.set_dao (s : VotingState) (dao_id : Nat) (d : Dao) : VotingState :=
  { s with daos := Function.update s.daos dao_id d }

def VotingState.set_election (s : VotingState) (dao_id proposal_id : Nat) (e : Election) : VotingState :=
  { s with
    elections := Function.update s.elections dao_id (Function.update (s.elections dao_id) proposal_id e) }

section
variable (s : VotingState) (dao_id proposal_id : Nat) (d : Dao) (e : Election)

@[simp] theorem VotingState.set_dao_inst : (s.set_dao dao_id d).inst = s.inst := rfl
@[simp] theorem VotingState.set_dao_elections : (s.set_dao dao_id d).elections = s.elections := rfl
@[simp] theorem VotingState.set_dao_legacy :
    (s.set_dao dao_id d).legacy_nullifier_used = s.legacy_nullifier_used := rfl
@[simp] theorem VotingState.set_dao_daos :
    (s.set_dao dao_id d).daos = Function.update s.daos dao_id d := rfl
@[simp] theorem VotingState.set_election_inst : (s.set_election dao_id proposal_id e).inst = s.inst := rfl
@[simp] theorem VotingState.set_election_daos : (s.set_election dao_id proposal_id e).daos = s.daos := rfl
@[simp] theorem VotingState.set_election_legacy :
    (s.set_election dao_id proposal_id e).legacy_nullifier_used = s.legacy_nullifier_used := rfl

@[simp] theorem VotingState.set_election_self :
    (s.set_election dao_id proposal_id e).elections dao_id proposal_id = e := by
  simp [set_election]

theorem VotingState.set_election_apply (dao_id' proposal_id' : Nat) :
    (s.set_election dao_id proposal_id e).elections dao_id' proposal_id' =
      if dao_id' = dao_id ∧ proposal_id' = proposal_id then e else s.elections dao_id' proposal_id' := by
  by_cases hd : dao_id' = dao_id
  · subst hd
    simp [set_election, Function.update_apply]
  · simp [set_election, hd]
end

/-- What holds of the elections as they were and of the new one holds of all. -/
theorem VotingState.set_election_forall {P : Nat → Nat → Election → Prop} {s : VotingState} {dao_id proposal_id : Nat}
    {e : Election} (hs : ∀ d q, P d q (s.elections d q)) (he : P dao_id proposal_id e) (d q : Nat) :
    P d q ((s.set_election dao_id proposal_id e).elections d q) := by
  rw [set_election_apply]
  split
  · next hslot =>
    obtain ⟨rfl, rfl⟩ := hslot
    exact he
  · exact hs d q

/-- The parts of the cryptography that live outside this contract. -/
structure Crypto extends Hashes where
  verify_groth16 : VerificationKey → Proof → List U256 → Bool
  verify_groth16_bls381 : VerificationKeyBls381 → ProofBls381 → List U256 → Bool
  verify_groth16_batch : VerificationKey → List Proof → List (List U256) → Bool
  /-- `Address::to_xdr`. -/
  address_xdr : Address → Bytes

/-- One call to the voting contract, with the contracts it asks. -/
structure VotingEnv extends Env where
  tree : Tree.MembershipTree
  /-- `registry` of the SBT contract behind the tree. -/
  sbt_registry : Address
  /-- `has` of the SBT contract. -/
  has : Nat → Address → Bool
  /-- `get_admin` of the registry at an address; `none` when it traps. -/
  get_admin : Address → Nat → Option Address
  members_can_propose : Nat → Bool
  /-- `is_vk_attested` of the transcript registry at an address. -/
  is_vk_attested : Address → BytesN 32 → Bool
  /-- `verify_attestation` of the transcript registry at an address. -/
  verify_attestation : Address → BytesN 32 → BytesN 32 → Bool
  /-- `get_vk` of the circuit registry at an address, for a vote circuit; `none` when it traps. -/
  get_vk : Address → Bytes → Option VerificationKey

end ZkVote.Voting
