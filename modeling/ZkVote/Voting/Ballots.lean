import ZkVote.Voting.Elections

/-! # The voting contract: ballots -/

open Lib Lib.Outcome

namespace ZkVote.Voting

/-! ## Nullifiers -/

/-- Either storage class counts. -/
def nullifier_is_used (b : Ballots) (nullifier : U256) : Bool :=
  b.nullifier nullifier || b.nullifier_temporary nullifier

/-- Extends the Persistent entry, whichever class was written before. -/
def bump_nullifier_ttl (b : Ballots) (nullifier : U256) : Outcome VotingError Unit :=
  extend_ttl (b.nullifier nullifier)

def consume_nullifier (b : Ballots) (nullifier : U256) : Outcome VotingError Ballots := do
  let b := { b with nullifier := Function.update b.nullifier nullifier true }
  bump_nullifier_ttl b nullifier
  return b

/-- `SHA256(prev_acc || nullifier)`. -/
def accumulate_nullifier (C : Crypto) (b : Ballots) (nullifier : U256) : Ballots :=
  let current := b.nullifier_accumulator.getD 0
  let hash := C.sha256 (U256.to_be_bytes current ++ U256.to_be_bytes nullifier)
  { b with nullifier_accumulator := some (fromBeBytes hash.toList) }

/-! ## Checks on a ballot

`err` is the identity where the source panics with the error itself, and
`panic_coarse` where it hides it.
-/

def assert_root_not_revoked (env : VotingEnv) (ctx : PathContext) (dao_id : Nat) (root : U256) :
    Outcome VotingError Unit :=
  match Tree.root_eligibility env.tree dao_id root 0 with
  | 0 => .ok ()
  | 1 => fail (panic_coarse ctx .RootNotInHistory)
  | 2 => fail (panic_coarse ctx .RootPredatesProposal)
  | _ => fail (panic_coarse ctx .RootPredatesRemoval)

def assert_root_eligible (env : VotingEnv) (ctx : PathContext) (dao_id : Nat) (proposal : ProposalInfo)
    (root : U256) : Outcome VotingError Unit :=
  match proposal.vote_mode with
  | .Quadratic => fail (panic_coarse ctx .NotQuadraticProposal)
  | .Fixed => do
    require (root = proposal.eligible_root) (panic_coarse ctx .RootMismatch)
    assert_root_not_revoked env ctx dao_id root
  | .Trailing => do
    let root_index ← invoke (Tree.root_idx env.tree dao_id root)
    require (¬ root_index < proposal.earliest_root_index) (panic_coarse ctx .RootPredatesProposal)
    assert_root_not_revoked env ctx dao_id root

/-- The proposal is active and its deadline, if it has one, has not passed. -/
def assert_voting_open (env : VotingEnv) (err : VotingError → VotingError) (proposal : ProposalInfo) :
    Outcome VotingError Unit := do
  require (proposal.state = .Active) (err .VotingClosed)
  require (¬ (proposal.end_time ≠ 0 ∧ proposal.end_time < env.timestamp)) (err .VotingClosed)

/-- `get(ElectionConfig).unwrap_or(..)`. -/
def election_config (e : Election) : ElectionConfig := e.config.getD {}

def vote_choice_index (vote_choice : Bool) : Nat := if vote_choice then 1 else 0

def assert_candidate_index (err : VotingError → VotingError) (e : Election) (vote_choice : Bool) :
    Outcome VotingError Unit :=
  let num_candidates := (election_config e).num_candidates
  require (¬ (0 < num_candidates ∧ num_candidates ≤ vote_choice_index vote_choice))
    (err .InvalidCandidateIndex)

def num_candidates_signal (num_candidates : Nat) : Nat :=
  if num_candidates < MIN_SATISFIABLE_NUM_CANDIDATES then MIN_SATISFIABLE_NUM_CANDIDATES
  else num_candidates

/-- The sentinel that the Sybil circuit takes instead. -/
def candidate_signal (num_candidates : Nat) : Nat :=
  if num_candidates = 0 then UNBOUNDED_CANDIDATE_SIGNAL else num_candidates

/-- The public signals of the plain vote circuit. -/
def vote_signals (e : Election) (dao_id proposal_id : Nat) (vote_choice : Bool) (nullifier root : U256) :
    List U256 :=
  [root, nullifier, dao_id, proposal_id, vote_choice_index vote_choice,
    num_candidates_signal (election_config e).num_candidates]

def resolve_election_vk (C : Crypto) (s : VotingState) (ctx : PathContext) (dao_id : Nat) (e : Election)
    (proposal : ProposalInfo) (merkle_depth : Nat) : Outcome VotingError VerificationKey :=
  if merkle_depth = 0 then do
    let vk ← get_vk_by_version s dao_id proposal.vk_version
    require (hash_vk C vk = proposal.vk_hash) (panic_coarse ctx .VkChanged)
    return vk
  else do
    let vk ← orPanic ((s.daos dao_id).keys.depth_vk merkle_depth) (panic_coarse ctx .InvalidMerkleDepth)
    let pinned ← orPanic e.proposal_depth_vk_hash (panic_coarse ctx .VkNotSet)
    require (hash_vk C vk = pinned) (panic_coarse ctx .VkChanged)
    return vk

/-! ## Counting -/

/-- One more vote for the choice. -/
def count_vote (err : VotingError → VotingError) (proposal : ProposalInfo) (vote_choice : Bool) :
    Outcome VotingError ProposalInfo :=
  if vote_choice = true then do
    let yes_votes ← orPanic (checkedAdd 64 proposal.yes_votes 1) (err .TallyOverflow)
    return { proposal with yes_votes := yes_votes }
  else do
    let no_votes ← orPanic (checkedAdd 64 proposal.no_votes 1) (err .TallyOverflow)
    return { proposal with no_votes := no_votes }

/-- The weight and the ballot it came with. -/
def count_weight (tally : WeightedTally) (vote_choice : Bool) (weight : Nat) :
    Outcome VotingError WeightedTally :=
  if vote_choice = true then do
    let yes_weight ← orPanic (checkedAdd 64 tally.yes_weight weight) .TallyOverflow
    let yes_ballots ← orPanic (checkedAdd 64 tally.yes_ballots 1) .TallyOverflow
    return { tally with yes_weight := yes_weight, yes_ballots := yes_ballots }
  else do
    let no_weight ← orPanic (checkedAdd 64 tally.no_weight weight) .TallyOverflow
    let no_ballots ← orPanic (checkedAdd 64 tally.no_ballots 1) .TallyOverflow
    return { tally with no_weight := no_weight, no_ballots := no_ballots }

/-! ## Plain ballots -/

def vote (C : Crypto) (env : VotingEnv) (s : VotingState) (dao_id proposal_id : Nat) (vote_choice : Bool)
    (nullifier root : U256) (proof : Proof) : Outcome VotingError VotingState := do
  let s ← require_not_paused env s
  let ctx := PathContext.Anonymous
  let s ← set_reentrancy_lock s
  assert_in_field ctx nullifier
  assert_in_field ctx root
  require (nullifier ≠ 0) (panic_coarse ctx .InvalidNullifier)
  let e := s.elections dao_id proposal_id
  require (nullifier_is_used e.ballots nullifier = false) (panic_coarse ctx .NullifierUsed)
  let proposal ← expect e.proposal
  assert_voting_open env (panic_coarse ctx) proposal
  let ballots ← consume_nullifier e.ballots nullifier
  assert_root_eligible env ctx dao_id proposal root
  require (e.proposal_curve.getD .Bn254 = .Bn254) (panic_coarse ctx .VkNotSet)
  let vk ← resolve_election_vk C s ctx dao_id e proposal (election_config e).merkle_depth
  assert_candidate_index (panic_coarse ctx) e vote_choice
  require (C.verify_groth16 vk proof (vote_signals e dao_id proposal_id vote_choice nullifier root) = true)
    (panic_coarse ctx .InvalidProof)
  let ballots := accumulate_nullifier C ballots nullifier
  let proposal ← count_vote (panic_coarse ctx) proposal vote_choice
  return clear_reentrancy_lock
    (s.set_election dao_id proposal_id { e with proposal := some proposal, ballots := ballots })

/-- The nullifier goes to Temporary storage, and the TTL bump that follows looks in Persistent. -/
def record_bridged_vote (C : Crypto) (env : VotingEnv) (s : VotingState) (dao_id proposal_id : Nat)
    (vote_choice : Bool) (nullifier root : U256) : Outcome VotingError VotingState := do
  let s ← require_not_paused env s
  let bridge ← orPanic s.inst.bridge_contract .BridgeContractNotSet
  require_auth env.toEnv bridge
  let ctx := PathContext.Anonymous
  let s ← set_reentrancy_lock s
  assert_in_field ctx nullifier
  assert_in_field ctx root
  require (nullifier ≠ 0) (panic_coarse ctx .InvalidNullifier)
  let e := s.elections dao_id proposal_id
  require (nullifier_is_used e.ballots nullifier = false) (panic_coarse ctx .NullifierUsed)
  let proposal ← expect e.proposal
  assert_voting_open env (panic_coarse ctx) proposal
  let ballots :=
    { e.ballots with nullifier_temporary := Function.update e.ballots.nullifier_temporary nullifier true }
  bump_nullifier_ttl ballots nullifier
  assert_root_eligible env ctx dao_id proposal root
  assert_candidate_index (panic_coarse ctx) e vote_choice
  let ballots := accumulate_nullifier C ballots nullifier
  let proposal ← count_vote (panic_coarse ctx) proposal vote_choice
  return clear_reentrancy_lock
    (s.set_election dao_id proposal_id { e with proposal := some proposal, ballots := ballots })

def vote_bls381 (C : Crypto) (env : VotingEnv) (s : VotingState) (dao_id proposal_id : Nat)
    (vote_choice : Bool) (nullifier root : U256) (proof : ProofBls381) :
    Outcome VotingError VotingState := do
  let s ← require_not_paused env s
  let s ← set_reentrancy_lock s
  assert_in_field_bls381 .Anonymous nullifier
  assert_in_field_bls381 .Anonymous root
  require (nullifier ≠ 0) .InvalidNullifier
  let e := s.elections dao_id proposal_id
  require (nullifier_is_used e.ballots nullifier = false) .NullifierUsed
  let proposal ← expect e.proposal
  assert_voting_open env id proposal
  let ballots ← consume_nullifier e.ballots nullifier
  assert_root_eligible env .Anonymous dao_id proposal root
  require (e.proposal_curve.getD .Bn254 = .Bls12381) .VkNotSet
  let vk ← get_vk_by_version_bls381 s dao_id proposal.vk_version
  require (hash_vk_bls381 C vk = proposal.vk_hash) .VkChanged
  assert_candidate_index id e vote_choice
  require (C.verify_groth16_bls381 vk proof
    (vote_signals e dao_id proposal_id vote_choice nullifier root) = true) .InvalidProof
  let proposal ← count_vote id proposal vote_choice
  return clear_reentrancy_lock
    (s.set_election dao_id proposal_id { e with proposal := some proposal, ballots := ballots })

/-! ## Batches -/

/-- What the loop over a batch collects. -/
structure Batch where
  proofs : List Proof := []
  signal_sets : List (List U256) := []
  seen : List U256 := []
  yes : Nat := 0
  no : Nat := 0

/-- One more entry for the choice. -/
def count_entry (vote_choice : Bool) (b : Batch) : Outcome VotingError Batch :=
  if vote_choice = true then do
    let yes ← expect (checkedAdd 32 b.yes 1)
    return { b with yes := yes }
  else do
    let no ← expect (checkedAdd 32 b.no 1)
    return { b with no := no }

def add_entry (env : VotingEnv) (e : Election) (dao_id proposal_id : Nat) (proposal : ProposalInfo)
    (entry : BatchVote) (b : Batch) : Outcome VotingError Batch := do
  assert_in_field .Anonymous entry.nullifier
  assert_in_field .Anonymous entry.root
  require (entry.nullifier ≠ 0) .InvalidNullifier
  require (entry.nullifier ∉ b.seen) .DuplicateNullifierInBatch
  require (nullifier_is_used e.ballots entry.nullifier = false) .NullifierUsed
  assert_root_eligible env .Anonymous dao_id proposal entry.root
  assert_candidate_index id e entry.vote_choice
  let signals := vote_signals e dao_id proposal_id entry.vote_choice entry.nullifier entry.root
  let b ← count_entry entry.vote_choice b
  return { b with
    proofs := b.proofs ++ [entry.proof]
    signal_sets := b.signal_sets ++ [signals]
    seen := b.seen ++ [entry.nullifier] }

def add_entries (env : VotingEnv) (e : Election) (dao_id proposal_id : Nat) (proposal : ProposalInfo) :
    List BatchVote → Batch → Outcome VotingError Batch
  | [], b => .ok b
  | entry :: votes, b => do
    let b ← add_entry env e dao_id proposal_id proposal entry b
    add_entries env e dao_id proposal_id proposal votes b

def consume_entries : List BatchVote → Ballots → Outcome VotingError Ballots
  | [], b => .ok b
  | entry :: votes, b => do
    let b ← consume_nullifier b entry.nullifier
    consume_entries votes b

def cast_votes (C : Crypto) (env : VotingEnv) (s : VotingState) (dao_id proposal_id : Nat)
    (votes : List BatchVote) : Outcome VotingError (Nat × VotingState) := do
  let ctx := PathContext.Anonymous
  let s ← require_not_paused env s
  let s ← set_reentrancy_lock s
  let count := votes.length
  require (¬ (count = 0 ∨ MAX_VOTE_BATCH < count)) .InvalidBatchSize
  let e := s.elections dao_id proposal_id
  let proposal ← expect e.proposal
  assert_voting_open env id proposal
  require (proposal.vote_mode ≠ .Quadratic) .NotQuadraticProposal
  require (e.proposal_curve.getD .Bn254 = .Bn254) .VkNotSet
  let vk ← resolve_election_vk C s ctx dao_id e proposal (election_config e).merkle_depth
  let b ← add_entries env e dao_id proposal_id proposal votes {}
  require (C.verify_groth16_batch vk b.proofs b.signal_sets = true) .InvalidProof
  let ballots ← consume_entries votes e.ballots
  let yes_votes ← orPanic (checkedAdd 64 proposal.yes_votes b.yes) .TallyOverflow
  let no_votes ← orPanic (checkedAdd 64 proposal.no_votes b.no) .TallyOverflow
  let proposal := { proposal with yes_votes := yes_votes, no_votes := no_votes }
  return (count, clear_reentrancy_lock
    (s.set_election dao_id proposal_id { e with proposal := some proposal, ballots := ballots }))

/-! ## Ballots under a key of the circuit registry -/

def load_vk_from_registry (env : VotingEnv) (s : VotingState) (circuit_id : Bytes) :
    Outcome VotingError VerificationKey := do
  let circuit_registry ← orPanic s.inst.circuit_registry .VkNotSet
  expect (env.get_vk circuit_registry circuit_id)

def check_migration_window (env : VotingEnv) (s : VotingState) (dao_id : Nat) : Option (Bytes × Bytes) :=
  match (s.daos dao_id).dao_migration with
  | none => none
  | some migration =>
    if env.timestamp < migration.deadline then some (migration.old_circuit_id, migration.new_circuit_id)
    else none

/-- The check made when the registry's key is not the proposal's. -/
def assert_migration (C : Crypto) (env : VotingEnv) (s : VotingState) (dao_id : Nat)
    (proposal : ProposalInfo) (circuit_id : Bytes) : Outcome VotingError Unit :=
  match check_migration_window env s dao_id with
  | none => fail .VkChanged
  | some (old_circuit_id, new_circuit_id) => do
    require (¬ (circuit_id ≠ old_circuit_id ∧ circuit_id ≠ new_circuit_id)) .VkChanged
    if circuit_id = old_circuit_id then
      let old_vk ← load_vk_from_registry env s old_circuit_id
      require (hash_vk C old_vk = proposal.vk_hash) .VkChanged
    else if circuit_id = new_circuit_id then
      let new_vk ← load_vk_from_registry env s new_circuit_id
      require (hash_vk C new_vk = proposal.vk_hash) .VkChanged
    else .ok ()

/-- The key is the proposal's, or the DAO is between two circuits. -/
def assert_circuit_vk (C : Crypto) (env : VotingEnv) (s : VotingState) (dao_id : Nat)
    (proposal : ProposalInfo) (circuit_id : Bytes) (vk : VerificationKey) : Outcome VotingError Unit :=
  if hash_vk C vk ≠ proposal.vk_hash then assert_migration C env s dao_id proposal circuit_id
  else .ok ()

def vote_with_circuit (C : Crypto) (env : VotingEnv) (s : VotingState) (dao_id proposal_id : Nat)
    (vote_choice : Bool) (nullifier root : U256) (proof : Proof) (circuit_id : Bytes) :
    Outcome VotingError VotingState := do
  let s ← require_not_paused env s
  assert_in_field .Anonymous nullifier
  assert_in_field .Anonymous root
  require (nullifier ≠ 0) .InvalidNullifier
  let e := s.elections dao_id proposal_id
  require (nullifier_is_used e.ballots nullifier = false) .NullifierUsed
  let proposal ← expect e.proposal
  assert_voting_open env id proposal
  assert_root_eligible env .Anonymous dao_id proposal root
  let vk ← load_vk_from_registry env s circuit_id
  assert_circuit_vk C env s dao_id proposal circuit_id vk
  assert_candidate_index id e vote_choice
  require (C.verify_groth16 vk proof (vote_signals e dao_id proposal_id vote_choice nullifier root) = true)
    .InvalidProof
  let ballots ← consume_nullifier e.ballots nullifier
  let proposal ← count_vote id proposal vote_choice
  return s.set_election dao_id proposal_id { e with proposal := some proposal, ballots := ballots }

/-! ## Weighted ballots -/

def assert_weight_in_range (ctx : PathContext) (weight : Nat) : Outcome VotingError Unit :=
  require (¬ (weight < MIN_WEIGHT ∨ MAX_WEIGHT < weight)) (panic_coarse ctx .WeightOutOfRange)

def assert_domain_tag_valid (ctx : PathContext) (domain_tag : Nat) : Outcome VotingError Unit :=
  require (domain_tag = DOMAIN_TAG_WEIGHTED) (panic_coarse ctx .InvalidDomainTag)

def is_weighted_balance_commitment (s : VotingState) (dao_id : Nat) (commitment : U256) : Bool :=
  (s.daos dao_id).weighted_balance_commitment commitment

/-- It has root checks of its own, looks in Persistent storage only, and asks no `vote_mode`. -/
def vote_weighted (C : Crypto) (env : VotingEnv) (s : VotingState) (dao_id proposal_id : Nat)
    (vote_choice : Bool) (nullifier root : U256) (proof : Proof) (balance_commitment max_supply : U256)
    (weight domain_tag : Nat) : Outcome VotingError VotingState := do
  let s ← require_not_paused env s
  let s ← set_reentrancy_lock s
  let ctx := PathContext.Anonymous
  assert_weight_in_range ctx weight
  assert_domain_tag_valid ctx domain_tag
  assert_in_field ctx nullifier
  assert_in_field ctx root
  assert_in_field ctx balance_commitment
  require (nullifier ≠ 0) .InvalidNullifier
  require (balance_commitment ≠ 0) .InvalidBalanceCommitment
  require (is_weighted_balance_commitment s dao_id balance_commitment = true) .UnknownBalanceCommitment
  let e := s.elections dao_id proposal_id
  require (e.ballots.nullifier nullifier = false) .NullifierUsed
  let proposal ← orPanic e.proposal .InvalidState
  assert_voting_open env id proposal
  require (root = proposal.eligible_root) .RootMismatch
  require (root = proposal.eligibility_snapshot_root) .RootMismatch
  assert_candidate_index id e vote_choice
  let vk ← orPanic (s.daos dao_id).keys.weighted_voting_key .VkNotSet
  let ballots := { e.ballots with nullifier := Function.update e.ballots.nullifier nullifier true }
  require (C.verify_groth16 vk proof [balance_commitment, max_supply, weight] = true) .InvalidProof
  let tally ← count_weight (ballots.weighted_tally.getD {}) vote_choice weight
  let proposal ← count_vote id proposal vote_choice
  return clear_reentrancy_lock (s.set_election dao_id proposal_id
    { e with proposal := some proposal, ballots := { ballots with weighted_tally := some tally } })

def sybil_weight_cap (e : Election) : Nat := e.sybil_weight_cap.getD MAX_SYBIL_WEIGHT

def vote_sybil_weighted (C : Crypto) (env : VotingEnv) (s : VotingState) (dao_id proposal_id : Nat)
    (vote_choice : Bool) (nullifier root attestation_commitment : U256)
    (snapshot_time vote_weight : Nat) (proof : Proof) : Outcome VotingError VotingState := do
  let s ← require_not_paused env s
  let s ← set_reentrancy_lock s
  assert_in_field .Anonymous nullifier
  assert_in_field .Anonymous root
  assert_in_field .Anonymous attestation_commitment
  require (nullifier ≠ 0) .InvalidNullifier
  let e := s.elections dao_id proposal_id
  require (¬ vote_weight < BASE_SYBIL_WEIGHT) .WeightOutOfRange
  require (¬ sybil_weight_cap e < vote_weight) .WeightAboveSybilCap
  require (nullifier_is_used e.ballots nullifier = false) .NullifierUsed
  let proposal ← orPanic e.proposal .InvalidState
  assert_voting_open env id proposal
  assert_root_eligible env .Anonymous dao_id proposal root
  let ballots ← consume_nullifier e.ballots nullifier
  let vk ← orPanic (s.daos dao_id).keys.sybil_voting_key .VkNotSet
  assert_candidate_index id e vote_choice
  let pub_signals : List U256 :=
    [root, nullifier, dao_id, proposal_id, vote_choice_index vote_choice,
      candidate_signal (election_config e).num_candidates, snapshot_time, attestation_commitment,
      vote_weight]
  require (C.verify_groth16 vk proof pub_signals = true) .InvalidProof
  let tally ← count_weight (ballots.weighted_tally.getD {}) vote_choice vote_weight
  let proposal ← count_vote id proposal vote_choice
  return clear_reentrancy_lock (s.set_election dao_id proposal_id
    { e with proposal := some proposal, ballots := { ballots with weighted_tally := some tally } })

/-! ## Commit and reveal -/

def commit_vote (C : Crypto) (env : VotingEnv) (s : VotingState) (dao_id proposal_id : Nat)
    (nullifier root : U256) (commitment : BytesN 32) (proof : Proof) :
    Outcome VotingError VotingState := do
  let s ← require_not_paused env s
  let s ← set_reentrancy_lock s
  assert_in_field .Anonymous nullifier
  assert_in_field .Anonymous root
  require (nullifier ≠ 0) .InvalidNullifier
  let e := s.elections dao_id proposal_id
  let config ← orPanic e.commit_reveal .CommitRevealNotConfigured
  require (¬ config.commit_deadline < env.timestamp) .CommitPhaseClosed
  let proposal ← orPanic e.proposal .InvalidState
  require (proposal.state = .Active) .VotingClosed
  assert_root_eligible env .Anonymous dao_id proposal root
  require (nullifier_is_used e.ballots nullifier = false) .NullifierUsed
  require (e.ballots.vote_commit nullifier = none) .CommitAlreadyExists
  let ballots ← consume_nullifier e.ballots nullifier
  let vk ← orPanic (s.daos dao_id).keys.commit_voting_key .VkNotSet
  require (C.verify_groth16 vk proof [root, nullifier, dao_id, proposal_id] = true) .InvalidProof
  let count ← orPanic (checkedAdd 64 ballots.vote_commit_count 1) .TallyOverflow
  let ballots := { ballots with
    vote_commit := Function.update ballots.vote_commit nullifier (some commitment)
    vote_commit_count := count }
  return clear_reentrancy_lock (s.set_election dao_id proposal_id { e with ballots := ballots })

/-- `b"ZKVOTE-COMMIT-V1"`. -/
def COMMIT_DOMAIN : Bytes := "ZKVOTE-COMMIT-V1".toUTF8.toList

def compute_vote_commitment (C : Crypto) (dao_id proposal_id : Nat) (nullifier : U256)
    (vote_choice : Bool) (blinding : Bytes) : BytesN 32 :=
  C.sha256 (COMMIT_DOMAIN ++ toBeBytes 8 dao_id ++ toBeBytes 8 proposal_id ++
    U256.to_be_bytes nullifier ++ toBeBytes 4 (vote_choice_index vote_choice) ++ blinding)

def reveal_vote (C : Crypto) (env : VotingEnv) (s : VotingState) (dao_id proposal_id : Nat)
    (nullifier : U256) (vote_choice : Bool) (blinding : Bytes) : Outcome VotingError VotingState := do
  let s ← require_not_paused env s
  let s ← set_reentrancy_lock s
  assert_in_field .Anonymous nullifier
  require (¬ blinding.length < MIN_BLINDING_LEN) .VoteCommitmentMismatch
  let e := s.elections dao_id proposal_id
  let config ← orPanic e.commit_reveal .CommitRevealNotConfigured
  require (¬ env.timestamp < config.reveal_opens_at) .RevealPhaseNotOpen
  require (¬ (config.reveal_closes_at ≠ 0 ∧ config.reveal_closes_at < env.timestamp)) .RevealPhaseClosed
  require (¬ (config.require_vdf = true ∧ e.vdf_finalized = false)) .VdfNotFinalized
  require (e.ballots.vote_revealed nullifier = false) .AlreadyRevealed
  let stored ← orPanic (e.ballots.vote_commit nullifier) .VoteCommitmentNotFound
  require (compute_vote_commitment C dao_id proposal_id nullifier vote_choice blinding = stored)
    .VoteCommitmentMismatch
  let ballots := { e.ballots with
    vote_revealed := Function.update e.ballots.vote_revealed nullifier true }
  let proposal ← orPanic e.proposal .InvalidState
  let proposal ← count_vote id proposal vote_choice
  return clear_reentrancy_lock
    (s.set_election dao_id proposal_id { e with proposal := some proposal, ballots := ballots })

/-! ## Quadratic ballots -/

/-- It looks at neither the pause nor the shared nullifiers: a ballot is its own record. -/
def cast_qv_vote (C : Crypto) (env : VotingEnv) (s : VotingState) (dao_id proposal_id : Nat)
    (nullifier root : U256) (total_credits_spent : Nat) (allocations_hash : U256) (proof : Proof) :
    Outcome VotingError VotingState := do
  assert_in_field .Anonymous nullifier
  assert_in_field .Anonymous root
  assert_in_field .Anonymous allocations_hash
  require (nullifier ≠ 0) .InvalidNullifier
  require (total_credits_spent ≤ MAX_QV_BUDGET) .QvBudgetExceeded
  let e := s.elections dao_id proposal_id
  require (e.ballots.qv_ballot nullifier = none) .NullifierUsed
  let proposal ← expect e.proposal
  require (proposal.vote_mode = .Quadratic) .NotQuadraticProposal
  assert_voting_open env id proposal
  require (root = proposal.eligible_root) .RootMismatch
  assert_root_not_revoked env .Anonymous dao_id root
  let vk ← get_qv_vk_by_version s dao_id proposal.vk_version
  require (hash_vk C vk = proposal.vk_hash) .VkChanged
  require (C.verify_groth16 vk proof
    [root, dao_id, proposal_id, nullifier, total_credits_spent, allocations_hash] = true) .InvalidProof
  let ballot : QvBallot :=
    { allocations_hash := allocations_hash, total_credits_spent := total_credits_spent }
  let count ← expect (checkedAdd 64 e.ballots.qv_ballot_count 1)
  let credits ← expect (checkedAdd 128 e.ballots.qv_credits_total total_credits_spent)
  return s.set_election dao_id proposal_id { e with ballots := { e.ballots with
    qv_ballot := Function.update e.ballots.qv_ballot nullifier (some ballot)
    qv_ballot_count := count
    qv_credits_total := credits } }

/-! ## Encrypted ballots -/

/-- The coordinates of a point, each a field element. -/
def point_bytes_to_u256 (point : BytesN 64) : Outcome VotingError (U256 × U256) := do
  let x := fromBeBytes (point.toList.take 32)
  let y := fromBeBytes (point.toList.drop 32)
  assert_in_field .Anonymous x
  assert_in_field .Anonymous y
  return (x, y)

/-- The epoch is the current one, or an earlier one within the grace period. -/
def assert_epoch (env : VotingEnv) (ctx : PathContext) (dao_id epoch : Nat) : Outcome VotingError Unit := do
  let current_epoch := Tree.current_epoch env.tree dao_id
  require (¬ current_epoch < epoch) (panic_coarse ctx .EpochMismatch)
  if epoch < current_epoch then
    let advanced_at ← invoke (Tree.epoch_advanced_at env.tree dao_id current_epoch)
    require (¬ saturatingAdd 64 advanced_at EPOCH_GRACE_SECS < env.timestamp)
      (panic_coarse ctx .EpochStale)
  else .ok ()

/-- As in `record_bridged_vote`, the nullifier is written to one storage class and bumped in the other. -/
def vote_encrypted (C : Crypto) (env : VotingEnv) (s : VotingState) (dao_id proposal_id : Nat)
    (nullifier root : U256) (epoch : Nat) (c1 c_yes c_no : BytesN 64) (proof : Proof) :
    Outcome VotingError VotingState := do
  let s ← require_not_paused env s
  let ctx := PathContext.Anonymous
  let s ← set_reentrancy_lock s
  assert_in_field ctx nullifier
  assert_in_field ctx root
  require (nullifier ≠ 0) (panic_coarse ctx .InvalidNullifier)
  let e := s.elections dao_id proposal_id
  require (nullifier_is_used e.ballots nullifier = false) (panic_coarse ctx .NullifierUsed)
  let proposal ← expect e.proposal
  assert_voting_open env (panic_coarse ctx) proposal
  let config ← orPanic e.encrypted_config (panic_coarse ctx .EncryptedTallyNotConfigured)
  require (config.finalized = false) (panic_coarse ctx .EncryptedTallyAlreadyFinalized)
  let ballots :=
    { e.ballots with nullifier_temporary := Function.update e.ballots.nullifier_temporary nullifier true }
  bump_nullifier_ttl ballots nullifier
  assert_root_eligible env ctx dao_id proposal root
  assert_epoch env ctx dao_id epoch
  let epoch_root ← invoke (Tree.epoch_root env.tree dao_id epoch)
  require (epoch_root = root) (panic_coarse ctx .EpochMismatch)
  require (¬ (epoch_root ≠ proposal.eligible_root ∧ proposal.vote_mode = .Fixed ∧
    epoch ≠ Tree.current_epoch env.tree dao_id)) (panic_coarse ctx .EpochMismatch)
  let vk ← orPanic (s.daos dao_id).keys.encrypted_vk (panic_coarse ctx .EncryptedVkNotSet)
  require (hash_vk C vk = config.vk_hash) (panic_coarse ctx .VkChanged)
  let (c1x, c1y) ← point_bytes_to_u256 c1
  let (cyx, cyy) ← point_bytes_to_u256 c_yes
  let (cnx, cny) ← point_bytes_to_u256 c_no
  require (¬ ((c1x = 0 ∧ c1y = 1) ∨ (cyx = 0 ∧ cyy = 1) ∨ (cnx = 0 ∧ cny = 1)))
    (panic_coarse ctx .InvalidCiphertext)
  let num_candidates := (e.config.map ElectionConfig.num_candidates).getD 2
  require (¬ (num_candidates = 0 ∨ 2 < num_candidates)) (panic_coarse ctx .InvalidCandidateIndex)
  let pub_signals : List U256 :=
    [root, nullifier, dao_id, proposal_id, num_candidates, epoch, config.public_key_x,
      config.public_key_y, c1x, c1y, cyx, cyy, cnx, cny, 0]
  require (C.verify_groth16 vk proof pub_signals = true) (panic_coarse ctx .InvalidProof)
  let ballots := accumulate_nullifier C ballots nullifier
  let ballot : EncryptedBallot :=
    { nullifier := nullifier, c1 := c1, c_yes := c_yes, c_no := c_no, epoch := epoch }
  let count ← orPanic (checkedAdd 64 ballots.encrypted_ballot_count 1) (panic_coarse ctx .TallyOverflow)
  let ballots := { ballots with
    encrypted_ballot := Function.update ballots.encrypted_ballot nullifier (some ballot)
    encrypted_ballot_count := count }
  return clear_reentrancy_lock
    (s.set_election dao_id proposal_id { e with proposal := some proposal, ballots := ballots })

end ZkVote.Voting
