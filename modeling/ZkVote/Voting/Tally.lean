import ZkVote.Voting.Ballots

/-! # The voting contract: tallies -/

open Lib Lib.Outcome

namespace ZkVote.Voting

/-! ## Recursive tallies -/

def verify_tally_proof_data (C : Crypto) (s : VotingState) (dao_id proposal_id : Nat) (proof : Proof)
    (num_votes yes_votes no_votes : Nat) (final_nullifier_acc : U256) : Outcome VotingError Unit := do
  let vk ← orPanic (s.daos dao_id).keys.tally_vk .TallyVkNotSet
  require (vk.ic.length = TALLY_CIRCUIT_IC_LEN) .VkIcLengthMismatch
  assert_in_field .Admin final_nullifier_acc
  let expected_acc := (s.elections dao_id proposal_id).ballots.nullifier_accumulator.getD 0
  require (expected_acc = final_nullifier_acc) .TallyProofInvalid
  require (C.verify_groth16 vk proof
    [dao_id, proposal_id, num_votes, yes_votes, no_votes, final_nullifier_acc] = true) .TallyProofInvalid

def verify_tally_proof (C : Crypto) (s : VotingState) (dao_id proposal_id : Nat) :
    Outcome VotingError Unit := do
  let e := s.elections dao_id proposal_id
  let proof ← orPanic e.tally_proof .TallyProofMissing
  let tally ← orPanic e.recursive_tally .TallyProofMissing
  verify_tally_proof_data C s dao_id proposal_id proof tally.num_votes tally.yes_votes tally.no_votes
    tally.final_nullifier_acc

/-- The caller is not asked for a signature. The totals are added to the votes counted so far. -/
def submit_recursive_tally (C : Crypto) (env : VotingEnv) (s : VotingState)
    (dao_id proposal_id num_votes yes_votes no_votes : Nat) (final_nullifier_acc : U256) (proof : Proof) :
    Outcome VotingError VotingState := do
  let s ← require_not_paused env s
  let total_votes ← orPanic (checkedAdd 64 yes_votes no_votes) .TallyOverflow
  require (total_votes = num_votes) .RecursiveProofInvalid
  verify_tally_proof_data C s dao_id proposal_id proof num_votes yes_votes no_votes final_nullifier_acc
  let e := s.elections dao_id proposal_id
  let proposal ← orPanic e.proposal .VotingClosed
  require (proposal.state = .Active) .VotingClosed
  require (¬ proposal.end_time < env.timestamp) .VotingClosed
  let yes ← orPanic (checkedAdd 64 proposal.yes_votes yes_votes) .TallyOverflow
  let no ← orPanic (checkedAdd 64 proposal.no_votes no_votes) .TallyOverflow
  let tally_info : RecursiveTallyInfo :=
    { num_votes := num_votes
      yes_votes := yes_votes
      no_votes := no_votes
      final_nullifier_acc := final_nullifier_acc
      finalized_at := env.timestamp }
  return s.set_election dao_id proposal_id { e with
    proposal := some { proposal with yes_votes := yes, no_votes := no, state := .Closed }
    recursive_tally := some tally_info
    tally_proof := some proof }

/-! ## Encrypted tallies -/

/-- Each approver is new, configured, and has signed. -/
def check_approvers (env : VotingEnv) (authorities : List Address) :
    List Address → List Address → Outcome VotingError Unit
  | _, [] => .ok ()
  | seen, approver :: approvers => do
    require (approver ∉ seen) .InvalidCeremonyAuthority
    require (approver ∈ authorities) .InvalidCeremonyAuthority
    require_auth env.toEnv approver
    check_approvers env authorities (seen ++ [approver]) approvers

def finalize_encrypted_tally (env : VotingEnv) (s : VotingState) (dao_id proposal_id : Nat)
    (params : FinalizeEncryptedTallyParams) : Outcome VotingError VotingState := do
  let s ← require_not_paused env s
  let e := s.elections dao_id proposal_id
  let proposal ← expect e.proposal
  require (¬ (proposal.end_time = 0 ∨ env.timestamp ≤ proposal.end_time)) .EncryptedTallyNotReady
  require (¬ (proposal.state ≠ .Active ∧ proposal.state ≠ .Closed)) .InvalidState
  let config ← orPanic e.encrypted_config .EncryptedTallyNotConfigured
  require (config.finalized = false) .EncryptedTallyAlreadyFinalized
  require (params.epoch = config.epoch) .EpochMismatch
  require (¬ params.approvers.length < config.threshold) .InsufficientCeremonyApprovals
  check_approvers env config.authorities [] params.approvers
  let count := e.ballots.encrypted_ballot_count
  require (count ≠ 0) .TallyProofMissing
  require (¬ count < saturatingAdd 64 params.yes_votes params.no_votes) .TallyOverflow
  let _ ← point_bytes_to_u256 params.aggregate_c1
  let _ ← point_bytes_to_u256 params.aggregate_c_yes
  let _ ← point_bytes_to_u256 params.aggregate_c_no
  let result : EncryptedTallyResult :=
    { yes_votes := params.yes_votes
      no_votes := params.no_votes
      aggregate_c1 := params.aggregate_c1
      aggregate_c_yes := params.aggregate_c_yes
      aggregate_c_no := params.aggregate_c_no
      ballot_count := count
      epoch := config.epoch
      finalized_at := env.timestamp }
  return s.set_election dao_id proposal_id { e with
    proposal := some { proposal with
      yes_votes := params.yes_votes, no_votes := params.no_votes, state := .Closed }
    encrypted_config := some { config with finalized := true }
    encrypted_tally := some result }

/-! ## Quadratic tallies -/

def write_qv_tallies (tally : Nat → Option Nat) : List (Nat × Nat) → Nat → Option Nat
  | [] => tally
  | (pid, t) :: rest => write_qv_tallies (Function.update tally pid (some t)) rest

def record_qv_tally (C : Crypto) (s : VotingState) (dao_id round_id : Nat)
    (proposal_ids tallies : List Nat) (tally_proof : Proof) : Outcome VotingError VotingState := do
  let n := proposal_ids.length
  require (¬ (n = 0 ∨ n ≠ tallies.length)) .QvTallyLengthMismatch
  let e := s.elections dao_id round_id
  let proposal ← expect e.proposal
  require (proposal.vote_mode = .Quadratic) .NotQuadraticProposal
  let vk ← orPanic (s.daos dao_id).keys.qv_tally_key .QvTallyVkNotSet
  require (C.verify_groth16 vk tally_proof (round_id :: (proposal_ids ++ tallies)) = true) .InvalidProof
  return s.set_election dao_id round_id { e with
    qv_tally := write_qv_tallies e.qv_tally (proposal_ids.zip tallies)
    qv_tally_finalized := true }

/-! ## Old nullifiers -/

def migrate_nullifier (C : Crypto) (env : VotingEnv) (s : VotingState) (dao_id proposal_id : Nat)
    (nullifier : U256) (admin : Address) : Outcome VotingError (Bool × VotingState) := do
  let s ← require_not_paused env s
  require_auth env.toEnv admin
  assert_admin env s dao_id admin
  assert_in_field .Anonymous nullifier
  require (nullifier ≠ 0) .InvalidNullifier
  if s.legacy_nullifier_used nullifier = false then return (false, s)
  else
    let e := s.elections dao_id proposal_id
    let ballots ← consume_nullifier e.ballots nullifier
    let ballots := accumulate_nullifier C ballots nullifier
    let s := s.set_election dao_id proposal_id { e with ballots := ballots }
    return (true,
      { s with legacy_nullifier_used := Function.update s.legacy_nullifier_used nullifier false })

end ZkVote.Voting
