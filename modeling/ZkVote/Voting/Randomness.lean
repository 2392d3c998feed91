import ZkVote.Vdf
import ZkVote.Voting.Ballots

/-! # The voting contract: the candidate seed -/

open Lib Lib.Outcome

namespace ZkVote.Voting

/-! ## Commit and reveal -/

/-- The ends of the commit and of the reveal window. -/
def randomness_deadlines (e : Election) : Outcome VotingError (Nat × Nat) := do
  let proposal ← expect e.proposal
  let commit_end := saturatingAdd 64 proposal.created_at RANDOMNESS_COMMIT_WINDOW
  return (commit_end, saturatingAdd 64 commit_end RANDOMNESS_REVEAL_WINDOW)

def require_dao_member (env : VotingEnv) (dao_id : Nat) (participant : Address) :
    Outcome VotingError Unit :=
  require (env.has dao_id participant = true) .NotDaoMember

def randomness_commitment (C : Crypto) (dao_id proposal_id : Nat) (participant : Address)
    (value : BytesN 32) : BytesN 32 :=
  C.sha256 (toBeBytes 8 dao_id ++ toBeBytes 8 proposal_id ++ C.address_xdr participant ++ value.toList)

def commit_randomness (env : VotingEnv) (s : VotingState) (dao_id proposal_id : Nat)
    (commitment : BytesN 32) (participant : Address) : Outcome VotingError VotingState := do
  require_auth env.toEnv participant
  require_dao_member env dao_id participant
  let e := s.elections dao_id proposal_id
  let (commit_end, _) ← randomness_deadlines e
  require (¬ commit_end ≤ env.timestamp) .RandomnessCommitClosed
  require (e.randomness_commit participant = none) .RandomnessAlreadyCommitted
  require (¬ MAX_RANDOMNESS_PARTICIPANTS ≤ e.randomness_committers.length) .RandomnessParticipantLimit
  return s.set_election dao_id proposal_id { e with
    randomness_commit := Function.update e.randomness_commit participant (some commitment)
    randomness_committers := e.randomness_committers ++ [participant] }

def reveal_randomness (C : Crypto) (env : VotingEnv) (s : VotingState) (dao_id proposal_id : Nat)
    (value : BytesN 32) (participant : Address) : Outcome VotingError VotingState := do
  require_auth env.toEnv participant
  let e := s.elections dao_id proposal_id
  let (commit_end, reveal_end) ← randomness_deadlines e
  require (¬ (env.timestamp < commit_end ∨ reveal_end ≤ env.timestamp)) .RandomnessRevealClosed
  let commitment ← orPanic (e.randomness_commit participant) .RandomnessCommitmentMissing
  require (commitment = randomness_commitment C dao_id proposal_id participant value)
    .RandomnessRevealMismatch
  require (e.randomness_reveal participant = none) .RandomnessAlreadyRevealed
  return s.set_election dao_id proposal_id { e with
    randomness_reveal := Function.update e.randomness_reveal participant (some value) }

/-- The revealed values, in the order of the commitments. -/
def gather_reveals (reveals : Address → Option (BytesN 32)) : List Address → Outcome VotingError Bytes
  | [] => .ok []
  | participant :: committers => do
    let reveal ← orPanic (reveals participant) .InsufficientRandomness
    let rest ← gather_reveals reveals committers
    return reveal.toList ++ rest

def finalize_candidate_seed (C : Crypto) (env : VotingEnv) (s : VotingState) (dao_id proposal_id : Nat) :
    Outcome VotingError (BytesN 32 × VotingState) := do
  let e := s.elections dao_id proposal_id
  let (commit_end, _) ← randomness_deadlines e
  require (¬ env.timestamp < commit_end) .RandomnessCommitClosed
  let config := e.config.getD { snapshot_ledger := env.sequence }
  require (config.candidate_seed = none) .CandidateSeedFinalized
  require (¬ e.randomness_committers.length < MIN_RANDOMNESS_PARTICIPANTS) .InsufficientRandomness
  let reveals ← gather_reveals e.randomness_reveal e.randomness_committers
  let seed := C.sha256 (toBeBytes 8 dao_id ++ toBeBytes 8 proposal_id ++ reveals)
  return (seed, s.set_election dao_id proposal_id
    { e with config := some { config with candidate_seed := some seed } })

/-! ## The delay function -/

/-- The source's placeholder for a block hash. -/
def zero_block_hash : BytesN 32 := Vector.replicate 32 0

def set_vdf_delay (C : Crypto) (env : VotingEnv) (s : VotingState) (dao_id proposal_id delay : Nat)
    (admin : Address) : Outcome VotingError VotingState := do
  let s ← require_not_paused env s
  require_auth env.toEnv admin
  assert_admin env s dao_id admin
  require (Vdf.MIN_VDF_ITERATIONS ≤ delay ∧ delay ≤ Vdf.MAX_VDF_ITERATIONS) .VdfInvalidDelay
  let admin_seed := C.sha256 (C.address_xdr admin)
  let vdf_input := Vdf.derive_vdf_input C.toHashes dao_id proposal_id zero_block_hash admin_seed
  return s.set_election dao_id proposal_id { s.elections dao_id proposal_id with
    vdf_delay := some delay
    vdf_input := some vdf_input }

def submit_vdf_output (C : Crypto) (env : VotingEnv) (s : VotingState) (dao_id proposal_id : Nat)
    (vdf_output : BytesN 32) (checkpoints : List (BytesN 32)) (proposal_creation_time : Nat) :
    Outcome VotingError VotingState := do
  let s ← require_not_paused env s
  let e := s.elections dao_id proposal_id
  require (e.vdf_finalized = false) .VdfAlreadySubmitted
  let delay ← orPanic e.vdf_delay .VdfInvalidDelay
  require (¬ env.timestamp < saturatingAdd 64 proposal_creation_time delay) .VdfDelayNotElapsed
  let vdf_input ← orPanic e.vdf_input .VdfInputNotAvailable
  require (Vdf.verify_vdf C.toHashes vdf_input delay vdf_output checkpoints = true) .VdfVerificationFailed
  let config := e.config.getD { snapshot_ledger := env.sequence, vdf_delay := delay }
  return s.set_election dao_id proposal_id { e with
    vdf_output := some vdf_output
    vdf_proof := some checkpoints
    vdf_finalized := true
    config := some { config with vdf_output := some vdf_output, vdf_delay := delay } }

def finalize_with_vdf (C : Crypto) (env : VotingEnv) (s : VotingState) (dao_id proposal_id : Nat) :
    Outcome VotingError (BytesN 32 × VotingState) :=
  let e := s.elections dao_id proposal_id
  match e.vdf_output with
  | none => finalize_candidate_seed C env s dao_id proposal_id
  | some vdf_output =>
    let config := e.config.getD { snapshot_ledger := env.sequence }
    let seed :=
      match config.candidate_seed with
      | some existing_seed => C.sha256 (vdf_output.toList ++ existing_seed.toList)
      | none => vdf_output
    .ok (seed, s.set_election dao_id proposal_id
      { e with config := some { config with candidate_seed := some seed } })

end ZkVote.Voting
