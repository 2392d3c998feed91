import ZkVote.Voting.Admin

/-! # The voting contract: proposals and their configuration -/

open Lib Lib.Outcome

namespace ZkVote.Voting

/-- A cross-contract call. When the callee panics, so does the caller. -/
def invoke {ε α : Type} (x : Outcome ε α) : Outcome VotingError α :=
  match x with
  | .ok a => .ok a
  | .error _ => trap

@[simp] theorem invoke_eq_ok {ε α : Type} {x : Outcome ε α} {a : α} : invoke x = .ok a ↔ x = .ok a := by
  cases x <;> simp [invoke, trap]

/-! ## Creation -/

def next_proposal_id (s : VotingState) (dao_id : Nat) : Outcome VotingError (Nat × VotingState) := do
  let d := s.daos dao_id
  let new_id ← expect (checkedAdd 64 d.proposal_count 1)
  return (new_id, s.set_dao dao_id { d with proposal_count := new_id })

/-- The membership and permission checks that every way to create a proposal makes. -/
def assert_can_propose (env : VotingEnv) (dao_id : Nat) (creator : Address) :
    Outcome VotingError Unit := do
  require (env.has dao_id creator = true) .NotDaoMember
  if env.members_can_propose dao_id = true then .ok ()
  else do
    let dao_admin ← expect (env.get_admin env.sbt_registry dao_id)
    require (creator = dao_admin) .OnlyAdminCanPropose

def assert_texts (title content_cid : Bytes) : Outcome VotingError Unit := do
  require (title.length ≤ MAX_TITLE_LEN) .TitleTooLong
  require (content_cid.length ≤ MAX_CID_LEN) .InvalidContentCid

def assert_end_time (env : VotingEnv) (end_time : Nat) : Outcome VotingError Unit :=
  require (¬ (end_time ≠ 0 ∧ end_time ≤ env.timestamp)) .EndTimeInvalid

/-- The current version of the key of the DAO's curve. -/
def current_vk_version (s : VotingState) (dao_id : Nat) : CurveId → Outcome VotingError Nat
  | .Bls12381 => orPanic (s.daos dao_id).keys.vk_version_bls381 .VkNotSet
  | .Bn254 => orPanic (s.daos dao_id).keys.vk_version .VkNotSet

def vk_hash_of_version (C : Crypto) (s : VotingState) (dao_id version : Nat) :
    CurveId → Outcome VotingError (BytesN 32)
  | .Bls12381 => do
    let vk ← get_vk_by_version_bls381 s dao_id version
    return hash_vk_bls381 C vk
  | .Bn254 => do
    let vk ← get_vk_by_version s dao_id version
    return hash_vk C vk

def create_proposal_with_version (C : Crypto) (env : VotingEnv) (s : VotingState) (dao_id : Nat)
    (title content_cid : Bytes) (end_time : Nat) (creator : Address) (vote_mode : VoteMode)
    (vk_version : Option Nat) : Outcome VotingError (Nat × VotingState) := do
  let s ← require_not_paused env s
  require_auth env.toEnv creator
  assert_texts title content_cid
  assert_can_propose env dao_id creator
  assert_end_time env end_time
  let curve_id := get_curve_id s dao_id
  let current_version ← current_vk_version s dao_id curve_id
  let selected_version := vk_version.getD current_version
  require (¬ (selected_version = 0 ∨ current_version < selected_version)) .VkNotSet
  let vk_hash ← vk_hash_of_version C s dao_id selected_version curve_id
  let eligible_root ← invoke (Tree.current_root env.tree dao_id)
  let earliest_root_index ← invoke (Tree.curr_idx env.tree dao_id)
  let (proposal_id, s) ← next_proposal_id s dao_id
  let proposal : ProposalInfo :=
    { id := proposal_id
      dao_id := dao_id
      title := title
      content_cid := content_cid
      end_time := end_time
      created_by := creator
      created_at := env.timestamp
      vk_hash := vk_hash
      vk_version := selected_version
      eligible_root := eligible_root
      vote_mode := vote_mode
      earliest_root_index := earliest_root_index
      snapshot_ledger := env.sequence
      eligibility_snapshot_root := eligible_root }
  return (proposal_id, s.set_election dao_id proposal_id { s.elections dao_id proposal_id with
    proposal := some proposal
    proposal_curve := some curve_id
    proposal_end_time := some end_time })

def create_proposal (C : Crypto) (env : VotingEnv) (s : VotingState) (dao_id : Nat)
    (title content_cid : Bytes) (end_time : Nat) (creator : Address) (vote_mode : VoteMode) :
    Outcome VotingError (Nat × VotingState) :=
  create_proposal_with_version C env s dao_id title content_cid end_time creator vote_mode none

def create_proposal_in_registration (C : Crypto) (env : VotingEnv) (s : VotingState) (dao_id : Nat)
    (title content_cid : Bytes) (end_time : Nat) (creator : Address) (vote_mode : VoteMode) :
    Outcome VotingError (Nat × VotingState) := do
  let (id, s) ←
    create_proposal_with_version C env s dao_id title content_cid end_time creator vote_mode none
  let e := s.elections dao_id id
  let proposal ← expect e.proposal
  return (id, s.set_election dao_id id { e with proposal := some { proposal with state := .Registration } })

def create_proposal_with_vk_version (C : Crypto) (env : VotingEnv) (s : VotingState) (dao_id : Nat)
    (title content_cid : Bytes) (end_time : Nat) (creator : Address) (vote_mode : VoteMode)
    (vk_version : Nat) : Outcome VotingError (Nat × VotingState) :=
  create_proposal_with_version C env s dao_id title content_cid end_time creator vote_mode (some vk_version)

/-- The source's literal of this proposal has no `eligibility_snapshot_root`, so the value the
field would get is a parameter here. -/
def create_encrypted_proposal (C : Crypto) (env : VotingEnv) (s : VotingState) (dao_id : Nat)
    (creator : Address) (params : CreateEncryptedProposalParams) (eligibility_snapshot_root : U256) :
    Outcome VotingError (Nat × VotingState) := do
  let s ← require_not_paused env s
  require_auth env.toEnv creator
  assert_texts params.title params.content_cid
  require (¬ (params.threshold = 0 ∨ params.authorities.length < params.threshold ∨
    32 < params.authorities.length)) .InvalidInput
  assert_end_time env params.end_time
  let vk_version ← orPanic (s.daos dao_id).keys.encrypted_vk_version .EncryptedVkNotSet
  let vk ← orPanic (s.daos dao_id).keys.encrypted_vk .EncryptedVkNotSet
  let vk_hash := hash_vk C vk
  assert_can_propose env dao_id creator
  let current_epoch := Tree.current_epoch env.tree dao_id
  let epoch := if params.epoch = 0 then current_epoch else params.epoch
  require (epoch = current_epoch) .EpochMismatch
  let eligible_root ← invoke (Tree.epoch_root env.tree dao_id epoch)
  let earliest_root_index ← invoke (Tree.curr_idx env.tree dao_id)
  let (proposal_id, s) ← next_proposal_id s dao_id
  let proposal : ProposalInfo :=
    { id := proposal_id
      dao_id := dao_id
      title := params.title
      content_cid := params.content_cid
      end_time := params.end_time
      created_by := creator
      created_at := env.timestamp
      vk_hash := vk_hash
      vk_version := vk_version
      eligible_root := eligible_root
      vote_mode := params.vote_mode
      earliest_root_index := earliest_root_index
      snapshot_ledger := env.sequence
      eligibility_snapshot_root := eligibility_snapshot_root }
  let config : EncryptedTallyConfig :=
    { public_key_x := params.public_key_x
      public_key_y := params.public_key_y
      threshold := params.threshold
      total_authorities := params.authorities.length
      authorities := params.authorities
      epoch := epoch
      vk_hash := vk_hash
      vk_version := vk_version
      finalized := false }
  return (proposal_id, s.set_election dao_id proposal_id { s.elections dao_id proposal_id with
    proposal := some proposal
    proposal_curve := some .Bn254
    proposal_end_time := some params.end_time
    encrypted_config := some config
    config := some { snapshot_ledger := env.sequence, num_candidates := 2 } })

/-- As for `create_encrypted_proposal`, the snapshot root is a parameter. The end time is not cached. -/
def create_qv_proposal (C : Crypto) (env : VotingEnv) (s : VotingState) (dao_id : Nat)
    (title content_cid : Bytes) (end_time : Nat) (creator : Address)
    (eligibility_snapshot_root : U256) : Outcome VotingError (Nat × VotingState) := do
  require_auth env.toEnv creator
  assert_texts title content_cid
  assert_can_propose env dao_id creator
  assert_end_time env end_time
  let qv_version ← orPanic (s.daos dao_id).keys.qv_vk_version .QvVkNotSet
  require (qv_version ≠ 0) .QvVkNotSet
  let qv_vk ← get_qv_vk_by_version s dao_id qv_version
  let eligible_root ← invoke (Tree.current_root env.tree dao_id)
  let earliest_root_index ← invoke (Tree.curr_idx env.tree dao_id)
  let (proposal_id, s) ← next_proposal_id s dao_id
  let proposal : ProposalInfo :=
    { id := proposal_id
      dao_id := dao_id
      title := title
      content_cid := content_cid
      end_time := end_time
      created_by := creator
      created_at := env.timestamp
      vk_hash := hash_vk C qv_vk
      vk_version := qv_version
      eligible_root := eligible_root
      vote_mode := .Quadratic
      earliest_root_index := earliest_root_index
      snapshot_ledger := env.sequence
      eligibility_snapshot_root := eligibility_snapshot_root }
  return (proposal_id, s.set_election dao_id proposal_id { s.elections dao_id proposal_id with
    proposal := some proposal
    proposal_curve := some .Bn254 })

/-! ## Configuration -/

def apply_election_config (env : VotingEnv) (e : Election) (min_balance : Int)
    (twab_window num_candidates : Nat) : Election :=
  let existing := e.config.getD {}
  { e with config := some { existing with
      snapshot_ledger := env.sequence
      min_balance := min_balance
      twab_window := twab_window
      num_candidates := num_candidates } }

def set_election_config (env : VotingEnv) (s : VotingState) (dao_id proposal_id : Nat)
    (min_balance : Int) (twab_window num_candidates : Nat) (admin : Address) :
    Outcome VotingError VotingState := do
  let s ← require_not_paused env s
  assert_election_config_authority env s dao_id proposal_id admin
  return s.set_election dao_id proposal_id
    (apply_election_config env (s.elections dao_id proposal_id) min_balance twab_window num_candidates)

/-- A depth other than 0 needs a key of its own, whose hash is pinned. -/
def pin_depth_vk (C : Crypto) (s : VotingState) (dao_id merkle_depth : Nat) (e : Election) :
    Outcome VotingError Election :=
  if merkle_depth ≠ 0 then do
    let vk ← orPanic ((s.daos dao_id).keys.depth_vk merkle_depth) .InvalidMerkleDepth
    return { e with proposal_depth_vk_hash := some (hash_vk C vk) }
  else .ok e

def set_election_config_with_depth (C : Crypto) (env : VotingEnv) (s : VotingState)
    (dao_id proposal_id : Nat) (min_balance : Int) (twab_window num_candidates merkle_depth : Nat)
    (admin : Address) : Outcome VotingError VotingState := do
  let s ← require_not_paused env s
  assert_election_config_authority env s dao_id proposal_id admin
  require (merkle_depth ≤ MAX_MERKLE_DEPTH) .InvalidMerkleDepth
  let e :=
    apply_election_config env (s.elections dao_id proposal_id) min_balance twab_window num_candidates
  let config ← orPanic e.config .InvalidState
  let e ← pin_depth_vk C s dao_id merkle_depth e
  return s.set_election dao_id proposal_id
    { e with config := some { config with merkle_depth := merkle_depth } }

/-- The caller signs, but is not compared with anyone. -/
def set_commitment_window (env : VotingEnv) (s : VotingState) (dao_id proposal_id commitment_window : Nat)
    (admin : Address) : Outcome VotingError VotingState := do
  let s ← require_not_paused env s
  require_auth env.toEnv admin
  let e := s.elections dao_id proposal_id
  let config := e.config.getD { snapshot_ledger := env.sequence }
  return s.set_election dao_id proposal_id
    { e with config := some { config with commitment_window := commitment_window } }

def assert_commitment_window (env : VotingEnv) (proposal : ProposalInfo) (config : ElectionConfig) :
    Outcome VotingError Unit :=
  if 0 < config.commitment_window then do
    let closes ← expect (checkedAdd 64 proposal.created_at config.commitment_window)
    require (¬ closes < env.timestamp) .CommitmentWindowExpired
  else .ok ()

def set_merkle_root (env : VotingEnv) (s : VotingState) (dao_id proposal_id : Nat) (new_root : U256)
    (admin : Address) : Outcome VotingError VotingState := do
  let s ← require_not_paused env s
  require_auth env.toEnv admin
  let dao_admin ← expect (env.get_admin env.sbt_registry dao_id)
  require (admin = dao_admin) .NotAdmin
  let e := s.elections dao_id proposal_id
  let proposal ← orPanic e.proposal .InvalidState
  require (proposal.state = .Registration) .MerkleRootLocked
  let config := e.config.getD { snapshot_ledger := env.sequence }
  assert_commitment_window env proposal config
  require (Tree.root_ok env.tree dao_id new_root = true) .RootNotInHistory
  return s.set_election dao_id proposal_id { e with
    proposal := some { proposal with eligible_root := new_root }
    config := some { config with merkle_root_set_at := some env.timestamp }
    merkle_root_history :=
      e.merkle_root_history ++ [{ root := new_root, set_at := env.timestamp, set_by := admin }] }

/-- The caller signs, but is not compared with anyone. -/
def activate_proposal (env : VotingEnv) (s : VotingState) (dao_id proposal_id : Nat) (caller : Address) :
    Outcome VotingError VotingState := do
  let s ← require_not_paused env s
  require_auth env.toEnv caller
  let e := s.elections dao_id proposal_id
  let proposal ← orPanic e.proposal .InvalidState
  require (proposal.state = .Registration) .InvalidState
  return s.set_election dao_id proposal_id
    { e with proposal := some { proposal with state := .Active } }

def close_proposal (env : VotingEnv) (s : VotingState) (dao_id proposal_id : Nat) (admin : Address) :
    Outcome VotingError VotingState := do
  let s ← require_not_paused env s
  require_auth env.toEnv admin
  assert_admin env s dao_id admin
  let e := s.elections dao_id proposal_id
  let proposal ← expect e.proposal
  require (¬ (proposal.state ≠ .Closed ∧ proposal.state.is_valid_transition .Closed = false)) .InvalidState
  if proposal.state ≠ .Closed then
    let finalized_at :=
      if proposal.vote_mode = .Trailing then some env.timestamp else proposal.trailing_finalized_at
    return s.set_election dao_id proposal_id
      { e with proposal := some { proposal with state := .Closed, trailing_finalized_at := finalized_at } }
  else return s

def archive_proposal (env : VotingEnv) (s : VotingState) (dao_id proposal_id : Nat) (admin : Address) :
    Outcome VotingError VotingState := do
  let s ← require_not_paused env s
  require_auth env.toEnv admin
  assert_admin env s dao_id admin
  let e := s.elections dao_id proposal_id
  let proposal ← expect e.proposal
  require (¬ (proposal.state ≠ .Archived ∧ proposal.state.is_valid_transition .Archived = false))
    .InvalidState
  if proposal.state ≠ .Archived then
    return s.set_election dao_id proposal_id
      { e with proposal := some { proposal with state := .Archived } }
  else return s

def create_balance_snapshot (env : VotingEnv) (s : VotingState) (dao_id proposal_id : Nat)
    (admin : Address) : Outcome VotingError VotingState := do
  let s ← require_not_paused env s
  require_auth env.toEnv admin
  assert_admin env s dao_id admin
  return s.set_election dao_id proposal_id { s.elections dao_id proposal_id with
    balance_snapshot := some { snapshot_ledger := env.sequence, timestamp := env.timestamp } }

def set_commit_reveal (env : VotingEnv) (s : VotingState)
    (dao_id proposal_id commit_deadline reveal_opens_at reveal_closes_at : Nat) (require_vdf : Bool)
    (admin : Address) : Outcome VotingError VotingState := do
  let s ← require_not_paused env s
  require_auth env.toEnv admin
  assert_admin env s dao_id admin
  require (¬ reveal_opens_at < commit_deadline) .InvalidRevealSchedule
  require (¬ (reveal_closes_at ≠ 0 ∧ reveal_closes_at ≤ reveal_opens_at)) .InvalidRevealSchedule
  let e := s.elections dao_id proposal_id
  require (¬ 0 < e.ballots.vote_commit_count) .InvalidState
  let config : CommitRevealConfig :=
    { commit_deadline := commit_deadline
      reveal_opens_at := reveal_opens_at
      reveal_closes_at := reveal_closes_at
      require_vdf := require_vdf }
  return s.set_election dao_id proposal_id { e with commit_reveal := some config }

/-- The cap is fixed by the first weighted ballot. -/
def assert_no_weighted_ballot (e : Election) : Outcome VotingError Unit :=
  match e.ballots.weighted_tally with
  | some tally => require (¬ (0 < tally.yes_ballots ∨ 0 < tally.no_ballots)) .InvalidState
  | none => .ok ()

def set_sybil_weight_cap (env : VotingEnv) (s : VotingState) (dao_id proposal_id cap : Nat)
    (admin : Address) : Outcome VotingError VotingState := do
  let s ← require_not_paused env s
  require_auth env.toEnv admin
  assert_admin env s dao_id admin
  require (¬ (cap < BASE_SYBIL_WEIGHT ∨ MAX_SYBIL_WEIGHT < cap)) .WeightOutOfRange
  let e := s.elections dao_id proposal_id
  assert_no_weighted_ballot e
  return s.set_election dao_id proposal_id { e with sybil_weight_cap := some cap }

def set_attestation_root (env : VotingEnv) (s : VotingState) (dao_id proposal_id : Nat) (root : U256)
    (admin : Address) : Outcome VotingError VotingState := do
  let s ← require_not_paused env s
  require_auth env.toEnv admin
  assert_admin env s dao_id admin
  assert_in_field .Anonymous root
  return s.set_election dao_id proposal_id
    { s.elections dao_id proposal_id with attestation_root := some root }

/-! ## Reads of the tree contract -/

def root_pin (s : VotingState) (dao_id : Nat) (candidate_root : U256) : Bool :=
  (List.range (s.daos dao_id).proposal_count).any fun id =>
    match (s.elections dao_id (id + 1)).proposal with
    | some p => p.state = .Active && p.vote_mode = .Fixed && p.eligible_root = candidate_root
    | none => false

end ZkVote.Voting
