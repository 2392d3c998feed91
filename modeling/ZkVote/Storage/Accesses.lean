import ZkVote.Lib.Storage
import ZkVote.Rewards.Contract
import ZkVote.Voting.Steps

/-!
# Storage entries and their TTL

The other modules know only what an entry holds. Here are the classes of storage, and for
the calls that extend entries they may not have written: what each touches, and in what order.
-/

open Lib Lib.Outcome
open ZkVote.Voting (Crypto Proof)

namespace ZkVote.Storage

/-- `DataKey` of the three contracts; `Instance` for the instance as a whole. -/
inductive Key where
  | Instance
  | Nullifier (dao_id proposal_id : Nat) (nullifier : U256)
  | NullifierAccumulator (dao_id proposal_id : Nat)
  | EncryptedBallot (dao_id proposal_id : Nat) (nullifier : U256)
  | EncryptedBallotCount (dao_id proposal_id : Nat)
  | Proposal (dao_id proposal_id : Nat)
  | Roots (dao_id : Nat)
  | RootIndex (dao_id : Nat) (root : U256)
  | MinValidRootIdx (dao_id : Nat)
  | LeafIndex (dao_id : Nat) (commitment : U256)
  | TreeDepth (dao_id : Nat)
  | RevokedAt (dao_id : Nat) (commitment : U256)
  | ReinstatedAt (dao_id : Nat) (commitment : U256)
  | EpochRoot (dao_id epoch : Nat)
  | EpochAdvancedAt (dao_id epoch : Nat)
  | VkVersion (dao_id : Nat)
  | Treasury (dao_id : Nat)
  | RewardAmount (dao_id : Nat)
  | ClaimedCount (dao_id proposal_id : Nat)
  deriving DecidableEq

/-- Only nullifiers are ever Temporary. Of the entries that read as zero when missing, those that are zero count as
missing; `ReinstatedAt` is not written anywhere. -/
def entries (env : Rewards.RewardsEnv) (s : Rewards.RewardsState) : Entries Key
  | .Instance, .Instance => true
  | .Temporary, .Nullifier d p n => (env.voting.elections d p).ballots.nullifier_temporary n
  | .Persistent, .Nullifier d p n => (env.voting.elections d p).ballots.nullifier n
  | .Persistent, .NullifierAccumulator d p => (env.voting.elections d p).ballots.nullifier_accumulator.isSome
  | .Persistent, .EncryptedBallot d p n => ((env.voting.elections d p).ballots.encrypted_ballot n).isSome
  | .Persistent, .EncryptedBallotCount d p => (env.voting.elections d p).ballots.encrypted_ballot_count != 0
  | .Persistent, .Proposal d p => (env.voting.elections d p).proposal.isSome
  | .Persistent, .Roots d => (env.tree.daos d).roots.isSome
  | .Persistent, .RootIndex d root => ((env.tree.daos d).root_index root).isSome
  | .Persistent, .MinValidRootIdx d => (env.tree.daos d).min_valid_root_idx.isSome
  | .Persistent, .LeafIndex d commitment => ((env.tree.daos d).leaf_index commitment).isSome
  | .Persistent, .TreeDepth d => (env.tree.daos d).tree_depth.isSome
  | .Persistent, .RevokedAt d commitment => ((env.tree.daos d).revoked_at commitment).isSome
  | .Persistent, .EpochRoot d epoch => ((env.tree.daos d).epoch_root epoch).isSome
  | .Persistent, .EpochAdvancedAt d epoch => ((env.tree.daos d).epoch_advanced_at epoch).isSome
  | .Persistent, .VkVersion d => (s.vk_version d).isSome
  | .Persistent, .Treasury d => s.treasury d != 0
  | .Persistent, .RewardAmount d => (s.reward_amount d).isSome
  | .Persistent, .ClaimedCount d p => s.claimed_count (d, p) != 0
  | _, _ => false

/-- The accesses of a call, if it passes its checks. -/
abbrev Accesses := Option (List (Access Key))

def bump_instance : List (Access Key) := [.extend_ttl .Instance .Instance]
def bump_persistent (key : Key) : List (Access Key) := [.extend_ttl .Persistent key]
def set_persistent (key : Key) : List (Access Key) := [.set .Persistent key, .extend_ttl .Persistent key]

/-! ## Readers of the rewards contract -/

section
variable (s : Rewards.RewardsState)

def get_vk (dao_id : Nat) : Accesses := do
  let ver ← s.vk_version dao_id
  let _ ← s.vk_by_version (dao_id, ver)
  return bump_instance ++ bump_persistent (.VkVersion dao_id)

def vk_version (dao_id : Nat) : Accesses :=
  let ver := (s.vk_version dao_id).getD 0
  some (bump_instance ++ if 0 < ver then bump_persistent (.VkVersion dao_id) else [])

def vk_for_version (dao_id version : Nat) : Accesses := do
  let _ ← s.vk_by_version (dao_id, version)
  return bump_instance

def get_treasury (dao_id : Nat) : Accesses :=
  let bal := s.treasury dao_id
  some (bump_instance ++ if bal ≠ 0 then bump_persistent (.Treasury dao_id) else [])

/-- The entry is extended whether it was there or not. -/
def get_reward_amount (dao_id : Nat) : Accesses := some (bump_instance ++ bump_persistent (.RewardAmount dao_id))

def get_claimed_count (dao_id proposal_id : Nat) : Accesses :=
  let c := s.claimed_count (dao_id, proposal_id)
  some (bump_instance ++ if c ≠ 0 then bump_persistent (.ClaimedCount dao_id proposal_id) else [])

end

/-! ## Readers of the tree -/

section
variable (t : Tree.MembershipTree)

def epoch_root (dao_id epoch : Nat) : Accesses := do
  let _ ← (Tree.epoch_root t dao_id epoch).toOption
  return bump_instance ++ bump_persistent (.EpochRoot dao_id epoch)

def epoch_advanced_at (dao_id epoch : Nat) : Accesses := do
  let _ ← (Tree.epoch_advanced_at t dao_id epoch).toOption
  return bump_instance ++ bump_persistent (.EpochAdvancedAt dao_id epoch)

def get_epoch_info (dao_id : Nat) : Accesses := do
  let epoch := Tree.current_epoch t dao_id
  let root ← epoch_root t dao_id epoch
  let advanced_at ← epoch_advanced_at t dao_id epoch
  return bump_instance ++ root ++ advanced_at

def current_root (dao_id : Nat) : Accesses := do
  let _ ← (Tree.current_root t dao_id).toOption
  return bump_instance ++ bump_persistent (.Roots dao_id)

def min_root (dao_id : Nat) : List (Access Key) :=
  bump_instance ++ if 0 < Tree.min_root t dao_id then bump_persistent (.MinValidRootIdx dao_id) else []

def root_eligibility (dao_id : Nat) (root : U256) (earliest_root_index : Nat) : List (Access Key) :=
  bump_instance ++
    match (t.daos dao_id).root_index root with
    | none => []
    | some root_index =>
      bump_persistent (.RootIndex dao_id root) ++
        if root_index < earliest_root_index then [] else min_root t dao_id

def root_idx (dao_id : Nat) (root : U256) : Accesses := do
  let _ ← (Tree.root_idx t dao_id root).toOption
  return bump_instance ++ bump_persistent (.RootIndex dao_id root)

def curr_idx (dao_id : Nat) : Accesses := do
  let root ← (Tree.current_root t dao_id).toOption
  let current ← current_root t dao_id
  let index ← root_idx t dao_id root
  return current ++ index

def get_leaf_index (dao_id : Nat) (commitment : U256) : Accesses := do
  let _ ← (t.daos dao_id).leaf_index commitment
  return bump_instance ++ bump_persistent (.LeafIndex dao_id commitment)

def get_tree_info (dao_id : Nat) : Accesses := do
  let _ ← (t.daos dao_id).tree_depth
  let _ ← (t.daos dao_id).next_leaf_index
  let root ← current_root t dao_id
  return bump_instance ++ root

/-- A history that is missing reads as empty, and is extended. -/
def root_history_len (dao_id : Nat) : Accesses := some (bump_instance ++ bump_persistent (.Roots dao_id))

def anonymity_set_size (dao_id : Nat) : Accesses :=
  some (bump_instance ++ if (t.daos dao_id).tree_depth.isSome then bump_persistent (.TreeDepth dao_id) else [])

def revok_at (dao_id : Nat) (commitment : U256) : List (Access Key) :=
  bump_instance ++
    if ((t.daos dao_id).revoked_at commitment).isSome then bump_persistent (.RevokedAt dao_id commitment) else []

def verify_exclusion (dao_id : Nat) (commitment : U256) : Accesses :=
  some (bump_instance ++ revok_at t dao_id commitment)

end

/-! ## Ballots -/

section
variable (C : Crypto) (bump : Voting.Ballots → U256 → Outcome Voting.VotingError Unit) (env : Voting.VotingEnv)
  (s : Voting.VotingState)

open ZkVote.Voting in
/-- `record_bridged_vote` up to the extension of the nullifier. -/
def record_bridged_vote_with (dao_id proposal_id : Nat) (vote_choice : Bool) (nullifier root : U256) :
    Outcome VotingError VotingState := do
  let s ← require_not_paused env s
  let bridge ← orPanic s.inst.bridge_contract .BridgeContractNotSet
  require_auth env.toEnv bridge
  let ctx := PathContext.Anonymous
  let s ← set_reentrancy_lock s
  assert_in_field ctx nullifier
  assert_in_field ctx root
  require (nullifier ≠ 0) (panic_coarse ctx .InvalidNullifier)
  let e := s.elections dao_id proposal_id
  require (nullifier_is_used e.ballots nullifier = false) (panic_coarse ctx .NullifierUsed)
  let proposal ← expect e.proposal
  assert_voting_open env (panic_coarse ctx) proposal
  let ballots :=
    { e.ballots with nullifier_temporary := Function.update e.ballots.nullifier_temporary nullifier true }
  bump ballots nullifier
  assert_root_eligible env ctx dao_id proposal root
  assert_candidate_index (panic_coarse ctx) e vote_choice
  let ballots := accumulate_nullifier C ballots nullifier
  let proposal ← count_vote (panic_coarse ctx) proposal vote_choice
  return clear_reentrancy_lock
    (s.set_election dao_id proposal_id { e with proposal := some proposal, ballots := ballots })

open ZkVote.Voting in
/-- `vote_encrypted` up to the extension of the nullifier. -/
def vote_encrypted_with (dao_id proposal_id : Nat) (nullifier root : U256) (epoch : Nat)
    (c1 c_yes c_no : BytesN 64) (proof : Proof) : Outcome VotingError VotingState := do
  let s ← require_not_paused env s
  let ctx := PathContext.Anonymous
  let s ← set_reentrancy_lock s
  assert_in_field ctx nullifier
  assert_in_field ctx root
  require (nullifier ≠ 0) (panic_coarse ctx .InvalidNullifier)
  let e := s.elections dao_id proposal_id
  require (nullifier_is_used e.ballots nullifier = false) (panic_coarse ctx .NullifierUsed)
  let proposal ← expect e.proposal
  assert_voting_open env (panic_coarse ctx) proposal
  let config ← orPanic e.encrypted_config (panic_coarse ctx .EncryptedTallyNotConfigured)
  require (config.finalized = false) (panic_coarse ctx .EncryptedTallyAlreadyFinalized)
  let ballots :=
    { e.ballots with nullifier_temporary := Function.update e.ballots.nullifier_temporary nullifier true }
  bump ballots nullifier
  assert_root_eligible env ctx dao_id proposal root
  assert_epoch env ctx dao_id epoch
  let epoch_root ← invoke (Tree.epoch_root env.tree dao_id epoch)
  require (epoch_root = root) (panic_coarse ctx .EpochMismatch)
  require (¬ (epoch_root ≠ proposal.eligible_root ∧ proposal.vote_mode = .Fixed ∧
    epoch ≠ Tree.current_epoch env.tree dao_id)) (panic_coarse ctx .EpochMismatch)
  let vk ← orPanic (s.daos dao_id).keys.encrypted_vk (panic_coarse ctx .EncryptedVkNotSet)
  require (hash_vk C vk = config.vk_hash) (panic_coarse ctx .VkChanged)
  let (c1x, c1y) ← point_bytes_to_u256 c1
  let (cyx, cyy) ← point_bytes_to_u256 c_yes
  let (cnx, cny) ← point_bytes_to_u256 c_no
  require (¬ ((c1x = 0 ∧ c1y = 1) ∨ (cyx = 0 ∧ cyy = 1) ∨ (cnx = 0 ∧ cny = 1)))
    (panic_coarse ctx .InvalidCiphertext)
  let num_candidates := (e.config.map ElectionConfig.num_candidates).getD 2
  require (¬ (num_candidates = 0 ∨ 2 < num_candidates)) (panic_coarse ctx .InvalidCandidateIndex)
  let pub_signals : List U256 :=
    [root, nullifier, dao_id, proposal_id, num_candidates, epoch, config.public_key_x,
      config.public_key_y, c1x, c1y, cyx, cyy, cnx, cny, 0]
  require (C.verify_groth16 vk proof pub_signals = true) (panic_coarse ctx .InvalidProof)
  let ballots := accumulate_nullifier C ballots nullifier
  let ballot : EncryptedBallot :=
    { nullifier := nullifier, c1 := c1, c_yes := c_yes, c_no := c_no, epoch := epoch }
  let count ← orPanic (checkedAdd 64 ballots.encrypted_ballot_count 1) (panic_coarse ctx .TallyOverflow)
  let ballots := { ballots with
    encrypted_ballot := Function.update ballots.encrypted_ballot nullifier (some ballot)
    encrypted_ballot_count := count }
  return clear_reentrancy_lock
    (s.set_election dao_id proposal_id { e with proposal := some proposal, ballots := ballots })

end

theorem record_bridged_vote_eq (C : Crypto) :
    Voting.record_bridged_vote C = record_bridged_vote_with C Voting.bump_nullifier_ttl := rfl

theorem vote_encrypted_eq (C : Crypto) :
    Voting.vote_encrypted C = vote_encrypted_with C Voting.bump_nullifier_ttl := rfl

/-- `assert_root_eligible`. -/
def root_eligible (env : Voting.VotingEnv) (dao_id : Nat) (proposal : Option Voting.ProposalInfo) (root : U256) :
    List (Access Key) :=
  match proposal.map Voting.ProposalInfo.vote_mode with
  | some .Fixed => root_eligibility env.tree dao_id root 0
  | some .Trailing =>
    bump_instance ++ bump_persistent (.RootIndex dao_id root) ++ root_eligibility env.tree dao_id root 0
  | _ => []

/-- The nullifier goes to Temporary storage, and is extended in Persistent storage. -/
def use_nullifier (dao_id proposal_id : Nat) (nullifier : U256) : List (Access Key) :=
  [.set .Temporary (.Nullifier dao_id proposal_id nullifier),
    .extend_ttl .Persistent (.Nullifier dao_id proposal_id nullifier)]

def assert_epoch (env : Voting.VotingEnv) (dao_id epoch : Nat) : List (Access Key) :=
  let current_epoch := Tree.current_epoch env.tree dao_id
  bump_instance ++
    (if epoch < current_epoch then bump_instance ++ bump_persistent (.EpochAdvancedAt dao_id current_epoch) else []) ++
    bump_instance ++ bump_persistent (.EpochRoot dao_id epoch)

/-- The checks are those of the call with an extension that always succeeds. -/
def record_bridged_vote (C : Crypto) (env : Rewards.RewardsEnv) (dao_id proposal_id : Nat) (vote_choice : Bool)
    (nullifier root : U256) : Accesses := do
  let _ ← (record_bridged_vote_with C (fun _ _ => .ok ()) env.toVotingEnv env.voting dao_id proposal_id
    vote_choice nullifier root).toOption
  return bump_instance ++ use_nullifier dao_id proposal_id nullifier ++
    root_eligible env.toVotingEnv dao_id (env.voting.elections dao_id proposal_id).proposal root ++
    set_persistent (.NullifierAccumulator dao_id proposal_id) ++
    set_persistent (.Proposal dao_id proposal_id)

def vote_encrypted (C : Crypto) (env : Rewards.RewardsEnv) (dao_id proposal_id : Nat) (nullifier root : U256)
    (epoch : Nat) (c1 c_yes c_no : BytesN 64) (proof : Proof) : Accesses := do
  let _ ← (vote_encrypted_with C (fun _ _ => .ok ()) env.toVotingEnv env.voting dao_id proposal_id nullifier root
    epoch c1 c_yes c_no proof).toOption
  return bump_instance ++ use_nullifier dao_id proposal_id nullifier ++
    root_eligible env.toVotingEnv dao_id (env.voting.elections dao_id proposal_id).proposal root ++
    assert_epoch env.toVotingEnv dao_id epoch ++
    set_persistent (.NullifierAccumulator dao_id proposal_id) ++
    set_persistent (.EncryptedBallot dao_id proposal_id nullifier) ++
    set_persistent (.EncryptedBallotCount dao_id proposal_id) ++
    set_persistent (.Proposal dao_id proposal_id)

/-! ## Every path -/

inductive Path where
  | vote_encrypted (dao_id proposal_id : Nat) (nullifier root : U256) (epoch : Nat) (c1 c_yes c_no : BytesN 64)
      (proof : Proof)
  | record_bridged_vote (dao_id proposal_id : Nat) (vote_choice : Bool) (nullifier root : U256)
  | get_vk (dao_id : Nat)
  | vk_version (dao_id : Nat)
  | vk_for_version (dao_id version : Nat)
  | get_treasury (dao_id : Nat)
  | get_reward_amount (dao_id : Nat)
  | get_claimed_count (dao_id proposal_id : Nat)
  | epoch_root (dao_id epoch : Nat)
  | epoch_advanced_at (dao_id epoch : Nat)
  | get_epoch_info (dao_id : Nat)
  | current_root (dao_id : Nat)
  | min_root (dao_id : Nat)
  | root_eligibility (dao_id : Nat) (root : U256) (earliest_root_index : Nat)
  | root_idx (dao_id : Nat) (root : U256)
  | curr_idx (dao_id : Nat)
  | get_leaf_index (dao_id : Nat) (commitment : U256)
  | get_tree_info (dao_id : Nat)
  | root_history_len (dao_id : Nat)
  | anonymity_set_size (dao_id : Nat)
  | revok_at (dao_id : Nat) (commitment : U256)
  | verify_exclusion (dao_id : Nat) (commitment : U256)
  /-- The readers of both contracts that extend nothing but the instance: `reinst_at` too, as no entry is ever there. -/
  | other

def accesses (C : Crypto) (env : Rewards.RewardsEnv) (s : Rewards.RewardsState) : Path → Accesses
  | .vote_encrypted dao_id proposal_id nullifier root epoch c1 c_yes c_no proof =>
    vote_encrypted C env dao_id proposal_id nullifier root epoch c1 c_yes c_no proof
  | .record_bridged_vote dao_id proposal_id vote_choice nullifier root =>
    record_bridged_vote C env dao_id proposal_id vote_choice nullifier root
  | .get_vk dao_id => get_vk s dao_id
  | .vk_version dao_id => vk_version s dao_id
  | .vk_for_version dao_id version => vk_for_version s dao_id version
  | .get_treasury dao_id => get_treasury s dao_id
  | .get_reward_amount dao_id => get_reward_amount dao_id
  | .get_claimed_count dao_id proposal_id => get_claimed_count s dao_id proposal_id
  | .epoch_root dao_id epoch => epoch_root env.tree dao_id epoch
  | .epoch_advanced_at dao_id epoch => epoch_advanced_at env.tree dao_id epoch
  | .get_epoch_info dao_id => get_epoch_info env.tree dao_id
  | .current_root dao_id => current_root env.tree dao_id
  | .min_root dao_id => some (min_root env.tree dao_id)
  | .root_eligibility dao_id root earliest_root_index =>
    some (root_eligibility env.tree dao_id root earliest_root_index)
  | .root_idx dao_id root => root_idx env.tree dao_id root
  | .curr_idx dao_id => curr_idx env.tree dao_id
  | .get_leaf_index dao_id commitment => get_leaf_index env.tree dao_id commitment
  | .get_tree_info dao_id => get_tree_info env.tree dao_id
  | .root_history_len dao_id => root_history_len dao_id
  | .anonymity_set_size dao_id => anonymity_set_size env.tree dao_id
  | .revok_at dao_id commitment => some (revok_at env.tree dao_id commitment)
  | .verify_exclusion dao_id commitment => verify_exclusion env.tree dao_id commitment
  | .other => some bump_instance

end ZkVote.Storage
