import ZkVote.Lib.Runs
import ZkVote.Voting.Randomness
import ZkVote.Voting.Tally

/-!
# The voting contract: calls

Every entry point that writes. A call that panics changes nothing.
-/

open Lib Lib.Outcome

namespace ZkVote.Voting

/-! ## Ballots -/

inductive BallotCall where
  | vote (dao_id proposal_id : Nat) (vote_choice : Bool) (nullifier root : U256) (proof : Proof)
  | vote_bls381 (dao_id proposal_id : Nat) (vote_choice : Bool) (nullifier root : U256)
      (proof : ProofBls381)
  | cast_votes (dao_id proposal_id : Nat) (votes : List BatchVote)
  | vote_with_circuit (dao_id proposal_id : Nat) (vote_choice : Bool) (nullifier root : U256)
      (proof : Proof) (circuit_id : Bytes)
  | vote_weighted (dao_id proposal_id : Nat) (vote_choice : Bool) (nullifier root : U256) (proof : Proof)
      (balance_commitment max_supply : U256) (weight domain_tag : Nat)
  | vote_sybil_weighted (dao_id proposal_id : Nat) (vote_choice : Bool)
      (nullifier root attestation_commitment : U256) (snapshot_time vote_weight : Nat) (proof : Proof)
  | commit_vote (dao_id proposal_id : Nat) (nullifier root : U256) (commitment : BytesN 32) (proof : Proof)
  | vote_encrypted (dao_id proposal_id : Nat) (nullifier root : U256) (epoch : Nat)
      (c1 c_yes c_no : BytesN 64) (proof : Proof)
  | record_bridged_vote (dao_id proposal_id : Nat) (vote_choice : Bool) (nullifier root : U256)
  | cast_qv_vote (dao_id proposal_id : Nat) (nullifier root : U256) (total_credits_spent : Nat)
      (allocations_hash : U256) (proof : Proof)

namespace BallotCall

def run (C : Crypto) (env : VotingEnv) (s : VotingState) : BallotCall → Outcome VotingError VotingState
  | vote dao_id proposal_id vote_choice nullifier root proof =>
    Voting.vote C env s dao_id proposal_id vote_choice nullifier root proof
  | vote_bls381 dao_id proposal_id vote_choice nullifier root proof =>
    Voting.vote_bls381 C env s dao_id proposal_id vote_choice nullifier root proof
  | cast_votes dao_id proposal_id votes => do
    let (_, s) ← Voting.cast_votes C env s dao_id proposal_id votes
    return s
  | vote_with_circuit dao_id proposal_id vote_choice nullifier root proof circuit_id =>
    Voting.vote_with_circuit C env s dao_id proposal_id vote_choice nullifier root proof circuit_id
  | vote_weighted dao_id proposal_id vote_choice nullifier root proof balance_commitment max_supply weight
      domain_tag =>
    Voting.vote_weighted C env s dao_id proposal_id vote_choice nullifier root proof balance_commitment
      max_supply weight domain_tag
  | vote_sybil_weighted dao_id proposal_id vote_choice nullifier root attestation_commitment snapshot_time
      vote_weight proof =>
    Voting.vote_sybil_weighted C env s dao_id proposal_id vote_choice nullifier root attestation_commitment
      snapshot_time vote_weight proof
  | commit_vote dao_id proposal_id nullifier root commitment proof =>
    Voting.commit_vote C env s dao_id proposal_id nullifier root commitment proof
  | vote_encrypted dao_id proposal_id nullifier root epoch c1 c_yes c_no proof =>
    Voting.vote_encrypted C env s dao_id proposal_id nullifier root epoch c1 c_yes c_no proof
  | record_bridged_vote dao_id proposal_id vote_choice nullifier root =>
    Voting.record_bridged_vote C env s dao_id proposal_id vote_choice nullifier root
  | cast_qv_vote dao_id proposal_id nullifier root total_credits_spent allocations_hash proof =>
    Voting.cast_qv_vote C env s dao_id proposal_id nullifier root total_credits_spent allocations_hash proof

/-- The election a ballot is for. -/
@[simp] def election : BallotCall → Nat × Nat
  | vote d p _ _ _ _ | vote_bls381 d p _ _ _ _ | cast_votes d p _ | vote_with_circuit d p _ _ _ _ _
  | vote_weighted d p _ _ _ _ _ _ _ _ | vote_sybil_weighted d p _ _ _ _ _ _ _
  | commit_vote d p _ _ _ _ | vote_encrypted d p _ _ _ _ _ _ _ | record_bridged_vote d p _ _ _
  | cast_qv_vote d p _ _ _ _ _ => (d, p)

/-- The nullifiers it spends. -/
@[simp] def nullifiers : BallotCall → List U256
  | cast_votes _ _ votes => votes.map BatchVote.nullifier
  | vote _ _ _ n _ _ | vote_bls381 _ _ _ n _ _ | vote_with_circuit _ _ _ n _ _ _
  | vote_weighted _ _ _ n _ _ _ _ _ _ | vote_sybil_weighted _ _ _ n _ _ _ _ _
  | commit_vote _ _ n _ _ _ | vote_encrypted _ _ n _ _ _ _ _ _ | record_bridged_vote _ _ _ n _
  | cast_qv_vote _ _ n _ _ _ _ => [n]

/-- The Merkle roots it supplies. -/
@[simp] def roots : BallotCall → List U256
  | cast_votes _ _ votes => votes.map BatchVote.root
  | vote _ _ _ _ r _ | vote_bls381 _ _ _ _ r _ | vote_with_circuit _ _ _ _ r _ _
  | vote_weighted _ _ _ _ r _ _ _ _ _ | vote_sybil_weighted _ _ _ _ r _ _ _ _
  | commit_vote _ _ _ r _ _ | vote_encrypted _ _ _ r _ _ _ _ _ | record_bridged_vote _ _ _ _ r
  | cast_qv_vote _ _ _ r _ _ _ => [r]

end BallotCall

/-! ## Tallies -/

inductive TallyCall where
  | reveal_vote (dao_id proposal_id : Nat) (nullifier : U256) (vote_choice : Bool) (blinding : Bytes)
  | submit_recursive_tally (dao_id proposal_id num_votes yes_votes no_votes : Nat)
      (final_nullifier_acc : U256) (proof : Proof)
  | finalize_encrypted_tally (dao_id proposal_id : Nat) (params : FinalizeEncryptedTallyParams)
  | record_qv_tally (dao_id round_id : Nat) (proposal_ids tallies : List Nat) (tally_proof : Proof)
  | migrate_nullifier (dao_id proposal_id : Nat) (nullifier : U256) (admin : Address)

def TallyCall.run (C : Crypto) (env : VotingEnv) (s : VotingState) :
    TallyCall → Outcome VotingError VotingState
  | reveal_vote dao_id proposal_id nullifier vote_choice blinding =>
    Voting.reveal_vote C env s dao_id proposal_id nullifier vote_choice blinding
  | submit_recursive_tally dao_id proposal_id num_votes yes_votes no_votes final_nullifier_acc proof =>
    Voting.submit_recursive_tally C env s dao_id proposal_id num_votes yes_votes no_votes
      final_nullifier_acc proof
  | finalize_encrypted_tally dao_id proposal_id params =>
    Voting.finalize_encrypted_tally env s dao_id proposal_id params
  | record_qv_tally dao_id round_id proposal_ids tallies tally_proof =>
    Voting.record_qv_tally C s dao_id round_id proposal_ids tallies tally_proof
  | migrate_nullifier dao_id proposal_id nullifier admin => do
    let (_, s) ← Voting.migrate_nullifier C env s dao_id proposal_id nullifier admin
    return s

/-- The election it is about. -/
@[simp] def TallyCall.election : TallyCall → Nat × Nat
  | reveal_vote d p _ _ _ | submit_recursive_tally d p _ _ _ _ _ | finalize_encrypted_tally d p _
  | record_qv_tally d p _ _ _ | migrate_nullifier d p _ _ => (d, p)

/-! ## Proposals -/

inductive CreateCall where
  | create_proposal (dao_id : Nat) (title content_cid : Bytes) (end_time : Nat) (creator : Address)
      (vote_mode : VoteMode)
  | create_proposal_in_registration (dao_id : Nat) (title content_cid : Bytes) (end_time : Nat)
      (creator : Address) (vote_mode : VoteMode)
  | create_proposal_with_vk_version (dao_id : Nat) (title content_cid : Bytes) (end_time : Nat)
      (creator : Address) (vote_mode : VoteMode) (vk_version : Nat)
  | create_encrypted_proposal (dao_id : Nat) (creator : Address) (params : CreateEncryptedProposalParams)
      (eligibility_snapshot_root : U256)
  | create_qv_proposal (dao_id : Nat) (title content_cid : Bytes) (end_time : Nat) (creator : Address)
      (eligibility_snapshot_root : U256)

namespace CreateCall

def create (C : Crypto) (env : VotingEnv) (s : VotingState) :
    CreateCall → Outcome VotingError (Nat × VotingState)
  | create_proposal dao_id title content_cid end_time creator vote_mode =>
    Voting.create_proposal C env s dao_id title content_cid end_time creator vote_mode
  | create_proposal_in_registration dao_id title content_cid end_time creator vote_mode =>
    Voting.create_proposal_in_registration C env s dao_id title content_cid end_time creator vote_mode
  | create_proposal_with_vk_version dao_id title content_cid end_time creator vote_mode vk_version =>
    Voting.create_proposal_with_vk_version C env s dao_id title content_cid end_time creator vote_mode
      vk_version
  | create_encrypted_proposal dao_id creator params eligibility_snapshot_root =>
    Voting.create_encrypted_proposal C env s dao_id creator params eligibility_snapshot_root
  | create_qv_proposal dao_id title content_cid end_time creator eligibility_snapshot_root =>
    Voting.create_qv_proposal C env s dao_id title content_cid end_time creator eligibility_snapshot_root

def run (C : Crypto) (env : VotingEnv) (s : VotingState) (call : CreateCall) :
    Outcome VotingError VotingState := do
  let (_, s) ← call.create C env s
  return s

@[simp] def dao_id : CreateCall → Nat
  | create_proposal d _ _ _ _ _ | create_proposal_in_registration d _ _ _ _ _
  | create_proposal_with_vk_version d _ _ _ _ _ _ | create_encrypted_proposal d _ _ _
  | create_qv_proposal d _ _ _ _ _ => d

@[simp] def creator : CreateCall → Address
  | create_proposal _ _ _ _ a _ | create_proposal_in_registration _ _ _ _ a _
  | create_proposal_with_vk_version _ _ _ _ a _ _ | create_encrypted_proposal _ a _ _
  | create_qv_proposal _ _ _ _ a _ => a

end CreateCall

inductive PhaseCall where
  | activate_proposal (dao_id proposal_id : Nat) (caller : Address)
  | close_proposal (dao_id proposal_id : Nat) (admin : Address)
  | archive_proposal (dao_id proposal_id : Nat) (admin : Address)

def PhaseCall.run (env : VotingEnv) (s : VotingState) : PhaseCall → Outcome VotingError VotingState
  | activate_proposal dao_id proposal_id caller => Voting.activate_proposal env s dao_id proposal_id caller
  | close_proposal dao_id proposal_id admin => Voting.close_proposal env s dao_id proposal_id admin
  | archive_proposal dao_id proposal_id admin => Voting.archive_proposal env s dao_id proposal_id admin

@[simp] def PhaseCall.election : PhaseCall → Nat × Nat
  | activate_proposal d p _ | close_proposal d p _ | archive_proposal d p _ => (d, p)

/-! ## The configuration of an election -/

inductive ConfigCall where
  | set_election_config (dao_id proposal_id : Nat) (min_balance : Int) (twab_window num_candidates : Nat)
      (admin : Address)
  | set_election_config_with_depth (dao_id proposal_id : Nat) (min_balance : Int)
      (twab_window num_candidates merkle_depth : Nat) (admin : Address)
  | set_commitment_window (dao_id proposal_id commitment_window : Nat) (admin : Address)
  | set_merkle_root (dao_id proposal_id : Nat) (new_root : U256) (admin : Address)
  | create_balance_snapshot (dao_id proposal_id : Nat) (admin : Address)
  | set_commit_reveal (dao_id proposal_id commit_deadline reveal_opens_at reveal_closes_at : Nat)
      (require_vdf : Bool) (admin : Address)
  | set_sybil_weight_cap (dao_id proposal_id cap : Nat) (admin : Address)
  | set_attestation_root (dao_id proposal_id : Nat) (root : U256) (admin : Address)
  | commit_randomness (dao_id proposal_id : Nat) (commitment : BytesN 32) (participant : Address)
  | reveal_randomness (dao_id proposal_id : Nat) (value : BytesN 32) (participant : Address)
  | finalize_candidate_seed (dao_id proposal_id : Nat)
  | set_vdf_delay (dao_id proposal_id delay : Nat) (admin : Address)
  | submit_vdf_output (dao_id proposal_id : Nat) (vdf_output : BytesN 32) (checkpoints : List (BytesN 32))
      (proposal_creation_time : Nat)
  | finalize_with_vdf (dao_id proposal_id : Nat)

def ConfigCall.run (C : Crypto) (env : VotingEnv) (s : VotingState) :
    ConfigCall → Outcome VotingError VotingState
  | set_election_config dao_id proposal_id min_balance twab_window num_candidates admin =>
    Voting.set_election_config env s dao_id proposal_id min_balance twab_window num_candidates admin
  | set_election_config_with_depth dao_id proposal_id min_balance twab_window num_candidates merkle_depth
      admin =>
    Voting.set_election_config_with_depth C env s dao_id proposal_id min_balance twab_window num_candidates
      merkle_depth admin
  | set_commitment_window dao_id proposal_id commitment_window admin =>
    Voting.set_commitment_window env s dao_id proposal_id commitment_window admin
  | set_merkle_root dao_id proposal_id new_root admin =>
    Voting.set_merkle_root env s dao_id proposal_id new_root admin
  | create_balance_snapshot dao_id proposal_id admin =>
    Voting.create_balance_snapshot env s dao_id proposal_id admin
  | set_commit_reveal dao_id proposal_id commit_deadline reveal_opens_at reveal_closes_at require_vdf
      admin =>
    Voting.set_commit_reveal env s dao_id proposal_id commit_deadline reveal_opens_at reveal_closes_at
      require_vdf admin
  | set_sybil_weight_cap dao_id proposal_id cap admin =>
    Voting.set_sybil_weight_cap env s dao_id proposal_id cap admin
  | set_attestation_root dao_id proposal_id root admin =>
    Voting.set_attestation_root env s dao_id proposal_id root admin
  | commit_randomness dao_id proposal_id commitment participant =>
    Voting.commit_randomness env s dao_id proposal_id commitment participant
  | reveal_randomness dao_id proposal_id value participant =>
    Voting.reveal_randomness C env s dao_id proposal_id value participant
  | finalize_candidate_seed dao_id proposal_id => do
    let (_, s) ← Voting.finalize_candidate_seed C env s dao_id proposal_id
    return s
  | set_vdf_delay dao_id proposal_id delay admin =>
    Voting.set_vdf_delay C env s dao_id proposal_id delay admin
  | submit_vdf_output dao_id proposal_id vdf_output checkpoints proposal_creation_time =>
    Voting.submit_vdf_output C env s dao_id proposal_id vdf_output checkpoints proposal_creation_time
  | finalize_with_vdf dao_id proposal_id => do
    let (_, s) ← Voting.finalize_with_vdf C env s dao_id proposal_id
    return s

@[simp] def ConfigCall.election : ConfigCall → Nat × Nat
  | set_election_config d p _ _ _ _ | set_election_config_with_depth d p _ _ _ _ _
  | set_commitment_window d p _ _ | set_merkle_root d p _ _ | create_balance_snapshot d p _
  | set_commit_reveal d p _ _ _ _ _ | set_sybil_weight_cap d p _ _ | set_attestation_root d p _ _
  | commit_randomness d p _ _ | reveal_randomness d p _ _ | finalize_candidate_seed d p
  | set_vdf_delay d p _ _ | submit_vdf_output d p _ _ _ | finalize_with_vdf d p => (d, p)

/-! ## Keys, and the other entries of a DAO -/

inductive DaoCall where
  | set_vk (dao_id : Nat) (vk : VerificationKey) (admin : Address)
  | set_vk_with_transcript (dao_id : Nat) (vk : VerificationKey) (admin : Address)
      (transcript_hash : BytesN 32)
  | set_vk_from_registry (dao_id : Nat) (vk : VerificationKey)
  | set_vk_bls381 (dao_id : Nat) (vk : VerificationKeyBls381) (admin : Address)
  | set_vk_from_registry_bls381 (dao_id : Nat) (vk : VerificationKeyBls381)
  | set_encrypted_vk (dao_id : Nat) (vk : VerificationKey) (admin : Address)
  | set_recursive_vk (dao_id : Nat) (vk_bytes : Bytes) (admin : Address)
  | set_tally_vk (dao_id : Nat) (vk : VerificationKey) (admin : Address)
  | set_weighted_vk (dao_id : Nat) (vk : VerificationKey) (admin : Address)
  | set_sybil_vk (dao_id : Nat) (vk : VerificationKey) (admin : Address)
  | set_commit_vk (dao_id : Nat) (vk : VerificationKey) (admin : Address)
  | set_vk_for_depth (dao_id merkle_depth : Nat) (vk : VerificationKey) (admin : Address)
  | set_qv_vk (dao_id : Nat) (vk : VerificationKey) (admin : Address)
  | set_qv_tally_vk (dao_id : Nat) (vk : VerificationKey) (admin : Address)
  | set_weighted_balance_commitment (dao_id : Nat) (commitment : U256)
  | set_dao_current_circuit (dao_id : Nat) (circuit_id : Bytes)
  | set_migration (dao_id : Nat) (old_circuit_id new_circuit_id : Bytes) (deadline : Nat)
  | record_balance_checkpoint (dao_id : Nat) (voter : Address) (balance : Int) (admin : Address)
  | set_voter_cooldown (dao_id : Nat) (voter caller : Address)
  | clear_voter_cooldown (dao_id : Nat) (voter caller : Address)

namespace DaoCall

def run (C : Crypto) (env : VotingEnv) (s : VotingState) : DaoCall → Outcome VotingError VotingState
  | set_vk dao_id vk admin => Voting.set_vk C env s dao_id vk admin
  | set_vk_with_transcript dao_id vk admin transcript_hash =>
    Voting.set_vk_with_transcript C env s dao_id vk admin transcript_hash
  | set_vk_from_registry dao_id vk => Voting.set_vk_from_registry env s dao_id vk
  | set_vk_bls381 dao_id vk admin => Voting.set_vk_bls381 env s dao_id vk admin
  | set_vk_from_registry_bls381 dao_id vk => Voting.set_vk_from_registry_bls381 env s dao_id vk
  | set_encrypted_vk dao_id vk admin => Voting.set_encrypted_vk env s dao_id vk admin
  | set_recursive_vk dao_id vk_bytes admin => Voting.set_recursive_vk env s dao_id vk_bytes admin
  | set_tally_vk dao_id vk admin => Voting.set_tally_vk env s dao_id vk admin
  | set_weighted_vk dao_id vk admin => Voting.set_weighted_vk env s dao_id vk admin
  | set_sybil_vk dao_id vk admin => Voting.set_sybil_vk env s dao_id vk admin
  | set_commit_vk dao_id vk admin => Voting.set_commit_vk env s dao_id vk admin
  | set_vk_for_depth dao_id merkle_depth vk admin =>
    Voting.set_vk_for_depth env s dao_id merkle_depth vk admin
  | set_qv_vk dao_id vk admin => Voting.set_qv_vk env s dao_id vk admin
  | set_qv_tally_vk dao_id vk admin => Voting.set_qv_tally_vk env s dao_id vk admin
  | set_weighted_balance_commitment dao_id commitment =>
    Voting.set_weighted_balance_commitment env s dao_id commitment
  | set_dao_current_circuit dao_id circuit_id => Voting.set_dao_current_circuit env s dao_id circuit_id
  | set_migration dao_id old_circuit_id new_circuit_id deadline =>
    Voting.set_migration env s dao_id old_circuit_id new_circuit_id deadline
  | record_balance_checkpoint dao_id voter balance admin =>
    Voting.record_balance_checkpoint env s dao_id voter balance admin
  | set_voter_cooldown dao_id voter caller => Voting.set_voter_cooldown env s dao_id voter caller
  | clear_voter_cooldown dao_id voter caller => Voting.clear_voter_cooldown env s dao_id voter caller

@[simp] def dao_id : DaoCall → Nat
  | set_vk d _ _ | set_vk_with_transcript d _ _ _ | set_vk_from_registry d _ | set_vk_bls381 d _ _
  | set_vk_from_registry_bls381 d _ | set_encrypted_vk d _ _ | set_recursive_vk d _ _ | set_tally_vk d _ _
  | set_weighted_vk d _ _ | set_sybil_vk d _ _ | set_commit_vk d _ _ | set_vk_for_depth d _ _ _
  | set_qv_vk d _ _ | set_qv_tally_vk d _ _ | set_weighted_balance_commitment d _
  | set_dao_current_circuit d _ | set_migration d _ _ _ | record_balance_checkpoint d _ _ _
  | set_voter_cooldown d _ _ | clear_voter_cooldown d _ _ => d

end DaoCall

/-! ## The contract itself -/

inductive InstanceCall where
  | set_guardian (current_guardian new_guardian : Address)
  | pause (guardian : Address)
  | unpause (guardian : Address)
  | apply_upgrade_from_registry (from_version to_version storage_version : Nat) (migration_payload : Bytes)
  | rollback_upgrade_from_registry (from_version to_version : Nat)
  | set_bridge_contract (guardian bridge : Address)
  | set_circuit_registry (circuit_registry : Address)
  | set_transcript_registry (transcript_registry : Address)

def InstanceCall.run (C : Crypto) (env : VotingEnv) (s : VotingState) :
    InstanceCall → Outcome VotingError VotingState
  | set_guardian current_guardian new_guardian => Voting.set_guardian env s current_guardian new_guardian
  | pause guardian => Voting.pause env s guardian
  | unpause guardian => Voting.unpause env s guardian
  | apply_upgrade_from_registry from_version to_version storage_version migration_payload =>
    Voting.apply_upgrade_from_registry C env s from_version to_version storage_version migration_payload
  | rollback_upgrade_from_registry from_version to_version =>
    Voting.rollback_upgrade_from_registry env s from_version to_version
  | set_bridge_contract guardian bridge => Voting.set_bridge_contract env s guardian bridge
  | set_circuit_registry circuit_registry => Voting.set_circuit_registry env s circuit_registry
  | set_transcript_registry transcript_registry => Voting.set_transcript_registry env s transcript_registry

/-! ## Steps -/

inductive Call where
  | ballot (call : BallotCall)
  | tally (call : TallyCall)
  | create (call : CreateCall)
  | phase (call : PhaseCall)
  | config (call : ConfigCall)
  | dao (call : DaoCall)
  | inst (call : InstanceCall)

def step (C : Crypto) (s : VotingState) (env : VotingEnv) : Call → Outcome VotingError VotingState
  | .ballot call => call.run C env s
  | .tally call => call.run C env s
  | .create call => call.run C env s
  | .phase call => call.run env s
  | .config call => call.run C env s
  | .dao call => call.run C env s
  | .inst call => call.run C env s

/-- An accepted call. -/
def Accepts (C : Crypto) (s : VotingState) (call : VotingEnv × Call) (s' : VotingState) : Prop :=
  step C s call.1 call.2 = .ok s'

/-- A run from the deployment of the contract. -/
def VotingRun (C : Crypto) (registry guardian : Address) :
    List (VotingState × VotingEnv × Call) → VotingState → Prop :=
  Run (Accepts C) (constructor registry guardian)

abbrev VotingMoment := Moment VotingState (VotingEnv × Call)

/-- The state the ledger holds after a call. -/
def settled (C : Crypto) (s : VotingState) (call : VotingEnv × Call) : VotingState :=
  match step C s call.1 call.2 with
  | .ok s' => s'
  | .error _ => s

/-- A run with the rejected calls in it. -/
def AttemptRun (C : Crypto) (registry guardian : Address) :
    List (VotingState × VotingEnv × Call) → VotingState → Prop :=
  Run (fun s call s' => settled C s call = s') (constructor registry guardian)

theorem Accepts.settled {C : Crypto} {s s' : VotingState} {call : VotingEnv × Call} (h : Accepts C s call s') :
    settled C s call = s' := by
  rw [Voting.settled, show step C s call.1 call.2 = .ok s' from h]

theorem settled_cases (C : Crypto) (s : VotingState) (call : VotingEnv × Call) :
    settled C s call = s ∨ Accepts C s call (settled C s call) := by
  by_cases h : ∃ s', Accepts C s call s'
  · obtain ⟨s', hs⟩ := h
    rw [hs.settled]
    exact .inr hs
  · left
    unfold settled
    split
    · rename_i s' hs
      exact absurd ⟨s', hs⟩ h
    · rfl

theorem VotingRun.attempts {C : Crypto} {registry guardian : Address}
    {log : List (VotingState × VotingEnv × Call)} {s : VotingState} (hrun : VotingRun C registry guardian log s) :
    AttemptRun C registry guardian log s :=
  Run.mono (fun _ _ _ => Accepts.settled) hrun

theorem AttemptRun.accepted {C : Crypto} {registry guardian : Address}
    {log : List (VotingState × VotingEnv × Call)} {s : VotingState}
    (hrun : AttemptRun C registry guardian log s) : ∃ log', VotingRun C registry guardian log' s := by
  refine Run.simulates id (fun s call s' (h : settled C s call = s') => ?_) hrun
  rcases settled_cases C s call with hsame | haccepted
  · exact .inl (h ▸ hsame)
  · exact .inr ⟨call, h ▸ haccepted⟩

end ZkVote.Voting
