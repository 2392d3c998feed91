import ZkVote.Voting.Effects

/-!
# The voting contract: what the other calls do

None of them touches a ballot, except the reveal of a committed vote. Votes are
counted by reveals and by submitted tallies.
-/

open Lib Lib.Outcome

namespace ZkVote.Voting

/-! ## The configuration of an election -/

/-- The votes counted in plain. -/
def polled (e : Election) : Option (Nat × Nat × VoteMode) :=
  e.proposal.map fun p => (p.yes_votes, p.no_votes, p.vote_mode)

def phase (e : Election) : Option ProposalState := e.proposal.map ProposalInfo.state

def commitment_window (e : Election) : Nat := (election_config e).commitment_window

/-- Neither the ballots of the election, nor its votes, nor its phase have changed. -/
structure Undecided (e e' : Election) : Prop where
  ballots : e'.ballots = e.ballots
  polled : polled e' = polled e
  phase : phase e' = phase e

/-- The election that an accepted configuration call leaves, over the one it finds. -/
inductive ConfigEffect (C : Crypto) (env : VotingEnv) (s : VotingState) (e : Election) : ConfigCall → Election → Prop where
  | set_election_config {d q : Nat} {min_balance : Int} {twab_window num_candidates : Nat} {admin : Address} :
      ConfigEffect C env s e (.set_election_config d q min_balance twab_window num_candidates admin)
        (apply_election_config env e min_balance twab_window num_candidates)
  | set_election_config_with_depth {d q : Nat} {min_balance : Int} {twab_window num_candidates merkle_depth : Nat}
      {admin : Address} {hash : Option (BytesN 32)}
      (pinned : hash = if merkle_depth = 0 then e.proposal_depth_vk_hash
        else ((s.daos d).keys.depth_vk merkle_depth).map (hash_vk C)) :
      ConfigEffect C env s e
        (.set_election_config_with_depth d q min_balance twab_window num_candidates merkle_depth admin)
        { e with
          proposal_depth_vk_hash := hash
          config := some { e.config.getD {} with
            snapshot_ledger := env.sequence
            min_balance := min_balance
            twab_window := twab_window
            num_candidates := num_candidates
            merkle_depth := merkle_depth } }
  | set_commitment_window {d q window : Nat} {admin : Address} :
      ConfigEffect C env s e (.set_commitment_window d q window admin)
        { e with config := some { e.config.getD { snapshot_ledger := env.sequence } with
            commitment_window := window } }
  | set_merkle_root {d q : Nat} {root : U256} {admin : Address} {p : ProposalInfo} (found : e.proposal = some p) :
      ConfigEffect C env s e (.set_merkle_root d q root admin)
        { e with
          proposal := some { p with eligible_root := root }
          config := some { e.config.getD { snapshot_ledger := env.sequence } with
            merkle_root_set_at := some env.timestamp }
          merkle_root_history :=
            e.merkle_root_history ++ [{ root := root, set_at := env.timestamp, set_by := admin }] }
  | create_balance_snapshot {d q : Nat} {admin : Address} :
      ConfigEffect C env s e (.create_balance_snapshot d q admin)
        { e with balance_snapshot := some { snapshot_ledger := env.sequence, timestamp := env.timestamp } }
  | set_commit_reveal {d q deadline opens_at closes_at : Nat} {require_vdf : Bool} {admin : Address} :
      ConfigEffect C env s e (.set_commit_reveal d q deadline opens_at closes_at require_vdf admin)
        { e with
          commit_reveal := some
            { commit_deadline := deadline
              reveal_opens_at := opens_at
              reveal_closes_at := closes_at
              require_vdf := require_vdf } }
  | set_sybil_weight_cap {d q cap : Nat} {admin : Address} :
      ConfigEffect C env s e (.set_sybil_weight_cap d q cap admin) { e with sybil_weight_cap := some cap }
  | set_attestation_root {d q : Nat} {root : U256} {admin : Address} :
      ConfigEffect C env s e (.set_attestation_root d q root admin) { e with attestation_root := some root }
  | commit_randomness {d q : Nat} {commitment : BytesN 32} {participant : Address} :
      ConfigEffect C env s e (.commit_randomness d q commitment participant)
        { e with
          randomness_commit := Function.update e.randomness_commit participant (some commitment)
          randomness_committers := e.randomness_committers ++ [participant] }
  | reveal_randomness {d q : Nat} {value : BytesN 32} {participant : Address} :
      ConfigEffect C env s e (.reveal_randomness d q value participant)
        { e with randomness_reveal := Function.update e.randomness_reveal participant (some value) }
  | finalize_candidate_seed {d q : Nat} {seed : BytesN 32} :
      ConfigEffect C env s e (.finalize_candidate_seed d q)
        { e with config := some { e.config.getD { snapshot_ledger := env.sequence } with candidate_seed := some seed } }
  | set_vdf_delay {d q delay : Nat} {admin : Address} {input : BytesN 32} :
      ConfigEffect C env s e (.set_vdf_delay d q delay admin)
        { e with vdf_delay := some delay, vdf_input := some input }
  | submit_vdf_output {d q delay created_at : Nat} {output : BytesN 32} {checkpoints : List (BytesN 32)}
      (delayed : e.vdf_delay = some delay) :
      ConfigEffect C env s e (.submit_vdf_output d q output checkpoints created_at)
        { e with
          vdf_output := some output
          vdf_proof := some checkpoints
          vdf_finalized := true
          config := some { e.config.getD { snapshot_ledger := env.sequence, vdf_delay := delay } with
            vdf_output := some output
            vdf_delay := delay } }
  | finalize_with_vdf {d q : Nat} {seed : BytesN 32} :
      ConfigEffect C env s e (.finalize_with_vdf d q)
        { e with config := some { e.config.getD { snapshot_ledger := env.sequence } with candidate_seed := some seed } }

/-- The window it sets, if that is what it does. -/
def ConfigCall.setsWindow : ConfigCall → Option Nat
  | .set_commitment_window _ _ window _ => some window
  | _ => none

section
variable {C : Crypto} {env : VotingEnv} {s s' : VotingState}

theorem window_of_config {e e' : Election} {config config' : ElectionConfig} (h : e'.config = some config')
    (hwindow : config'.commitment_window = (e.config.getD config).commitment_window)
    (hfresh : config.commitment_window = 0) : commitment_window e' = commitment_window e := by
  rw [commitment_window, election_config, h, Option.getD_some, hwindow, commitment_window, election_config]
  cases e.config <;> simp [hfresh]

theorem finalize_candidate_seed_wrote {d q : Nat} {seed : BytesN 32}
    (h : finalize_candidate_seed C env s d q = .ok (seed, s')) :
    s' = s.set_election d q { s.elections d q with
      config := some { (s.elections d q).config.getD { snapshot_ledger := env.sequence } with
        candidate_seed := some seed } } := by
  simp only [finalize_candidate_seed, bind_eq_ok, pure_eq_ok, Prod.mk.injEq] at h
  obtain ⟨_, -, _, -, _, -, _, -, _, -, rfl, rfl⟩ := h
  rfl

theorem config_effect {call : ConfigCall} (h : call.run C env s = .ok s') :
    ∃ e', Rewrites s s' call.election.1 call.election.2 e' ∧
      ConfigEffect C env s (s.elections call.election.1 call.election.2) call e' := by
  cases call with
  | set_election_config =>
    simp [ConfigCall.run, set_election_config] at h
    obtain ⟨-, -, rfl⟩ := h
    exact ⟨_, ⟨resumed_sameInst, rfl, rfl, rfl⟩, .set_election_config⟩
  | set_election_config_with_depth =>
    simp [ConfigCall.run, set_election_config_with_depth, apply_election_config, pin_depth_vk] at h
    obtain ⟨-, -, -, e', ⟨hdepth, rfl⟩ | ⟨hdepth, vk, hvk, rfl⟩, rfl⟩ := h
    · exact ⟨_, ⟨resumed_sameInst, rfl, rfl, rfl⟩, .set_election_config_with_depth (if_pos hdepth).symm⟩
    · exact ⟨_, ⟨resumed_sameInst, rfl, rfl, rfl⟩, .set_election_config_with_depth (by simp [hdepth, hvk])⟩
  | set_commitment_window =>
    simp [ConfigCall.run, set_commitment_window] at h
    obtain ⟨-, -, rfl⟩ := h
    exact ⟨_, ⟨resumed_sameInst, rfl, rfl, rfl⟩, .set_commitment_window⟩
  | set_merkle_root =>
    simp [ConfigCall.run, set_merkle_root] at h
    obtain ⟨-, -, -, p, hp, -, -, -, rfl⟩ := h
    exact ⟨_, ⟨resumed_sameInst, rfl, rfl, rfl⟩, .set_merkle_root hp⟩
  | create_balance_snapshot =>
    simp [ConfigCall.run, create_balance_snapshot] at h
    obtain ⟨-, -, -, rfl⟩ := h
    exact ⟨_, ⟨resumed_sameInst, rfl, rfl, rfl⟩, .create_balance_snapshot⟩
  | set_commit_reveal =>
    simp [ConfigCall.run, set_commit_reveal] at h
    obtain ⟨-, -, -, -, -, -, rfl⟩ := h
    exact ⟨_, ⟨resumed_sameInst, rfl, rfl, rfl⟩, .set_commit_reveal⟩
  | set_sybil_weight_cap =>
    simp [ConfigCall.run, set_sybil_weight_cap] at h
    obtain ⟨-, -, -, -, -, rfl⟩ := h
    exact ⟨_, ⟨resumed_sameInst, rfl, rfl, rfl⟩, .set_sybil_weight_cap⟩
  | set_attestation_root =>
    simp [ConfigCall.run, set_attestation_root] at h
    obtain ⟨-, -, -, -, rfl⟩ := h
    exact ⟨_, ⟨resumed_sameInst, rfl, rfl, rfl⟩, .set_attestation_root⟩
  | commit_randomness =>
    simp [ConfigCall.run, commit_randomness, randomness_deadlines] at h
    obtain ⟨-, -, p, -, -, -, -, rfl⟩ := h
    exact ⟨_, ⟨.refl _, rfl, rfl, rfl⟩, .commit_randomness⟩
  | reveal_randomness =>
    simp [ConfigCall.run, reveal_randomness, randomness_deadlines] at h
    obtain ⟨-, p, -, -, commitment, -, -, -, rfl⟩ := h
    exact ⟨_, ⟨.refl _, rfl, rfl, rfl⟩, .reveal_randomness⟩
  | finalize_candidate_seed =>
    simp [ConfigCall.run] at h
    obtain ⟨seed, h⟩ := h
    obtain rfl := finalize_candidate_seed_wrote h
    exact ⟨_, ⟨.refl _, rfl, rfl, rfl⟩, .finalize_candidate_seed⟩
  | set_vdf_delay =>
    simp [ConfigCall.run, set_vdf_delay] at h
    obtain ⟨-, -, -, -, rfl⟩ := h
    exact ⟨_, ⟨resumed_sameInst, rfl, rfl, rfl⟩, .set_vdf_delay⟩
  | submit_vdf_output =>
    simp [ConfigCall.run, submit_vdf_output] at h
    obtain ⟨-, -, delay, hdelay, -, input, -, -, rfl⟩ := h
    exact ⟨_, ⟨resumed_sameInst, rfl, rfl, rfl⟩, .submit_vdf_output hdelay⟩
  | finalize_with_vdf =>
    simp only [ConfigCall.run, finalize_with_vdf, bind_eq_ok, pure_eq_ok] at h
    obtain ⟨⟨seed, s₁⟩, h, rfl⟩ := h
    split at h
    · obtain rfl := finalize_candidate_seed_wrote h
      exact ⟨_, ⟨.refl _, rfl, rfl, rfl⟩, .finalize_with_vdf⟩
    · cases h
      exact ⟨_, ⟨.refl _, rfl, rfl, rfl⟩, .finalize_with_vdf⟩

theorem ConfigEffect.undecided {e e' : Election} {call : ConfigCall} (h : ConfigEffect C env s e call e') :
    Undecided e e' := by
  cases h with
  | set_merkle_root found => exact ⟨rfl, by simp [polled, found], by simp [phase, found]⟩
  | _ => exact ⟨rfl, rfl, rfl⟩

theorem ConfigEffect.commitment_window {e e' : Election} {call : ConfigCall} (h : ConfigEffect C env s e call e') :
    commitment_window e' = call.setsWindow.getD (commitment_window e) := by
  cases h with
  | set_merkle_root | finalize_candidate_seed | submit_vdf_output | finalize_with_vdf => exact window_of_config rfl rfl rfl
  | _ => rfl

theorem config_step {call : ConfigCall} (h : call.run C env s = .ok s') :
    ∃ e', Rewrites s s' call.election.1 call.election.2 e' ∧
      Undecided (s.elections call.election.1 call.election.2) e' ∧
      commitment_window e' =
        call.setsWindow.getD (commitment_window (s.elections call.election.1 call.election.2)) := by
  obtain ⟨e', hr, he⟩ := config_effect h
  exact ⟨e', hr, he.undecided, he.commitment_window⟩

/-! ## Who has signed -/

/-- The DAO's admin, as the registry of the contract names him, has signed. -/
def AdminSigns (env : VotingEnv) (s : VotingState) (dao_id : Nat) : Prop :=
  ∃ admin, env.get_admin s.inst.registry dao_id = some admin ∧ env.auths admin = true

def RegistrySigns (env : VotingEnv) (s : VotingState) : Prop := env.auths s.inst.registry = true

@[simp] theorem assert_admin_eq_ok {dao_id : Nat} {admin : Address} {u : Unit} :
    assert_admin env s dao_id admin = .ok u ↔ env.get_admin s.inst.registry dao_id = some admin := by
  simp [assert_admin, is_dao_admin]

@[simp] theorem require_registry_eq_ok {u : Unit} :
    require_registry env s = .ok u ↔ RegistrySigns env s := by
  simp [require_registry, RegistrySigns]

@[simp] theorem resumed_registry : (resumed s).inst.registry = s.inst.registry := rfl

/-! ## Phases -/

theorem resumed_rewrites {dao_id proposal_id : Nat} :
    Rewrites s (resumed s) dao_id proposal_id (s.elections dao_id proposal_id) := by
  refine ⟨resumed_sameInst, rfl, rfl, ?_⟩
  simp [VotingState.set_election]

/-- Whether it is the call that takes a proposal out of registration. -/
def PhaseCall.activates : PhaseCall → Bool
  | .activate_proposal .. => true
  | _ => false

/-- Of the calls that move a proposal on, only activation does so for anyone who asks. -/
theorem phase_step {call : PhaseCall} (h : call.run env s = .ok s') :
    ∃ e', Rewrites s s' call.election.1 call.election.2 e' ∧
      e'.ballots = (s.elections call.election.1 call.election.2).ballots ∧
      polled e' = polled (s.elections call.election.1 call.election.2) ∧
      commitment_window e' = commitment_window (s.elections call.election.1 call.election.2) ∧
      (call.activates = true ∧ phase (s.elections call.election.1 call.election.2) = some .Registration ∧
          phase e' = some .Active ∨
        call.activates = false ∧ AdminSigns env s call.election.1) := by
  cases call with
  | activate_proposal d p =>
    simp [PhaseCall.run, activate_proposal] at h
    obtain ⟨-, -, info, hp, hstate, rfl⟩ := h
    exact ⟨_, ⟨resumed_sameInst, rfl, rfl, rfl⟩, rfl, by simp [polled, hp], rfl,
      .inl ⟨rfl, by simp [phase, hp, hstate], rfl⟩⟩
  | close_proposal d p admin =>
    simp [PhaseCall.run, close_proposal] at h
    obtain ⟨-, hauth, hadmin, info, hp, -, ⟨-, rfl⟩ | ⟨-, rfl⟩⟩ := h
    · exact ⟨_, resumed_rewrites, rfl, rfl, rfl, .inr ⟨rfl, admin, hadmin, hauth⟩⟩
    · exact ⟨_, ⟨resumed_sameInst, rfl, rfl, rfl⟩, rfl, by simp [polled, hp], rfl,
        .inr ⟨rfl, admin, hadmin, hauth⟩⟩
  | archive_proposal d p admin =>
    simp [PhaseCall.run, archive_proposal] at h
    obtain ⟨-, hauth, hadmin, info, hp, -, ⟨-, rfl⟩ | ⟨-, rfl⟩⟩ := h
    · exact ⟨_, resumed_rewrites, rfl, rfl, rfl, .inr ⟨rfl, admin, hadmin, hauth⟩⟩
    · exact ⟨_, ⟨resumed_sameInst, rfl, rfl, rfl⟩, rfl, by simp [polled, hp], rfl,
        .inr ⟨rfl, admin, hadmin, hauth⟩⟩

/-! ## Tallies -/

/-- Two parts of the storage that no reachable state uses: the old nullifiers, and the encrypted ballots. -/
structure Dormant (s : VotingState) : Prop where
  legacy : ∀ n, s.legacy_nullifier_used n = false
  encrypted : ∀ d q, (s.elections d q).ballots.encrypted_ballot_count = 0

def TallyCall.submits : TallyCall → Bool
  | .submit_recursive_tally .. => true
  | _ => false

inductive TallyEffect (e e' : Election) : TallyCall → Prop where
  | revealed {d q : Nat} {n : U256} {vote_choice : Bool} {blinding : Bytes} {p p' : ProposalInfo}
      (proposal : e.proposal = some p) (proposal' : e'.proposal = some p') (counts : Counts p p' 1)
      (committed : e.ballots.vote_commit n ≠ none) (fresh : e.ballots.vote_revealed n = false)
      (ballots : e'.ballots =
        { e.ballots with vote_revealed := Function.update e.ballots.vote_revealed n true }) :
      TallyEffect e e' (.reveal_vote d q n vote_choice blinding)
  | submitted {d q num_votes yes_votes no_votes : Nat} {acc : U256} {proof : Proof} {p p' : ProposalInfo}
      (proposal : e.proposal = some p) (proposal' : e'.proposal = some p')
      (attested : yes_votes + no_votes = num_votes) (ballots : e'.ballots = e.ballots)
      (total : p'.yes_votes + p'.no_votes = p.yes_votes + p.no_votes + num_votes)
      (vote_mode : p'.vote_mode = p.vote_mode) (fits : p'.Fits)
      (active : p.state = .Active) (closed : p'.state = .Closed) :
      TallyEffect e e' (.submit_recursive_tally d q num_votes yes_votes no_votes acc proof)
  | undecided {call : TallyCall} (same : Undecided e e') (other : call.submits = false) : TallyEffect e e' call

theorem tally_step {call : TallyCall} (hdormant : Dormant s) (h : call.run C env s = .ok s') :
    ∃ e', Rewrites s s' call.election.1 call.election.2 e' ∧
      commitment_window e' = commitment_window (s.elections call.election.1 call.election.2) ∧
      TallyEffect (s.elections call.election.1 call.election.2) e' call := by
  cases call with
  | reveal_vote d p n =>
    simp [TallyCall.run, reveal_vote] at h
    obtain ⟨-, -, -, -, config, -, -, -, -, hfresh, hcommit, info, hp, hroom, rfl⟩ := h
    exact ⟨_, ⟨⟨rfl, rfl, rfl, rfl, rfl, rfl⟩, rfl, rfl, rfl⟩, rfl, .revealed hp rfl (counts_counted hroom)
      (by simp [hcommit]) hfresh rfl⟩
  | submit_recursive_tally d p =>
    simp [TallyCall.run, submit_recursive_tally] at h
    obtain ⟨-, -, htotal, -, info, hp, hactive, -, hyes, hno, rfl⟩ := h
    exact ⟨_, ⟨resumed_sameInst, rfl, rfl, rfl⟩, rfl, .submitted hp rfl htotal rfl (by simp only; omega) rfl
      ⟨hyes, hno⟩ hactive rfl⟩
  | finalize_encrypted_tally d p =>
    simp [TallyCall.run, finalize_encrypted_tally, hdormant.encrypted] at h
  | record_qv_tally d p =>
    simp [TallyCall.run, record_qv_tally] at h
    obtain ⟨-, -, info, -, -, vk, -, -, rfl⟩ := h
    exact ⟨_, ⟨.refl _, rfl, rfl, rfl⟩, rfl, .undecided ⟨rfl, rfl, rfl⟩ rfl⟩
  | migrate_nullifier d p =>
    simp [TallyCall.run, migrate_nullifier, hdormant.legacy] at h
    obtain ⟨-, -, -, -, -, rfl⟩ := h
    exact ⟨_, resumed_rewrites, rfl, .undecided ⟨rfl, rfl, rfl⟩ rfl⟩

/-! ## The contract itself -/

/-- The two registries may be replaced, each by a call of its own. -/
structure InstanceStep (s s' : VotingState) (call : InstanceCall) : Prop where
  elections : s'.elections = s.elections
  daos : s'.daos = s.daos
  legacy : s'.legacy_nullifier_used = s.legacy_nullifier_used
  circuit_registry : s'.inst.circuit_registry =
    match call with
    | .set_circuit_registry a => some a
    | _ => s.inst.circuit_registry
  transcript_registry : s'.inst.transcript_registry =
    match call with
    | .set_transcript_registry a => some a
    | _ => s.inst.transcript_registry

/-- And the versions, by an upgrade and its rollback, which the registry has to sign. -/
structure InstanceWrites (env : VotingEnv) (s s' : VotingState) (call : InstanceCall) : Prop
    extends InstanceStep s s' call where
  registry : s'.inst.registry = s.inst.registry
  versions :
    match call with
    | .apply_upgrade_from_registry from_version to_version storage_version _ =>
      env.auths s.inst.registry = true ∧ s.inst.version = from_version ∧ from_version < to_version ∧
        s'.inst.version = to_version ∧ s'.inst.storage_version = storage_version
    | .rollback_upgrade_from_registry from_version to_version =>
      env.auths s.inst.registry = true ∧ s.inst.version = from_version ∧ to_version < from_version ∧
        s'.inst.version = to_version ∧ s'.inst.storage_version = s.inst.storage_version
    | _ => s'.inst.version = s.inst.version ∧ s'.inst.storage_version = s.inst.storage_version

theorem instance_writes {call : InstanceCall} (h : call.run C env s = .ok s') : InstanceWrites env s s' call := by
  cases call with
  | set_guardian =>
    simp [InstanceCall.run, set_guardian] at h
    obtain ⟨-, -, rfl⟩ := h
    exact ⟨⟨rfl, rfl, rfl, rfl, rfl⟩, rfl, rfl, rfl⟩
  | pause =>
    simp [InstanceCall.run, pause] at h
    obtain ⟨-, -, -, rfl⟩ := h
    exact ⟨⟨rfl, rfl, rfl, rfl, rfl⟩, rfl, rfl, rfl⟩
  | unpause =>
    simp [InstanceCall.run, unpause] at h
    obtain ⟨-, -, rfl⟩ := h
    exact ⟨⟨rfl, rfl, rfl, rfl, rfl⟩, rfl, rfl, rfl⟩
  | apply_upgrade_from_registry =>
    simp [InstanceCall.run, apply_upgrade_from_registry, require_registry] at h
    obtain ⟨hsigned, ⟨hversion, hraised⟩, -, -, rfl⟩ := h
    exact ⟨⟨rfl, rfl, rfl, rfl, rfl⟩, rfl, hsigned, hversion, hraised, rfl, rfl⟩
  | rollback_upgrade_from_registry =>
    simp [InstanceCall.run, rollback_upgrade_from_registry, require_registry] at h
    obtain ⟨hsigned, ⟨hversion, hlowered⟩, rfl⟩ := h
    exact ⟨⟨rfl, rfl, rfl, rfl, rfl⟩, rfl, hsigned, hversion, hlowered, rfl, rfl⟩
  | set_bridge_contract =>
    simp [InstanceCall.run, set_bridge_contract] at h
    obtain ⟨-, -, rfl⟩ := h
    exact ⟨⟨rfl, rfl, rfl, rfl, rfl⟩, rfl, rfl, rfl⟩
  | set_circuit_registry =>
    simp [InstanceCall.run, set_circuit_registry] at h
    obtain ⟨-, rfl⟩ := h
    exact ⟨⟨rfl, rfl, rfl, rfl, rfl⟩, rfl, rfl, rfl⟩
  | set_transcript_registry =>
    simp [InstanceCall.run, set_transcript_registry] at h
    obtain ⟨-, rfl⟩ := h
    exact ⟨⟨rfl, rfl, rfl, rfl, rfl⟩, rfl, rfl, rfl⟩

theorem instance_step {call : InstanceCall} (h : call.run C env s = .ok s') : InstanceStep s s' call :=
  (instance_writes h).toInstanceStep

end

end ZkVote.Voting
