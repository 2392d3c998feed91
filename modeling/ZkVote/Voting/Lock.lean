import ZkVote.Voting.Deadlines

/-!
# The voting contract: the reentrancy lock

Nine entry points take the lock and give it back in their last lines. Whatever stops
one of them before that stops the transaction, and the lock goes back with the rest.
-/

open Lib Lib.Outcome

namespace ZkVote.Voting

/-- It takes the lock. -/
def Call.locks : Call → Bool
  | .ballot (.vote ..) | .ballot (.vote_bls381 ..) | .ballot (.cast_votes ..) | .ballot (.vote_weighted ..)
  | .ballot (.vote_sybil_weighted ..) | .ballot (.commit_vote ..) | .ballot (.vote_encrypted ..)
  | .ballot (.record_bridged_vote ..) | .tally (.reveal_vote ..) => true
  | _ => false

section
variable {C : Crypto} {env : VotingEnv} {s s' : VotingState} {call : Call}

/-- A locking call is accepted only where nobody holds the lock. -/
theorem unlocked_of_locks (hlocks : call.locks = true) (h : step C s env call = .ok s') :
    s.inst.reentrancy_lock = false := by
  cases call with
  | ballot call =>
    cases call with
    | cast_votes =>
      obtain ⟨⟨k, s₁⟩, hcast, -⟩ := bind_eq_ok.mp h
      obtain ⟨-, -, p, vk, hready, -⟩ := cast_votes_eq_ok.mp hcast
      exact hready.unlocked
    | vote_encrypted => exact absurd h vote_encrypted_rejected
    | record_bridged_vote => exact absurd h record_bridged_vote_rejected
    | vote_with_circuit | cast_qv_vote => cases hlocks
    | _ =>
      simp [step, BallotCall.run, vote, vote_bls381, vote_weighted, vote_sybil_weighted, commit_vote] at h
      exact h.2.1
  | tally call =>
    cases call with
    | reveal_vote =>
      simp [step, TallyCall.run, reveal_vote] at h
      exact h.2.1
    | _ => cases hlocks
  | _ => cases hlocks

theorem locked_rejects (hlocks : call.locks = true) : (step C (locked s) env call).isOk = false := by
  by_contra hok
  rw [Bool.not_eq_false] at hok
  obtain ⟨s', h⟩ := isOk_iff.mp hok
  cases unlocked_of_locks hlocks h

/-! ## What each group of calls leaves -/

theorem ballot_lock {call : BallotCall} (h : call.run C env s = .ok s') :
    s'.inst.reentrancy_lock = s.inst.reentrancy_lock := by
  cases call with
  | vote_encrypted => exact absurd h vote_encrypted_rejected
  | record_bridged_vote => exact absurd h record_bridged_vote_rejected
  | cast_votes =>
    obtain ⟨⟨k, s₁⟩, hcast, hs⟩ := bind_eq_ok.mp h
    cases hs
    obtain ⟨-, -, p, vk, hready, -, -, -, rfl⟩ := cast_votes_eq_ok.mp hcast
    exact hready.unlocked.symm
  | _ =>
    simp [BallotCall.run, vote, vote_bls381, vote_with_circuit, vote_weighted, vote_sybil_weighted, commit_vote,
      cast_qv_vote] at h
    grind [VotingState.set_election, resumed, clear_reentrancy_lock]

theorem tally_lock {call : TallyCall} (h : call.run C env s = .ok s') :
    s'.inst.reentrancy_lock = s.inst.reentrancy_lock := by
  cases call with
  | _ =>
    simp [TallyCall.run, reveal_vote, submit_recursive_tally, finalize_encrypted_tally, record_qv_tally,
      migrate_nullifier] at h
    grind [VotingState.set_election, resumed, clear_reentrancy_lock]

theorem create_lock {call : CreateCall} (h : call.run C env s = .ok s') :
    s'.inst.reentrancy_lock = s.inst.reentrancy_lock := by
  cases call with
  | _ =>
    simp [CreateCall.run, CreateCall.create, create_proposal, create_proposal_with_vk_version,
      create_proposal_in_registration, create_proposal_with_version, create_encrypted_proposal, create_qv_proposal,
      next_proposal_id] at h
    grind [VotingState.set_election, VotingState.set_dao, resumed]

theorem phase_lock {call : PhaseCall} (h : call.run env s = .ok s') :
    s'.inst.reentrancy_lock = s.inst.reentrancy_lock := by
  cases call with
  | _ =>
    simp [PhaseCall.run, activate_proposal, close_proposal, archive_proposal] at h
    grind [VotingState.set_election, resumed]

theorem config_lock {call : ConfigCall} (h : call.run C env s = .ok s') :
    s'.inst.reentrancy_lock = s.inst.reentrancy_lock := by
  cases call with
  | finalize_candidate_seed =>
    simp [ConfigCall.run] at h
    obtain ⟨seed, h⟩ := h
    obtain rfl := finalize_candidate_seed_wrote h
    rfl
  | finalize_with_vdf =>
    simp only [ConfigCall.run, finalize_with_vdf, bind_eq_ok, pure_eq_ok] at h
    obtain ⟨⟨seed, s₁⟩, h, rfl⟩ := h
    split at h
    · obtain rfl := finalize_candidate_seed_wrote h
      rfl
    · cases h
      rfl
  | _ =>
    simp [ConfigCall.run, set_election_config, set_election_config_with_depth, apply_election_config, pin_depth_vk,
      set_commitment_window, set_merkle_root, create_balance_snapshot, set_commit_reveal, set_sybil_weight_cap,
      set_attestation_root, commit_randomness, reveal_randomness, randomness_deadlines, set_vdf_delay,
      submit_vdf_output] at h
    grind [VotingState.set_election, resumed]

theorem dao_lock {call : DaoCall} (h : call.run C env s = .ok s') :
    s'.inst.reentrancy_lock = s.inst.reentrancy_lock := by
  rcases (dao_sets h).inst with hinst | hinst
  · rw [hinst]
  · rw [hinst, resumed_lock]

theorem instance_lock {call : InstanceCall} (h : call.run C env s = .ok s') :
    s'.inst.reentrancy_lock = s.inst.reentrancy_lock := by
  cases call with
  | _ =>
    simp [InstanceCall.run, set_guardian, pause, unpause, apply_upgrade_from_registry, rollback_upgrade_from_registry,
      set_bridge_contract, set_circuit_registry, set_transcript_registry] at h
    grind [resumed]

theorem step_lock (h : step C s env call = .ok s') : s'.inst.reentrancy_lock = s.inst.reentrancy_lock := by
  cases call with
  | ballot call => exact ballot_lock h
  | tally call => exact tally_lock h
  | create call => exact create_lock h
  | phase call => exact phase_lock h
  | config call => exact config_lock h
  | dao call => exact dao_lock h
  | inst call => exact instance_lock h

theorem settled_lock {call : VotingEnv × Call} :
    (settled C s call).inst.reentrancy_lock = s.inst.reentrancy_lock := by
  rcases settled_cases C s call with hsame | haccepted
  · rw [hsame]
  · exact step_lock haccepted

end

theorem AttemptRun.unlocked {C : Crypto} {registry guardian : Address}
    {log : List (VotingState × VotingEnv × Call)} {s : VotingState} (hrun : AttemptRun C registry guardian log s) :
    s.inst.reentrancy_lock = false :=
  Run.invariant (P := fun s => s.inst.reentrancy_lock = false) rfl
    (fun _ _ _ hfree (hs : settled C _ _ = _) => by rw [← hs, settled_lock, hfree]) hrun

/-- Between the calls of every run, accepted and rejected ones, nobody holds the lock, so that the next call that
takes it gets past the guard. -/
theorem lock_released (C : Crypto) {registry guardian : Address} {log : List (VotingState × VotingEnv × Call)}
    {s : VotingState} (hrun : AttemptRun C registry guardian log s) :
    (∀ s₁ ∈ Run.states log s, s₁.inst.reentrancy_lock = false) ∧ set_reentrancy_lock s = .ok (locked s) := by
  refine ⟨?_, set_reentrancy_lock_eq_ok.mpr ⟨hrun.unlocked, rfl⟩⟩
  have hstates := Run.forall_states_iff_of_step (P := fun s => s.inst.reentrancy_lock = false) (C := fun _ _ => True)
    rfl (fun _ _ _ _ _ hfree (hs : settled C _ _ = _) => by simp [← hs, settled_lock, hfree]) hrun
  exact hstates.mpr fun _ _ => trivial

/-- A ballot, and the same ballot once more. -/
def twice : VotingEnv × Call := (sampleEnv, .ballot (.vote 0 1 true 3 Tree.sampleRoot sampleProof))

theorem lock_released_after_a_refused_ballot : ∃ log s, AttemptRun sampleCrypto 0 0 log s ∧
    (∃ s₀ ∈ Run.states log s, (step sampleCrypto s₀ twice.1 twice.2).isOk = true) ∧
    (step sampleCrypto s twice.1 twice.2).isOk = false ∧
    (∀ s₁ ∈ Run.states log s, s₁.inst.reentrancy_lock = false) ∧ set_reentrancy_lock s = .ok (locked s) := by
  obtain ⟨log, s, hrun, htest⟩ := exists_run (C := sampleCrypto) (r := 0) (g := 0) (openElection 100)
    (fun _ s => (next sampleCrypto s twice).any fun s' => !(step sampleCrypto s' twice.1 twice.2).isOk)
    (by decide +kernel)
  simp only [Option.any_eq_true, Bool.not_eq_true'] at htest
  obtain ⟨s', hs, hrefused⟩ := htest
  have haccepted : Accepts sampleCrypto s twice s' := toOption_eq_some.mp hs
  have hrun' : VotingRun sampleCrypto 0 0 ((s, twice) :: log) s' := .call hrun haccepted
  have hlast : AttemptRun sampleCrypto 0 0 ((s', twice) :: (s, twice) :: log) (settled sampleCrypto s' twice) :=
    .call hrun'.attempts rfl
  have hsame : settled sampleCrypto s' twice = s' := by
    refine (settled_cases _ _ _).resolve_right fun haccepts => ?_
    have hok := isOk_iff.mpr ⟨_, haccepts⟩
    rw [hrefused] at hok
    cases hok
  refine ⟨_, _, hlast, ⟨s, ?_, isOk_iff.mpr ⟨s', haccepted⟩⟩, ?_, lock_released sampleCrypto hlast⟩
  · simp [Run.states]
  · rw [hsame, hrefused]

end ZkVote.Voting
