import ZkVote.Lib.Quorum
import ZkVote.Voting.Terms

/-!
# The voting contract: the authorities of an encrypted tally

An encrypted proposal is created with a list of authorities and with the number of them that its tally needs.
The creation compares that number with the length of the list, the finalisation asks for distinct authorities.
-/

open Lib Lib.Outcome

namespace ZkVote.Voting

/-- The check of the approvers when a tally is finalised. -/
def QuorumMet (env : VotingEnv) (config : EncryptedTallyConfig) (approvers : List Address) : Prop :=
  ¬ approvers.length < config.threshold ∧ check_approvers env config.authorities [] approvers = .ok ()

def HasCeremony (e : Election) (params : CreateEncryptedProposalParams) : Prop :=
  ∃ config, e.encrypted_config = some config ∧ config.threshold = params.threshold ∧
    config.authorities = params.authorities

/-- Every other check of the finalisation. -/
structure ReadyToTally (env : VotingEnv) (s : VotingState) (e : Election) (params : FinalizeEncryptedTallyParams) :
    Prop where
  not_paused : NotPaused env s
  proposal : ∃ p, e.proposal = some p ∧ p.end_time ≠ 0 ∧ p.end_time < env.timestamp ∧
    (p.state = .Active ∨ p.state = .Closed)
  config : ∃ config, e.encrypted_config = some config ∧ config.finalized = false ∧ params.epoch = config.epoch
  count : e.ballots.encrypted_ballot_count ≠ 0
  votes : saturatingAdd 64 params.yes_votes params.no_votes ≤ e.ballots.encrypted_ballot_count
  points : ∀ point ∈ [params.aggregate_c1, params.aggregate_c_yes, params.aggregate_c_no],
    ∃ x y, point_bytes_to_u256 point = .ok (x, y)

/-- A tally is finalised only with as many distinct authorities as the ceremony asks for. -/
def FinalByQuorum (s : VotingState) (dao_id proposal_id : Nat) (params : CreateEncryptedProposalParams) : Prop :=
  ∀ env final s', finalize_encrypted_tally env s dao_id proposal_id final = .ok s' →
    ∃ contributors : Finset Address, params.threshold ≤ contributors.card ∧
      ∀ a ∈ contributors, a ∈ params.authorities ∧ a ∈ final.approvers ∧ env.auths a = true

/-- Where all authorities sign, some of them meet the quorum. -/
def QuorumPossible (e : Election) (params : CreateEncryptedProposalParams) : Prop :=
  ∃ config, e.encrypted_config = some config ∧
    ∀ env : VotingEnv, (∀ a ∈ params.authorities, env.auths a = true) →
      ∃ approvers : List Address, (∀ a ∈ approvers, a ∈ params.authorities) ∧ QuorumMet env config approvers

section
variable {C : Crypto} {env : VotingEnv} {s s' : VotingState} {d q : Nat} {e : Election}
  {params : CreateEncryptedProposalParams} {config : EncryptedTallyConfig} {approvers : List Address}

theorem check_approvers_eq_ok {authorities seen : List Address} :
    check_approvers env authorities seen approvers = .ok () ↔
      approvers.Nodup ∧ ∀ a ∈ approvers, a ∉ seen ∧ a ∈ authorities ∧ env.auths a = true := by
  induction approvers generalizing seen with
  | nil => simp [check_approvers]
  | cons approver approvers ih =>
    simp only [check_approvers, bind_eq_ok, require_eq_ok, require_auth_eq_ok, ih, List.nodup_cons,
      List.forall_mem_cons, List.mem_append, List.mem_singleton]
    constructor
    · rintro ⟨-, hnew, -, hmem, -, hauth, hnodup, hrest⟩
      refine ⟨⟨fun h => (hrest approver h).1 (.inr rfl), hnodup⟩, ⟨hnew, hmem, hauth⟩, fun a ha => ?_⟩
      exact ⟨fun h => (hrest a ha).1 (.inl h), (hrest a ha).2⟩
    · rintro ⟨⟨hfresh, hnodup⟩, ⟨hnew, hmem, hauth⟩, hrest⟩
      refine ⟨(), hnew, (), hmem, (), hauth, hnodup, fun a ha => ⟨?_, (hrest a ha).2⟩⟩
      rintro (h | rfl)
      · exact (hrest a ha).1 h
      · exact hfresh ha

theorem quorumMet_iff : QuorumMet env config approvers ↔
    config.threshold ≤ approvers.length ∧ approvers.Nodup ∧
      ∀ a ∈ approvers, a ∈ config.authorities ∧ env.auths a = true := by
  rw [QuorumMet, check_approvers_eq_ok, Nat.not_lt]
  simp

/-- A tally is finalised when the quorum is met and the other checks pass. -/
theorem finalizes_iff {final : FinalizeEncryptedTallyParams} :
    (∃ s', finalize_encrypted_tally env s d q final = .ok s') ↔
      ReadyToTally env s (s.elections d q) final ∧
        ∃ config, (s.elections d q).encrypted_config = some config ∧ QuorumMet env config final.approvers := by
  simp only [finalize_encrypted_tally, bind_eq_ok, require_not_paused_eq_ok, require_eq_ok, expect_eq_ok,
    orPanic_eq_ok, pure_eq_ok]
  constructor
  · rintro ⟨_, _, ⟨hrunning, rfl⟩, p, hp, -, hend, -, hstate, config, hconfig, -, hfresh, -, hepoch, -, hlength, ⟨⟩,
      happrovers, -, hcount, -, hvotes, ⟨x₁, y₁⟩, h₁, ⟨x₂, y₂⟩, h₂, ⟨x₃, y₃⟩, h₃, -⟩
    refine ⟨⟨hrunning, ⟨p, hp, ?_, ?_, ?_⟩, ⟨config, hconfig, hfresh, hepoch⟩, hcount, Nat.not_lt.mp hvotes, ?_⟩,
      config, hconfig, hlength, happrovers⟩
    · exact fun h => hend (.inl h)
    · exact Nat.lt_of_not_le fun h => hend (.inr h)
    · exact or_iff_not_and_not.mpr hstate
    · simp [h₁, h₂, h₃]
  · rintro ⟨⟨hrunning, ⟨p, hp, hend, hlate, hstate⟩, ⟨config, hconfig, hfresh, hepoch⟩, hcount, hvotes, hpoints⟩,
      config', hconfig', hlength, happrovers⟩
    obtain rfl : config = config' := Option.some.inj (hconfig.symm.trans hconfig')
    simp only [List.forall_mem_cons, List.not_mem_nil, false_imp_iff, implies_true, and_true] at hpoints
    obtain ⟨⟨x₁, y₁, h₁⟩, ⟨x₂, y₂, h₂⟩, x₃, y₃, h₃⟩ := hpoints
    exact ⟨_, _, ⟨hrunning, rfl⟩, p, hp, (), by omega, (), or_iff_not_and_not.mp hstate, config, hconfig, (), hfresh,
      (), hepoch, (), hlength, (), happrovers, (), hcount, (), Nat.not_lt.mpr hvotes, _, h₁, _, h₂, _, h₃, rfl⟩

theorem finalByQuorum (h : HasCeremony (s.elections d q) params) : FinalByQuorum s d q params := by
  obtain ⟨config, hconfig, hthreshold, hauthorities⟩ := h
  intro env final s' hfinal
  obtain ⟨-, config', hconfig', hquorum⟩ := finalizes_iff.mp ⟨s', hfinal⟩
  obtain rfl : config = config' := Option.some.inj (hconfig.symm.trans hconfig')
  obtain ⟨hlength, hnodup, happrovers⟩ := quorumMet_iff.mp hquorum
  refine ⟨final.approvers.toFinset, ?_, fun a ha => ?_⟩
  · rw [List.toFinset_card_of_nodup hnodup, ← hthreshold]
    exact hlength
  · rw [List.mem_toFinset] at ha
    rw [← hauthorities]
    exact ⟨(happrovers a ha).1, ha, (happrovers a ha).2⟩

theorem quorumPossible_iff (h : HasCeremony e params) :
    QuorumPossible e params ↔ params.threshold ≤ params.authorities.toFinset.card := by
  obtain ⟨config, hconfig, hthreshold, hauthorities⟩ := h
  rw [← exists_nodup_iff, ← hthreshold, ← hauthorities]
  constructor
  · rintro ⟨config', hconfig', hall⟩
    obtain rfl : config = config' := Option.some.inj (hconfig.symm.trans hconfig')
    -- In the sample environment everyone has signed.
    obtain ⟨approvers, -, hquorum⟩ := hall sampleEnv fun _ _ => rfl
    obtain ⟨hlength, hnodup, happrovers⟩ := quorumMet_iff.mp hquorum
    exact ⟨approvers, hnodup, fun a ha => (happrovers a ha).1, hlength⟩
  · rintro ⟨approvers, hnodup, hmem, hlength⟩
    refine ⟨config, hconfig, fun env hauth => ⟨approvers, ?_, quorumMet_iff.mpr ⟨hlength, hnodup, fun a ha => ?_⟩⟩⟩
    · rwa [← hauthorities]
    · exact ⟨hmem a ha, hauth a (hauthorities ▸ hmem a ha)⟩

theorem create_encrypted_proposal_ceremony {creator : Address} {root : U256}
    (h : create_encrypted_proposal C env s d creator params root = .ok (q, s')) :
    HasCeremony (s'.elections d q) params ∧ (s'.elections d q).proposal ≠ none := by
  simp [create_encrypted_proposal, next_proposal_id] at h
  obtain ⟨-, -, -, -, -, version, -, vk, -, -, -, eligible_root, -, index, -, -, rfl, rfl⟩ := h
  rw [VotingState.set_election_self]
  exact ⟨⟨_, rfl, rfl, rfl⟩, Option.some_ne_none _⟩

/-- From an accepted creation on, the tally of an encrypted proposal is finalised only by as many distinct
authorities as its ceremony asks for. There are authorities that meet the quorum if and only if that many of them
are distinct. -/
theorem encrypted_quorum_iff {registry guardian : Address} {log after : List (VotingState × VotingEnv × Call)}
    {s₁ : VotingState} {creator : Address} {root : U256} (hrun : VotingRun C registry guardian log s)
    (hcreate : create_encrypted_proposal C env s d creator params root = .ok (q, s'))
    (hafter : Run (Accepts C) s' after s₁) :
    HasCeremony (s₁.elections d q) params ∧
      ∀ s₂, HasCeremony (s₂.elections d q) params →
        (FinalByQuorum s₂ d q params ∧ QuorumPossible (s₂.elections d q) params ↔
          params.threshold ≤ params.authorities.toFinset.card) := by
  refine ⟨?_, fun s₂ h => ?_⟩
  · obtain ⟨hceremony, hp⟩ := create_encrypted_proposal_ceremony hcreate
    have hstep : Accepts C s (env, .create (.create_encrypted_proposal d creator params root)) s' := by
      simp only [Accepts, step, CreateCall.run, CreateCall.create, hcreate]
      rfl
    have hsame := (sameTerms_of_run (.call hrun hstep) hafter hp).encrypted_config
    rwa [HasCeremony, hsame]
  · rw [quorumPossible_iff h]
    exact and_iff_right (finalByQuorum h)

end

/-! ## An authority named twice -/

def sampleCeremony (authorities : List Address) : CreateEncryptedProposalParams where
  title := []
  content_cid := []
  end_time := 20
  vote_mode := .Fixed
  public_key_x := 0
  public_key_y := 0
  threshold := 2
  authorities := authorities
  epoch := 0

def sampleEncrypted (s : VotingState) (authorities : List Address) : Outcome VotingError (Nat × VotingState) :=
  create_encrypted_proposal sampleCrypto sampleEnv s 0 1 (sampleCeremony authorities) 0

theorem exists_encrypted (authorities : List Address)
    (h : (Run.replay (next sampleCrypto)
        [(sampleEnv, .dao (.set_encrypted_vk 0 (sampleVk ENCRYPTED_CIRCUIT_IC_LEN) 0))] [] (constructor 0 0)).any
      (fun e => (sampleEncrypted e.2 authorities).toOption.isSome) = true) :
    ∃ log s q s', VotingRun sampleCrypto 0 0 log s ∧ sampleEncrypted s authorities = .ok (q, s') := by
  obtain ⟨log, s, hrun, htest⟩ := exists_run (C := sampleCrypto) (r := 0) (g := 0) [_]
    (fun _ s => (sampleEncrypted s authorities).toOption.isSome) h
  obtain ⟨⟨q, s'⟩, hcreate⟩ := Option.isSome_iff_exists.mp htest
  exact ⟨log, s, q, s', hrun, toOption_eq_some.mp hcreate⟩

theorem encrypted_quorum_iff_for_two : ∃ log s q s', VotingRun sampleCrypto 0 0 log s ∧
    sampleEncrypted s [1, 2] = .ok (q, s') ∧ FinalByQuorum s' 0 q (sampleCeremony [1, 2]) ∧
    QuorumPossible (s'.elections 0 q) (sampleCeremony [1, 2]) := by
  obtain ⟨log, s, q, s', hrun, hcreate⟩ := exists_encrypted [1, 2] (by decide +kernel)
  obtain ⟨hceremony, hiff⟩ := encrypted_quorum_iff hrun hcreate .start
  exact ⟨log, s, q, s', hrun, hcreate, (hiff s' hceremony).mpr (by decide)⟩

/-- A proposal that two authorities must finalise is accepted with one authority, named twice. -/
theorem quorum_out_of_reach : ∃ log s q s', VotingRun sampleCrypto 0 0 log s ∧
    sampleEncrypted s [1, 1] = .ok (q, s') ∧ ¬ QuorumPossible (s'.elections 0 q) (sampleCeremony [1, 1]) := by
  obtain ⟨log, s, q, s', hrun, hcreate⟩ := exists_encrypted [1, 1] (by decide +kernel)
  refine ⟨log, s, q, s', hrun, hcreate, fun hpossible => ?_⟩
  have hceremony := (create_encrypted_proposal_ceremony hcreate).1
  have hcard : (sampleCeremony [1, 1]).threshold ≤ (sampleCeremony [1, 1]).authorities.toFinset.card :=
    (quorumPossible_iff hceremony).mp hpossible
  revert hcard
  decide

end ZkVote.Voting
