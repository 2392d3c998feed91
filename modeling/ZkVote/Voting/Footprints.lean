import ZkVote.Voting.Terms

/-!
# Parts of an election that few calls write

The weights of the ballots, the quadratic ballots and their tally, and the delay function.
Every other call leaves each of them as it is, in every election.
-/

open Lib Lib.Outcome

namespace ZkVote.Voting

inductive Part where
  | weights | quadratic | vdf
  deriving DecidableEq, Repr

def SamePart (e e' : Election) : Part → Prop
  | .weights => (e'.ballots.weighted_tally, e'.sybil_weight_cap) = (e.ballots.weighted_tally, e.sybil_weight_cap)
  | .quadratic =>
    (e'.ballots.qv_ballot, e'.ballots.qv_ballot_count, e'.ballots.qv_credits_total, e'.qv_tally, e'.qv_tally_finalized) =
      (e.ballots.qv_ballot, e.ballots.qv_ballot_count, e.ballots.qv_credits_total, e.qv_tally, e.qv_tally_finalized)
  | .vdf => (e'.vdf_delay, e'.vdf_input, e'.vdf_output, e'.vdf_finalized) =
      (e.vdf_delay, e.vdf_input, e.vdf_output, e.vdf_finalized)

def Call.writes : Call → Part → Bool
  | .ballot (.vote_weighted ..), .weights | .ballot (.vote_sybil_weighted ..), .weights
  | .config (.set_sybil_weight_cap ..), .weights => true
  | .ballot (.cast_qv_vote ..), .quadratic | .tally (.record_qv_tally ..), .quadratic => true
  | .config (.set_vdf_delay ..), .vdf | .config (.submit_vdf_output ..), .vdf => true
  | _, _ => false

section
variable {C : Crypto} {env : VotingEnv} {s s' : VotingState} {part : Part} {e e' : Election} {d q : Nat}

theorem SamePart.refl (e : Election) (part : Part) : SamePart e e part := by
  cases part <;> rfl

theorem SamePart.trans {e'' : Election} (h : SamePart e e' part) (h' : SamePart e' e'' part) : SamePart e e'' part := by
  cases part <;> exact Eq.trans h' h

theorem samePart_set (h : SamePart (s.elections d q) e' part) (d' q' : Nat) :
    SamePart (s.elections d' q') ((s.set_election d q e').elections d' q') part :=
  VotingState.set_election_forall (P := fun d q e => SamePart (s.elections d q) e part) (fun _ _ => .refl _ _) h d' q'

theorem ballot_samePart {call : BallotCall} (h : call.run C env s = .ok s') (hpart : (Call.ballot call).writes part = false)
    (d' q' : Nat) : SamePart (s.elections d' q') (s'.elections d' q') part := by
  cases call with
  | vote d q choice n root proof =>
    simp [BallotCall.run, vote] at h
    obtain ⟨-, -, -, -, -, -, p, -, -, -, -, vk, -, -, -, -, rfl⟩ := h
    exact samePart_set (by cases part <;> rfl) d' q'
  | vote_bls381 d q choice n root proof =>
    simp [BallotCall.run, vote_bls381] at h
    obtain ⟨-, -, -, -, -, -, p, -, -, -, -, vk, -, -, -, -, -, rfl⟩ := h
    exact samePart_set (by cases part <;> rfl) d' q'
  | cast_votes d q votes =>
    obtain ⟨⟨k, s₁⟩, hcast, hs⟩ := bind_eq_ok.mp h
    cases hs
    obtain ⟨-, -, p, vk, -, -, -, -, rfl⟩ := cast_votes_eq_ok.mp hcast
    exact samePart_set (by cases part <;> rfl) d' q'
  | vote_with_circuit d q choice n root proof circuit_id =>
    simp [BallotCall.run, vote_with_circuit] at h
    obtain ⟨-, -, -, -, -, p, -, -, -, vk, -, -, -, -, -, rfl⟩ := h
    exact samePart_set (by cases part <;> rfl) d' q'
  | vote_weighted d q choice n root proof balance_commitment max_supply weight domain_tag =>
    simp [BallotCall.run, vote_weighted] at h
    obtain ⟨-, -, -, -, -, -, -, -, -, -, -, p, -, -, -, -, -, vk, -, -, -, -, rfl⟩ := h
    refine samePart_set ?_ d' q'
    cases part with
    | weights => cases hpart
    | quadratic | vdf => rfl
  | vote_sybil_weighted d q choice n root attestation_commitment snapshot_time vote_weight proof =>
    simp [BallotCall.run, vote_sybil_weighted] at h
    obtain ⟨-, -, -, -, -, -, -, -, -, p, -, -, -, vk, -, -, -, -, -, rfl⟩ := h
    refine samePart_set ?_ d' q'
    cases part with
    | weights => cases hpart
    | quadratic | vdf => rfl
  | commit_vote d q n root commitment proof =>
    simp [BallotCall.run, commit_vote] at h
    obtain ⟨-, -, -, -, -, config, -, -, p, -, -, -, -, -, vk, -, -, -, rfl⟩ := h
    exact samePart_set (by cases part <;> rfl) d' q'
  | vote_encrypted => exact absurd h vote_encrypted_rejected
  | record_bridged_vote => exact absurd h record_bridged_vote_rejected
  | cast_qv_vote d q n root credits allocations_hash proof =>
    simp [BallotCall.run, cast_qv_vote] at h
    obtain ⟨-, -, -, -, -, -, p, -, -, -, -, -, vk, -, -, -, -, -, rfl⟩ := h
    refine samePart_set ?_ d' q'
    cases part with
    | quadratic => cases hpart
    | weights | vdf => rfl

theorem tally_samePart {call : TallyCall} (hdormant : Dormant s) (h : call.run C env s = .ok s')
    (hpart : (Call.tally call).writes part = false) (d' q' : Nat) :
    SamePart (s.elections d' q') (s'.elections d' q') part := by
  cases call with
  | reveal_vote d q n =>
    simp [TallyCall.run, reveal_vote] at h
    obtain ⟨-, -, -, -, config, -, -, -, -, -, -, info, -, -, rfl⟩ := h
    exact samePart_set (by cases part <;> rfl) d' q'
  | submit_recursive_tally d q =>
    simp [TallyCall.run, submit_recursive_tally] at h
    obtain ⟨-, -, -, -, info, -, -, -, -, -, rfl⟩ := h
    exact samePart_set (by cases part <;> rfl) d' q'
  | finalize_encrypted_tally d q =>
    simp [TallyCall.run, finalize_encrypted_tally, hdormant.encrypted] at h
  | record_qv_tally d q =>
    simp [TallyCall.run, record_qv_tally] at h
    obtain ⟨-, -, info, -, -, vk, -, -, rfl⟩ := h
    refine samePart_set ?_ d' q'
    cases part with
    | quadratic => cases hpart
    | weights | vdf => rfl
  | migrate_nullifier d q =>
    simp [TallyCall.run, migrate_nullifier, hdormant.legacy] at h
    obtain ⟨-, -, -, -, -, rfl⟩ := h
    exact .refl _ _

theorem create_samePart {call : CreateCall} (h : call.run C env s = .ok s') (d' q' : Nat) :
    SamePart (s.elections d' q') (s'.elections d' q') part := by
  simp only [CreateCall.run, bind_eq_ok, pure_eq_ok] at h
  obtain ⟨⟨id, s'⟩, h, rfl⟩ := h
  cases call with
  | create_proposal | create_proposal_with_vk_version =>
    simp [CreateCall.create, create_proposal, create_proposal_with_vk_version, create_proposal_with_version,
      next_proposal_id] at h
    obtain ⟨-, -, -, -, -, version, -, -, hash, -, root, -, index, -, -, rfl, rfl⟩ := h
    exact samePart_set (by cases part <;> rfl) d' q'
  | create_proposal_in_registration =>
    simp only [CreateCall.create, create_proposal_in_registration, bind_eq_ok, expect_eq_ok, pure_eq_ok,
      Prod.mk.injEq] at h
    obtain ⟨⟨_, s₁⟩, hcreate, p, -, rfl, rfl⟩ := h
    simp [create_proposal_with_version, next_proposal_id] at hcreate
    obtain ⟨-, -, -, -, -, version, -, -, hash, -, root, -, index, -, -, rfl, rfl⟩ := hcreate
    exact (samePart_set (by cases part <;> rfl) d' q').trans (samePart_set (by cases part <;> rfl) d' q')
  | create_encrypted_proposal =>
    simp [CreateCall.create, create_encrypted_proposal, next_proposal_id] at h
    obtain ⟨-, -, -, -, -, version, -, vk, -, -, -, root, -, index, -, -, rfl, rfl⟩ := h
    exact samePart_set (by cases part <;> rfl) d' q'
  | create_qv_proposal =>
    simp [CreateCall.create, create_qv_proposal, next_proposal_id] at h
    obtain ⟨-, -, -, -, version, -, -, vk, -, root, -, index, -, -, rfl, rfl⟩ := h
    exact samePart_set (by cases part <;> rfl) d' q'

theorem phase_samePart {call : PhaseCall} (h : call.run env s = .ok s') (d' q' : Nat) :
    SamePart (s.elections d' q') (s'.elections d' q') part := by
  cases call with
  | activate_proposal d q =>
    simp [PhaseCall.run, activate_proposal] at h
    obtain ⟨-, -, info, -, -, rfl⟩ := h
    exact samePart_set (by cases part <;> rfl) d' q'
  | close_proposal d q admin =>
    simp [PhaseCall.run, close_proposal] at h
    obtain ⟨-, -, -, info, -, -, ⟨-, rfl⟩ | ⟨-, rfl⟩⟩ := h
    · exact .refl _ _
    · exact samePart_set (by cases part <;> rfl) d' q'
  | archive_proposal d q admin =>
    simp [PhaseCall.run, archive_proposal] at h
    obtain ⟨-, -, -, info, -, -, ⟨-, rfl⟩ | ⟨-, rfl⟩⟩ := h
    · exact .refl _ _
    · exact samePart_set (by cases part <;> rfl) d' q'

theorem ConfigEffect.samePart {call : ConfigCall} (h : ConfigEffect C env s e call e')
    (hpart : (Call.config call).writes part = false) : SamePart e e' part := by
  cases h with
  | set_sybil_weight_cap =>
    cases part with
    | weights => cases hpart
    | quadratic | vdf => rfl
  | set_vdf_delay | submit_vdf_output =>
    cases part with
    | vdf => cases hpart
    | weights | quadratic => rfl
  | _ => cases part <;> rfl

theorem config_samePart {call : ConfigCall} (h : call.run C env s = .ok s')
    (hpart : (Call.config call).writes part = false) (d' q' : Nat) :
    SamePart (s.elections d' q') (s'.elections d' q') part := by
  obtain ⟨e', hr, he⟩ := config_effect h
  rw [hr.elections]
  exact samePart_set (he.samePart hpart) d' q'

/-- An accepted call leaves a part that it does not write as it is, in every election. -/
theorem step_samePart {call : Call} (hs : VotingOk s) (h : step C s env call = .ok s') (hpart : call.writes part = false)
    (d q : Nat) : SamePart (s.elections d q) (s'.elections d q) part := by
  cases call with
  | ballot call => exact ballot_samePart h hpart d q
  | tally call => exact tally_samePart hs.dormant h hpart d q
  | create call => exact create_samePart h d q
  | phase call => exact phase_samePart h d q
  | config call => exact config_samePart h hpart d q
  | dao call =>
    obtain ⟨d', hd⟩ := dao_step h
    rw [hd.elections]
    exact .refl _ _
  | inst call =>
    rw [(instance_step h).elections]
    exact .refl _ _

end

end ZkVote.Voting
