import ZkVote.Voting.Steps

/-!
# The voting contract: a batch is its ballots

In a reachable state the counters of a proposal are within their 64 bits, so the
batch and the sequence of its ballots overflow together.
-/

open Lib Lib.Outcome

namespace ZkVote.Voting

/-- The batch verifier accepts a batch exactly when every proof in it verifies. -/
def BatchVerifies (C : Crypto) : Prop :=
  ∀ vk proofs signal_sets, proofs.length = signal_sets.length →
    (C.verify_groth16_batch vk proofs signal_sets = true ↔
      ∀ x ∈ proofs.zip signal_sets, C.verify_groth16 vk x.1 x.2 = true)

/-- The counters of an election are equal, and so are its spent nullifiers. -/
def SameTally (e e' : Election) : Prop :=
  polled e = polled e' ∧ ∀ n, nullifier_is_used e.ballots n = nullifier_is_used e'.ballots n

section
variable {C : Crypto} {env : VotingEnv} {s s₁ s₂ : VotingState} {dao_id proposal_id : Nat}
  {votes : List BatchVote}

theorem BatchVerifies.map_iff (h : BatchVerifies C) {vk : VerificationKey} {e : Election} :
    C.verify_groth16_batch vk (votes.map BatchVote.proof)
        (votes.map (entry_signals e dao_id proposal_id)) = true ↔
      ∀ entry ∈ votes, Verified C vk e dao_id proposal_id entry := by
  rw [h vk _ _ (by simp), List.zip_map']
  simp [Verified]

/-- A batch is accepted when every ballot of it would be. -/
theorem cast_votes_ok_iff (hbatch : BatchVerifies C) (hs : VotingOk s) (hne : votes ≠ [])
    (hsize : votes.length ≤ MAX_VOTE_BATCH) :
    (∃ r, cast_votes C env s dao_id proposal_id votes = .ok r) ↔
      ∃ s', vote_each C env dao_id proposal_id votes s = .ok s' := by
  constructor
  · rintro ⟨⟨k, s'⟩, h⟩
    obtain ⟨-, -, p, vk, hr, -, hb, hverify, -⟩ := cast_votes_eq_ok.mp h
    have hfits : p.Fits := (hs.elections dao_id proposal_id).fits p hr.proposal
    exact (vote_each_ok_iff hr hfits).mpr ⟨hb, hbatch.map_iff.mp hverify⟩
  · rintro ⟨s', h⟩
    cases votes with
    | nil => exact absurd rfl hne
    | cons entry votes =>
      have hfirst := h
      simp only [vote_each, bind_eq_ok, vote_eq_ok] at hfirst
      obtain ⟨_, ⟨p, vk, hr, hentry, -⟩, -⟩ := hfirst
      have hfits : p.Fits := (hs.elections dao_id proposal_id).fits p hr.proposal
      obtain ⟨hb, hverify⟩ := (vote_each_ok_iff hr hfits).mp ⟨s', h⟩
      have hlength : ¬ ((entry :: votes).length = 0 ∨ MAX_VOTE_BATCH < (entry :: votes).length) := by
        rw [List.length_cons] at hsize ⊢
        omega
      exact ⟨⟨_, _⟩, cast_votes_eq_ok.mpr ⟨hlength, rfl, p, vk, hr, hentry.eligible.mode_ne, hb,
        hbatch.map_iff.mpr hverify, rfl⟩⟩

theorem cast_votes_sameTally {k : Nat} (h₁ : cast_votes C env s dao_id proposal_id votes = .ok (k, s₁))
    (h₂ : vote_each C env dao_id proposal_id votes s = .ok s₂) :
    SameTally (s₁.elections dao_id proposal_id) (s₂.elections dao_id proposal_id) := by
  obtain ⟨-, -, p, vk, hr, -, -, -, rfl⟩ := cast_votes_eq_ok.mp h₁
  obtain ⟨hproposal, hused⟩ := vote_each_result hr.proposal h₂
  rw [batchCast, clear_reentrancy_lock_elections, VotingState.set_election_self]
  exact ⟨by simp [polled, hproposal], fun n => (hused n).symm⟩

end

/-- In every reachable state and for every batch that is not empty and not too long: the batch is accepted if
and only if its ballots are, cast one by one. Then both leave the same votes and the same spent nullifiers. A
rejected batch changes nothing. -/
theorem cast_votes_refines_vote (C : Crypto) (hbatch : BatchVerifies C) {registry guardian : Address}
    {log : List (VotingState × VotingEnv × Call)} {s : VotingState}
    (hrun : VotingRun C registry guardian log s) (env : VotingEnv) (dao_id proposal_id : Nat)
    (votes : List BatchVote) (hne : votes ≠ []) (hsize : votes.length ≤ MAX_VOTE_BATCH) :
    ((∃ r, cast_votes C env s dao_id proposal_id votes = .ok r) ↔
      ∃ s', vote_each C env dao_id proposal_id votes s = .ok s') ∧
    (∀ k s₁ s₂, cast_votes C env s dao_id proposal_id votes = .ok (k, s₁) →
      vote_each C env dao_id proposal_id votes s = .ok s₂ →
      SameTally (s₁.elections dao_id proposal_id) (s₂.elections dao_id proposal_id)) ∧
    ((∀ r, cast_votes C env s dao_id proposal_id votes ≠ .ok r) →
      settled C s (env, .ballot (.cast_votes dao_id proposal_id votes)) = s) := by
  refine ⟨cast_votes_ok_iff hbatch hrun.ok hne hsize, fun k s₁ s₂ => cast_votes_sameTally, fun hrejected => ?_⟩
  unfold settled
  split
  · rename_i s' hs
    obtain ⟨r, hr, -⟩ := bind_eq_ok.mp hs
    exact absurd hr (hrejected r)
  · rfl

theorem sampleCrypto_batchVerifies : BatchVerifies sampleCrypto := by
  intro vk proofs signal_sets _
  simp [sampleCrypto]

/-- A plain election under a fixed root. -/
def plainElection : List Call :=
  [.dao (.set_vk_from_registry 0 (sampleVk 7)), .create (.create_proposal 0 [] [] 0 1 .Fixed)]

def sampleVote : BatchVote where
  vote_choice := true
  nullifier := 3
  root := Tree.sampleRoot
  proof := sampleProof

theorem cast_votes_refines_vote_for_one_ballot : ∃ log s, VotingRun sampleCrypto 0 0 log s ∧
    (((∃ r, cast_votes sampleCrypto sampleEnv s 0 1 [sampleVote] = .ok r) ↔
      ∃ s', vote_each sampleCrypto sampleEnv 0 1 [sampleVote] s = .ok s') ∧
    (∀ k s₁ s₂, cast_votes sampleCrypto sampleEnv s 0 1 [sampleVote] = .ok (k, s₁) →
      vote_each sampleCrypto sampleEnv 0 1 [sampleVote] s = .ok s₂ →
      SameTally (s₁.elections 0 1) (s₂.elections 0 1)) ∧
    ((∀ r, cast_votes sampleCrypto sampleEnv s 0 1 [sampleVote] ≠ .ok r) →
      settled sampleCrypto s (sampleEnv, .ballot (.cast_votes 0 1 [sampleVote])) = s)) ∧
    (cast_votes sampleCrypto sampleEnv s 0 1 [sampleVote]).isOk = true := by
  obtain ⟨log, s, hrun, htest⟩ := exists_run (C := sampleCrypto) (r := 0) (g := 0) plainElection
    (fun _ s => (cast_votes sampleCrypto sampleEnv s 0 1 [sampleVote]).isOk) (by decide +kernel)
  exact ⟨log, s, hrun, cast_votes_refines_vote sampleCrypto sampleCrypto_batchVerifies hrun sampleEnv 0 1
    [sampleVote] (by simp) (by decide), htest⟩

/-- The empty batch is rejected, and casting no ballot is not. -/
theorem empty_batch_rejected : ∃ log s, VotingRun sampleCrypto 0 0 log s ∧
    ([] : List BatchVote).length ≤ MAX_VOTE_BATCH ∧
    ¬ ((∃ r, cast_votes sampleCrypto sampleEnv s 0 1 [] = .ok r) ↔
      ∃ s', vote_each sampleCrypto sampleEnv 0 1 [] s = .ok s') := by
  obtain ⟨log, s, hrun, -⟩ := exists_run (C := sampleCrypto) (r := 0) (g := 0) plainElection
    (fun _ _ => true) (by decide +kernel)
  refine ⟨log, s, hrun, by simp, fun hiff => ?_⟩
  obtain ⟨⟨k, s'⟩, h⟩ := hiff.mpr ⟨s, rfl⟩
  exact (cast_votes_eq_ok.mp h).1 (.inl rfl)

end ZkVote.Voting
