import ZkVote.Lib.Sha256
import ZkVote.Voting.Accumulator
import ZkVote.Voting.Batches
import ZkVote.Voting.Steps

/-!
# The voting contract: public signals

The tally proof takes the accumulator as a public signal, which has to be in the field. A
digest need not be.
-/

open Lib Lib.Outcome

namespace ZkVote.Voting

def Call.folds (dao_id proposal_id : Nat) : Call → List U256
  | .ballot call => if call.election = (dao_id, proposal_id) then call.folds else []
  | _ => []

/-- The nullifiers that the accepted ballots of an election have folded in, in that order. -/
def folding (dao_id proposal_id : Nat) (log : List (VotingState × VotingEnv × Call)) : List U256 :=
  log.reverse.flatMap fun e => e.2.2.folds dao_id proposal_id

/-- The last digest of the chain over some nullifiers. -/
def chained (C : Crypto) (nullifiers : List U256) : U256 := nullifiers.foldl (accumulated C) 0

/-- The accumulator of each election is in the field, and no tally with it is turned away as out of field. -/
structure SignalsInField (C : Crypto) (s : VotingState) : Prop where
  canonical : ∀ dao_id proposal_id, accumulator (s.elections dao_id proposal_id) < BN254_FR_MODULUS
  admitted : ∀ dao_id proposal_id proof num_votes yes_votes no_votes,
    verify_tally_proof_data C s dao_id proposal_id proof num_votes yes_votes no_votes
      (accumulator (s.elections dao_id proposal_id)) ≠ fail .SignalNotInField

section
variable {C : Crypto} {env : VotingEnv} {s s' : VotingState} {call : Call} {d q registry guardian : Nat}
  {log : List (VotingState × VotingEnv × Call)}

theorem folding_cons (e : VotingState × VotingEnv × Call) :
    folding d q (e :: log) = folding d q log ++ e.2.2.folds d q := by
  simp [folding]

theorem chained_append (ns ms : List U256) : chained C (ns ++ ms) = ms.foldl (accumulated C) (chained C ns) :=
  List.foldl_append ..

theorem accumulator_step (hs : VotingOk s) (h : step C s env call = .ok s') :
    accumulator (s'.elections d q) = (call.folds d q).foldl (accumulated C) (accumulator (s.elections d q)) := by
  by_cases hballot : ∃ c, call = .ballot c ∧ c.election = (d, q)
  · obtain ⟨c, rfl, hc⟩ := hballot
    obtain ⟨e', p, he', hpassed⟩ := ballot_passed h
    have haccumulator := congrArg (Option.getD · 0) hpassed.accumulator
    rw [← he', hc] at haccumulator
    rw [Call.folds, if_pos hc]
    exact haccumulator.trans (foldl_accumulate_nullifier _)
  · have hother : ∀ c, call = .ballot c → c.election ≠ (d, q) := fun c hcall hc => hballot ⟨c, hcall, hc⟩
    have hnone : call.folds d q = [] := by
      cases call with
      | ballot c => exact if_neg (hother c rfl)
      | _ => rfl
    rw [hnone, step_accumulator hs h hother, List.foldl_nil]

/-- The accumulator is the chain of what has been folded in. -/
theorem accumulator_eq_chained (hrun : VotingRun C registry guardian log s) (d q : Nat) :
    accumulator (s.elections d q) = chained C (folding d q log) := by
  induction hrun with
  | start => rfl
  | @call log s s' i hrun hs ih =>
    rw [folding_cons, chained_append, ← ih]
    exact accumulator_step (VotingRun.ok hrun) hs

theorem signalsInField_iff :
    SignalsInField C s ↔ ∀ d q, accumulator (s.elections d q) < BN254_FR_MODULUS := by
  refine ⟨SignalsInField.canonical, fun hcanonical => ⟨hcanonical, ?_⟩⟩
  intro d q proof num_votes yes_votes no_votes
  unfold verify_tally_proof_data
  refine bind_ne_fail (orPanic_ne_fail (by simp)) fun vk => ?_
  refine bind_ne_fail (require_ne_fail (.inr (by simp))) fun _ => ?_
  refine bind_ne_fail (require_ne_fail (.inl (hcanonical d q))) fun _ => ?_
  refine bind_ne_fail (require_ne_fail (.inr (by simp))) fun _ => ?_
  exact require_ne_fail (.inr (by simp))

end

/-- In every state of every run the accumulators are in the field, if and only if the digests of the chains over the
nullifiers folded in are. -/
theorem accumulators_in_field_iff (C : Crypto) {registry guardian : Address}
    {log : List (VotingState × VotingEnv × Call)} {s : VotingState} (hrun : VotingRun C registry guardian log s) :
    (∀ t ∈ Run.prefixes log s, SignalsInField C t.2) ↔
      ∀ t ∈ Run.prefixes log s, ∀ dao_id proposal_id,
        chained C (folding dao_id proposal_id t.1) < BN254_FR_MODULUS := by
  refine forall₂_congr fun t ht => ?_
  rw [signalsInField_iff]
  refine forall₂_congr fun d q => ?_
  rw [accumulator_eq_chained (Run.of_mem_prefixes hrun ht) d q]

/-! ## One vote -/

def shaCrypto : Crypto := { sampleCrypto with sha256 := sha256 }

/-- An election with a tally key, and a vote in it. -/
def voteBeforeTally (nullifier : U256) : List Call :=
  openElection 100 ++
    [.dao (.set_tally_vk 0 (sampleVk 7) 0), .ballot (.vote 0 1 true nullifier Tree.sampleRoot sampleProof)]

theorem accumulators_in_field_iff_for_a_vote : ∃ log s, VotingRun shaCrypto 0 0 log s ∧
    ((∀ t ∈ Run.prefixes log s, SignalsInField shaCrypto t.2) ↔
      ∀ t ∈ Run.prefixes log s, ∀ dao_id proposal_id,
        chained shaCrypto (folding dao_id proposal_id t.1) < BN254_FR_MODULUS) := by
  obtain ⟨log, s, hrun, -⟩ := exists_run (C := shaCrypto) (r := 0) (g := 0) (voteBeforeTally 7) (fun _ _ => true)
    (by decide +kernel)
  exact ⟨log, s, hrun, accumulators_in_field_iff shaCrypto hrun⟩

/-- The digest over nullifier 3 is out of the field, and no tally of the election gets as far as its proof. -/
theorem tally_shut_out : ∃ log s, VotingRun shaCrypto 0 0 log s ∧
    BN254_FR_MODULUS ≤ accumulator (s.elections 0 1) ∧
    (∀ proof num_votes yes_votes no_votes, verify_tally_proof_data shaCrypto s 0 1 proof num_votes yes_votes no_votes
      (accumulator (s.elections 0 1)) = fail .SignalNotInField) ∧
    ¬ SignalsInField shaCrypto s := by
  obtain ⟨log, s, hrun, htest⟩ := exists_run (C := shaCrypto) (r := 0) (g := 0) (voteBeforeTally 3)
    (fun _ s => decide (BN254_FR_MODULUS ≤ accumulator (s.elections 0 1) ∧
      (s.daos 0).keys.tally_vk = some (sampleVk 7))) (by decide +kernel)
  obtain ⟨hout, hkey⟩ := of_decide_eq_true htest
  refine ⟨log, s, hrun, hout, fun proof num_votes yes_votes no_votes => ?_, fun h => ?_⟩
  · unfold verify_tally_proof_data assert_in_field
    rw [hkey, require_of_not (not_lt.mpr hout)]
    rfl
  · exact absurd (h.canonical 0 1) (not_lt.mpr hout)

/-!
## The number of candidates as a public signal

A circuit bounds the choice by a signal that the contract derives from the configuration.
The plain circuits get a floor of two, the Sybil circuit a sentinel for "unbounded".
-/

/-- The ballots whose circuits take a choice, and the commitment to one. -/
def BallotCall.choosesCandidate : BallotCall → Bool
  | vote .. | cast_votes .. | vote_bls381 .. | vote_with_circuit .. | vote_sybil_weighted .. | commit_vote .. => true
  | _ => false

/-- The public signals that the verifier is shown, one list for each proof. -/
def BallotCall.statements (e : Election) : BallotCall → List (List U256)
  | vote d q choice n root _ | vote_bls381 d q choice n root _ | vote_with_circuit d q choice n root _ _ =>
    [vote_signals e d q choice n root]
  | cast_votes d q votes => votes.map (entry_signals e d q)
  | vote_sybil_weighted d q choice n root attestation_commitment snapshot_time vote_weight _ =>
    [[root, n, d, q, vote_choice_index choice, candidate_signal (election_config e).num_candidates, snapshot_time,
      attestation_commitment, vote_weight]]
  | commit_vote d q n root _ _ => [[root, n, d, q]]
  | _ => []

/-- Some key accepts the proofs of the ballot for its statements. -/
def BallotCall.Verified (C : Crypto) (e : Election) (call : BallotCall) : Prop :=
  match call with
  | vote _ _ _ _ _ proof | vote_with_circuit _ _ _ _ _ proof _ | vote_sybil_weighted _ _ _ _ _ _ _ _ proof
  | commit_vote _ _ _ _ _ proof =>
    ∃ vk, ∀ signals ∈ call.statements e, C.verify_groth16 vk proof signals = true
  | vote_bls381 _ _ _ _ _ proof => ∃ vk, ∀ signals ∈ call.statements e, C.verify_groth16_bls381 vk proof signals = true
  | cast_votes _ _ votes => ∃ vk, C.verify_groth16_batch vk (votes.map BatchVote.proof) (call.statements e) = true
  | _ => True

/-- The signal for the number of candidates, the sixth of a circuit that takes a choice. -/
def candidateSignal? (signals : List U256) : Option U256 := signals[5]?

/-- Whatever the ballots of the election, they agree on the signal. -/
def SignalsAgree (e : Election) (dao_id proposal_id : Nat) : Prop :=
  ∀ call call' : BallotCall, call.election = (dao_id, proposal_id) → call'.election = (dao_id, proposal_id) →
    call.choosesCandidate = true → call'.choosesCandidate = true →
    ∀ signals ∈ call.statements e, ∀ signals' ∈ call'.statements e, ∀ x x',
      candidateSignal? signals = some x → candidateSignal? signals' = some x' → x = x'

section
variable {C : Crypto} {env : VotingEnv} {s s' : VotingState} {call : BallotCall} {e : Election} {d q : Nat}
  {signals : List U256} {x : U256}

/-- A ballot is accepted on its statements only. -/
theorem ballot_verified (h : call.run C env s = .ok s') :
    call.Verified C (s.elections call.election.1 call.election.2) := by
  cases call with
  | vote d q choice n root proof =>
    simp [BallotCall.run, vote] at h
    obtain ⟨-, -, -, -, -, -, p, -, -, -, -, vk, -, -, hverify, -⟩ := h
    exact ⟨vk, by simpa [BallotCall.statements] using hverify⟩
  | vote_bls381 d q choice n root proof =>
    simp [BallotCall.run, vote_bls381] at h
    obtain ⟨-, -, -, -, -, -, p, -, -, -, -, vk, -, -, -, hverify, -⟩ := h
    exact ⟨vk, by simpa [BallotCall.statements] using hverify⟩
  | cast_votes d q votes =>
    simp only [BallotCall.run, bind_eq_ok, pure_eq_ok] at h
    obtain ⟨⟨k, s₁⟩, hcast, -⟩ := h
    obtain ⟨-, -, p, vk, -, -, -, hverify, -⟩ := cast_votes_eq_ok.mp hcast
    exact ⟨vk, hverify⟩
  | vote_with_circuit d q choice n root proof circuit_id =>
    simp [BallotCall.run, vote_with_circuit] at h
    obtain ⟨-, -, -, -, -, p, -, -, -, vk, -, -, -, hverify, -⟩ := h
    exact ⟨vk, by simpa [BallotCall.statements] using hverify⟩
  | vote_sybil_weighted d q choice n root attestation_commitment snapshot_time vote_weight proof =>
    simp [BallotCall.run, vote_sybil_weighted] at h
    obtain ⟨-, -, -, -, -, -, -, -, -, p, -, -, -, vk, -, -, hverify, -⟩ := h
    exact ⟨vk, by simpa [BallotCall.statements] using hverify⟩
  | commit_vote d q n root commitment proof =>
    simp [BallotCall.run, commit_vote] at h
    obtain ⟨-, -, -, -, -, config, -, -, p, -, -, -, -, -, vk, -, hverify, -⟩ := h
    exact ⟨vk, by simpa [BallotCall.statements] using hverify⟩
  | _ => trivial

/-- The two mappings of the stored number, side by side. -/
theorem candidateSignal?_eq (hcall : call.choosesCandidate = true) (hsignals : signals ∈ call.statements e)
    (hx : candidateSignal? signals = some x) : x = num_candidates_signal (election_config e).num_candidates ∨
      x = candidate_signal (election_config e).num_candidates := by
  cases call with
  | vote | vote_bls381 | vote_with_circuit =>
    obtain rfl := List.mem_singleton.mp hsignals
    exact .inl (Option.some.inj hx).symm
  | cast_votes d q votes =>
    obtain ⟨entry, -, rfl⟩ := List.mem_map.mp hsignals
    exact .inl (Option.some.inj hx).symm
  | vote_sybil_weighted =>
    obtain rfl := List.mem_singleton.mp hsignals
    exact .inr (Option.some.inj hx).symm
  | commit_vote =>
    obtain rfl := List.mem_singleton.mp hsignals
    cases hx
  | _ => cases hcall

theorem signals_eq_iff {n : Nat} : num_candidates_signal n = candidate_signal n ↔ 2 ≤ n := by
  have hmin : MIN_SATISFIABLE_NUM_CANDIDATES = 2 := rfl
  have hmax : UNBOUNDED_CANDIDATE_SIGNAL = 4294967295 := rfl
  unfold num_candidates_signal candidate_signal
  rw [hmin, hmax]
  split <;> split <;> omega

theorem signalsAgree_iff (e : Election) (d q : Nat) : SignalsAgree e d q ↔ 2 ≤ (election_config e).num_candidates := by
  rw [← signals_eq_iff]
  constructor
  · intro hagree
    exact hagree (.vote d q false 0 0 sampleProof) (.vote_sybil_weighted d q false 0 0 0 0 0 sampleProof) rfl rfl rfl rfl
      _ (List.mem_singleton_self _) _ (List.mem_singleton_self _) _ _ rfl rfl
  · intro heq call call' _ _ hcall hcall' signals hsignals signals' hsignals' x x' hx hx'
    have hleft := candidateSignal?_eq hcall hsignals hx
    have hright := candidateSignal?_eq hcall' hsignals' hx'
    rw [heq, or_self] at hleft hright
    rw [hleft, hright]

/-- What the verifier is shown agrees when the election is configured with two candidates or more. -/
theorem candidate_signals_agree_iff (C : Crypto) (s : VotingState) (d q : Nat) :
    (∀ env (call : BallotCall) s', call.election = (d, q) → call.run C env s = .ok s' →
        call.Verified C (s.elections d q)) ∧
      (SignalsAgree (s.elections d q) d q ↔ 2 ≤ (election_config (s.elections d q)).num_candidates) := by
  refine ⟨fun env call s' hcall h => ?_, signalsAgree_iff _ _ _⟩
  have hverified := ballot_verified h
  rwa [hcall] at hverified

end

/-! ### Two ballots of an election that nobody has configured -/

def twoSignals : List Call :=
  openElection 100 ++ [.dao (.set_sybil_vk 0 (sampleVk SYBIL_CIRCUIT_IC_LEN) 0),
    .ballot (.vote 0 1 true 2 Tree.sampleRoot sampleProof),
    .ballot (.vote_sybil_weighted 0 1 true 3 Tree.sampleRoot 5 0 2 sampleProof)]

theorem signals_disagree_by_default : ∃ log s, VotingRun sampleCrypto 0 0 log s ∧
    (∃ p, (s.elections 0 1).proposal = some p ∧ p.yes_votes = 2) ∧ (s.elections 0 1).config = none ∧
    ¬ SignalsAgree (s.elections 0 1) 0 1 := by
  obtain ⟨log, s, hrun, htest⟩ := exists_run (C := sampleCrypto) (r := 0) (g := 0) twoSignals
    (fun _ s => (s.elections 0 1).proposal.any (fun p => p.yes_votes == 2) && (s.elections 0 1).config.isNone)
    (by decide +kernel)
  simp only [Bool.and_eq_true, Option.any_eq_true, beq_iff_eq, Option.isNone_iff_eq_none] at htest
  refine ⟨log, s, hrun, htest.1, htest.2, fun hagree => ?_⟩
  have hconfigured := (signalsAgree_iff _ _ _).mp hagree
  rw [election_config, htest.2] at hconfigured
  exact absurd hconfigured (by decide)

end ZkVote.Voting
