import ZkVote.Voting.Commitments
import ZkVote.Voting.TallyBound

/-!
# The voting contract: commitments left unrevealed

The contract takes every vote of an election for one that was revealed.
-/

open Lib Lib.Outcome

namespace ZkVote.Voting

/-- The commitments that have not been revealed, as the contract counts them. -/
def unrevealed_commit_count (s : VotingState) (dao_id proposal_id : Nat) : Nat :=
  let e := s.elections dao_id proposal_id
  let revealed := match e.proposal with
    | some p => saturatingAdd 64 p.yes_votes p.no_votes
    | none => 0
  e.ballots.vote_commit_count - revealed

/-- The votes a ballot adds at once. -/
def BallotCall.direct (call : BallotCall) : Nat :=
  if call.isCommit = true ∨ call.isQuadratic = true then 0 else call.nullifiers.length

/-- The votes a call adds to an election otherwise than by revealing one. -/
def Call.direct (dao_id proposal_id : Nat) : Call → Nat
  | .ballot call => if call.election = (dao_id, proposal_id) then call.direct else 0
  | .tally call => if call.election = (dao_id, proposal_id) then Call.attested (.tally call) else 0
  | _ => 0

def directVotes (dao_id proposal_id : Nat) (log : List (VotingState × VotingEnv × Call)) : Nat :=
  (log.map fun e => e.2.2.direct dao_id proposal_id).sum

/-- The nullifiers with a commitment. -/
def committed (b : Ballots) : Set U256 := {n | b.vote_commit n ≠ none}

/-- Every vote is a direct one, or the reveal of a commitment. -/
structure Accounted (e : Election) (direct : Nat) : Prop where
  finite : (committed e.ballots).Finite
  revealed : ∀ n, e.ballots.vote_revealed n = true → n ∈ committed e.ballots
  count : e.ballots.vote_commit_count = (committed e.ballots).ncard
  fits : e.ballots.vote_commit_count < 2 ^ 64
  total : votes e + (pending e.ballots).ncard = direct + (committed e.ballots).ncard

section
variable {C : Crypto} {env : VotingEnv} {s s' : VotingState} {call : Call} {e e' : Election} {d q direct : Nat}
  {n root : U256}

theorem Accounted.pending_subset : pending e.ballots ⊆ committed e.ballots := fun _ hn => hn.1

/-! ## Ballots -/

theorem Accounted.of_same {k : Nat} (he : Accounted e direct)
    (hcommits : (e'.ballots.vote_commit, e'.ballots.vote_commit_count) =
      (e.ballots.vote_commit, e.ballots.vote_commit_count))
    (hrevealed : e'.ballots.vote_revealed = e.ballots.vote_revealed) (hvotes : votes e' = votes e + k) :
    Accounted e' (direct + k) := by
  obtain ⟨hcommit, hcount⟩ := Prod.mk.inj hcommits
  have hcommitted : committed e'.ballots = committed e.ballots := by rw [committed, hcommit, committed]
  have hpending : pending e'.ballots = pending e.ballots := by rw [pending, hcommit, hrevealed, pending]
  refine ⟨hcommitted ▸ he.finite, fun n hn => ?_, ?_, hcount ▸ he.fits, ?_⟩
  · rw [hcommitted]
    exact he.revealed n (hrevealed ▸ hn)
  · rw [hcommitted, hcount, he.count]
  · have htotal := he.total
    rw [hcommitted, hpending, hvotes]
    omega

theorem Accounted.commit {commitment : BytesN 32} (he : Accounted e direct) (habsent : e.ballots.vote_commit n = none)
    (hcommit : e'.ballots.vote_commit = Function.update e.ballots.vote_commit n (some commitment))
    (hrevealed : e'.ballots.vote_revealed = e.ballots.vote_revealed)
    (hcount : e'.ballots.vote_commit_count = e.ballots.vote_commit_count + 1)
    (hroom : e.ballots.vote_commit_count + 1 < 2 ^ 64) (hvotes : votes e' = votes e) : Accounted e' direct := by
  have hnew : n ∉ committed e.ballots := fun hmem => hmem habsent
  have hhidden : e.ballots.vote_revealed n = false := by
    by_contra hne
    exact hnew (he.revealed n (Bool.not_eq_false _ ▸ hne))
  have hcommitted : committed e'.ballots = insert n (committed e.ballots) := by
    ext m
    by_cases hm : m = n <;> simp [committed, hcommit, hm]
  have hpending : pending e'.ballots = insert n (pending e.ballots) := by
    ext m
    by_cases hm : m = n <;> simp [pending, hcommit, hrevealed, hm, hhidden]
  have hcard : (committed e'.ballots).ncard = (committed e.ballots).ncard + 1 := by
    rw [hcommitted, Set.ncard_insert_of_notMem hnew he.finite]
  have hcard' : (pending e'.ballots).ncard = (pending e.ballots).ncard + 1 := by
    rw [hpending, Set.ncard_insert_of_notMem (fun hmem => hnew hmem.1) (he.finite.subset Accounted.pending_subset)]
  refine ⟨hcommitted ▸ he.finite.insert n, fun m hm => ?_, ?_, hcount ▸ hroom, ?_⟩
  · rw [hcommitted]
    exact .inr (he.revealed m (hrevealed ▸ hm))
  · rw [hcard, hcount, he.count]
  · have htotal := he.total
    rw [hcard, hcard', hvotes]
    omega

theorem commit_vote_accounted {commitment : BytesN 32} {proof : Proof}
    (h : commit_vote C env s d q n root commitment proof = .ok s') (he : Accounted (s.elections d q) direct) :
    Accounted (s'.elections d q) direct := by
  simp [commit_vote] at h
  obtain ⟨-, -, -, -, -, config, -, -, p, -, -, -, -, habsent, vk, -, -, hroom, rfl⟩ := h
  rw [clear_reentrancy_lock_elections, VotingState.set_election_self]
  exact he.commit habsent rfl rfl rfl hroom rfl

/-- A ballot of another kind adds a vote for each nullifier, unless it is a quadratic one. -/
theorem BallotEffect.votes {call : BallotCall} (h : BallotEffect e e' call) (hcommit : call.isCommit = false)
    (hsame : e'.ballots.vote_commit = e.ballots.vote_commit) (hquadratic : call.isQuadratic = false) :
    votes e' = votes e + call.direct := by
  rw [BallotCall.direct, if_neg (by simp [hcommit, hquadratic])]
  cases h with
  | counted hp hp' mode spends counts commits => exact counts.votes hp hp'
  | @committed p n commitment hp hp' mode nullifiers spends absent commits =>
    rw [commits] at hsame
    have hat := congrFun hsame n
    rw [Function.update_self, absent] at hat
    cases hat
  | quadratic hp hp' mode nullifiers call_eq =>
    rw [call_eq.2] at hquadratic
    cases hquadratic

theorem cast_qv_vote_votes {total_credits_spent : Nat} {allocations_hash : U256} {proof : Proof}
    (h : cast_qv_vote C env s d q n root total_credits_spent allocations_hash proof = .ok s') :
    votes (s'.elections d q) = votes (s.elections d q) := by
  simp [cast_qv_vote] at h
  obtain ⟨-, -, -, -, -, -, p, -, -, -, -, -, vk, -, -, -, -, -, rfl⟩ := h
  rw [VotingState.set_election_self]
  rfl

theorem ballot_accounted {call : BallotCall} {D : Nat → Nat → Nat} (h : call.run C env s = .ok s')
    (hs : ∀ d q, Accounted (s.elections d q) (D d q)) (d q : Nat) :
    Accounted (s'.elections d q) (D d q + (Call.ballot call).direct d q) := by
  obtain ⟨e', hstep⟩ := ballot_step h
  by_cases hdq : call.election = (d, q)
  · rw [Call.direct, if_pos hdq]
    obtain ⟨rfl, rfl⟩ : call.election.1 = d ∧ call.election.2 = q := ⟨congrArg Prod.fst hdq, congrArg Prod.snd hdq⟩
    cases hcommit : call.isCommit with
    | true =>
      cases call <;> simp [BallotCall.isCommit] at hcommit
      exact commit_vote_accounted h (hs _ _)
    | false =>
      refine (hs _ _).of_same (ballot_sameCommits h hcommit _ _)
        (hstep.rewrites.same (fun e => e.ballots.vote_revealed) hstep.effect.same_revealed _ _) ?_
      cases hquadratic : call.isQuadratic with
      | true =>
        cases call <;> simp [BallotCall.isQuadratic] at hquadratic
        exact cast_qv_vote_votes h
      | false =>
        rw [hstep.rewrites.self]
        refine hstep.effect.votes hcommit ?_ hquadratic
        rw [← hstep.rewrites.self]
        exact (ballot_sameCommits h hcommit).vote_commit _ _
  · rw [Call.direct, if_neg hdq, hstep.rewrites.of_ne]
    · exact hs d q
    · rintro ⟨rfl, rfl⟩
      exact hdq rfl

/-! ## Tallies -/

theorem TallyEffect.accounted {call : TallyCall} (h : TallyEffect e e' call) (he : Accounted e direct) :
    Accounted e' (direct + Call.attested (.tally call)) := by
  cases h with
  | @revealed d q n vote_choice blinding p p' hp hp' counts hcommitted hfresh ballots =>
    have hmem : n ∈ pending e.ballots := ⟨hcommitted, hfresh⟩
    have hpending : pending e'.ballots = pending e.ballots \ {n} := by
      ext m
      rw [ballots]
      by_cases hmn : m = n <;> simp [pending, hmn]
    have hcard := Set.ncard_sdiff_singleton_add_one hmem (he.finite.subset Accounted.pending_subset)
    have hsame : committed e'.ballots = committed e.ballots := by
      rw [ballots]
      rfl
    refine ⟨hsame ▸ he.finite, fun m hm => ?_, ?_, ?_, ?_⟩
    · rw [hsame]
      rw [ballots] at hm
      by_cases hmn : m = n
      · exact hmn ▸ hcommitted
      · exact he.revealed m (by simpa [hmn] using hm)
    · rw [hsame, ballots, he.count]
    · rw [ballots]
      exact he.fits
    · have htotal := he.total
      rw [hsame, hpending, counts.votes hp hp']
      change _ = direct + 0 + _
      omega
  | @submitted d q num_votes yes_votes no_votes acc proof p p' hp hp' attested ballots total =>
    refine he.of_same (by rw [ballots]) (by rw [ballots]) ?_
    simp only [votes, hp, hp', total]
    rfl
  | undecided same hother =>
    have hnone : Call.attested (.tally call) = 0 := by
      cases call with
      | submit_recursive_tally => cases hother
      | _ => rfl
    rw [hnone]
    exact he.of_same (by rw [same.ballots]) (by rw [same.ballots]) (votes_of_polled same.polled)

/-! ## Every call -/

theorem step_accounted {D : Nat → Nat → Nat} (hok : VotingOk s) (h : step C s env call = .ok s')
    (hs : ∀ d q, Accounted (s.elections d q) (D d q)) (d q : Nat) :
    Accounted (s'.elections d q) (D d q + call.direct d q) := by
  cases step_effect hok.dormant h with
  | ballot => exact ballot_accounted h hs d q
  | @tally call e' rewrites effect =>
    by_cases hdq : call.election = (d, q)
    · rw [Call.direct, if_pos hdq]
      obtain ⟨rfl, rfl⟩ : call.election.1 = d ∧ call.election.2 = q := ⟨congrArg Prod.fst hdq, congrArg Prod.snd hdq⟩
      rw [rewrites.self]
      exact effect.accounted (hs _ _)
    · rw [Call.direct, if_neg hdq, rewrites.of_ne]
      · exact hs d q
      · rintro ⟨rfl, rfl⟩
        exact hdq rfl
  | @create call id e' p hstep =>
    change Accounted (s'.elections d q) (D d q + 0)
    by_cases hdq : d = call.dao_id ∧ q = id
    · obtain ⟨rfl, rfl⟩ := hdq
      have hnone : (s.elections call.dao_id q).proposal = none := by
        by_contra hne
        have hle := (hok.elections call.dao_id q).numbered hne
        rw [hstep.id_eq] at hle
        omega
      rw [hstep.election]
      refine (hs _ _).of_same (by rw [hstep.ballots]) (by rw [hstep.ballots]) ?_
      simp only [votes, hstep.proposal, hstep.no_votes, hnone]
    · rw [hstep.election_other hdq]
      exact hs d q
  | arranged harranged hballot htally =>
    have hdirect : call.direct d q = 0 := by
      cases call with
      | ballot call => exact absurd rfl (hballot call)
      | tally call => exact absurd rfl (htally call)
      | _ => rfl
    rw [hdirect]
    exact (hs d q).of_same (by rw [harranged.ballots]) (by rw [harranged.ballots])
      (votes_of_polled (harranged.polled d q))

variable {registry guardian : Address} {log : List (VotingState × VotingEnv × Call)}

theorem VotingRun.accounted (hrun : VotingRun C registry guardian log s) :
    ∀ d q, Accounted (s.elections d q) (directVotes d q log) := by
  refine Run.invariant_log (P := fun log s => ∀ d q, Accounted (s.elections d q) (directVotes d q log))
    (fun d q => ?_) (fun log s call s' hr hlog (hs : Accepts C s call s') d q => ?_) hrun
  · refine ⟨?_, ?_, ?_, ?_, ?_⟩ <;> simp [Voting.committed, pending, votes, directVotes, Voting.constructor]
  · rw [directVotes, List.map_cons, List.sum_cons, Nat.add_comm]
    exact step_accounted (VotingRun.ok hr) hs hlog d q

/-- The count is that of the unrevealed commitments if and only if no other votes have been counted in the election,
or every commitment has been revealed. -/
theorem unrevealed_count_iff (hrun : VotingRun C registry guardian log s) (dao_id proposal_id : Nat) :
    unrevealed_commit_count s dao_id proposal_id = (pending (s.elections dao_id proposal_id).ballots).ncard ↔
      directVotes dao_id proposal_id log = 0 ∨ pending (s.elections dao_id proposal_id).ballots = ∅ := by
  have haccounted := hrun.accounted dao_id proposal_id
  have htotal := haccounted.total
  have hcount := haccounted.count
  have hfits := haccounted.fits
  have hfinite := haccounted.finite.subset Accounted.pending_subset
  have hle := Set.ncard_le_ncard Accounted.pending_subset haccounted.finite
  rw [← Set.ncard_eq_zero hfinite]
  unfold unrevealed_commit_count
  unfold votes at htotal
  cases hp : (s.elections dao_id proposal_id).proposal with
  | none =>
    simp only [hp] at htotal ⊢
    omega
  | some p =>
    simp only [hp] at htotal ⊢
    unfold saturatingAdd
    omega

end

/-! ## One commitment -/

theorem unrevealed_count_iff_for_one_commitment : ∃ log s, VotingRun sampleCrypto 0 0 log s ∧
    (unrevealed_commit_count s 0 1 = (pending (s.elections 0 1).ballots).ncard ↔
      directVotes 0 1 log = 0 ∨ pending (s.elections 0 1).ballots = ∅) ∧ unrevealed_commit_count s 0 1 = 1 := by
  obtain ⟨log, s, hrun, htest⟩ := exists_run (C := sampleCrypto) (r := 0) (g := 0) (committedElection 20 30 20)
    (fun _ s => unrevealed_commit_count s 0 1 == 1) (by decide +kernel)
  exact ⟨log, s, hrun, unrevealed_count_iff hrun 0 1, eq_of_beq htest⟩

/-- Another member votes at once, and the commitment under nullifier 3 no longer shows. -/
theorem commitment_hidden : ∃ log s, VotingRun sampleCrypto 0 0 log s ∧ 3 ∈ pending (s.elections 0 1).ballots ∧
    unrevealed_commit_count s 0 1 = 0 ∧
    unrevealed_commit_count s 0 1 ≠ (pending (s.elections 0 1).ballots).ncard := by
  obtain ⟨log, s, hrun, htest⟩ := exists_run (C := sampleCrypto) (r := 0) (g := 0)
    (committedElection 20 30 20 ++ [.ballot (.vote 0 1 true 4 Tree.sampleRoot sampleProof)])
    (fun log s => decide (unrevealed_commit_count s 0 1 = 0 ∧ directVotes 0 1 log ≠ 0 ∧
      (s.elections 0 1).ballots.vote_commit 3 ≠ none ∧ (s.elections 0 1).ballots.vote_revealed 3 = false))
    (by decide +kernel)
  obtain ⟨hzero, hdirect, hcommit, hhidden⟩ := of_decide_eq_true htest
  have hmem : 3 ∈ pending (s.elections 0 1).ballots := ⟨hcommit, hhidden⟩
  refine ⟨log, s, hrun, hmem, hzero, fun heq => ?_⟩
  rcases (unrevealed_count_iff hrun 0 1).mp heq with hnone | hempty
  · exact hdirect hnone
  · rw [hempty] at hmem
    cases hmem

end ZkVote.Voting
