import Mathlib.Data.Set.Card
import ZkVote.Voting.Nullifiers

/-!
# The voting contract: votes and nullifiers

Every entry point that counts a vote spends a nullifier for it, now or when the
vote was committed. A submitted tally adds votes that have been counted before.
-/

open Lib Lib.Outcome

namespace ZkVote.Voting

/-- The votes of an election, yes and no. -/
def votes (e : Election) : Nat :=
  match e.proposal with
  | some p => p.yes_votes + p.no_votes
  | none => 0

/-- The nullifiers in the shared table. -/
def used (b : Ballots) : Set U256 := {n | b.nullifier n = true}

/-- The committed votes that have not been revealed. -/
def pending (b : Ballots) : Set U256 := {n | b.vote_commit n ≠ none ∧ b.vote_revealed n = false}

/-- The votes a call attests in bulk. -/
def Call.attested : Call → Nat
  | .tally (.submit_recursive_tally _ _ num_votes _ _ _ _) => num_votes
  | _ => 0

/-- The votes counted and the votes still to be revealed have a nullifier each. -/
structure Backed (e : Election) : Prop where
  finite : (used e.ballots).Finite
  committed : ∀ n, e.ballots.vote_commit n ≠ none → e.ballots.nullifier n = true
  bound : votes e + (pending e.ballots).ncard ≤ (used e.ballots).ncard

section
variable {env : VotingEnv} {s s' : VotingState} {call : Call} {e e' : Election} {b b' : Ballots}

theorem Backed.pending_subset (h : Backed e) : pending e.ballots ⊆ used e.ballots :=
  fun n hn => h.committed n hn.1

theorem Backed.pending_finite (h : Backed e) : (pending e.ballots).Finite :=
  h.finite.subset h.pending_subset

theorem Spends.used_eq {ns : List U256} (h : Spends b b' ns) : used b' = used b ∪ ↑ns.toFinset := by
  ext n
  simp [used, h.nullifier, or_comm]

theorem Spends.ncard_used {ns : List U256} (h : Spends b b' ns) (hfinite : (used b).Finite) :
    (used b').ncard = (used b).ncard + ns.length := by
  have hdisjoint : Disjoint (used b) ↑ns.toFinset := by
    rw [Set.disjoint_right]
    intro n hn hused
    have hfresh := h.fresh n (by simpa using hn)
    rw [hused] at hfresh
    cases hfresh
  rw [h.used_eq, Set.ncard_union_eq hdisjoint hfinite (Finset.finite_toSet _), Set.ncard_coe_finset,
    List.toFinset_card_of_nodup h.nodup]

theorem Spends.used_finite {ns : List U256} (h : Spends b b' ns) (hfinite : (used b).Finite) :
    (used b').Finite := by
  rw [h.used_eq]
  exact hfinite.union (Finset.finite_toSet _)

theorem Counts.votes {p p' : ProposalInfo} {k : Nat} (h : Counts p p' k) (hp : e.proposal = some p)
    (hp' : e'.proposal = some p') : votes e' = votes e + k := by
  simp only [Voting.votes, hp, hp', h.total]

theorem votes_of_proposal (h : e'.proposal = e.proposal) : votes e' = votes e := by
  simp only [votes, h]

theorem pending_commit {n : U256} {commitment : BytesN 32}
    (hcommit : b'.vote_commit = Function.update b.vote_commit n (some commitment))
    (hrevealed : b'.vote_revealed = b.vote_revealed) : pending b' ⊆ insert n (pending b) := by
  rintro m ⟨hpresent, hhidden⟩
  rw [hcommit] at hpresent
  rw [hrevealed] at hhidden
  by_cases hn : m = n
  · exact .inl hn
  · rw [Function.update_of_ne hn] at hpresent
    exact .inr ⟨hpresent, hhidden⟩

theorem BallotEffect.backed {call : BallotCall} (h : BallotEffect e e' call) (he : Backed e) : Backed e' := by
  cases h with
  | counted hp hp' mode spends counts commits =>
    have hpending : pending e'.ballots = pending e.ballots := by
      rw [pending, commits, spends.vote_revealed, pending]
    refine ⟨spends.used_finite he.finite, fun n hn => ?_, ?_⟩
    · exact (spends.nullifier n).mpr (.inr (he.committed n (commits ▸ hn)))
    · have hbound := he.bound
      rw [counts.votes hp hp', hpending, spends.ncard_used he.finite]
      omega
  | @committed p n commitment hp hp' mode nullifiers spends absent commits =>
    refine ⟨spends.used_finite he.finite, fun m hm => ?_, ?_⟩
    · rw [spends.nullifier, List.mem_singleton]
      by_cases hmn : m = n
      · exact .inl hmn
      · rw [commits, Function.update_of_ne hmn] at hm
        exact .inr (he.committed m hm)
    · have hbound := he.bound
      have hle : (pending e'.ballots).ncard ≤ (pending e.ballots).ncard + 1 :=
        (Set.ncard_le_ncard (pending_commit commits spends.vote_revealed)
          (he.pending_finite.insert n)).trans (Set.ncard_insert_le n _)
      rw [votes_of_proposal hp', spends.ncard_used he.finite, List.length_singleton]
      omega
  | quadratic hp hp' mode nullifiers call_eq fresh ballots =>
    refine ⟨by rw [ballots]; exact he.finite, by rw [ballots]; exact he.committed, ?_⟩
    rw [votes_of_proposal hp', ballots]
    exact he.bound

theorem votes_of_polled (h : polled e' = polled e) : votes e' = votes e := by
  unfold polled at h
  unfold votes
  cases hp : e.proposal <;> cases hp' : e'.proposal <;> simp_all

theorem Backed.of_polled (he : Backed e) (hballots : e'.ballots = e.ballots) (hpolled : polled e' = polled e) :
    Backed e' := by
  refine ⟨by rw [hballots]; exact he.finite, by rw [hballots]; exact he.committed, ?_⟩
  rw [votes_of_polled hpolled, hballots]
  exact he.bound

/-- A reveal turns a vote to be revealed into a vote; a tally without votes adds none. -/
theorem TallyEffect.backed {call : TallyCall} (h : TallyEffect e e' call) (he : Backed e)
    (hattested : Call.attested (.tally call) = 0) : Backed e' := by
  cases h with
  | @revealed d q n vote_choice blinding p p' hp hp' counts committed fresh ballots =>
    have hpending : pending e'.ballots = pending e.ballots \ {n} := by
      ext m
      rw [ballots]
      by_cases hmn : m = n <;> simp [pending, hmn]
    have hmem : n ∈ pending e.ballots := ⟨committed, fresh⟩
    have hcard := Set.ncard_sdiff_singleton_add_one hmem he.pending_finite
    refine ⟨by rw [ballots]; exact he.finite, by rw [ballots]; exact he.committed, ?_⟩
    have hbound := he.bound
    have hused : used e'.ballots = used e.ballots := by rw [ballots]; rfl
    rw [counts.votes hp hp', hpending, hused]
    omega
  | @submitted d q num_votes yes_votes no_votes acc proof p p' hp hp' attested ballots total =>
    have hzero : num_votes = 0 := hattested
    refine ⟨by rw [ballots]; exact he.finite, by rw [ballots]; exact he.committed, ?_⟩
    have hvotes : votes e' = votes e := by simp only [votes, hp, hp', total, hzero, Nat.add_zero]
    rw [hvotes, ballots]
    exact he.bound
  | undecided same => exact he.of_polled same.ballots same.polled

theorem StepEffect.backed (h : StepEffect env s s' call) (hs : ∀ d q, Backed (s.elections d q))
    (hattested : call.attested = 0) : ∀ d q, Backed (s'.elections d q) := by
  cases h with
  | ballot step => exact step.rewrites.forall hs (step.effect.backed (hs _ _))
  | tally rewrites effect => exact rewrites.forall hs (effect.backed (hs _ _) hattested)
  | @create call id e' p step =>
    intro d q
    by_cases hdq : d = call.dao_id ∧ q = id
    · obtain ⟨rfl, rfl⟩ := hdq
      have he := hs call.dao_id q
      have hvotes : votes e' = 0 := by simp only [votes, step.proposal, step.no_votes.1, step.no_votes.2]
      rw [step.election]
      refine ⟨by rw [step.ballots]; exact he.finite, by rw [step.ballots]; exact he.committed, ?_⟩
      have hbound := he.bound
      rw [hvotes, step.ballots]
      omega
    · rw [step.election_other hdq]
      exact hs d q
  | arranged step => exact fun d q => (hs d q).of_polled (step.ballots d q) (step.polled d q)

end

section
variable {C : Crypto} {registry guardian : Address} {log : List (VotingState × VotingEnv × Call)}
  {s : VotingState}

theorem VotingRun.backed (hrun : VotingRun C registry guardian log s) (hlog : ∀ e ∈ log, e.2.2.attested = 0) :
    ∀ d q, Backed (s.elections d q) := by
  have hinv : VotingOk s ∧ ∀ d q, Backed (s.elections d q) :=
    Run.invariant_of (P := fun s => VotingOk s ∧ ∀ d q, Backed (s.elections d q))
      (C := fun _ (call : VotingEnv × Call) => call.2.attested = 0)
      ⟨constructor_ok registry guardian, fun d q =>
        ⟨by simp [used, Voting.constructor], by simp [Voting.constructor],
          by simp [used, pending, votes, Voting.constructor]⟩⟩
      (fun s call s' hP hC (hs : Accepts C s call s') =>
        have heffect := step_effect hP.1.dormant hs
        ⟨heffect.votingOk hP.1, heffect.backed hP.2 hC⟩)
      hrun hlog
  exact hinv.2

theorem VotingRun.recorded_finite (hrun : VotingRun C registry guardian log s) (d q : Nat) :
    {n | Recorded (s.elections d q).ballots n}.Finite := by
  refine (spent d q log).toFinset.finite_toSet.subset fun n hn => ?_
  simpa using (hrun.mem_spent d q n).mpr hn

end

/-! ## A tally submitted after a vote -/

/-- The accumulator after the nullifiers have been folded into it, the first one first. -/
def folded (C : Crypto) (nullifiers : List U256) : U256 :=
  (nullifiers.foldl (accumulate_nullifier C) {}).nullifier_accumulator.getD 0

/-- A tally proof under the key attests one vote for each of some nullifiers folded into the accumulator. -/
def TallySound (C : Crypto) (vk : VerificationKey) : Prop :=
  ∀ proof dao_id proposal_id num_votes yes_votes no_votes acc,
    C.verify_groth16 vk proof [dao_id, proposal_id, num_votes, yes_votes, no_votes, acc] = true →
      ∃ nullifiers : List U256, nullifiers.Nodup ∧ nullifiers.length = num_votes ∧ folded C nullifiers = acc

def tallyVk : VerificationKey := { sampleVk 7 with alpha := Vector.replicate 64 1 }

/-- Under the tally key, only the tally of one yes vote by nullifier 3 verifies. -/
def tallyCrypto : Crypto :=
  { sampleCrypto with
    verify_groth16 := fun vk _ signals =>
      vk.alpha.toList.headD 0 != 1 || signals == [0, 1, 1, 1, 0, 3] }

theorem tallyCrypto_sound : TallySound tallyCrypto tallyVk := by
  intro proof dao_id proposal_id num_votes yes_votes no_votes acc h
  have hsignals : [dao_id, proposal_id, num_votes, yes_votes, no_votes, acc] = [0, 1, 1, 1, 0, 3] := by
    have h' : (tallyVk.alpha.toList.headD 0 != 1 ||
        [dao_id, proposal_id, num_votes, yes_votes, no_votes, acc] == [0, 1, 1, 1, 0, 3]) = true := h
    rcases Bool.or_eq_true_iff.mp h' with hkey | hsignals
    · exact absurd hkey (by decide)
    · exact eq_of_beq hsignals
  simp only [List.cons.injEq] at hsignals
  obtain ⟨-, -, rfl, -, -, rfl, -⟩ := hsignals
  exact ⟨[3], by simp, rfl, by decide +kernel⟩

def electionWithTally : List Call :=
  [.dao (.set_vk_from_registry 0 (sampleVk 7)), .dao (.set_tally_vk 0 tallyVk 0),
    .create (.create_proposal 0 [] [] 100 1 .Fixed),
    .ballot (.vote 0 1 true 3 Tree.sampleRoot sampleProof)]

end ZkVote.Voting
