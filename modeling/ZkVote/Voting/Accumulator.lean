import ZkVote.Voting.TallyBound
import ZkVote.Voting.Terms

/-!
# The voting contract: the nullifier accumulator

A second record of what has been spent, for the tally proof to bind to. `vote`
keeps it; the other ballots spend a nullifier and do not fold it in.
-/

open Lib Lib.Outcome

namespace ZkVote.Voting

/-- One step of the accumulator. -/
def accumulated (C : Crypto) (acc nullifier : U256) : U256 :=
  fromBeBytes (C.sha256 (U256.to_be_bytes acc ++ U256.to_be_bytes nullifier)).toList

/-- The accumulator of an election, as the tally proof reads it. -/
def accumulator (e : Election) : U256 := e.ballots.nullifier_accumulator.getD 0

/-- The nullifiers that the accepted ballots of an election have spent, in that order. -/
def spending (dao_id proposal_id : Nat) (log : List (VotingState × VotingEnv × Call)) : List U256 :=
  log.reverse.flatMap fun e => e.2.2.nullifiers dao_id proposal_id

/-- The accumulator is the fold over what has been spent, each nullifier once. -/
def AccumulatorExact (C : Crypto) (dao_id proposal_id : Nat) (log : List (VotingState × VotingEnv × Call))
    (s : VotingState) : Prop :=
  (spending dao_id proposal_id log).Nodup ∧
    accumulator (s.elections dao_id proposal_id) = folded C (spending dao_id proposal_id log)

def BallotCall.isPlain : BallotCall → Bool
  | .vote .. => true
  | _ => false

/-- A ballot cast otherwise than through `vote`, under nullifiers that are in the other table or whose hashes
would not lead the accumulator back to where it is. -/
def LeavesOut (C : Crypto) (dao_id proposal_id : Nat) (s : VotingState) : Call → Prop
  | .ballot call =>
    call.election = (dao_id, proposal_id) ∧ call.isPlain = false ∧
      ((∃ n ∈ call.nullifiers, call.Clashes (s.elections dao_id proposal_id).ballots n) ∨
        call.nullifiers.foldl (accumulated C) (accumulator (s.elections dao_id proposal_id)) ≠
          accumulator (s.elections dao_id proposal_id))
  | _ => False

section
variable {C : Crypto} {env : VotingEnv} {s s' : VotingState} {call : Call} {d q : Nat}
  {log : List (VotingState × VotingEnv × Call)} {b : Ballots}

theorem foldl_accumulate_nullifier (ns : List U256) :
    (ns.foldl (accumulate_nullifier C) b).nullifier_accumulator.getD 0 =
      ns.foldl (accumulated C) (b.nullifier_accumulator.getD 0) := by
  induction ns generalizing b with
  | nil => rfl
  | cons n ns ih =>
    rw [List.foldl_cons, List.foldl_cons, ih]
    rfl

theorem folded_append (ns ms : List U256) : folded C (ns ++ ms) = ms.foldl (accumulated C) (folded C ns) := by
  unfold folded
  rw [foldl_accumulate_nullifier, foldl_accumulate_nullifier, List.foldl_append]

theorem spending_cons (e : VotingState × VotingEnv × Call) :
    spending d q (e :: log) = spending d q log ++ e.2.2.nullifiers d q := by
  simp [spending]

theorem mem_spending {n : U256} : n ∈ spending d q log ↔ n ∈ spent d q log := by
  simp [spending, spent]

/-- Only `vote` folds what it spends. -/
theorem ballot_accumulator {e' : Election} {call : BallotCall} {p : ProposalInfo}
    (h : BallotPassed C env s e' call p) :
    accumulator e' =
      if call.isPlain = true then
        call.nullifiers.foldl (accumulated C) (accumulator (s.elections call.election.1 call.election.2))
      else accumulator (s.elections call.election.1 call.election.2) := by
  unfold accumulator
  rw [h.accumulator, foldl_accumulate_nullifier]
  cases call <;> rfl

theorem step_accumulator (hs : VotingOk s) (h : step C s env call = .ok s')
    (hballot : ∀ c, call = .ballot c → c.election ≠ (d, q)) :
    accumulator (s'.elections d q) = accumulator (s.elections d q) := by
  unfold accumulator
  cases step_effect hs.dormant h with
  | @ballot call e' step =>
    rw [step.rewrites.of_ne]
    rintro ⟨rfl, rfl⟩
    exact hballot call rfl rfl
  | @tally call e' rewrites effect =>
    refine rewrites.forall (P := fun d q e => e.ballots.nullifier_accumulator.getD 0 =
      (s.elections d q).ballots.nullifier_accumulator.getD 0) (fun _ _ => rfl) ?_ d q
    cases effect with
    | revealed hp hp' counts committed fresh ballots => rw [ballots]
    | submitted hp hp' attested ballots => rw [ballots]
    | undecided same => rw [same.ballots]
  | @create call id e' p step =>
    by_cases hdq : d = call.dao_id ∧ q = id
    · obtain ⟨rfl, rfl⟩ := hdq
      rw [step.election, step.ballots]
    · rw [step.election_other hdq]
  | arranged step => rw [step.ballots]

/-- What a ballot spends is new, and distinct, unless it clashes. -/
theorem nodup_spending_iff {call : BallotCall} {e' : Election}
    (hspent : ∀ n, n ∈ spending call.election.1 call.election.2 log ↔
      Recorded (s.elections call.election.1 call.election.2).ballots n)
    (hs : VotingOk s) (hb : BallotStep env s s' call e')
    (hnodup : (spending call.election.1 call.election.2 log).Nodup) :
    (spending call.election.1 call.election.2 log ++ call.nullifiers).Nodup ↔
      ¬ ∃ n ∈ call.nullifiers, call.Clashes (s.elections call.election.1 call.election.2).ballots n := by
  have hrecorded {n : U256} (hn : n ∈ call.nullifiers) :=
    hb.effect.recorded_iff (hs.elections call.election.1 call.election.2) hn
  rw [List.nodup_append]
  constructor
  · rintro ⟨-, -, hdisjoint⟩ ⟨n, hn, hclash⟩
    exact hdisjoint n ((hspent n).mpr ((hrecorded hn).mpr hclash)) n hn rfl
  · intro hclash
    refine ⟨hnodup, hb.effect.nodup, ?_⟩
    rintro n hold _ hnew rfl
    exact hclash ⟨n, hnew, (hrecorded hnew).mp ((hspent n).mp hold)⟩

/-- A ballot keeps the accumulator exact unless it leaves itself out. -/
theorem ballot_accumulatorExact_iff {call : BallotCall} (hs : VotingOk s) (h : step C s env (.ballot call) = .ok s')
    (hspent : ∀ n, n ∈ spending call.election.1 call.election.2 log ↔
      Recorded (s.elections call.election.1 call.election.2).ballots n)
    (hexact : AccumulatorExact C call.election.1 call.election.2 log s) :
    AccumulatorExact C call.election.1 call.election.2 ((s, env, .ballot call) :: log) s' ↔
      ¬ LeavesOut C call.election.1 call.election.2 s (.ballot call) := by
  obtain ⟨hnodup, hfold⟩ := hexact
  obtain ⟨e', hb⟩ := ballot_step h
  obtain ⟨e₁, p, he₁, hpassed⟩ := ballot_passed h
  have hafter := ballot_accumulator hpassed
  have hcons : spending call.election.1 call.election.2 ((s, env, .ballot call) :: log) =
      spending call.election.1 call.election.2 log ++ call.nullifiers := by
    rw [spending_cons, Call.nullifiers, if_pos rfl]
  have hiff := nodup_spending_iff hspent hs hb hnodup
  unfold AccumulatorExact LeavesOut
  rw [hcons, hiff, he₁, hafter, folded_append, ← hfold]
  cases hplain : call.isPlain with
  | true =>
    have hclash : ¬ ∃ n ∈ call.nullifiers,
        call.Clashes (s.elections call.election.1 call.election.2).ballots n := by
      cases call <;> simp [BallotCall.isPlain] at hplain
      simp [BallotCall.Clashes, BallotCall.isWeighted, BallotCall.isQuadratic]
    rw [if_pos rfl]
    refine iff_of_true ⟨hclash, rfl⟩ ?_
    rintro ⟨-, hother, -⟩
    rw [hplain] at hother
    cases hother
  | false =>
    rw [if_neg (by simp)]
    constructor
    · rintro ⟨hclash, hsame⟩ ⟨-, -, hbad | hbad⟩
      · exact hclash hbad
      · exact hbad hsame.symm
    · intro hout
      refine ⟨fun hclash => hout ⟨rfl, hplain, .inl hclash⟩, ?_⟩
      by_contra hne
      exact hout ⟨rfl, hplain, .inr fun heq => hne heq.symm⟩

theorem accumulatorExact_iff (hs : VotingOk s) (h : step C s env call = .ok s')
    (hspent : ∀ n, n ∈ spending d q log ↔ Recorded (s.elections d q).ballots n)
    (hexact : AccumulatorExact C d q log s) :
    AccumulatorExact C d q ((s, env, call) :: log) s' ↔ ¬ LeavesOut C d q s call := by
  by_cases hballot : ∃ c, call = .ballot c ∧ c.election = (d, q)
  · obtain ⟨c, rfl, hc⟩ := hballot
    obtain ⟨rfl, rfl⟩ := Prod.mk.injEq .. ▸ hc
    exact ballot_accumulatorExact_iff hs h hspent hexact
  · have hother : ∀ c, call = .ballot c → c.election ≠ (d, q) := fun c hcall hc => hballot ⟨c, hcall, hc⟩
    have hnone : call.nullifiers d q = [] := by
      cases call with
      | ballot c => rw [Call.nullifiers, if_neg (hother c rfl)]
      | _ => rfl
    have hin : ¬ LeavesOut C d q s call := by
      cases call with
      | ballot c => exact fun hout => hother c rfl hout.1
      | _ => exact id
    unfold AccumulatorExact
    rw [spending_cons, hnone, List.append_nil, step_accumulator hs h hother]
    exact ⟨fun _ => hin, fun _ => hexact⟩

end

/-- At every point of every run the accumulator of an election is the fold over the nullifiers spent in it, in
their order and each once, if and only if no accepted ballot leaves itself out. -/
theorem accumulator_exact_iff (C : Crypto) {registry guardian : Address}
    {log : List (VotingState × VotingEnv × Call)} {s : VotingState}
    (hrun : VotingRun C registry guardian log s) (dao_id proposal_id : Nat) :
    (∀ t ∈ Run.prefixes log s, AccumulatorExact C dao_id proposal_id t.1 t.2) ↔
      ∀ e ∈ log, ¬ LeavesOut C dao_id proposal_id e.1 e.2.2 := by
  refine Run.forall_prefixes_iff (P := AccumulatorExact C dao_id proposal_id)
    (C := fun s (call : VotingEnv × Call) => ¬ LeavesOut C dao_id proposal_id s call.2)
    ⟨by simp [spending], rfl⟩ (fun log s call s' hr hexact (hs : Accepts C s call s') => ?_) hrun
  refine accumulatorExact_iff (VotingRun.ok hr) hs (fun n => ?_) hexact
  rw [mem_spending]
  exact VotingRun.mem_spent hr dao_id proposal_id n

/-! ## A batch that is left out -/

theorem accumulator_exact_iff_for_a_vote : ∃ log s, VotingRun sampleCrypto 0 0 log s ∧
    ((∀ t ∈ Run.prefixes log s, AccumulatorExact sampleCrypto 0 1 t.1 t.2) ↔
      ∀ e ∈ log, ¬ LeavesOut sampleCrypto 0 1 e.1 e.2.2) := by
  obtain ⟨log, s, hrun, -⟩ := exists_run (C := sampleCrypto) (r := 0) (g := 0)
    (openElection 100 ++ [.ballot (.vote 0 1 true 3 Tree.sampleRoot sampleProof)]) (fun _ _ => true)
    (by decide +kernel)
  exact ⟨log, s, hrun, accumulator_exact_iff sampleCrypto hrun 0 1⟩

/-- Nullifier 3 is spent through `cast_votes`, and the accumulator stays 0. -/
theorem batch_left_out : ∃ log s, VotingRun sampleCrypto 0 0 log s ∧
    ¬ AccumulatorExact sampleCrypto 0 1 log s := by
  let batch : List BatchVote :=
    [{ vote_choice := true, nullifier := 3, root := Tree.sampleRoot, proof := sampleProof }]
  obtain ⟨log, s, hrun, htest⟩ := exists_run (C := sampleCrypto) (r := 0) (g := 0)
    (openElection 100 ++ [.ballot (.cast_votes 0 1 batch)])
    (fun log s => decide (spending 0 1 log = [3] ∧ accumulator (s.elections 0 1) = 0 ∧
      folded sampleCrypto [3] ≠ 0)) (by decide +kernel)
  obtain ⟨hspending, hzero, hfold⟩ := of_decide_eq_true htest
  refine ⟨log, s, hrun, fun hexact => ?_⟩
  obtain ⟨-, heq⟩ := hexact
  rw [hspending, hzero] at heq
  exact hfold heq.symm

end ZkVote.Voting
