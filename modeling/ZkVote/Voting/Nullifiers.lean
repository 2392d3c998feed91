import ZkVote.Voting.Steps
import ZkVote.Voting.Terms

/-!
# The voting contract: one ballot per nullifier

Quadratic ballots keep their nullifiers in a table of their own. The other entry
points stay out of quadratic elections, all but `vote_weighted`, which does not
ask for the mode.
-/

open Lib Lib.Outcome

namespace ZkVote.Voting

/-- The nullifiers a call spends in an election. -/
def Call.nullifiers (dao_id proposal_id : Nat) : Call → List U256
  | .ballot call => if call.election = (dao_id, proposal_id) then call.nullifiers else []
  | _ => []

/-- The nullifiers that the accepted ballots of an election have spent, the last ballot first. -/
def spent (dao_id proposal_id : Nat) (log : List (VotingState × VotingEnv × Call)) : List U256 :=
  log.flatMap fun e => e.2.2.nullifiers dao_id proposal_id

/-- Either table has the nullifier. -/
def Recorded (b : Ballots) (n : U256) : Prop := b.nullifier n = true ∨ b.qv_ballot n ≠ none

/-- A weighted ballot under a nullifier that has a quadratic one, or the other way round. -/
def BallotCall.Clashes (call : BallotCall) (b : Ballots) (n : U256) : Prop :=
  call.isWeighted = true ∧ b.qv_ballot n ≠ none ∨ call.isQuadratic = true ∧ nullifier_is_used b n = true

def Collides (s : VotingState) : Call → Prop
  | .ballot call =>
    ∃ n ∈ call.nullifiers, call.Clashes (s.elections call.election.1 call.election.2).ballots n
  | _ => False

section
variable {C : Crypto} {env : VotingEnv} {s s' : VotingState} {call : Call}
  {log : List (VotingState × VotingEnv × Call)} {e e' : Election} {b b' : Ballots} {n : U256}

theorem mem_nullifiers {d q : Nat} (h : n ∈ call.nullifiers d q) :
    ∃ ballot : BallotCall, call = .ballot ballot ∧ ballot.election = (d, q) := by
  cases call with
  | ballot ballot =>
    rw [Call.nullifiers] at h
    by_cases helection : ballot.election = (d, q)
    · exact ⟨ballot, rfl, helection⟩
    · rw [if_neg helection] at h
      cases h
  | _ => cases h

theorem Spends.recorded {ns : List U256} (h : Spends b b' ns) : Recorded b' n ↔ n ∈ ns ∨ Recorded b n := by
  unfold Recorded
  rw [h.nullifier, h.qv_ballot, or_assoc]

theorem BallotEffect.recorded {call : BallotCall} (h : BallotEffect e e' call) :
    Recorded e'.ballots n ↔ n ∈ call.nullifiers ∨ Recorded e.ballots n := by
  cases h with
  | counted hp hp' mode spends => exact spends.recorded
  | committed hp hp' mode nullifiers spends =>
    rw [nullifiers]
    exact spends.recorded
  | @quadratic p m ballot count credits hp hp' mode nullifiers call_eq fresh ballots =>
    unfold Recorded
    rw [ballots, nullifiers, List.mem_singleton]
    by_cases hn : n = m <;> simp [hn]

theorem BallotEffect.nodup {call : BallotCall} (h : BallotEffect e e' call) : call.nullifiers.Nodup := by
  cases h with
  | counted hp hp' mode spends => exact spends.nodup
  | committed hp hp' mode nullifiers spends =>
    rw [nullifiers]
    exact spends.nodup
  | quadratic hp hp' mode nullifiers =>
    rw [nullifiers]
    simp

theorem BallotEffect.recorded_iff {call : BallotCall} {count id : Nat} (h : BallotEffect e e' call)
    (hok : ElectionOk count id e) (hn : n ∈ call.nullifiers) :
    Recorded e.ballots n ↔ call.Clashes e.ballots n := by
  have hunused (hfresh : e.ballots.nullifier n = false) : nullifier_is_used e.ballots n = false :=
    nullifier_is_used_eq_false.mpr ⟨hfresh, hok.temporary n⟩
  have hplain {p : ProposalInfo} (hp : e.proposal = some p) (hmode : p.vote_mode ≠ .Quadratic) :
      e.ballots.qv_ballot n = none := by
    by_contra hqv
    obtain ⟨p', hp', hmode'⟩ := hok.quadratic n hqv
    rw [hp, Option.some.injEq] at hp'
    exact hmode (hp' ▸ hmode')
  unfold Recorded BallotCall.Clashes
  cases h with
  | counted hp hp' mode spends =>
    have hfresh := spends.fresh n hn
    rcases mode with hweighted | hmode
    · simp [hfresh, hunused hfresh, hweighted]
    · simp [hfresh, hunused hfresh, hplain hp hmode]
  | committed hp hp' mode nullifiers spends =>
    have hfresh := spends.fresh n (nullifiers ▸ hn)
    simp [hfresh, hunused hfresh, hplain hp mode]
  | quadratic hp hp' mode nullifiers call_eq fresh ballots =>
    rw [nullifiers, List.mem_singleton] at hn
    subst hn
    simp [fresh, call_eq, nullifier_is_used, hok.temporary]

theorem TallyEffect.recorded {call : TallyCall} (h : TallyEffect e e' call) :
    Recorded e'.ballots n ↔ Recorded e.ballots n := by
  cases h with
  | revealed hp hp' counts committed fresh ballots =>
    rw [ballots]
    rfl
  | submitted hp hp' attested ballots => rw [ballots]
  | undecided same => rw [same.ballots]

theorem StepEffect.recorded (h : StepEffect env s s' call) (d q : Nat) :
    Recorded (s'.elections d q).ballots n ↔
      n ∈ call.nullifiers d q ∨ Recorded (s.elections d q).ballots n := by
  cases h with
  | @ballot call e' step =>
    by_cases hdq : call.election = (d, q)
    · have hself := step.rewrites.self
      have hrecorded := step.effect.recorded (n := n)
      rw [hdq] at hself hrecorded
      rw [hself, hrecorded, Call.nullifiers, if_pos hdq]
    · rw [Call.nullifiers, if_neg hdq, step.rewrites.of_ne]
      · simp
      · rintro ⟨rfl, rfl⟩
        exact hdq rfl
  | @tally call e' rewrites effect =>
    have hall := rewrites.forall (P := fun d q e => Recorded e.ballots n ↔ Recorded (s.elections d q).ballots n)
      (fun d q => Iff.rfl) effect.recorded
    simpa [Call.nullifiers] using hall d q
  | @create call id e' p step =>
    by_cases hdq : d = call.dao_id ∧ q = id
    · obtain ⟨rfl, rfl⟩ := hdq
      rw [step.election, step.ballots]
      simp [Call.nullifiers]
    · rw [step.election_other hdq]
      simp [Call.nullifiers]
  | arranged step ballot =>
    rw [step.ballots]
    cases call with
    | ballot b => exact absurd rfl (ballot b)
    | _ => simp [Call.nullifiers]

theorem StepEffect.fresh_iff (h : StepEffect env s s' call) (hs : VotingOk s) :
    (∀ d q, (call.nullifiers d q).Nodup ∧ ∀ n ∈ call.nullifiers d q, ¬ Recorded (s.elections d q).ballots n) ↔
      ¬ Collides s call := by
  cases h with
  | @ballot call e' step =>
    have hok := hs.elections call.election.1 call.election.2
    constructor
    · rintro hfresh ⟨n, hn, hclash⟩
      have hn' : n ∈ (Call.ballot call).nullifiers call.election.1 call.election.2 := by
        rwa [Call.nullifiers, if_pos rfl]
      exact (hfresh _ _).2 n hn' ((step.effect.recorded_iff hok hn).mpr hclash)
    · intro hclash d q
      rw [Call.nullifiers]
      split
      · rename_i hdq
        refine ⟨step.effect.nodup, fun n hn hrecorded => hclash ⟨n, hn, ?_⟩⟩
        refine (step.effect.recorded_iff hok hn).mp ?_
        rwa [hdq]
      · simp
  | tally => simp [Call.nullifiers, Collides]
  | create => simp [Call.nullifiers, Collides]
  | arranged step ballot =>
    cases call with
    | ballot b => exact absurd rfl (ballot b)
    | _ => simp [Call.nullifiers, Collides]

/-! ## Runs -/

theorem VotingRun.mem_spent {registry guardian : Address} (hrun : VotingRun C registry guardian log s) :
    ∀ d q n, n ∈ spent d q log ↔ Recorded (s.elections d q).ballots n := by
  refine Run.invariant_log
    (P := fun log s => ∀ d q n, n ∈ spent d q log ↔ Recorded (s.elections d q).ballots n)
    (fun d q n => by simp [spent, Recorded, Voting.constructor])
    (fun log s call s' hr hlog (hs : Accepts C s call s') d q n => ?_) hrun
  rw [(step_effect (VotingRun.ok hr).dormant hs).recorded, ← hlog]
  simp [spent]

/-- In every run, no nullifier of any election is spent twice, if and only if no accepted call spends a
nullifier through `vote_weighted` that has a quadratic ballot, or through `cast_qv_vote` one that is in the
shared table. -/
theorem spent_nodup_iff {registry guardian : Address} (hrun : VotingRun C registry guardian log s) :
    (∀ dao_id proposal_id, (spent dao_id proposal_id log).Nodup) ↔ ∀ e ∈ log, ¬ Collides e.1 e.2.2 := by
  refine Run.invariant_log
    (P := fun log _ => (∀ d q, (spent d q log).Nodup) ↔ ∀ e ∈ log, ¬ Collides e.1 e.2.2)
    (by simp [spent]) (fun log s call s' hr hlog (hs : Accepts C s call s') => ?_) hrun
  have hok := VotingRun.ok hr
  rw [List.forall_mem_cons, ← hlog, ← (step_effect hok.dormant hs).fresh_iff hok, ← forall_and]
  refine forall_congr' fun d => ?_
  rw [← forall_and]
  refine forall_congr' fun q => ?_
  have hcons : spent d q ((s, call) :: log) = call.2.nullifiers d q ++ spent d q log := rfl
  rw [hcons, List.nodup_append]
  constructor
  · rintro ⟨hnew, hold, hdisjoint⟩
    refine ⟨⟨hnew, fun n hn hrecorded => ?_⟩, hold⟩
    exact hdisjoint n hn n ((VotingRun.mem_spent hr d q n).mpr hrecorded) rfl
  · rintro ⟨⟨hnew, hfresh⟩, hold⟩
    refine ⟨hnew, hold, ?_⟩
    rintro n hn _ hn' rfl
    exact hfresh n hn ((VotingRun.mem_spent hr d q n).mp hn')

end

/-- A quadratic election under a key that is both the plain and the quadratic one. -/
def quadraticElection : List Call :=
  [.dao (.set_vk_from_registry 0 (sampleVk 7)), .dao (.set_qv_vk 0 (sampleVk 7) 0),
    .dao (.set_weighted_vk 0 (sampleVk 4) 0), .dao (.set_weighted_balance_commitment 0 5),
    .create (.create_proposal 0 [] [] 0 1 .Quadratic)]

def quadraticBallot : Call := .ballot (.cast_qv_vote 0 1 3 Tree.sampleRoot 1 1 sampleProof)

def weightedBallot : Call :=
  .ballot (.vote_weighted 0 1 true 3 Tree.sampleRoot sampleProof 5 10 1 DOMAIN_TAG_WEIGHTED)

theorem spent_nodup_iff_for_one_ballot : ∃ log s, VotingRun sampleCrypto 0 0 log s ∧
    ((∀ dao_id proposal_id, (spent dao_id proposal_id log).Nodup) ↔ ∀ e ∈ log, ¬ Collides e.1 e.2.2) := by
  obtain ⟨log, s, hrun, -⟩ := exists_run (C := sampleCrypto) (r := 0) (g := 0)
    (quadraticElection ++ [quadraticBallot]) (fun _ _ => true) (by decide +kernel)
  exact ⟨log, s, hrun, spent_nodup_iff hrun⟩

/-- Nullifier 3 is spent on a quadratic ballot, and again on a weighted one. -/
theorem nullifier_spent_twice :
    ∃ log s, VotingRun sampleCrypto 0 0 log s ∧ ¬ ∀ dao_id proposal_id, (spent dao_id proposal_id log).Nodup := by
  obtain ⟨log, s, hrun, htest⟩ := exists_run (C := sampleCrypto) (r := 0) (g := 0)
    (quadraticElection ++ [quadraticBallot, weightedBallot])
    (fun log _ => decide (spent 0 1 log = [3, 3])) (by decide +kernel)
  refine ⟨log, s, hrun, fun hnodup => ?_⟩
  have htwice := hnodup 0 1
  rw [of_decide_eq_true htest] at htwice
  simp at htwice

end ZkVote.Voting

/-!
## The voting contract: the parameters of a ballot

Two ballots of an election are checked against one statement as long as nobody
configures the election anew between them.
-/

namespace ZkVote.Voting

/-- A ballot has been counted or committed. -/
def Begun (e : Election) : Prop := ∃ n, Recorded e.ballots n

/-- The call leaves the parameters of every election that has begun. -/
def ParametersKept (s s' : VotingState) : Prop :=
  ∀ d q, Begun (s.elections d q) → parameters (s'.elections d q) = parameters (s.elections d q)

/-- It configures an election that has begun, with other parameters than it has. -/
def Reconfigures (C : Crypto) (s : VotingState) : Call → Prop
  | .config call => Begun (s.elections call.election.1 call.election.2) ∧
      call.parameters C s ≠ parameters (s.elections call.election.1 call.election.2)
  | _ => False

section
variable {C : Crypto} {env : VotingEnv} {s s' : VotingState} {call : Call}

/-- Only elections that have been made begin. -/
def BegunMade (s : VotingState) : Prop := ∀ d q, Begun (s.elections d q) → (s.elections d q).proposal ≠ none

theorem step_begunMade (hs : VotingOk s) (hmade : BegunMade s) (h : step C s env call = .ok s') : BegunMade s' := by
  rintro d q ⟨n, hn⟩
  have hproposal : (s.elections d q).proposal ≠ none := by
    rcases ((step_effect hs.dormant h).recorded d q).mp hn with hspent | hold
    · obtain ⟨ballot, rfl, helection⟩ := mem_nullifiers hspent
      exact ballot_proposal h helection
    · exact hmade d q ⟨n, hold⟩
  exact fun hnone => hproposal ((step_terms hs h (.inl hproposal)).proposal_eq_none_iff.mp hnone)

theorem VotingRun.begunMade {registry guardian : Address} {log : List (VotingState × VotingEnv × Call)}
    (hrun : VotingRun C registry guardian log s) : BegunMade s := by
  refine Run.invariant_log (P := fun _ s => BegunMade s) ?_
    (fun log s call s' hr hmade (hs : Accepts C s call s') => step_begunMade (VotingRun.ok hr) hmade hs) hrun
  rintro d q ⟨n, hn⟩
  exact absurd hn (by simp [constructor, Recorded])

theorem parametersKept_iff (hs : VotingOk s) (hmade : BegunMade s) (h : step C s env call = .ok s') :
    ParametersKept s s' ↔ ¬ Reconfigures C s call := by
  constructor
  · intro hkept hreconfigures
    cases call with
    | config call =>
      obtain ⟨hbegun, hne⟩ := hreconfigures
      have hsame := hkept _ _ hbegun
      rw [(config_passed h).parameters] at hsame
      exact hne hsame
    | _ => exact hreconfigures
  · intro hnot d q hbegun
    by_cases hconfig : ∃ c : ConfigCall, call = .config c ∧ c.election = (d, q)
    · obtain ⟨c, rfl, helection⟩ := hconfig
      have hpassed := (config_passed h).parameters
      have hsame : c.parameters C s = parameters (s.elections c.election.1 c.election.2) := by
        by_contra hne
        exact hnot ⟨by rwa [helection], hne⟩
      rw [hsame, helection] at hpassed
      exact hpassed
    · exact (step_setup hs h (.inl (hmade d q hbegun)) fun c hcall hc => hconfig ⟨c, hcall, hc⟩).parameters

end

/-- In every run, no election that has begun gets other parameters if and only if no accepted call configures
one with others than it has. -/
theorem parameters_frozen_iff (C : Crypto) {registry guardian : Address}
    {log : List (VotingState × VotingEnv × Call)} {s : VotingState} (hrun : VotingRun C registry guardian log s) :
    (∀ t ∈ Run.transitions log s, ParametersKept t.1 t.2.2) ↔ ∀ e ∈ log, ¬ Reconfigures C e.1 e.2.2 :=
  Run.forall_transitions_iff (P := fun s _ s' => ParametersKept s s')
    (C := fun s (call : VotingEnv × Call) => ¬ Reconfigures C s call.2)
    (fun _ _ _ _ hr hs => parametersKept_iff (VotingRun.ok hr) (VotingRun.begunMade hr) hs) hrun

/-- A ballot of a plain election, and a configuration after it. -/
def reconfiguredElection : List Call :=
  openElection 0 ++ [.ballot (.vote 0 1 true 3 Tree.sampleRoot sampleProof), .config (.set_election_config 0 1 0 0 5 1)]

theorem parameters_frozen_iff_for_an_election : ∃ log s, VotingRun sampleCrypto 0 0 log s ∧
    ((∀ t ∈ Run.transitions log s, ParametersKept t.1 t.2.2) ↔ ∀ e ∈ log, ¬ Reconfigures sampleCrypto e.1 e.2.2) := by
  obtain ⟨log, s, hrun, -⟩ := exists_run (C := sampleCrypto) (r := 0) (g := 0) reconfiguredElection (fun _ _ => true)
    (by decide +kernel)
  exact ⟨log, s, hrun, parameters_frozen_iff sampleCrypto hrun⟩

def fiveCandidates : VotingEnv × Call := (sampleEnv, .config (.set_election_config 0 1 0 0 5 1))

def changesCandidates (s : VotingState) : Bool := (s.elections 0 1).ballots.nullifier 3 &&
  (parameters (s.elections 0 1)).num_candidates == 0 &&
  (next sampleCrypto s fiveCandidates).any fun s' => (parameters (s'.elections 0 1)).num_candidates == 5

/-- After the first ballot the number of candidates becomes 5, and the ballots to come need other proofs. -/
theorem candidates_change_after_a_ballot : ∃ log s s', VotingRun sampleCrypto 0 0 log s ∧ Begun (s.elections 0 1) ∧
    step sampleCrypto s sampleEnv (.config (.set_election_config 0 1 0 0 5 1)) = .ok s' ∧
    (parameters (s.elections 0 1)).num_candidates = 0 ∧ (parameters (s'.elections 0 1)).num_candidates = 5 ∧
    ¬ ParametersKept s s' := by
  obtain ⟨log, s, hrun, htest⟩ := exists_run (C := sampleCrypto) (r := 0) (g := 0)
    (openElection 0 ++ [.ballot (.vote 0 1 true 3 Tree.sampleRoot sampleProof)]) (fun _ s => changesCandidates s)
    (by decide +kernel)
  simp only [changesCandidates, Bool.and_eq_true, Option.any_eq_true, beq_iff_eq] at htest
  obtain ⟨⟨hrecorded, hbefore⟩, s', hs, hafter⟩ := htest
  have hbegun : Begun (s.elections 0 1) := ⟨3, .inl hrecorded⟩
  refine ⟨log, s, s', hrun, hbegun, toOption_eq_some.mp hs, hbefore, hafter, fun hkept => ?_⟩
  have hsame := congrArg Parameters.num_candidates (hkept 0 1 hbegun)
  rw [hbefore, hafter] at hsame
  cases hsame

end ZkVote.Voting
