import ZkVote.Voting.Footprints
import ZkVote.Voting.Weighted

/-!
# The voting contract: the weights of sybil-weighted ballots

Each of these ballots weighs at least the base weight and at most the cap of its election. The weights go into
the tally of the weighted ballots, which have a bound of their own.
-/

open Lib Lib.Outcome

namespace ZkVote.Voting

def Call.sybilWeight (dao_id proposal_id : Nat) : Call → Option Nat
  | .ballot (.vote_sybil_weighted d q _ _ _ _ _ vote_weight _) =>
    if d = dao_id ∧ q = proposal_id then some vote_weight else none
  | _ => none

def sybil_ballots (dao_id proposal_id : Nat) (log : List (VotingState × VotingEnv × Call)) :
    List (VotingState × VotingEnv × Call) :=
  log.filter fun e => (e.2.2.sybilWeight dao_id proposal_id).isSome

/-- The largest cap that one of them was cast under. -/
def largest_cap (dao_id proposal_id : Nat) (log : List (VotingState × VotingEnv × Call)) : Nat :=
  ((sybil_ballots dao_id proposal_id log).map fun e => sybil_weight_cap (e.1.elections dao_id proposal_id)).foldr max 0

/-- The weight in the tally is that of as many ballots, none below the base weight or above the largest cap. -/
structure SybilBound (dao_id proposal_id : Nat) (log : List (VotingState × VotingEnv × Call)) (s : VotingState) :
    Prop where
  base : BASE_SYBIL_WEIGHT * (sybil_ballots dao_id proposal_id log).length ≤ weighed (s.elections dao_id proposal_id)
  cap : weighed (s.elections dao_id proposal_id) ≤
    largest_cap dao_id proposal_id log * (sybil_ballots dao_id proposal_id log).length

/-- A weighted ballot for the election weighs no more than the sybil-weighted ballots have left of their cap. -/
def FitsUnderCap (dao_id proposal_id : Nat) (m : VotingMoment) : Prop :=
  ∀ w, m.call.2.weighted = some w → w.election = (dao_id, proposal_id) →
    weighed (m.pre.elections dao_id proposal_id) + w.weight ≤
      largest_cap dao_id proposal_id m.past * (sybil_ballots dao_id proposal_id m.past).length

section
variable {C : Crypto} {env : VotingEnv} {s s' : VotingState} {call : Call} {d q : Nat}
  {log : List (VotingState × VotingEnv × Call)}

theorem sybilWeight_eq_some {vote_weight : Nat} (h : call.sybilWeight d q = some vote_weight) :
    ∃ choice n root commitment time proof,
      call = .ballot (.vote_sybil_weighted d q choice n root commitment time vote_weight proof) := by
  unfold Call.sybilWeight at h
  split at h
  · next choice n root commitment time w proof =>
    split at h
    · next hslot =>
      obtain ⟨rfl, rfl⟩ := hslot
      cases h
      exact ⟨choice, n, root, commitment, time, proof, rfl⟩
    · cases h
  · cases h

/-- A sybil-weighted ballot adds its weight, which is within the bounds of the moment. -/
theorem vote_sybil_weighted_weighed {vote_weight : Nat} (h : step C s env call = .ok s')
    (hcall : call.sybilWeight d q = some vote_weight) :
    weighed (s'.elections d q) = weighed (s.elections d q) + vote_weight ∧ BASE_SYBIL_WEIGHT ≤ vote_weight ∧
      vote_weight ≤ sybil_weight_cap (s.elections d q) := by
  obtain ⟨choice, n, root, commitment, time, proof, rfl⟩ := sybilWeight_eq_some hcall
  simp [step, BallotCall.run, vote_sybil_weighted] at h
  obtain ⟨-, -, -, -, -, -, hbase, hcap, -, p, -, -, -, vk, -, -, -, -, -, rfl⟩ := h
  exact ⟨by simp [weighed, weighted_total], hbase, hcap⟩

theorem writes_weights (h : call.writes .weights = true) :
    (∃ w : WeightedBallot, call = w.call) ∨
    (∃ d q choice n root commitment time vote_weight proof,
      call = .ballot (.vote_sybil_weighted d q choice n root commitment time vote_weight proof)) ∨
    ∃ d q cap admin, call = .config (.set_sybil_weight_cap d q cap admin) := by
  cases call with
  | ballot call =>
    cases call with
    | vote_weighted d q choice n root proof commitment max_supply weight domain_tag =>
      exact .inl ⟨⟨d, q, choice, n, root, proof, commitment, max_supply, weight, domain_tag⟩, rfl⟩
    | vote_sybil_weighted d q choice n root commitment time vote_weight proof =>
      exact .inr (.inl ⟨d, q, choice, n, root, commitment, time, vote_weight, proof, rfl⟩)
    | _ => cases h
  | config call =>
    cases call with
    | set_sybil_weight_cap d q cap admin => exact .inr (.inr ⟨d, q, cap, admin, rfl⟩)
    | _ => cases h
  | tally call => cases call <;> cases h
  | create call => cases h
  | phase call => cases h
  | dao call => cases h
  | inst call => cases h

theorem weighed_unchanged (hs : VotingOk s) (h : step C s env call = .ok s') (hsybil : call.sybilWeight d q = none)
    (hweighted : ∀ w, call.weighted = some w → w.election ≠ (d, q)) :
    weighed (s'.elections d q) = weighed (s.elections d q) := by
  have of_ballot {b : BallotCall} (h : step C s env (.ballot b) = .ok s') (hne : ¬ (d = b.election.1 ∧ q = b.election.2)) :
      weighed (s'.elections d q) = weighed (s.elections d q) := by
    obtain ⟨e', hb⟩ := ballot_step h
    rw [hb.rewrites.of_ne hne]
  by_cases hwrites : call.writes .weights = true
  · rcases writes_weights hwrites with ⟨w, rfl⟩ | ⟨d', q', _, _, _, _, _, _, _, rfl⟩ | ⟨d', q', cap, admin, rfl⟩
    · refine of_ballot h ?_
      rintro ⟨rfl, rfl⟩
      exact hweighted w rfl rfl
    · refine of_ballot h ?_
      rintro ⟨rfl, rfl⟩
      simp [Call.sybilWeight] at hsybil
    · simp [step, ConfigCall.run, set_sybil_weight_cap] at h
      obtain ⟨-, -, -, -, -, rfl⟩ := h
      refine VotingState.set_election_forall (P := fun d q e => weighed e = weighed (s.elections d q))
        (fun _ _ => rfl) ?_ d q
      rfl
  · have hsame := step_samePart hs h (Bool.eq_false_iff.mpr hwrites) d q
    simp only [SamePart, Prod.mk.injEq] at hsame
    rw [weighed, weighed, hsame.1]

theorem sybil_ballots_cons_of_none {e : VotingState × VotingEnv × Call} (he : e.2.2.sybilWeight d q = none) :
    sybil_ballots d q (e :: log) = sybil_ballots d q log :=
  List.filter_cons_of_neg (by simp [he])

theorem sybil_ballots_cons_of_some {e : VotingState × VotingEnv × Call} {w : Nat}
    (he : e.2.2.sybilWeight d q = some w) : sybil_ballots d q (e :: log) = e :: sybil_ballots d q log :=
  List.filter_cons_of_pos (by simp [he])

theorem SybilBound.cast (hbound : SybilBound d q log s) {vote_weight : Nat} (h : step C s env call = .ok s')
    (hcall : call.sybilWeight d q = some vote_weight) : SybilBound d q ((s, env, call) :: log) s' := by
  obtain ⟨hweighed, hbase, hcap⟩ := vote_sybil_weighted_weighed h hcall
  have hballots : sybil_ballots d q ((s, env, call) :: log) = (s, env, call) :: sybil_ballots d q log :=
    sybil_ballots_cons_of_some hcall
  have hlargest : largest_cap d q ((s, env, call) :: log) =
      max (sybil_weight_cap (s.elections d q)) (largest_cap d q log) := by
    rw [largest_cap, hballots]
    rfl
  constructor
  · rw [hballots, hweighed, List.length_cons, Nat.mul_succ]
    exact Nat.add_le_add hbound.base hbase
  · rw [hballots, hlargest, hweighed, List.length_cons, Nat.mul_succ]
    refine Nat.add_le_add (hbound.cap.trans ?_) (hcap.trans (Nat.le_max_left ..))
    exact Nat.mul_le_mul_right _ (Nat.le_max_right ..)

/-- A weighted ballot keeps it if its weight fits under the cap. -/
theorem sybilBound_weighted_iff (hbound : SybilBound d q log s) {w : WeightedBallot} (h : step C s env w.call = .ok s')
    (hw : w.election = (d, q)) :
    SybilBound d q ((s, env, w.call) :: log) s' ↔ FitsUnderCap d q ⟨log, s, (env, w.call), s'⟩ := by
  obtain ⟨rfl, rfl⟩ : w.dao_id = d ∧ w.proposal_id = q := Prod.mk.inj hw
  have hweighed := vote_weighted_weighed h
  have hballots : sybil_ballots w.dao_id w.proposal_id ((s, env, w.call) :: log) =
      sybil_ballots w.dao_id w.proposal_id log := sybil_ballots_cons_of_none rfl
  have hlargest : largest_cap w.dao_id w.proposal_id ((s, env, w.call) :: log) =
      largest_cap w.dao_id w.proposal_id log := by
    rw [largest_cap, hballots]
    rfl
  constructor
  · rintro ⟨-, hcap⟩ w' hw' -
    rw [hballots, hlargest, hweighed] at hcap
    obtain rfl : w = w' := Option.some.inj hw'
    exact hcap
  · intro hfits
    have hcap := hfits w rfl hw
    constructor
    · rw [hballots, hweighed]
      exact hbound.base.trans (Nat.le_add_right ..)
    · rw [hballots, hlargest, hweighed]
      exact hcap

theorem sybilBound_step_iff (hs : VotingOk s) (hbound : SybilBound d q log s) (h : step C s env call = .ok s') :
    SybilBound d q ((s, env, call) :: log) s' ↔ FitsUnderCap d q ⟨log, s, (env, call), s'⟩ := by
  by_cases hweighted : ∃ w : WeightedBallot, call = w.call ∧ w.election = (d, q)
  · obtain ⟨w, rfl, hw⟩ := hweighted
    exact sybilBound_weighted_iff hbound h hw
  · have hnone : ∀ w, call.weighted = some w → w.election ≠ (d, q) :=
      fun w hw helection => hweighted ⟨w, weighted_eq_some.mp hw, helection⟩
    refine iff_of_true ?_ fun w hw helection => absurd helection (hnone w hw)
    cases hsybil : call.sybilWeight d q with
    | some vote_weight => exact hbound.cast h hsybil
    | none =>
      have hweighed := weighed_unchanged hs h hsybil hnone
      have hballots : sybil_ballots d q ((s, env, call) :: log) = sybil_ballots d q log :=
        sybil_ballots_cons_of_none hsybil
      constructor
      · rw [hballots, hweighed]
        exact hbound.base
      · rw [largest_cap, hballots, hweighed]
        exact hbound.cap

/-- In every run and for every election, the weight in the tally is within the bounds of the sybil-weighted
ballots at every point, if and only if each weighted ballot that is accepted for it fits under their cap. -/
theorem sybil_bound_iff {registry guardian : Address} (hrun : VotingRun C registry guardian log s) (d q : Nat) :
    (∀ t ∈ Run.prefixes log s, SybilBound d q t.1 t.2) ↔ ∀ m ∈ Run.moments log s, FitsUnderCap d q m := by
  refine Run.forall_prefixes_iff_moments (P := SybilBound d q) (C := FitsUnderCap d q) ⟨Nat.zero_le _, Nat.zero_le _⟩
    (fun log s call s' hr hbound (hs : Accepts C s call s') => ?_) hrun
  exact sybilBound_step_iff (VotingRun.ok hr) hbound hs

end

/-! ## A weighted ballot above the cap -/

/-- A sybil-weighted election with cap 5, and one ballot of weight 5 in it. -/
def sybilElection : List Call :=
  weightedElection ++ [.dao (.set_sybil_vk 0 (sampleVk SYBIL_CIRCUIT_IC_LEN) 0),
    .config (.set_sybil_weight_cap 0 1 5 0),
    .ballot (.vote_sybil_weighted 0 1 true 5 Tree.sampleRoot 5 0 5 sampleProof)]

theorem sybil_bound_iff_for_one_ballot : ∃ log s, VotingRun sampleCrypto 0 0 log s ∧
    ((∀ t ∈ Run.prefixes log s, SybilBound 0 1 t.1 t.2) ↔ ∀ m ∈ Run.moments log s, FitsUnderCap 0 1 m) ∧
    weighed (s.elections 0 1) = 5 := by
  obtain ⟨log, s, hrun, htest⟩ := exists_run (C := sampleCrypto) (r := 0) (g := 0) sybilElection
    (fun _ s => weighed (s.elections 0 1) == 5) (by decide +kernel)
  exact ⟨log, s, hrun, sybil_bound_iff hrun 0 1, beq_iff_eq.mp htest⟩

/-- One sybil-weighted ballot under cap 5 and a weighted ballot make a total of 6. -/
theorem weighted_ballot_above_cap : ∃ log s, VotingRun sampleCrypto 0 0 log s ∧
    (s.elections 0 1).sybil_weight_cap = some 5 ∧ (sybil_ballots 0 1 log).length = 1 ∧ largest_cap 0 1 log = 5 ∧
    weighed (s.elections 0 1) = 6 ∧ ¬ ∀ t ∈ Run.prefixes log s, SybilBound 0 1 t.1 t.2 := by
  obtain ⟨log, s, hrun, htest⟩ := exists_run (C := sampleCrypto) (r := 0) (g := 0)
    (sybilElection ++ [(sampleWeighted 3 true).call])
    (fun log s => decide ((s.elections 0 1).sybil_weight_cap = some 5 ∧ (sybil_ballots 0 1 log).length = 1 ∧
      largest_cap 0 1 log = 5 ∧ weighed (s.elections 0 1) = 6)) (by decide +kernel)
  obtain ⟨hcap, hballots, hlargest, hweighed⟩ := of_decide_eq_true htest
  refine ⟨log, s, hrun, hcap, hballots, hlargest, hweighed, fun hall => ?_⟩
  have hbound := (hall _ (Run.past_mem_prefixes log s)).cap
  rw [hballots, hlargest, hweighed] at hbound
  exact absurd hbound (by decide)

end ZkVote.Voting
