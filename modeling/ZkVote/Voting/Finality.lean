import ZkVote.Voting.Terms

/-!
# The voting contract: final results

A proposal only moves forward. Its votes are final when it closes, but for the
reveal of a committed vote, which does not look at the state.
-/

open Lib Lib.Outcome

namespace ZkVote.Voting

/-- The call finalises the encrypted tally of the election. -/
def Call.Finalizes (dao_id proposal_id : Nat) : Call → Prop
  | .tally (.finalize_encrypted_tally d q _) => d = dao_id ∧ q = proposal_id
  | _ => False

/-- The two counts of a proposal. -/
def SameVotes (p p' : ProposalInfo) : Prop := p'.yes_votes = p.yes_votes ∧ p'.no_votes = p.no_votes

/-- Proposals move forward, and neither count of a closed or an archived one changes. -/
def Final (s : VotingState) (call : Call) (s' : VotingState) : Prop :=
  ∀ dao_id proposal_id p, (s.elections dao_id proposal_id).proposal = some p →
    ∃ p', (s'.elections dao_id proposal_id).proposal = some p' ∧ p.state.rank ≤ p'.state.rank ∧
      (p.state = .Closed → ¬ call.Finalizes dao_id proposal_id → SameVotes p p') ∧
      (p.state = .Archived → SameVotes p p')

/-- A vote is revealed for a proposal that is closed or archived. -/
def RevealsLate (s : VotingState) : Call → Prop
  | .tally (.reveal_vote d q _ _ _) =>
    ∃ p, (s.elections d q).proposal = some p ∧ (p.state = .Closed ∨ p.state = .Archived)
  | _ => False

section
variable {C : Crypto} {env : VotingEnv} {s s' : VotingState} {call : Call} {d q : Nat} {p : ProposalInfo}
  {e e' : Election}

theorem sameVotes_of_polled (hpolled : polled e' = polled e) (hp : e.proposal = some p) :
    ∃ p', e'.proposal = some p' ∧ SameVotes p p' := by
  have hsome : polled e' = some (p.yes_votes, p.no_votes, p.vote_mode) := by
    rw [hpolled]
    exact polled_eq_some.mpr ⟨p, hp, rfl, rfl, rfl⟩
  obtain ⟨p', hp', hyes, hno, -⟩ := polled_eq_some.mp hsome
  exact ⟨p', hp', hyes, hno⟩

/-- The state of the proposal is not among the checks of a reveal. -/
theorem reveal_vote_counts {n : U256} {choice : Bool} {blinding : Bytes}
    (h : reveal_vote C env s d q n choice blinding = .ok s') :
    ∃ p, (s.elections d q).proposal = some p ∧ (s'.elections d q).proposal = some (counted p choice) := by
  simp [reveal_vote] at h
  obtain ⟨-, -, -, -, config, -, -, -, -, -, -, p, hp, -, rfl⟩ := h
  exact ⟨p, hp, congrArg Election.proposal (VotingState.set_election_self ..)⟩

theorem not_sameVotes_counted {choice : Bool} : ¬ SameVotes p (counted p choice) := by
  intro h
  have htotal : (counted p choice).yes_votes + (counted p choice).no_votes = p.yes_votes + p.no_votes + 1 :=
    counted_total
  obtain ⟨hyes, hno⟩ := h
  omega

/-- A proposal that is done is counted by no tally but a late reveal. -/
theorem TallyEffect.polled_eq {call : TallyCall} (h : TallyEffect e e' call) (hp : e.proposal = some p)
    (hdone : p.state = .Closed ∨ p.state = .Archived)
    (hlate : ∀ d q n choice blinding, call ≠ .reveal_vote d q n choice blinding) : polled e' = polled e := by
  cases h with
  | @revealed d q n choice blinding => exact absurd rfl (hlate d q n choice blinding)
  | submitted hp₀ hp' attested ballots total vote_mode fits active =>
    rw [hp, Option.some.injEq] at hp₀
    subst hp₀
    rw [active] at hdone
    simp at hdone
  | undecided same => exact same.polled

theorem step_votes (hs : VotingOk s) (h : step C s env call = .ok s') (hlate : ¬ RevealsLate s call)
    (hp : (s.elections d q).proposal = some p) (hdone : p.state = .Closed ∨ p.state = .Archived) :
    ∃ p', (s'.elections d q).proposal = some p' ∧ SameVotes p p' := by
  refine sameVotes_of_polled ?_ hp
  by_cases hd : call.election = some (d, q)
  · cases call with
    | ballot call =>
      obtain ⟨e', p₀, -, hpassed⟩ := ballot_passed h
      have hp₀ := hpassed.proposal
      rw [show call.election = (d, q) from Option.some.inj hd, hp, Option.some.injEq] at hp₀
      subst hp₀
      rw [hpassed.active] at hdone
      simp at hdone
    | tally call =>
      obtain ⟨e', hr, -, heffect⟩ := tally_step hs.dormant h
      have hself := hr.self
      rw [show call.election = (d, q) from Option.some.inj hd] at hself heffect
      rw [hself]
      refine heffect.polled_eq hp hdone fun d' q' n choice blinding hcall => hlate ?_
      subst hcall
      obtain ⟨rfl, rfl⟩ : d' = d ∧ q' = q := by simpa [Call.election] using hd
      exact ⟨p, hp, hdone⟩
    | phase call =>
      obtain ⟨e', hr, -, hpolled, -⟩ := phase_step h
      have hself := hr.self
      rw [show call.election = (d, q) from Option.some.inj hd] at hself hpolled
      rw [hself, hpolled]
    | config call =>
      obtain ⟨e', hr, hu, -⟩ := config_step h
      have hself := hr.self
      rw [show call.election = (d, q) from Option.some.inj hd] at hself hu
      rw [hself, hu.polled]
    | create call => cases hd
    | dao call => cases hd
    | inst call => cases hd
  · rw [step_other hs h (.inl (by simp [hp])) hd]

/-- An accepted call is final unless it reveals a vote too late. -/
theorem final_iff (hs : VotingOk s) (h : step C s env call = .ok s') :
    Final s call s' ↔ ¬ RevealsLate s call := by
  constructor
  · intro hfinal hlate
    unfold RevealsLate at hlate
    split at hlate
    · rename_i d q n choice blinding
      obtain ⟨p, hp, hstate⟩ := hlate
      obtain ⟨p₀, hp₀, hcounted⟩ := reveal_vote_counts h
      rw [hp, Option.some.injEq] at hp₀
      subst hp₀
      obtain ⟨p', hp', -, hclosed, harchived⟩ := hfinal d q p hp
      rw [hcounted, Option.some.injEq] at hp'
      subst hp'
      rcases hstate with hstate | hstate
      · exact not_sameVotes_counted (hclosed hstate (by simp [Call.Finalizes]))
      · exact not_sameVotes_counted (harchived hstate)
    · exact hlate
  · intro hlate d q p hp
    obtain ⟨p', hp', hrank⟩ := step_rank hs h hp
    have hvotes (hdone : p.state = .Closed ∨ p.state = .Archived) : SameVotes p p' := by
      obtain ⟨p₁, hp₁, hsame⟩ := step_votes hs h hlate hp hdone
      rw [hp', Option.some.injEq] at hp₁
      subst hp₁
      exact hsame
    exact ⟨p', hp', hrank, fun hclosed _ => hvotes (.inl hclosed), fun harchived => hvotes (.inr harchived)⟩

end

/-- In every run, proposals only move forward and the votes of closed and of archived ones are final, if and
only if no vote is revealed for a closed or an archived proposal. -/
theorem tally_final_iff (C : Crypto) {registry guardian : Address}
    {log : List (VotingState × VotingEnv × Call)} {s : VotingState}
    (hrun : VotingRun C registry guardian log s) :
    (∀ t ∈ Run.transitions log s, Final t.1 t.2.1.2 t.2.2) ↔ ∀ e ∈ log, ¬ RevealsLate e.1 e.2.2 :=
  Run.forall_transitions_iff (P := fun s (call : VotingEnv × Call) s' => Final s call.2 s')
    (C := fun s (call : VotingEnv × Call) => ¬ RevealsLate s call.2)
    (fun _ _ _ _ hr (hs : Accepts C _ _ _) => final_iff (VotingRun.ok hr) hs) hrun

/-! ## A vote revealed too late -/

def sampleBlinding : Bytes := List.replicate 32 0

/-- An election with a schedule, and one vote committed in it. -/
def committedElection (commit_deadline reveal_opens_at end_time : Nat) : List Call :=
  [.dao (.set_vk_from_registry 0 (sampleVk 7)), .dao (.set_commit_vk 0 (sampleVk 5) 0),
    .create (.create_proposal 0 [] [] end_time 1 .Fixed),
    .config (.set_commit_reveal 0 1 commit_deadline reveal_opens_at 0 false 0),
    .ballot (.commit_vote 0 1 3 Tree.sampleRoot
      (compute_vote_commitment sampleCrypto 0 1 3 true sampleBlinding) sampleProof)]

def sampleReveal : Call := .tally (.reveal_vote 0 1 3 true sampleBlinding)

theorem tally_final_iff_for_a_reveal : ∃ log s, VotingRun sampleCrypto 0 0 log s ∧
    ((∀ t ∈ Run.transitions log s, Final t.1 t.2.1.2 t.2.2) ↔ ∀ e ∈ log, ¬ RevealsLate e.1 e.2.2) := by
  obtain ⟨log, s, hrun, -⟩ := exists_run (C := sampleCrypto) (r := 0) (g := 0)
    (committedElection 10 10 0 ++ [sampleReveal]) (fun _ _ => true) (by decide +kernel)
  exact ⟨log, s, hrun, tally_final_iff sampleCrypto hrun⟩

/-- The election is closed without a vote, and the reveal is counted. -/
def revealsAfterClose (s : VotingState) : Bool :=
  match (s.elections 0 1).proposal, next sampleCrypto s (sampleEnv, sampleReveal) with
  | some p, some s' => p.state = .Closed ∧ p.yes_votes = 0 ∧
    ((s'.elections 0 1).proposal.map ProposalInfo.yes_votes) = some 1
  | _, _ => false

/-- The count of a closed proposal goes from 0 to 1. -/
theorem vote_revealed_after_close : ∃ log s, VotingRun sampleCrypto 0 0 log s ∧
    ¬ ∀ t ∈ Run.transitions log s, Final t.1 t.2.1.2 t.2.2 := by
  obtain ⟨log, s, hrun, htest⟩ := exists_run (C := sampleCrypto) (r := 0) (g := 0)
    (committedElection 10 10 0 ++ [.phase (.close_proposal 0 1 0)]) (fun _ s => revealsAfterClose s) (by decide +kernel)
  unfold revealsAfterClose at htest
  split at htest
  · rename_i p s' hp hs
    obtain ⟨hclosed, hbefore, hafter⟩ := of_decide_eq_true htest
    refine ⟨(s, sampleEnv, sampleReveal) :: log, s', .call hrun (toOption_eq_some.mp hs), fun hfinal => ?_⟩
    obtain ⟨p', hp', -, hvotes, -⟩ := hfinal (s, (sampleEnv, sampleReveal), s') (List.mem_cons_self ..) 0 1 p hp
    obtain ⟨hyes, -⟩ := hvotes hclosed (by simp [Call.Finalizes, sampleReveal])
    rw [show (s'.elections 0 1).proposal = some p' from hp', Option.map_some, Option.some.injEq] at hafter
    omega
  · cases htest

end ZkVote.Voting
