import ZkVote.Voting.Deadlines

/-!
# The voting contract: the pause

Every entry point looks at the pause for itself. Those of quadratic elections and
of the candidate seed do not.
-/

open Lib Lib.Outcome

namespace ZkVote.Voting

/-- A pause stops it: it makes a proposal, or takes part in a vote, a tally or the draw of a seed. -/
def Call.stops : Call → Bool
  | .create _ | .ballot _ | .tally _ => true
  | .config (.commit_randomness ..) | .config (.reveal_randomness ..) | .config (.finalize_candidate_seed ..)
  | .config (.set_vdf_delay ..) | .config (.submit_vdf_output ..) | .config (.finalize_with_vdf ..) => true
  | _ => false

/-- It does not look at the pause. -/
def Call.unguarded : Call → Bool
  | .create (.create_qv_proposal ..) | .ballot (.cast_qv_vote ..) | .tally (.record_qv_tally ..) => true
  | .config (.commit_randomness ..) | .config (.reveal_randomness ..) | .config (.finalize_candidate_seed ..)
  | .config (.finalize_with_vdf ..) => true
  | _ => false

/-- While the contract is paused, a call that the pause stops is rejected and changes nothing. -/
def PauseKept (C : Crypto) (s : VotingState) (call : VotingEnv × Call) (s' : VotingState) : Prop :=
  is_paused call.1 s = true → call.2.stops = true → (step C s call.1 call.2).isOk = false ∧ s' = s

/-- A call during a pause that does not look at it, and would be accepted without it. -/
def PassesPause (C : Crypto) (s : VotingState) (call : VotingEnv × Call) : Prop :=
  is_paused call.1 s = true ∧ call.2.unguarded = true ∧ (step C (resumed s) call.1 call.2).isOk = true

section
variable {C : Crypto} {env : VotingEnv} {s s' : VotingState} {call : Call}

theorem notPaused_iff : NotPaused env s ↔ is_paused env s = false := by
  unfold NotPaused is_paused
  cases s.inst.paused <;> simp

theorem stops_of_unguarded (h : call.unguarded = true) : call.stops = true := by
  cases call with
  | config call => cases call <;> first | rfl | cases h
  | create | ballot | tally => rfl
  | _ => cases h

theorem create_proposal_with_version_not_paused {d end_time : Nat} {title content_cid : Bytes} {creator : Address}
    {vote_mode : VoteMode} {vk_version : Option Nat} {r : Nat × VotingState}
    (h : create_proposal_with_version C env s d title content_cid end_time creator vote_mode vk_version = .ok r) :
    NotPaused env s := by
  simp only [create_proposal_with_version, bind_eq_ok, require_not_paused_eq_ok] at h
  obtain ⟨_, ⟨hpause, -⟩, -⟩ := h
  exact hpause

theorem create_not_paused {call : CreateCall} (hguarded : (Call.create call).unguarded = false)
    (h : call.run C env s = .ok s') : NotPaused env s := by
  simp only [CreateCall.run, bind_eq_ok] at h
  obtain ⟨r, h, -⟩ := h
  cases call with
  | create_proposal => exact create_proposal_with_version_not_paused h
  | create_proposal_with_vk_version => exact create_proposal_with_version_not_paused h
  | create_proposal_in_registration =>
    simp only [CreateCall.create, create_proposal_in_registration, bind_eq_ok] at h
    obtain ⟨_, h, -⟩ := h
    exact create_proposal_with_version_not_paused h
  | create_encrypted_proposal =>
    simp only [CreateCall.create, create_encrypted_proposal, bind_eq_ok, require_not_paused_eq_ok] at h
    obtain ⟨_, ⟨hpause, -⟩, -⟩ := h
    exact hpause
  | create_qv_proposal => cases hguarded

theorem tally_not_paused {call : TallyCall} (hguarded : (Call.tally call).unguarded = false)
    (h : call.run C env s = .ok s') : NotPaused env s := by
  cases call with
  | reveal_vote =>
    simp [TallyCall.run, reveal_vote] at h
    exact h.1
  | submit_recursive_tally =>
    simp [TallyCall.run, submit_recursive_tally] at h
    exact h.1
  | finalize_encrypted_tally =>
    simp [TallyCall.run, finalize_encrypted_tally] at h
    exact h.1
  | record_qv_tally => cases hguarded
  | migrate_nullifier =>
    simp only [TallyCall.run, migrate_nullifier, bind_eq_ok, require_not_paused_eq_ok] at h
    obtain ⟨_, ⟨_, ⟨hpause, -⟩, -⟩, -⟩ := h
    exact hpause

theorem not_paused_of_guarded (hstops : call.stops = true) (hguarded : call.unguarded = false)
    (h : step C s env call = .ok s') : NotPaused env s := by
  cases call with
  | create call => exact create_not_paused hguarded h
  | tally call => exact tally_not_paused hguarded h
  | ballot call =>
    obtain ⟨e', p, -, hpassed⟩ := ballot_passed h
    rcases hpassed.not_paused with hquadratic | hpause
    · cases call with
      | cast_qv_vote => cases hguarded
      | _ => cases hquadratic
    · exact hpause
  | config call =>
    cases call with
    | set_vdf_delay =>
      simp [step, ConfigCall.run, set_vdf_delay] at h
      exact h.1
    | submit_vdf_output =>
      simp [step, ConfigCall.run, submit_vdf_output] at h
      exact h.1
    | commit_randomness | reveal_randomness | finalize_candidate_seed | finalize_with_vdf => cases hguarded
    | _ => cases hstops
  | _ => cases hstops

/-- A call that does not look at the pause reads the DAOs and the elections only. -/
theorem unguarded_congr (helections : s'.elections = s.elections) (hdaos : s'.daos = s.daos)
    (h : call.unguarded = true) : (step C s' env call).isOk = true ↔ (step C s env call).isOk = true := by
  cases call with
  | create call =>
    cases call with
    | create_qv_proposal =>
      simp [step, CreateCall.run, CreateCall.create, create_qv_proposal, next_proposal_id, get_qv_vk_by_version]
      simp only [hdaos, implies_true]
    | _ => cases h
  | ballot call =>
    cases call with
    | cast_qv_vote =>
      simp [step, BallotCall.run, cast_qv_vote, get_qv_vk_by_version]
      simp only [hdaos, helections, implies_true]
    | _ => cases h
  | tally call =>
    cases call with
    | record_qv_tally =>
      simp [step, TallyCall.run, record_qv_tally]
      simp only [hdaos, helections, implies_true]
    | _ => cases h
  | config call =>
    cases call with
    | commit_randomness =>
      simp [step, ConfigCall.run, commit_randomness]
      simp only [helections, implies_true]
    | reveal_randomness =>
      simp [step, ConfigCall.run, reveal_randomness]
      simp only [helections, implies_true]
    | finalize_candidate_seed =>
      simp [step, ConfigCall.run, finalize_candidate_seed]
      simp only [helections]
    | finalize_with_vdf d q =>
      simp only [step, ConfigCall.run, finalize_with_vdf]
      rw [helections]
      cases (s.elections d q).vdf_output with
      | none =>
        simp [finalize_candidate_seed]
        simp only [helections]
      | some x => simp
    | _ => cases h
  | _ => cases h

theorem pauseKept_iff {call : VotingEnv × Call} :
    PauseKept C s call (settled C s call) ↔ ¬ PassesPause C s call := by
  have hcongr (hunguarded : call.2.unguarded = true) :
      (step C (resumed s) call.1 call.2).isOk = true ↔ (step C s call.1 call.2).isOk = true :=
    unguarded_congr rfl rfl hunguarded
  constructor
  · rintro hkept ⟨hpaused, hunguarded, hok⟩
    have hrejected := (hkept hpaused (stops_of_unguarded hunguarded)).1
    rw [(hcongr hunguarded).mp hok] at hrejected
    cases hrejected
  · intro hnot hpaused hstops
    have hrejected : (step C s call.1 call.2).isOk = false := by
      by_contra hok
      rw [Bool.not_eq_false] at hok
      by_cases hunguarded : call.2.unguarded = true
      · exact hnot ⟨hpaused, hunguarded, (hcongr hunguarded).mpr hok⟩
      · obtain ⟨s', hs⟩ := isOk_iff.mp hok
        have hnone := notPaused_iff.mp (not_paused_of_guarded hstops (Bool.not_eq_true _ ▸ hunguarded) hs)
        rw [hpaused] at hnone
        cases hnone
    refine ⟨hrejected, (settled_cases C s call).resolve_right fun haccepted => ?_⟩
    have hok := isOk_iff.mpr ⟨_, haccepted⟩
    rw [hrejected] at hok
    cases hok

end

/-- In every run, with the calls that were rejected, every pause is kept if and only if no call of an unguarded
entry point, made during one, would be accepted without it. -/
theorem pauses_kept_iff (C : Crypto) {registry guardian : Address}
    {log : List (VotingState × VotingEnv × Call)} {s : VotingState} (hrun : AttemptRun C registry guardian log s) :
    (∀ t ∈ Run.transitions log s, PauseKept C t.1 t.2.1 t.2.2) ↔ ∀ e ∈ log, ¬ PassesPause C e.1 e.2 :=
  Run.forall_transitions_iff (P := fun s call s' => PauseKept C s call s')
    (C := fun s (call : VotingEnv × Call) => ¬ PassesPause C s call)
    (fun _ s call s' _ (hs : settled C s call = s') => hs ▸ pauseKept_iff) hrun

/-- A quadratic election, then a pause, then a ballot. -/
def pausedElection : List Call :=
  [.dao (.set_qv_vk 0 (sampleVk QV_CIRCUIT_IC_LEN) 0), .create (.create_qv_proposal 0 [] [] 0 1 0), .inst (.pause 0)]

def sampleQvBallot : Call := .ballot (.cast_qv_vote 0 1 3 Tree.sampleRoot 4 5 sampleProof)

theorem pauses_kept_iff_for_a_quadratic_ballot : ∃ log s, AttemptRun sampleCrypto 0 0 log s ∧
    ((∀ t ∈ Run.transitions log s, PauseKept sampleCrypto t.1 t.2.1 t.2.2) ↔
      ∀ e ∈ log, ¬ PassesPause sampleCrypto e.1 e.2) := by
  obtain ⟨log, s, hrun, -⟩ := exists_run (C := sampleCrypto) (r := 0) (g := 0) (pausedElection ++ [sampleQvBallot])
    (fun _ _ => true) (by decide +kernel)
  exact ⟨log, s, hrun.attempts, pauses_kept_iff sampleCrypto hrun.attempts⟩

def takesBallotPaused (s : VotingState) : Bool := is_paused sampleEnv s &&
  (next sampleCrypto s (sampleEnv, sampleQvBallot)).any fun s' => (s'.elections 0 1).ballots.qv_ballot_count == 1

/-- The ballot is counted while the contract is paused. -/
theorem quadratic_ballot_passes_pause : ∃ log s s', VotingRun sampleCrypto 0 0 log s ∧
    is_paused sampleEnv s = true ∧ step sampleCrypto s sampleEnv sampleQvBallot = .ok s' ∧
    (s'.elections 0 1).ballots.qv_ballot_count = 1 ∧ ¬ PauseKept sampleCrypto s (sampleEnv, sampleQvBallot) s' := by
  obtain ⟨log, s, hrun, htest⟩ := exists_run (C := sampleCrypto) (r := 0) (g := 0) pausedElection
    (fun _ s => takesBallotPaused s) (by decide +kernel)
  simp only [takesBallotPaused, Bool.and_eq_true, Option.any_eq_true, beq_iff_eq] at htest
  obtain ⟨hpaused, s', hs, hcount⟩ := htest
  have haccepted : step sampleCrypto s sampleEnv sampleQvBallot = .ok s' := toOption_eq_some.mp hs
  refine ⟨log, s, s', hrun, hpaused, haccepted, hcount, fun hkept => ?_⟩
  have hrejected := (hkept hpaused rfl).1
  rw [haccepted] at hrejected
  cases hrejected

end ZkVote.Voting
