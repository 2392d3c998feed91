import ZkVote.Voting.Nullifiers
import ZkVote.Voting.Phases

/-!
# The voting contract: end times

Ballots are taken up to the end time of a proposal; 0 means that there is none.
One kind of ballot never looks at it, and one tally takes 0 for a time.
-/

open Lib Lib.Outcome

namespace ZkVote.Voting

/-- The same proposal with another end time. -/
def ProposalInfo.ending (p : ProposalInfo) (end_time : Nat) : ProposalInfo := { p with end_time := end_time }

def Election.ending (e : Election) (end_time : Nat) : Election := { e with
  proposal := e.proposal.map fun p => p.ending end_time
  proposal_end_time := e.proposal_end_time.map fun _ => end_time }

def VotingState.ending (s : VotingState) (dao_id proposal_id end_time : Nat) : VotingState :=
  s.set_election dao_id proposal_id ((s.elections dao_id proposal_id).ending end_time)

/-- The election a ballot or a tally is for. -/
def Call.polls : Call → Option (Nat × Nat)
  | .ballot call => some call.election
  | .tally call => some call.election
  | _ => none

/-- After its end time an election records no nullifier; without one it rejects no ballot and no tally that
it would accept with another. -/
structure DeadlineKept (C : Crypto) (s : VotingState) (call : VotingEnv × Call) (s' : VotingState) : Prop where
  closed : ∀ d q p, (s.elections d q).proposal = some p → p.end_time ≠ 0 → p.end_time < call.1.timestamp →
    ∀ n, Recorded (s'.elections d q).ballots n → Recorded (s.elections d q).ballots n
  unlimited : ∀ d q p, call.2.polls = some (d, q) → (s.elections d q).proposal = some p → p.end_time = 0 →
    ∀ end_time, (step C (s.ending d q end_time) call.1 call.2).isOk = true → (step C s call.1 call.2).isOk = true

/-- The checks of `commit_vote`. -/
structure CommitInOrder (C : Crypto) (env : VotingEnv) (s : VotingState) (d q : Nat) (n root : U256)
    (proof : Proof) (p : ProposalInfo) : Prop where
  not_paused : NotPaused env s
  unlocked : s.inst.reentrancy_lock = false
  in_field : n < BN254_FR_MODULUS ∧ root < BN254_FR_MODULUS
  nonzero : n ≠ 0
  schedule : ∃ config, (s.elections d q).commit_reveal = some config ∧ env.timestamp ≤ config.commit_deadline
  proposal : (s.elections d q).proposal = some p
  active : p.state = .Active
  eligible : RootEligible env d p root
  unused : nullifier_is_used (s.elections d q).ballots n = false
  absent : (s.elections d q).ballots.vote_commit n = none
  verified : ∃ vk, (s.daos d).keys.commit_voting_key = some vk ∧ C.verify_groth16 vk proof [root, n, d, q] = true
  room : (s.elections d q).ballots.vote_commit_count + 1 < 2 ^ 64

/-- The checks of `submit_recursive_tally`, the one of the end time apart. -/
structure TallyInOrder (C : Crypto) (env : VotingEnv) (s : VotingState) (d q num_votes yes_votes no_votes : Nat)
    (acc : U256) (proof : Proof) (p : ProposalInfo) : Prop where
  not_paused : NotPaused env s
  total : yes_votes + no_votes < 2 ^ 64 ∧ yes_votes + no_votes = num_votes
  verified : verify_tally_proof_data C s d q proof num_votes yes_votes no_votes acc = .ok ()
  proposal : (s.elections d q).proposal = some p
  active : p.state = .Active
  room : p.yes_votes + yes_votes < 2 ^ 64 ∧ p.no_votes + no_votes < 2 ^ 64

/-- A vote that can be committed after the end time, or a tally that can be submitted but for an end time of 0. -/
def MissesDeadline (C : Crypto) (env : VotingEnv) (s : VotingState) : Call → Prop
  | .ballot (.commit_vote d q n root _ proof) =>
    ∃ p, CommitInOrder C env s d q n root proof p ∧ p.end_time ≠ 0 ∧ p.end_time < env.timestamp
  | .tally (.submit_recursive_tally d q num_votes yes_votes no_votes acc proof) =>
    ∃ p, TallyInOrder C env s d q num_votes yes_votes no_votes acc proof p ∧ p.end_time = 0 ∧ 0 < env.timestamp
  | _ => False

section
variable {C : Crypto} {env : VotingEnv} {s s' : VotingState} {call : Call} {d q end_time : Nat} {e : Election}
  {p : ProposalInfo} {n root acc : U256} {proof : Proof} {commitment : BytesN 32}
  {num_votes yes_votes no_votes : Nat}

theorem commit_vote_isOk : (commit_vote C env s d q n root commitment proof).isOk = true ↔
    ∃ p, CommitInOrder C env s d q n root proof p := by
  simp [commit_vote]
  constructor
  · rintro ⟨hpause, hlock, hn, hroot, hne, config, hconfig, hdeadline, p, hp, hactive, heligible, hunused, habsent,
      vk, hvk, hverify, hcount⟩
    exact ⟨p, hpause, hlock, ⟨hn, hroot⟩, hne, ⟨config, hconfig, hdeadline⟩, hp, hactive, heligible,
      nullifier_is_used_eq_false.mpr hunused, habsent, ⟨vk, hvk, hverify⟩, hcount⟩
  · rintro ⟨p, h⟩
    obtain ⟨config, hconfig, hdeadline⟩ := h.schedule
    obtain ⟨vk, hvk, hverify⟩ := h.verified
    exact ⟨h.not_paused, h.unlocked, h.in_field.1, h.in_field.2, h.nonzero, config, hconfig, hdeadline, p, h.proposal,
      h.active, h.eligible, nullifier_is_used_eq_false.mp h.unused, h.absent, vk, hvk, hverify, h.room⟩

theorem submit_recursive_tally_isOk :
    (submit_recursive_tally C env s d q num_votes yes_votes no_votes acc proof).isOk = true ↔
      ∃ p, TallyInOrder C env s d q num_votes yes_votes no_votes acc proof p ∧ ¬ p.end_time < env.timestamp := by
  have hresumed : verify_tally_proof_data C (resumed s) d q proof num_votes yes_votes no_votes acc =
      verify_tally_proof_data C s d q proof num_votes yes_votes no_votes acc := rfl
  simp [submit_recursive_tally, hresumed]
  constructor
  · rintro ⟨hpause, hfits, htotal, ⟨u, hverify⟩, p, hp, hactive, hend, hyes, hno⟩
    exact ⟨p, ⟨hpause, ⟨hfits, htotal⟩, hverify, hp, hactive, hyes, hno⟩, hend⟩
  · rintro ⟨p, h, hend⟩
    exact ⟨h.not_paused, h.total.1, h.total.2, ⟨(), h.verified⟩, p, h.proposal, h.active, hend, h.room⟩

/-! ## Another end time -/

@[simp] theorem ending_election : (s.ending d q end_time).elections d q = (s.elections d q).ending end_time :=
  VotingState.set_election_self ..

@[simp] theorem ending_inst : (s.ending d q end_time).inst = s.inst := rfl
@[simp] theorem ending_daos : (s.ending d q end_time).daos = s.daos := rfl
@[simp] theorem ending_legacy : (s.ending d q end_time).legacy_nullifier_used = s.legacy_nullifier_used := rfl
@[simp] theorem ending_ballots : (e.ending end_time).ballots = e.ballots := rfl
@[simp] theorem ending_curve : (e.ending end_time).proposal_curve = e.proposal_curve := rfl
@[simp] theorem ending_commit_reveal : (e.ending end_time).commit_reveal = e.commit_reveal := rfl

theorem ending_proposal (hp : e.proposal = some p) : (e.ending end_time).proposal = some (p.ending end_time) := by
  simp [Election.ending, hp]

theorem votingOpen_of_ending (hzero : p.end_time = 0) (h : VotingOpen env (p.ending end_time)) : VotingOpen env p :=
  ⟨h.1, fun hend => hend.1 hzero⟩

theorem EntryOk.of_ending {entry : BatchVote} (h : EntryOk env (e.ending end_time) d (p.ending end_time) entry) :
    EntryOk env e d p entry :=
  ⟨h.nullifier_in_field, h.root_in_field, h.nonzero, h.unused, h.eligible, h.candidate⟩

theorem BatchOk.of_ending {votes : List BatchVote} (h : BatchOk env (e.ending end_time) d (p.ending end_time) votes) :
    BatchOk env e d p votes :=
  ⟨fun entry hentry => (h.entries entry hentry).of_ending, h.distinct, h.fits⟩

theorem Ready.of_ending {vk : VerificationKey} (h : Ready C env (s.ending d q end_time) d q (p.ending end_time) vk)
    (hp : (s.elections d q).proposal = some p) (hzero : p.end_time = 0) : Ready C env s d q p vk := by
  obtain ⟨hpause, hlock, -, hopen, hcurve, hkey⟩ := h
  rw [ending_election] at hcurve hkey
  exact ⟨hpause, hlock, hp, votingOpen_of_ending hzero hopen, hcurve, hkey⟩

/-- A ballot that is accepted with some end time is accepted without one. -/
theorem ballot_ending {call : BallotCall}
    (hp : (s.elections call.election.1 call.election.2).proposal = some p) (hzero : p.end_time = 0)
    (h : (call.run C env (s.ending call.election.1 call.election.2 end_time)).isOk = true) :
    (call.run C env s).isOk = true := by
  have hp' : ((s.elections call.election.1 call.election.2).ending end_time).proposal = some (p.ending end_time) :=
    ending_proposal hp
  cases call with
  | vote d q choice n root proof =>
    simp only [BallotCall.election] at hp hp' h
    simp [BallotCall.run, vote, hp, hp'] at h ⊢
    obtain ⟨hpause, hlock, hn, hroot, hne, hfresh, hopen, heligible, hcurve, vk, hvk, hvalid, hverify, hroom⟩ := h
    exact ⟨hpause, hlock, hn, hroot, hne, hfresh, votingOpen_of_ending hzero hopen, heligible, hcurve, vk, hvk, hvalid,
      hverify, hroom⟩
  | vote_bls381 d q choice n root proof =>
    simp only [BallotCall.election] at hp hp' h
    simp [BallotCall.run, vote_bls381, hp, hp'] at h ⊢
    obtain ⟨hpause, hlock, hn, hroot, hne, hfresh, hopen, heligible, hcurve, vk, hvk, hhash, hvalid, hverify,
      hroom⟩ := h
    exact ⟨hpause, hlock, hn, hroot, hne, hfresh, votingOpen_of_ending hzero hopen, heligible, hcurve, vk, hvk, hhash,
      hvalid, hverify, hroom⟩
  | cast_votes d q votes =>
    obtain ⟨s', h⟩ := isOk_iff.mp h
    obtain ⟨⟨k, s₁⟩, hcast, -⟩ := bind_eq_ok.mp h
    obtain ⟨hsize, hk, p', vk, hready, hmode, hbatch, hverify, -⟩ := cast_votes_eq_ok.mp hcast
    simp only [BallotCall.election] at hp hp' hready hbatch hverify
    have hproposal := hready.proposal
    rw [ending_election, hp', Option.some.injEq] at hproposal
    subst hproposal
    rw [ending_election] at hbatch hverify
    have haccepted : cast_votes C env s d q votes = .ok (k, batchCast s d q p votes) :=
      cast_votes_eq_ok.mpr ⟨hsize, hk, p, vk, hready.of_ending hp hzero, hmode, hbatch.of_ending, hverify, rfl⟩
    rw [BallotCall.run, haccepted]
    rfl
  | vote_with_circuit d q choice n root proof circuit_id =>
    simp only [BallotCall.election] at hp hp' h
    simp [BallotCall.run, vote_with_circuit, hp, hp'] at h ⊢
    obtain ⟨hpause, hn, hroot, hne, hfresh, hopen, heligible, vk, hvk, hcheck, hvalid, hverify, hroom⟩ := h
    exact ⟨hpause, hn, hroot, hne, hfresh, votingOpen_of_ending hzero hopen, heligible, vk, hvk, hcheck, hvalid,
      hverify, hroom⟩
  | vote_weighted d q choice n root proof balance_commitment max_supply weight domain_tag =>
    simp only [BallotCall.election] at hp hp' h
    simp [BallotCall.run, vote_weighted, hp, hp'] at h ⊢
    obtain ⟨hpause, hlock, hweight, htag, hn, hroot, hbalance, hne, hbalance0, hpinned, hfresh, hopen, heligible,
      hsnapshot, hvalid, vk, hvk, hverify, hweightRoom, hroom⟩ := h
    exact ⟨hpause, hlock, hweight, htag, hn, hroot, hbalance, hne, hbalance0, hpinned, hfresh,
      votingOpen_of_ending hzero hopen, heligible, hsnapshot, hvalid, vk, hvk, hverify, hweightRoom, hroom⟩
  | vote_sybil_weighted d q choice n root attestation_commitment snapshot_time vote_weight proof =>
    simp only [BallotCall.election] at hp hp' h
    simp [BallotCall.run, vote_sybil_weighted, hp, hp'] at h ⊢
    obtain ⟨hpause, hlock, hn, hroot, hattestation, hne, hweight, hcap, hfresh, hopen, heligible, vk, hvk, hvalid,
      hverify, hweightRoom, hroom⟩ := h
    exact ⟨hpause, hlock, hn, hroot, hattestation, hne, hweight, hcap, hfresh, votingOpen_of_ending hzero hopen,
      heligible, vk, hvk, hvalid, hverify, hweightRoom, hroom⟩
  | commit_vote d q n root commitment proof =>
    simp only [BallotCall.election] at hp hp' h
    simp [BallotCall.run, commit_vote, hp, hp'] at h ⊢
    exact h
  | vote_encrypted =>
    obtain ⟨s', h⟩ := isOk_iff.mp h
    exact absurd h vote_encrypted_rejected
  | record_bridged_vote =>
    obtain ⟨s', h⟩ := isOk_iff.mp h
    exact absurd h record_bridged_vote_rejected
  | cast_qv_vote d q n root total_credits_spent allocations_hash proof =>
    simp only [BallotCall.election] at hp hp' h
    simp [BallotCall.run, cast_qv_vote, hp, hp'] at h ⊢
    obtain ⟨hn, hroot, hhashField, hne, hbudget, hfresh, hmode, hopen, heligible, hroot', vk, hvk, hhash, hverify, hcount,
      hcredits⟩ := h
    exact ⟨hn, hroot, hhashField, hne, hbudget, hfresh, hmode, votingOpen_of_ending hzero hopen, heligible, hroot', vk,
      hvk, hhash, hverify, hcount, hcredits⟩

theorem tallyInOrder_ending (hp : (s.elections d q).proposal = some p) :
    TallyInOrder C env (s.ending d q end_time) d q num_votes yes_votes no_votes acc proof (p.ending end_time) ↔
      TallyInOrder C env s d q num_votes yes_votes no_votes acc proof p := by
  have hverify : verify_tally_proof_data C (s.ending d q end_time) d q proof num_votes yes_votes no_votes acc =
      verify_tally_proof_data C s d q proof num_votes yes_votes no_votes acc := by
    unfold verify_tally_proof_data
    rw [ending_daos, ending_election, ending_ballots]
  constructor
  · intro h
    exact ⟨h.not_paused, h.total, hverify ▸ h.verified, hp, h.active, h.room⟩
  · intro h
    exact ⟨h.not_paused, h.total, hverify ▸ h.verified, by rw [ending_election, ending_proposal hp], h.active, h.room⟩

theorem tally_ending {call : TallyCall} (hdormant : Dormant s) (hother : call.submits = false)
    (hp : (s.elections call.election.1 call.election.2).proposal = some p)
    (h : (call.run C env (s.ending call.election.1 call.election.2 end_time)).isOk = true) :
    (call.run C env s).isOk = true := by
  have hp' : ((s.elections call.election.1 call.election.2).ending end_time).proposal = some (p.ending end_time) :=
    ending_proposal hp
  cases call with
  | reveal_vote d q n choice blinding =>
    simp only [TallyCall.election] at hp hp' h
    simp [TallyCall.run, reveal_vote, hp, hp'] at h ⊢
    exact h
  | submit_recursive_tally => cases hother
  | finalize_encrypted_tally d q params =>
    simp [TallyCall.run, finalize_encrypted_tally, hdormant.encrypted] at h
  | record_qv_tally d q proposal_ids tallies proof =>
    simp only [TallyCall.election] at hp hp' h
    simp [TallyCall.run, record_qv_tally, hp, hp'] at h ⊢
    exact h
  | migrate_nullifier d q n admin =>
    simp [TallyCall.run, migrate_nullifier, hdormant.legacy] at h ⊢
    exact h

/-! ## One call -/

/-- An accepted call records nothing after the end time, unless it commits a vote. -/
theorem closed_of_accepted (hs : VotingOk s) (h : step C s env call = .ok s')
    (hnot : ¬ MissesDeadline C env s call) (hp : (s.elections d q).proposal = some p) (hend : p.end_time ≠ 0)
    (hlate : p.end_time < env.timestamp) (hn : Recorded (s'.elections d q).ballots n) :
    Recorded (s.elections d q).ballots n := by
  rcases ((step_effect hs.dormant h).recorded d q).mp hn with hspent | hold
  · exfalso
    obtain ⟨ballot, rfl, helection⟩ := mem_nullifiers hspent
    obtain ⟨e', p', -, hpassed⟩ := ballot_passed h
    have hp' := hpassed.proposal
    rw [helection, hp, Option.some.injEq] at hp'
    subst hp'
    rcases hpassed.in_time with hcommit | hin
    · cases ballot with
      | commit_vote d' q' n root commitment proof =>
        cases helection
        obtain ⟨p', horder⟩ := commit_vote_isOk.mp (isOk_iff.mpr ⟨s', h⟩)
        obtain rfl : p = p' := Option.some.inj (hp.symm.trans horder.proposal)
        exact hnot ⟨p, horder, hend, hlate⟩
      | _ => cases hcommit
    · exact hin ⟨hend, hlate⟩
  · exact hold

theorem unlimited_of_not_misses (hs : VotingOk s) (hnot : ¬ MissesDeadline C env s call)
    (hpolls : call.polls = some (d, q)) (hp : (s.elections d q).proposal = some p) (hzero : p.end_time = 0)
    (h : (step C (s.ending d q end_time) env call).isOk = true) : (step C s env call).isOk = true := by
  cases call with
  | ballot call =>
    have helection : call.election = (d, q) := Option.some.inj hpolls
    have hcall : (call.run C env (s.ending call.election.1 call.election.2 end_time)).isOk = true := by
      rw [helection]
      exact h
    refine ballot_ending (p := p) ?_ hzero hcall
    rw [helection]
    exact hp
  | tally call =>
    have helection : call.election = (d, q) := Option.some.inj hpolls
    by_cases hother : call.submits = false
    · have hcall : (call.run C env (s.ending call.election.1 call.election.2 end_time)).isOk = true := by
        rw [helection]
        exact h
      refine tally_ending (p := p) hs.dormant hother ?_ hcall
      rw [helection]
      exact hp
    · cases call with
      | submit_recursive_tally d' q' num_votes yes_votes no_votes acc proof =>
        cases helection
        obtain ⟨p', horder, -⟩ := submit_recursive_tally_isOk.mp h
        have hproposal := horder.proposal
        rw [ending_election, ending_proposal hp, Option.some.injEq] at hproposal
        subst hproposal
        have horder' := (tallyInOrder_ending hp).mp horder
        refine submit_recursive_tally_isOk.mpr ⟨p, horder', fun hlt => hnot ⟨p, horder', hzero, ?_⟩⟩
        omega
      | _ => exact absurd rfl hother
  | _ => cases hpolls

/-- A vote committed after the end time records its nullifier. -/
theorem not_kept_of_commit {call : VotingEnv × Call} (hs : VotingOk s)
    (hcall : call.2 = .ballot (.commit_vote d q n root commitment proof))
    (horder : CommitInOrder C call.1 s d q n root proof p) (hend : p.end_time ≠ 0)
    (hlate : p.end_time < call.1.timestamp) : ¬ DeadlineKept C s call (settled C s call) := by
  obtain ⟨env, _⟩ := call
  subst hcall
  intro hkept
  have hok : (commit_vote C env s d q n root commitment proof).isOk = true := commit_vote_isOk.mpr ⟨p, horder⟩
  obtain ⟨s', haccepted⟩ := isOk_iff.mp hok
  have hsettled : settled C s (env, .ballot (.commit_vote d q n root commitment proof)) = s' :=
    Accepts.settled haccepted
  rw [hsettled] at hkept
  have heffect : StepEffect env s s' (.ballot (.commit_vote d q n root commitment proof)) :=
    step_effect hs.dormant haccepted
  have hrecorded : Recorded (s'.elections d q).ballots n :=
    (heffect.recorded d q).mpr (.inl (by simp [Call.nullifiers]))
  rcases hkept.closed d q p horder.proposal hend hlate n hrecorded with hused | hquadratic
  · rw [(nullifier_is_used_eq_false.mp horder.unused).1] at hused
    cases hused
  · obtain ⟨p', hp', hmode⟩ := (hs.elections d q).quadratic n hquadratic
    obtain rfl : p = p' := Option.some.inj (horder.proposal.symm.trans hp')
    exact horder.eligible.mode_ne hmode

theorem not_kept_of_tally {call : VotingEnv × Call} {s' : VotingState}
    (hcall : call.2 = .tally (.submit_recursive_tally d q num_votes yes_votes no_votes acc proof))
    (horder : TallyInOrder C call.1 s d q num_votes yes_votes no_votes acc proof p) (hzero : p.end_time = 0)
    (hpos : 0 < call.1.timestamp) : ¬ DeadlineKept C s call s' := by
  obtain ⟨env, _⟩ := call
  subst hcall
  intro hkept
  have hothers : (step C (s.ending d q env.timestamp) env
      (.tally (.submit_recursive_tally d q num_votes yes_votes no_votes acc proof))).isOk = true :=
    submit_recursive_tally_isOk.mpr ⟨_, (tallyInOrder_ending horder.proposal).mpr horder, lt_irrefl _⟩
  have haccepted := hkept.unlimited d q p rfl horder.proposal hzero env.timestamp hothers
  obtain ⟨p', horder', hnot⟩ := submit_recursive_tally_isOk.mp haccepted
  obtain rfl : p = p' := Option.some.inj (horder.proposal.symm.trans horder'.proposal)
  rw [hzero] at hnot
  exact hnot hpos

theorem deadlineKept_iff {call : VotingEnv × Call} (hs : VotingOk s) :
    DeadlineKept C s call (settled C s call) ↔ ¬ MissesDeadline C call.1 s call.2 := by
  obtain ⟨env, call⟩ := call
  constructor
  · intro hkept hmisses
    cases call with
    | ballot ballot =>
      cases ballot with
      | commit_vote d q n root commitment proof =>
        obtain ⟨p, horder, hend, hlate⟩ := hmisses
        exact not_kept_of_commit hs rfl horder hend hlate hkept
      | _ => exact hmisses
    | tally tally =>
      cases tally with
      | submit_recursive_tally d q num_votes yes_votes no_votes acc proof =>
        obtain ⟨p, horder, hzero, hpos⟩ := hmisses
        exact not_kept_of_tally rfl horder hzero hpos hkept
      | _ => exact hmisses
    | _ => exact hmisses
  · intro hnot
    refine ⟨fun d q p hp hend hlate n hn => ?_, fun d q p hpolls hp hzero end_time h =>
      unlimited_of_not_misses hs hnot hpolls hp hzero h⟩
    rcases settled_cases C s (env, call) with hsame | haccepted
    · rwa [hsame] at hn
    · exact closed_of_accepted hs haccepted hnot hp hend hlate hn

end

/-- In every run, with the calls that were rejected, end times are kept if and only if no call commits a vote
after the end time, and none submits a tally that only an end time of 0 speaks against. -/
theorem deadlines_kept_iff (C : Crypto) {registry guardian : Address}
    {log : List (VotingState × VotingEnv × Call)} {s : VotingState} (hrun : AttemptRun C registry guardian log s) :
    (∀ t ∈ Run.transitions log s, DeadlineKept C t.1 t.2.1 t.2.2) ↔
      ∀ e ∈ log, ¬ MissesDeadline C e.2.1 e.1 e.2.2 :=
  Run.forall_transitions_iff (P := fun s call s' => DeadlineKept C s call s')
    (C := fun s (call : VotingEnv × Call) => ¬ MissesDeadline C call.1 s call.2)
    (fun _ s call s' hr (hs : settled C s call = s') => hs ▸ deadlineKept_iff (AttemptRun.ok hr)) hrun

/-- An election that ends at 20, with votes committed up to 30. -/
def lateSchedule : List Call :=
  [.dao (.set_vk_from_registry 0 (sampleVk VOTE_CIRCUIT_IC_LEN)),
    .dao (.set_commit_vk 0 (sampleVk COMMIT_CIRCUIT_IC_LEN) 0),
    .create (.create_proposal 0 [] [] 20 1 .Fixed), .config (.set_commit_reveal 0 1 30 30 0 false 0)]

def sampleCommit : Call := .ballot (.commit_vote 0 1 3 Tree.sampleRoot (Vector.replicate 32 1) sampleProof)

/-- An election without an end, and a key for its tally. -/
def endlessElection : List Call :=
  openElection 0 ++ [.dao (.set_tally_vk 0 (sampleVk TALLY_CIRCUIT_IC_LEN) 0)]

def sampleTally : Call := .tally (.submit_recursive_tally 0 1 0 0 0 0 sampleProof)

theorem deadlines_kept_iff_for_a_late_commit : ∃ log s, AttemptRun sampleCrypto 0 0 log s ∧
    ((∀ t ∈ Run.transitions log s, DeadlineKept sampleCrypto t.1 t.2.1 t.2.2) ↔
      ∀ e ∈ log, ¬ MissesDeadline sampleCrypto e.2.1 e.1 e.2.2) := by
  obtain ⟨log, s, hrun, -⟩ := exists_run (C := sampleCrypto) (r := 0) (g := 0) lateSchedule (fun _ _ => true)
    (by decide +kernel)
  have hattempt : AttemptRun sampleCrypto 0 0 ((s, sampleEnvAt 25, sampleCommit) :: log) _ := .call hrun.attempts rfl
  exact ⟨_, _, hattempt, deadlines_kept_iff sampleCrypto hattempt⟩

/-- A vote is committed five seconds after the end of an election, and a tally is turned down in one that has
no end. -/
theorem deadlines_missed : (∃ log s p, VotingRun sampleCrypto 0 0 log s ∧ (s.elections 0 1).proposal = some p ∧
      p.end_time = 20 ∧ (step sampleCrypto s (sampleEnvAt 25) sampleCommit).isOk = true ∧
      ¬ DeadlineKept sampleCrypto s (sampleEnvAt 25, sampleCommit)
        (settled sampleCrypto s (sampleEnvAt 25, sampleCommit))) ∧
    ∃ log s p, VotingRun sampleCrypto 0 0 log s ∧ (s.elections 0 1).proposal = some p ∧ p.end_time = 0 ∧
      (step sampleCrypto s sampleEnv sampleTally).isOk = false ∧
      ¬ DeadlineKept sampleCrypto s (sampleEnv, sampleTally) (settled sampleCrypto s (sampleEnv, sampleTally)) := by
  constructor
  · let test (s : VotingState) : Bool := ((s.elections 0 1).proposal.any fun p => p.end_time == 20) &&
      (step sampleCrypto s (sampleEnvAt 25) sampleCommit).isOk
    obtain ⟨log, s, hrun, htest⟩ := exists_run (C := sampleCrypto) (r := 0) (g := 0) lateSchedule
      (fun _ s => test s) (by decide +kernel)
    simp only [test, Bool.and_eq_true, Option.any_eq_true, beq_iff_eq] at htest
    obtain ⟨⟨p, hp, hend⟩, hok⟩ := htest
    obtain ⟨p', horder⟩ := commit_vote_isOk.mp hok
    obtain rfl : p = p' := Option.some.inj (hp.symm.trans horder.proposal)
    exact ⟨log, s, p, hrun, hp, hend, hok, not_kept_of_commit hrun.ok rfl horder (by rw [hend]; decide)
      (by rw [hend]; decide)⟩
  · let test (s : VotingState) : Bool := ((s.elections 0 1).proposal.any fun p => p.end_time == 0) &&
      !(step sampleCrypto s sampleEnv sampleTally).isOk &&
      (step sampleCrypto (s.ending 0 1 10) sampleEnv sampleTally).isOk
    obtain ⟨log, s, hrun, htest⟩ := exists_run (C := sampleCrypto) (r := 0) (g := 0) endlessElection
      (fun _ s => test s) (by decide +kernel)
    simp only [test, Bool.and_eq_true, Option.any_eq_true, beq_iff_eq, Bool.not_eq_true'] at htest
    obtain ⟨⟨⟨p, hp, hzero⟩, hrejected⟩, hok⟩ := htest
    refine ⟨log, s, p, hrun, hp, hzero, hrejected, fun hkept => ?_⟩
    have haccepted := hkept.unlimited 0 1 p rfl hp hzero 10 hok
    rw [hrejected] at haccepted
    cases haccepted

end ZkVote.Voting
