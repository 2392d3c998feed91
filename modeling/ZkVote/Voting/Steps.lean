import ZkVote.Tree.Spec
import ZkVote.Voting.Setters

/-!
# The voting contract: steps

What every reachable state satisfies.
-/

open Lib Lib.Outcome

namespace ZkVote.Voting

/-- No election has had its ballots or its votes changed, and no proposal has been made. -/
structure Arranged (s s' : VotingState) : Prop where
  legacy : s'.legacy_nullifier_used = s.legacy_nullifier_used
  proposal_count : ∀ d, (s'.daos d).proposal_count = (s.daos d).proposal_count
  ballots : ∀ d q, (s'.elections d q).ballots = (s.elections d q).ballots
  polled : ∀ d q, polled (s'.elections d q) = polled (s.elections d q)

/-- What an accepted call does to ballots and votes. -/
inductive StepEffect (env : VotingEnv) (s s' : VotingState) : Call → Prop where
  | ballot {call : BallotCall} {e' : Election} (step : BallotStep env s s' call e') :
      StepEffect env s s' (.ballot call)
  | tally {call : TallyCall} {e' : Election} (rewrites : Rewrites s s' call.election.1 call.election.2 e')
      (effect : TallyEffect (s.elections call.election.1 call.election.2) e' call) :
      StepEffect env s s' (.tally call)
  | create {call : CreateCall} {id : Nat} {e' : Election} {p : ProposalInfo}
      (step : CreateStep env s s' call.dao_id call.creator id e' p) : StepEffect env s s' (.create call)
  | arranged {call : Call} (step : Arranged s s') (ballot : ∀ b, call ≠ .ballot b)
      (tally : ∀ t, call ≠ .tally t) : StepEffect env s s' call

section
variable {C : Crypto} {env : VotingEnv} {s s' : VotingState} {call : Call} {dao_id proposal_id : Nat}
  {e' : Election}

theorem Rewrites.self (h : Rewrites s s' dao_id proposal_id e') : s'.elections dao_id proposal_id = e' := by
  rw [h.elections, VotingState.set_election_self]

theorem Rewrites.of_ne (h : Rewrites s s' dao_id proposal_id e') {d q : Nat}
    (hne : ¬ (d = dao_id ∧ q = proposal_id)) : s'.elections d q = s.elections d q := by
  rw [h.elections, VotingState.set_election_apply, if_neg hne]

theorem Rewrites.forall {P : Nat → Nat → Election → Prop} (h : Rewrites s s' dao_id proposal_id e')
    (hs : ∀ d q, P d q (s.elections d q)) (he : P dao_id proposal_id e') : ∀ d q, P d q (s'.elections d q) := by
  rw [h.elections]
  exact VotingState.set_election_forall hs he

theorem Rewrites.arranged (h : Rewrites s s' dao_id proposal_id e')
    (hballots : e'.ballots = (s.elections dao_id proposal_id).ballots)
    (hpolled : Voting.polled e' = Voting.polled (s.elections dao_id proposal_id)) : Arranged s s' where
  legacy := h.legacy
  proposal_count := fun d => by rw [h.daos]
  ballots := by
    intro d q
    by_cases hdq : d = dao_id ∧ q = proposal_id
    · obtain ⟨rfl, rfl⟩ := hdq
      rw [h.self, hballots]
    · rw [h.of_ne hdq]
  polled := by
    intro d q
    by_cases hdq : d = dao_id ∧ q = proposal_id
    · obtain ⟨rfl, rfl⟩ := hdq
      rw [h.self, hpolled]
    · rw [h.of_ne hdq]

theorem DaoStep.arranged {call : DaoCall} {d' : Dao} (h : DaoStep env s s' call d') : Arranged s s' where
  legacy := h.legacy
  proposal_count := by
    intro d
    rw [h.daos, Function.update_apply]
    split
    · rename_i hd
      rw [hd, h.proposal_count]
    · rfl
  ballots := fun d q => by rw [h.elections]
  polled := fun d q => by rw [h.elections]

theorem InstanceStep.arranged {call : InstanceCall} (h : InstanceStep s s' call) : Arranged s s' where
  legacy := h.legacy
  proposal_count := fun d => by rw [h.daos]
  ballots := fun d q => by rw [h.elections]
  polled := fun d q => by rw [h.elections]

theorem step_effect (hdormant : Dormant s) (h : step C s env call = .ok s') : StepEffect env s s' call := by
  cases call with
  | ballot call =>
    obtain ⟨e', hb⟩ := ballot_step h
    exact .ballot hb
  | tally call =>
    obtain ⟨e', hr, -, ht⟩ := tally_step hdormant h
    exact .tally hr ht
  | create call =>
    obtain ⟨id, e', p, hc⟩ := create_step h
    exact .create hc
  | phase call =>
    obtain ⟨e', hr, hballots, hpolled, -⟩ := phase_step h
    exact .arranged (hr.arranged hballots hpolled) (by simp) (by simp)
  | config call =>
    obtain ⟨e', hr, hu, -⟩ := config_step h
    exact .arranged (hr.arranged hu.ballots hu.polled) (by simp) (by simp)
  | dao call =>
    obtain ⟨d', hd⟩ := dao_step h
    exact .arranged hd.arranged (by simp) (by simp)
  | inst call => exact .arranged (instance_step h).arranged (by simp) (by simp)

/-- Only a call about the contract itself changes who is asked. -/
theorem step_sameInst (hdormant : Dormant s) (h : step C s env call = .ok s') (hinst : ∀ c, call ≠ .inst c) :
    SameInst s.inst s'.inst := by
  cases call with
  | ballot call =>
    obtain ⟨e', hb⟩ := ballot_step h
    exact hb.rewrites.inst
  | tally call =>
    obtain ⟨e', hr, -⟩ := tally_step hdormant h
    exact hr.inst
  | create call =>
    obtain ⟨id, e', p, hc⟩ := create_step h
    exact hc.inst
  | phase call =>
    obtain ⟨e', hr, -⟩ := phase_step h
    exact hr.inst
  | config call =>
    obtain ⟨e', hr, -⟩ := config_step h
    exact hr.inst
  | dao call =>
    obtain ⟨d', hd⟩ := dao_step h
    exact hd.inst
  | inst call => exact absurd rfl (hinst call)

/-! ## Reachable states -/

/-- What one election satisfies, given the number of proposals of its DAO. -/
structure ElectionOk (proposal_count proposal_id : Nat) (e : Election) : Prop where
  encrypted : e.ballots.encrypted_ballot_count = 0
  temporary : ∀ n, e.ballots.nullifier_temporary n = false
  numbered : e.proposal ≠ none → proposal_id ≤ proposal_count
  fits : ∀ p, e.proposal = some p → p.Fits
  quadratic : ∀ n, e.ballots.qv_ballot n ≠ none → ∃ p, e.proposal = some p ∧ p.vote_mode = .Quadratic

structure VotingOk (s : VotingState) : Prop where
  legacy : ∀ n, s.legacy_nullifier_used n = false
  elections : ∀ d q, ElectionOk (s.daos d).proposal_count q (s.elections d q)

theorem VotingOk.dormant (h : VotingOk s) : Dormant s :=
  ⟨h.legacy, fun d q => (h.elections d q).encrypted⟩

theorem constructor_ok (registry guardian : Address) : VotingOk (constructor registry guardian) :=
  ⟨fun _ => rfl, fun _ _ => ⟨rfl, fun _ => rfl, fun h => absurd rfl h, (fun _ hp => by cases hp),
    fun _ h => absurd rfl h⟩⟩

theorem polled_eq_some {e : Election} {yes no : Nat} {mode : VoteMode} :
    polled e = some (yes, no, mode) ↔
      ∃ p, e.proposal = some p ∧ p.yes_votes = yes ∧ p.no_votes = no ∧ p.vote_mode = mode := by
  simp [polled]

theorem ElectionOk.of_polled {count id : Nat} {e e' : Election} (h : ElectionOk count id e)
    (hballots : e'.ballots = e.ballots) (hpolled : polled e' = polled e) : ElectionOk count id e' := by
  have hproposal : ∀ p, e'.proposal = some p → ∃ p₀, e.proposal = some p₀ ∧ p₀.yes_votes = p.yes_votes ∧
      p₀.no_votes = p.no_votes ∧ p₀.vote_mode = p.vote_mode := fun p hp => by
    have hp' : polled e' = some (p.yes_votes, p.no_votes, p.vote_mode) := polled_eq_some.mpr ⟨p, hp, rfl, rfl, rfl⟩
    exact polled_eq_some.mp (hpolled ▸ hp')
  refine ⟨by rw [hballots, h.encrypted], fun n => by rw [hballots, h.temporary], fun hne => ?_, fun p hp => ?_,
    fun n hn => ?_⟩
  · obtain ⟨p, hp⟩ := Option.ne_none_iff_exists'.mp hne
    obtain ⟨p₀, hp₀, -⟩ := hproposal p hp
    exact h.numbered (by simp [hp₀])
  · obtain ⟨p₀, hp₀, hyes, hno, -⟩ := hproposal p hp
    have hfits := h.fits p₀ hp₀
    exact ⟨hyes ▸ hfits.1, hno ▸ hfits.2⟩
  · obtain ⟨p, hp, hmode⟩ := h.quadratic n (hballots ▸ hn)
    obtain ⟨p', hp', -, -, hmode'⟩ := polled_eq_some.mp (hpolled.trans (polled_eq_some.mpr ⟨p, hp, rfl, rfl, rfl⟩))
    exact ⟨p', hp', hmode'.trans hmode⟩

/-- A proposal replaced by one with other votes, over ballots with the same quadratic ones. -/
theorem ElectionOk.of_counts {count id : Nat} {e e' : Election} {p p' : ProposalInfo}
    (h : ElectionOk count id e) (hp : e.proposal = some p) (hp' : e'.proposal = some p')
    (hmode : p'.vote_mode = p.vote_mode) (hfits : p'.Fits)
    (hencrypted : e'.ballots.encrypted_ballot_count = e.ballots.encrypted_ballot_count)
    (htemporary : e'.ballots.nullifier_temporary = e.ballots.nullifier_temporary)
    (hqv : e'.ballots.qv_ballot = e.ballots.qv_ballot) : ElectionOk count id e' := by
  refine ⟨by rw [hencrypted, h.encrypted], fun n => by rw [htemporary, h.temporary],
    fun _ => h.numbered (by simp [hp]), fun p₁ hp₁ => ?_, fun n hn => ?_⟩
  · rw [hp', Option.some.injEq] at hp₁
    exact hp₁ ▸ hfits
  · obtain ⟨p₀, hp₀, hm⟩ := h.quadratic n (hqv ▸ hn)
    rw [hp, Option.some.injEq] at hp₀
    exact ⟨p', hp', by rw [hmode, hp₀, hm]⟩

theorem BallotEffect.electionOk {count id : Nat} {e e' : Election} {call : BallotCall}
    (h : BallotEffect e e' call) (he : ElectionOk count id e) : ElectionOk count id e' := by
  cases h with
  | @counted p p' hp hp' mode spends counts commits =>
    exact he.of_counts hp hp' counts.vote_mode (counts.fits (he.fits p hp)) spends.encrypted_ballot_count
      spends.nullifier_temporary spends.qv_ballot
  | @committed p n commitment hp hp' mode nullifiers spends absent commits =>
    exact he.of_counts hp (hp'.trans hp) rfl (he.fits p hp) spends.encrypted_ballot_count
      spends.nullifier_temporary spends.qv_ballot
  | @quadratic p n ballot count credits hp hp' mode nullifiers call_eq fresh ballots =>
    refine ⟨by rw [ballots, ← he.encrypted], fun m => by rw [ballots, ← he.temporary m],
      fun _ => he.numbered (by simp [hp]), fun p₁ hp₁ => he.fits p₁ (hp' ▸ hp₁), fun m _ => ?_⟩
    exact ⟨p, hp'.trans hp, mode⟩

theorem TallyEffect.electionOk {count id : Nat} {e e' : Election} {call : TallyCall}
    (h : TallyEffect e e' call) (he : ElectionOk count id e) : ElectionOk count id e' := by
  cases h with
  | @revealed d q n vote_choice blinding p p' hp hp' counts committed fresh ballots =>
    exact he.of_counts hp hp' counts.vote_mode (counts.fits (he.fits p hp)) (by rw [ballots]) (by rw [ballots])
      (by rw [ballots])
  | @submitted d q num_votes yes_votes no_votes acc proof p p' hp hp' attested ballots total vote_mode fits =>
    exact he.of_counts hp hp' vote_mode fits (by rw [ballots]) (by rw [ballots]) (by rw [ballots])
  | undecided same => exact he.of_polled same.ballots same.polled

theorem CreateStep.election_other {creator : Address} {id : Nat} {p : ProposalInfo}
    (h : CreateStep env s s' dao_id creator id e' p) {d q : Nat} (hne : ¬ (d = dao_id ∧ q = id)) :
    s'.elections d q = s.elections d q := by
  rw [h.elections, VotingState.set_election_apply, if_neg hne]

theorem CreateStep.votingOk {creator : Address} {id : Nat} {p : ProposalInfo}
    (h : CreateStep env s s' dao_id creator id e' p) (hs : VotingOk s) : VotingOk s' := by
  refine ⟨fun n => by rw [h.legacy, hs.legacy], fun d q => ?_⟩
  have hcount : (s.daos d).proposal_count ≤ (s'.daos d).proposal_count := by
    rw [h.daos, Function.update_apply]
    split
    · rename_i hd
      rw [hd, h.id_eq]
      exact Nat.le_succ _
    · exact le_rfl
  have hok := hs.elections d q
  by_cases hdq : d = dao_id ∧ q = id
  · obtain ⟨rfl, rfl⟩ := hdq
    rw [h.election]
    have hnone : (s.elections d q).proposal = none := by
      by_contra hne
      have hle := hok.numbered hne
      rw [h.id_eq] at hle
      omega
    refine ⟨by rw [h.ballots, hok.encrypted], fun n => by rw [h.ballots, hok.temporary], fun _ => ?_,
      fun p₁ hp₁ => ?_, fun n hn => ?_⟩
    · rw [h.daos, Function.update_self]
    · rw [h.proposal, Option.some.injEq] at hp₁
      subst hp₁
      exact ⟨by rw [h.no_votes.1]; decide, by rw [h.no_votes.2]; decide⟩
    · rw [h.ballots] at hn
      obtain ⟨p₀, hp₀, -⟩ := hok.quadratic n hn
      rw [hnone] at hp₀
      cases hp₀
  · rw [h.election_other hdq]
    exact ⟨hok.encrypted, hok.temporary, fun hne => (hok.numbered hne).trans hcount, hok.fits, hok.quadratic⟩

theorem StepEffect.votingOk (h : StepEffect env s s' call) (hs : VotingOk s) : VotingOk s' := by
  cases h with
  | ballot step =>
    refine ⟨fun n => by rw [step.rewrites.legacy, hs.legacy], ?_⟩
    rw [step.rewrites.daos]
    exact step.rewrites.forall hs.elections (step.effect.electionOk (hs.elections _ _))
  | tally rewrites effect =>
    refine ⟨fun n => by rw [rewrites.legacy, hs.legacy], ?_⟩
    rw [rewrites.daos]
    exact rewrites.forall hs.elections (effect.electionOk (hs.elections _ _))
  | create step => exact step.votingOk hs
  | arranged step =>
    refine ⟨fun n => by rw [step.legacy, hs.legacy], fun d q => ?_⟩
    rw [step.proposal_count]
    exact (hs.elections d q).of_polled (step.ballots d q) (step.polled d q)

end

theorem VotingRun.ok {C : Crypto} {registry guardian : Address}
    {log : List (VotingState × VotingEnv × Call)} {s : VotingState} (hrun : VotingRun C registry guardian log s) :
    VotingOk s :=
  Run.invariant (P := VotingOk) (constructor_ok registry guardian)
    (fun _ _ _ hs h => (step_effect hs.dormant h).votingOk hs) hrun

theorem VotingRun.step {C : Crypto} {registry guardian : Address} {env : VotingEnv} {call : Call}
    {log : List (VotingState × VotingEnv × Call)} {s s' : VotingState} (hrun : VotingRun C registry guardian log s)
    (h : Voting.step C s env call = .ok s') : VotingRun C registry guardian ((s, env, call) :: log) s' :=
  .call hrun h

theorem AttemptRun.ok {C : Crypto} {registry guardian : Address}
    {log : List (VotingState × VotingEnv × Call)} {s : VotingState}
    (hrun : AttemptRun C registry guardian log s) : VotingOk s :=
  let ⟨_, haccepted⟩ := hrun.accepted
  haccepted.ok

/-! ## A sample deployment -/

/-- Every proof verifies. -/
def sampleCrypto : Crypto where
  sha256 := Tree.sampleHashes.sha256
  poseidon := Tree.sampleHashes.poseidon
  verify_groth16 := fun _ _ _ => true
  verify_groth16_bls381 := fun _ _ _ => true
  verify_groth16_batch := fun _ _ _ => true
  address_xdr := fun a => U256.to_be_bytes a

/-- A call that everyone has signed, in a world that agrees to it. -/
def sampleEnv : VotingEnv where
  timestamp := 10
  sequence := 1
  auths := fun _ => true
  tree := Tree.sampleTree
  sbt_registry := 0
  has := fun _ _ => true
  get_admin := fun _ _ => some 0
  members_can_propose := fun _ => true
  is_vk_attested := fun _ _ => true
  verify_attestation := fun _ _ _ => true
  get_vk := fun _ _ => none

def sampleEnvAt (t : Nat) : VotingEnv := { sampleEnv with timestamp := t }

def sampleVk (ic_len : Nat) : VerificationKey where
  alpha := Vector.replicate 64 0
  beta := Vector.replicate 128 0
  gamma := Vector.replicate 128 0
  delta := Vector.replicate 128 0
  ic := List.replicate ic_len (Vector.replicate 64 0)

def sampleProof : Proof where
  a := Vector.replicate 64 0
  b := Vector.replicate 128 0
  c := Vector.replicate 64 0

/-- A key, and a plain election under it. -/
def openElection (end_time : Nat) : List Call :=
  [.dao (.set_vk_from_registry 0 (sampleVk 7)), .create (.create_proposal 0 [] [] end_time 1 .Fixed)]

def next (C : Crypto) (s : VotingState) (call : VotingEnv × Call) : Option VotingState :=
  (step C s call.1 call.2).toOption

theorem exists_run_at {C : Crypto} {r g : Address} (calls : List (VotingEnv × Call))
    (test : List (VotingState × VotingEnv × Call) → VotingState → Bool)
    (h : (Run.replay (next C) calls [] (constructor r g)).any (fun e => test e.1 e.2) = true) :
    ∃ log s, VotingRun C r g log s ∧ test log s = true := by
  refine Run.exists_of_replay (fun s call s' h => ?_) h
  exact toOption_eq_some.mp h

theorem exists_run {C : Crypto} {r g : Address} (calls : List Call)
    (test : List (VotingState × VotingEnv × Call) → VotingState → Bool)
    (h : (Run.replay (next C) (calls.map fun c => (sampleEnv, c)) [] (constructor r g)).any
      (fun e => test e.1 e.2) = true) :
    ∃ log s, VotingRun C r g log s ∧ test log s = true := exists_run_at _ test h

end ZkVote.Voting
