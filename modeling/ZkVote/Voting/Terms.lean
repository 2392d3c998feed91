import ZkVote.Voting.Authority

/-!
# The voting contract: what a proposal keeps

A proposal is written once. Later calls count its votes and move it on; all but
one leave its root, and none its terms.
-/

open Lib Lib.Outcome

namespace ZkVote.Voting

/-- A proposal without what later calls may change in it. -/
def ProposalInfo.terms (p : ProposalInfo) : ProposalInfo :=
  { p with yes_votes := 0, no_votes := 0, state := .Active, eligible_root := 0, trailing_finalized_at := none }

def terms (e : Election) : Option ProposalInfo := e.proposal.map ProposalInfo.terms

def eligibleRoot (e : Election) : Option U256 := e.proposal.map ProposalInfo.eligible_root

/-- The election is still the one that was created. -/
structure SameTerms (e e' : Election) : Prop where
  terms : terms e' = terms e
  curve : e'.proposal_curve = e.proposal_curve
  encrypted_config : e'.encrypted_config = e.encrypted_config

/-- Nor has it been configured anew. -/
structure SameSetup (e e' : Election) : Prop extends SameTerms e e' where
  root : eligibleRoot e' = eligibleRoot e
  config : e'.config = e.config
  depth_vk_hash : e'.proposal_depth_vk_hash = e.proposal_depth_vk_hash

theorem SameTerms.refl (e : Election) : SameTerms e e := ⟨rfl, rfl, rfl⟩

theorem SameTerms.trans {e e' e'' : Election} (h : SameTerms e e') (h' : SameTerms e' e'') : SameTerms e e'' :=
  ⟨h'.terms.trans h.terms, h'.curve.trans h.curve, h'.encrypted_config.trans h.encrypted_config⟩

theorem SameSetup.refl (e : Election) : SameSetup e e := ⟨.refl e, rfl, rfl, rfl⟩

def BallotCall.isCommit : BallotCall → Bool
  | .commit_vote .. => true
  | _ => false

/-- The nullifiers it folds into the accumulator. -/
def BallotCall.folds : BallotCall → List U256
  | .vote _ _ _ n _ _ => [n]
  | _ => []

/-! ## Ballots -/

/-- What every accepted ballot has been checked for, and what it leaves alone. -/
structure BallotPassed (C : Crypto) (env : VotingEnv) (s : VotingState) (e' : Election) (call : BallotCall)
    (p : ProposalInfo) : Prop where
  proposal : (s.elections call.election.1 call.election.2).proposal = some p
  active : p.state = .Active
  in_time : call.isCommit = true ∨ ¬ (p.end_time ≠ 0 ∧ p.end_time < env.timestamp)
  not_paused : call.isQuadratic = true ∨ NotPaused env s
  setup : SameSetup (s.elections call.election.1 call.election.2) e'
  accumulator : e'.ballots.nullifier_accumulator =
    (call.folds.foldl (accumulate_nullifier C)
      (s.elections call.election.1 call.election.2).ballots).nullifier_accumulator

section
variable {C : Crypto} {env : VotingEnv} {s s' : VotingState} {p : ProposalInfo} {vote_choice : Bool}

@[simp] theorem counted_terms : (counted p vote_choice).terms = p.terms := by
  cases vote_choice <;> rfl

@[simp] theorem counted_eligible_root : (counted p vote_choice).eligible_root = p.eligible_root := by
  cases vote_choice <;> rfl

theorem tallied_terms {votes : List BatchVote} : (tallied p votes).terms = p.terms := rfl

theorem SameSetup.of_proposal {e e' : Election} {p' : ProposalInfo} (hp : e.proposal = some p)
    (hp' : e'.proposal = some p') (hterms : p'.terms = p.terms) (hroot : p'.eligible_root = p.eligible_root)
    (hcurve : e'.proposal_curve = e.proposal_curve) (hencrypted : e'.encrypted_config = e.encrypted_config)
    (hconfig : e'.config = e.config) (hdepth : e'.proposal_depth_vk_hash = e.proposal_depth_vk_hash) :
    SameSetup e e' := by
  refine ⟨⟨?_, hcurve, hencrypted⟩, ?_, hconfig, hdepth⟩
  · unfold Voting.terms
    rw [hp, hp', Option.map_some, Option.map_some, hterms]
  · unfold eligibleRoot
    rw [hp, hp', Option.map_some, Option.map_some, hroot]

theorem ballot_passed {call : BallotCall} (h : call.run C env s = .ok s') :
    ∃ e' p, s'.elections call.election.1 call.election.2 = e' ∧ BallotPassed C env s e' call p := by
  cases call with
  | vote d q choice n root proof =>
    simp [BallotCall.run, vote] at h
    obtain ⟨hpause, -, -, -, -, -, p, hp, hopen, -, -, vk, -, -, -, -, rfl⟩ := h
    exact ⟨_, p, VotingState.set_election_self .., hp, hopen.1, .inr hopen.2, .inr hpause,
      .of_proposal hp rfl counted_terms counted_eligible_root rfl rfl rfl rfl, rfl⟩
  | vote_bls381 d q choice n root proof =>
    simp [BallotCall.run, vote_bls381] at h
    obtain ⟨hpause, -, -, -, -, -, p, hp, hopen, -, -, vk, -, -, -, -, -, rfl⟩ := h
    exact ⟨_, p, VotingState.set_election_self .., hp, hopen.1, .inr hopen.2, .inr hpause,
      .of_proposal hp rfl counted_terms counted_eligible_root rfl rfl rfl rfl, rfl⟩
  | cast_votes d q votes =>
    obtain ⟨⟨k, s₁⟩, hcast, hs⟩ := bind_eq_ok.mp h
    cases hs
    obtain ⟨-, -, p, vk, hr, -, -, -, rfl⟩ := cast_votes_eq_ok.mp hcast
    exact ⟨_, p, VotingState.set_election_self .., hr.proposal, hr.voting_open.1, .inr hr.voting_open.2,
      .inr hr.not_paused, .of_proposal hr.proposal rfl tallied_terms rfl rfl rfl rfl rfl, rfl⟩
  | vote_with_circuit d q choice n root proof circuit_id =>
    simp [BallotCall.run, vote_with_circuit] at h
    obtain ⟨hpause, -, -, -, -, p, hp, hopen, -, vk, -, -, -, -, -, rfl⟩ := h
    exact ⟨_, p, VotingState.set_election_self .., hp, hopen.1, .inr hopen.2, .inr hpause,
      .of_proposal hp rfl counted_terms counted_eligible_root rfl rfl rfl rfl, rfl⟩
  | vote_weighted d q choice n root proof balance_commitment max_supply weight domain_tag =>
    simp [BallotCall.run, vote_weighted] at h
    obtain ⟨hpause, -, -, -, -, -, -, -, -, -, -, p, hp, hopen, -, -, -, vk, -, -, -, -, rfl⟩ := h
    exact ⟨_, p, VotingState.set_election_self .., hp, hopen.1, .inr hopen.2, .inr hpause,
      .of_proposal hp rfl counted_terms counted_eligible_root rfl rfl rfl rfl, rfl⟩
  | vote_sybil_weighted d q choice n root attestation_commitment snapshot_time vote_weight proof =>
    simp [BallotCall.run, vote_sybil_weighted] at h
    obtain ⟨hpause, -, -, -, -, -, -, -, -, p, hp, hopen, -, vk, -, -, -, -, -, rfl⟩ := h
    exact ⟨_, p, VotingState.set_election_self .., hp, hopen.1, .inr hopen.2, .inr hpause,
      .of_proposal hp rfl counted_terms counted_eligible_root rfl rfl rfl rfl, rfl⟩
  | commit_vote d q n root commitment proof =>
    simp [BallotCall.run, commit_vote] at h
    obtain ⟨hpause, -, -, -, -, config, -, -, p, hp, hactive, -, -, -, vk, -, -, -, rfl⟩ := h
    exact ⟨_, p, VotingState.set_election_self .., hp, hactive, .inl rfl, .inr hpause, 
      ⟨⟨rfl, rfl, rfl⟩, rfl, rfl, rfl⟩, rfl⟩
  | vote_encrypted => exact absurd h vote_encrypted_rejected
  | record_bridged_vote => exact absurd h record_bridged_vote_rejected
  | cast_qv_vote d q n root total_credits_spent allocations_hash proof =>
    simp [BallotCall.run, cast_qv_vote] at h
    obtain ⟨-, -, -, -, -, -, p, hp, -, hopen, -, -, vk, -, -, -, -, -, rfl⟩ := h
    exact ⟨_, p, VotingState.set_election_self .., hp, hopen.1, .inr hopen.2, .inl rfl, 
      ⟨⟨rfl, rfl, rfl⟩, rfl, rfl, rfl⟩, rfl⟩

theorem ballot_proposal {call : BallotCall} {d q : Nat} (h : call.run C env s = .ok s')
    (helection : call.election = (d, q)) : (s.elections d q).proposal ≠ none := by
  obtain ⟨e', p, -, hpassed⟩ := ballot_passed h
  have hp := hpassed.proposal
  rw [helection] at hp
  rw [hp]
  simp

/-! ## Tallies and phases -/

theorem tally_setup {call : TallyCall} (hdormant : Dormant s) (h : call.run C env s = .ok s') :
    SameSetup (s.elections call.election.1 call.election.2) (s'.elections call.election.1 call.election.2) := by
  cases call with
  | reveal_vote d q n vote_choice blinding =>
    simp [TallyCall.run, reveal_vote] at h
    obtain ⟨-, -, -, -, config, -, -, -, -, -, -, p, hp, -, rfl⟩ := h
    refine .of_proposal hp (congrArg Election.proposal (VotingState.set_election_self ..)) counted_terms
      counted_eligible_root ?_ ?_ ?_ ?_ <;> simp
  | submit_recursive_tally d q num_votes yes_votes no_votes acc proof =>
    simp [TallyCall.run, submit_recursive_tally] at h
    obtain ⟨-, -, -, -, p, hp, -, -, -, -, rfl⟩ := h
    refine .of_proposal hp (congrArg Election.proposal (VotingState.set_election_self ..)) rfl rfl ?_ ?_ ?_ ?_ <;>
      simp
  | finalize_encrypted_tally d q => simp [TallyCall.run, finalize_encrypted_tally, hdormant.encrypted] at h
  | record_qv_tally d q =>
    simp [TallyCall.run, record_qv_tally] at h
    obtain ⟨-, -, p, -, -, vk, -, -, rfl⟩ := h
    refine ⟨⟨?_, ?_, ?_⟩, ?_, ?_, ?_⟩ <;> simp [terms, eligibleRoot]
  | migrate_nullifier d q =>
    simp [TallyCall.run, migrate_nullifier, hdormant.legacy] at h
    obtain ⟨-, -, -, -, -, rfl⟩ := h
    exact .refl _

/-- How far a proposal has come. -/
def ProposalState.rank : ProposalState → Nat
  | .Registration => 0
  | .Active => 1
  | .Closed => 2
  | .Archived => 3

theorem ProposalState.rank_le_of_valid {a b : ProposalState} (h : a ≠ b → a.is_valid_transition b = true) :
    a.rank ≤ b.rank := by
  cases a <;> cases b <;> first | decide | simp [is_valid_transition] at h

theorem moved_setup {d q : Nat} {p p' : ProposalInfo} (hp : (s.elections d q).proposal = some p)
    (hterms : p'.terms = p.terms) (hroot : p'.eligible_root = p.eligible_root)
    (hrank : p.state.rank ≤ p'.state.rank) :
    let s' := s.set_election d q { s.elections d q with proposal := some p' }
    ∃ p p', (s.elections d q).proposal = some p ∧ (s'.elections d q).proposal = some p' ∧
      p.state.rank ≤ p'.state.rank ∧ SameSetup (s.elections d q) (s'.elections d q) := by
  have hp' := congrArg Election.proposal (VotingState.set_election_self s d q
    { s.elections d q with proposal := some p' })
  refine ⟨p, p', hp, hp', hrank, .of_proposal hp hp' hterms hroot ?_ ?_ ?_ ?_⟩ <;> simp

theorem phase_setup {call : PhaseCall} (h : call.run env s = .ok s') :
    ∃ p p', (s.elections call.election.1 call.election.2).proposal = some p ∧
      (s'.elections call.election.1 call.election.2).proposal = some p' ∧ p.state.rank ≤ p'.state.rank ∧
      SameSetup (s.elections call.election.1 call.election.2)
        (s'.elections call.election.1 call.election.2) := by
  cases call with
  | activate_proposal d q =>
    simp [PhaseCall.run, activate_proposal] at h
    obtain ⟨-, -, p, hp, hstate, rfl⟩ := h
    exact moved_setup hp rfl rfl (ProposalState.rank_le_of_valid fun _ => by rw [hstate]; rfl)
  | close_proposal d q admin =>
    simp [PhaseCall.run, close_proposal] at h
    obtain ⟨-, -, -, p, hp, hvalid, ⟨-, rfl⟩ | ⟨hstate, rfl⟩⟩ := h
    · exact ⟨p, p, hp, hp, le_rfl, .refl _⟩
    · exact moved_setup hp rfl rfl (ProposalState.rank_le_of_valid hvalid)
  | archive_proposal d q admin =>
    simp [PhaseCall.run, archive_proposal] at h
    obtain ⟨-, -, -, p, hp, hvalid, ⟨-, rfl⟩ | ⟨hstate, rfl⟩⟩ := h
    · exact ⟨p, p, hp, hp, le_rfl, .refl _⟩
    · exact moved_setup hp rfl rfl (ProposalState.rank_le_of_valid hvalid)

/-! ## Configuration -/

/-- What the proofs of an election are checked against, its key apart. -/
@[ext] structure Parameters where
  num_candidates : Nat
  merkle_depth : Nat
  depth_vk_hash : Option (BytesN 32)
  deriving DecidableEq

def parameters (e : Election) : Parameters where
  num_candidates := (election_config e).num_candidates
  merkle_depth := (election_config e).merkle_depth
  depth_vk_hash := e.proposal_depth_vk_hash

theorem SameSetup.parameters {e e' : Election} (h : SameSetup e e') : parameters e' = parameters e := by
  unfold Voting.parameters election_config
  rw [h.config, h.depth_vk_hash]

/-- The parameters a configuration call asks for. -/
def ConfigCall.parameters (C : Crypto) (s : VotingState) : ConfigCall → Parameters
  | .set_election_config d q _ _ num_candidates _ =>
    { Voting.parameters (s.elections d q) with num_candidates := num_candidates }
  | .set_election_config_with_depth d q _ _ num_candidates merkle_depth _ =>
    { num_candidates := num_candidates
      merkle_depth := merkle_depth
      depth_vk_hash :=
        if merkle_depth = 0 then (s.elections d q).proposal_depth_vk_hash
        else ((s.daos d).keys.depth_vk merkle_depth).map (hash_vk C) }
  | call => Voting.parameters (s.elections call.election.1 call.election.2)

/-- The root it moves a proposal to, if that is what it does. -/
def ConfigCall.setsRoot : ConfigCall → Option U256
  | .set_merkle_root _ _ root _ => some root
  | _ => none

/-- The root of the election after a configuration call. -/
def ConfigCall.root (e : Election) (call : ConfigCall) : Option U256 :=
  match call.setsRoot with
  | some root => e.proposal.map fun _ => root
  | none => eligibleRoot e

theorem parameters_of_config {e e' : Election} {config config' : ElectionConfig} (h : e'.config = some config')
    (hnum : config'.num_candidates = (e.config.getD config).num_candidates)
    (hdepth : config'.merkle_depth = (e.config.getD config).merkle_depth)
    (hfresh : config.num_candidates = 0 ∧ config.merkle_depth = 0)
    (hhash : e'.proposal_depth_vk_hash = e.proposal_depth_vk_hash) : parameters e' = parameters e := by
  unfold parameters election_config
  rw [h, hhash, Option.getD_some, hnum, hdepth]
  cases e.config <;> simp [hfresh]

structure ConfigPassed (C : Crypto) (s : VotingState) (e' : Election) (call : ConfigCall) : Prop where
  terms : SameTerms (s.elections call.election.1 call.election.2) e'
  root : eligibleRoot e' = call.root (s.elections call.election.1 call.election.2)
  parameters : parameters e' = call.parameters C s

theorem ConfigEffect.terms {e e' : Election} {call : ConfigCall} (h : ConfigEffect C env s e call e') :
    SameTerms e e' := by
  cases h with
  | set_merkle_root found => exact ⟨by simp [Voting.terms, found, ProposalInfo.terms], rfl, rfl⟩
  | _ => exact ⟨rfl, rfl, rfl⟩

theorem ConfigEffect.root {e e' : Election} {call : ConfigCall} (h : ConfigEffect C env s e call e') :
    eligibleRoot e' = call.root e := by
  cases h with
  | set_merkle_root found => simp [eligibleRoot, ConfigCall.root, ConfigCall.setsRoot, found]
  | _ => rfl

theorem ConfigEffect.parameters {e e' : Election} {call : ConfigCall} (h : ConfigEffect C env s e call e')
    (he : e = s.elections call.election.1 call.election.2) : parameters e' = call.parameters C s := by
  subst he
  cases h with
  | set_election_config_with_depth pinned =>
    rw [pinned]
    rfl
  | set_commitment_window | set_merkle_root | finalize_candidate_seed | submit_vdf_output | finalize_with_vdf =>
    exact parameters_of_config rfl rfl rfl ⟨rfl, rfl⟩ rfl
  | _ => rfl

theorem config_passed {call : ConfigCall} (h : call.run C env s = .ok s') :
    ConfigPassed C s (s'.elections call.election.1 call.election.2) call := by
  obtain ⟨e', hr, he⟩ := config_effect h
  rw [hr.self]
  exact ⟨he.terms, he.root, he.parameters rfl⟩

/-! ## One step -/

variable {call : Call} {d q : Nat}

/-- The proposal is there, or the call makes none. -/
def Made (s : VotingState) (call : Call) (d q : Nat) : Prop :=
  (s.elections d q).proposal ≠ none ∨ ∀ c, call ≠ .create c

theorem step_other (hs : VotingOk s) (h : step C s env call = .ok s') (hmade : Made s call d q)
    (hne : call.election ≠ some (d, q)) : s'.elections d q = s.elections d q := by
  have hother {a : Nat × Nat} (ha : call.election = some a) : ¬ (d = a.1 ∧ q = a.2) := by
    rintro ⟨rfl, rfl⟩
    exact hne ha
  cases call with
  | ballot call =>
    obtain ⟨e', hb⟩ := ballot_step h
    exact hb.rewrites.of_ne (hother rfl)
  | tally call =>
    obtain ⟨e', hr, -⟩ := tally_step hs.dormant h
    exact hr.of_ne (hother rfl)
  | create call =>
    obtain ⟨id, e', p, hc⟩ := create_step h
    refine hc.election_other ?_
    rintro ⟨rfl, rfl⟩
    have hp := hmade.resolve_right fun hnot => hnot call rfl
    have hle := (hs.elections call.dao_id q).numbered hp
    have hid := hc.id_eq
    omega
  | phase call =>
    obtain ⟨e', hr, -⟩ := phase_step h
    exact hr.of_ne (hother rfl)
  | config call =>
    obtain ⟨e', hr, -⟩ := config_step h
    exact hr.of_ne (hother rfl)
  | dao call =>
    obtain ⟨d', hd⟩ := dao_step h
    rw [hd.elections]
  | inst call => rw [(instance_step h).elections]

theorem step_setup (hs : VotingOk s) (h : step C s env call = .ok s') (hmade : Made s call d q)
    (hconfig : ∀ c, call = .config c → c.election ≠ (d, q)) :
    SameSetup (s.elections d q) (s'.elections d q) := by
  by_cases hd : call.election = some (d, q)
  · cases call with
    | ballot call =>
      obtain ⟨e', p, rfl, hpassed⟩ := ballot_passed h
      have hsetup := hpassed.setup
      rwa [show call.election = (d, q) from Option.some.inj hd] at hsetup
    | tally call =>
      have hsetup := tally_setup hs.dormant h
      rwa [show call.election = (d, q) from Option.some.inj hd] at hsetup
    | phase call =>
      obtain ⟨p, p', -, -, -, hsetup⟩ := phase_setup h
      rwa [show call.election = (d, q) from Option.some.inj hd] at hsetup
    | config call => exact absurd (Option.some.inj hd) (hconfig call rfl)
    | create call => cases hd
    | dao call => cases hd
    | inst call => cases hd
  · rw [step_other hs h hmade hd]
    exact .refl _

theorem step_terms (hs : VotingOk s) (h : step C s env call = .ok s') (hmade : Made s call d q) :
    SameTerms (s.elections d q) (s'.elections d q) := by
  by_cases hd : ∃ c : ConfigCall, call = .config c ∧ c.election = (d, q)
  · obtain ⟨c, rfl, hc⟩ := hd
    have hterms := (config_passed h).terms
    rwa [hc] at hterms
  · exact (step_setup hs h hmade fun c hcall hc => hd ⟨c, hcall, hc⟩).toSameTerms

theorem step_root (hs : VotingOk s) (h : step C s env call = .ok s') (hmade : Made s call d q)
    (hroot : ∀ c : ConfigCall, call = .config c → c.election = (d, q) → c.setsRoot = none) :
    eligibleRoot (s'.elections d q) = eligibleRoot (s.elections d q) := by
  by_cases hd : ∃ c : ConfigCall, call = .config c ∧ c.election = (d, q)
  · obtain ⟨c, rfl, hc⟩ := hd
    have hpassed := (config_passed h).root
    rw [hc, ConfigCall.root, hroot c rfl hc] at hpassed
    exact hpassed
  · exact (step_setup hs h hmade fun c hcall hc => hd ⟨c, hcall, hc⟩).root

theorem SameTerms.proposal_eq_none_iff {e e' : Election} (h : SameTerms e e') :
    e'.proposal = none ↔ e.proposal = none := by
  have hterms := h.terms
  unfold Voting.terms at hterms
  rw [← Option.map_eq_none_iff (f := ProposalInfo.terms), hterms, Option.map_eq_none_iff]

theorem SameTerms.terms_eq {e e' : Election} {p' : ProposalInfo} (h : SameTerms e e') (hp : e.proposal = some p)
    (hp' : e'.proposal = some p') : p'.terms = p.terms := by
  have hterms := h.terms
  unfold Voting.terms at hterms
  rw [hp, hp'] at hterms
  exact Option.some.inj hterms

theorem phase_eq_some {e : Election} {state : ProposalState} :
    phase e = some state ↔ ∃ p, e.proposal = some p ∧ p.state = state := by
  simp [phase]

theorem set_root_step {call : ConfigCall} {root : U256} (h : call.run C env s = .ok s')
    (hset : call.setsRoot = some root) :
    ∃ p p', (s.elections call.election.1 call.election.2).proposal = some p ∧
      (s'.elections call.election.1 call.election.2).proposal = some p' ∧ p'.terms = p.terms ∧
      p'.eligible_root = root ∧ p'.state = .Registration := by
  cases call with
  | set_merkle_root d q new_root admin =>
    cases hset
    simp [ConfigCall.run, set_merkle_root] at h
    obtain ⟨-, -, -, p, hp, hstate, -, -, rfl⟩ := h
    exact ⟨p, _, hp, congrArg Election.proposal (VotingState.set_election_self ..), rfl, rfl, hstate⟩
  | _ => cases hset

theorem step_rank (hs : VotingOk s) (h : step C s env call = .ok s') (hp : (s.elections d q).proposal = some p) :
    ∃ p', (s'.elections d q).proposal = some p' ∧ p.state.rank ≤ p'.state.rank := by
  have of_phase (hphase : phase (s'.elections d q) = phase (s.elections d q)) :
      ∃ p', (s'.elections d q).proposal = some p' ∧ p.state.rank ≤ p'.state.rank := by
    obtain ⟨p', hp', hstate⟩ := phase_eq_some.mp (hphase.trans (phase_eq_some.mpr ⟨p, hp, rfl⟩))
    exact ⟨p', hp', by rw [hstate]⟩
  by_cases hd : call.election = some (d, q)
  · cases call with
    | ballot call =>
      obtain ⟨e', hb⟩ := ballot_step h
      have hself := hb.rewrites.self
      have heffect := hb.effect.phase
      rw [show call.election = (d, q) from Option.some.inj hd] at hself heffect
      exact of_phase (hself ▸ heffect)
    | tally call =>
      obtain ⟨e', hr, -, heffect⟩ := tally_step hs.dormant h
      have hself := hr.self
      rw [show call.election = (d, q) from Option.some.inj hd] at hself heffect
      rw [← hself] at heffect
      cases heffect with
      | revealed hp₀ hp' counts =>
        refine of_phase ?_
        simp [phase, hp₀, hp', counts.state]
      | submitted hp₀ hp' attested ballots total vote_mode fits active closed =>
        rw [hp, Option.some.injEq] at hp₀
        subst hp₀
        exact ⟨_, hp', by rw [active, closed]; decide⟩
      | undecided same => exact of_phase same.phase
    | phase call =>
      obtain ⟨p₀, p', hp₀, hp', hrank, -⟩ := phase_setup h
      rw [show call.election = (d, q) from Option.some.inj hd] at hp₀ hp'
      rw [hp, Option.some.injEq] at hp₀
      subst hp₀
      exact ⟨p', hp', hrank⟩
    | config call =>
      obtain ⟨e', hr, hu, -⟩ := config_step h
      have hself := hr.self
      rw [show call.election = (d, q) from Option.some.inj hd] at hself hu
      exact of_phase (hself ▸ hu.phase)
    | create call => cases hd
    | dao call => cases hd
    | inst call => cases hd
  · refine of_phase ?_
    rw [step_other hs h (.inl (by simp [hp])) hd]

theorem step_created (hs : VotingOk s) (h : step C s env call = .ok s') (d q : Nat) :
    SameTerms (s.elections d q) (s'.elections d q) ∧ (Made s call d q ∨ s'.elections d q = s.elections d q) ∨
      ∃ c, call = .create c ∧ c.dao_id = d ∧ c.create C env s = .ok (q, s') ∧
        (s.elections d q).proposal = none := by
  by_cases hcreate : ∀ c, call ≠ .create c
  · exact .inl ⟨step_terms hs h (.inr hcreate), .inl (.inr hcreate)⟩
  push Not at hcreate
  obtain ⟨c, rfl⟩ := hcreate
  simp only [step, CreateCall.run, bind_eq_ok, pure_eq_ok] at h
  obtain ⟨⟨id, s'⟩, hc, rfl⟩ := h
  obtain ⟨e', p, hstep, -⟩ := create_created hc
  by_cases hdq : d = c.dao_id ∧ q = id
  · obtain ⟨rfl, rfl⟩ := hdq
    refine .inr ⟨c, rfl, rfl, hc, ?_⟩
    by_contra hsome
    have hle := (hs.elections c.dao_id q).numbered hsome
    have hid := hstep.id_eq
    omega
  · rw [hstep.election_other hdq]
    exact .inl ⟨.refl _, .inr rfl⟩

theorem step_made (hs : VotingOk s) (h : step C s env call = .ok s') (hnone : (s.elections d q).proposal = none)
    (hsome : (s'.elections d q).proposal ≠ none) :
    ∃ c e' p, call = .create c ∧ c.dao_id = d ∧ CreateStep env s s' d c.creator q e' p := by
  rcases step_created hs h d q with ⟨hsame, -⟩ | ⟨c, rfl, rfl, hcreate, -⟩
  · exact absurd (hsame.proposal_eq_none_iff.mpr hnone) hsome
  · obtain ⟨e', p, hstep, -⟩ := create_created hcreate
    exact ⟨c, e', p, rfl, rfl, hstep⟩

end

theorem sameTerms_of_run {C : Crypto} {registry guardian : Address}
    {log after : List (VotingState × VotingEnv × Call)} {s s' : VotingState} {d q : Nat}
    (hrun : VotingRun C registry guardian log s) (hafter : Run (Accepts C) s after s')
    (hp : (s.elections d q).proposal ≠ none) : SameTerms (s.elections d q) (s'.elections d q) := by
  refine Run.invariant_log (P := fun _ s' => SameTerms (s.elections d q) (s'.elections d q)) (.refl _)
    (fun after s₁ call s₂ hr hsame (hs : Accepts C s₁ call s₂) => ?_) hafter
  have hreach : VotingRun C registry guardian (after ++ log) s₁ := Run.append hrun hr
  have hmade : Made s₁ call.2 d q := .inl fun hnone => hp (hsame.proposal_eq_none_iff.mp hnone)
  exact hsame.trans (step_terms hreach.ok hs hmade)

/-- Proposals are numbered from 1 on. -/
theorem VotingRun.proposal_zero {C : Crypto} {registry guardian : Address}
    {log : List (VotingState × VotingEnv × Call)} {s : VotingState} (hrun : VotingRun C registry guardian log s)
    (d : Nat) : (s.elections d 0).proposal = none := by
  refine Run.invariant_log (P := fun _ s => (s.elections d 0).proposal = none) rfl
    (fun log s call s' hr hnone (hs : Accepts C s call s') => ?_) hrun
  by_contra hsome
  obtain ⟨c, e', p, -, -, hc⟩ := step_made (VotingRun.ok hr) hs hnone hsome
  have hid := hc.id_eq
  omega

end ZkVote.Voting
