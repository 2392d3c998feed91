import ZkVote.Voting.Footprints

/-!
# The voting contract: the output of the delay function

The delay and the input are set by the admin, at any time. The output is stored once, by anyone, who says
when the proposal was created.
-/

open Lib Lib.Outcome

namespace ZkVote.Voting

def creationTime (e : Election) : Option Nat := e.proposal.map ProposalInfo.created_at

def Call.SubmitsVdf (dao_id proposal_id : Nat) : Call → Prop
  | .config (.submit_vdf_output d q _ _ _) => d = dao_id ∧ q = proposal_id
  | _ => False

/-- The input that `set_vdf_delay` stores. -/
def vdf_input (C : Crypto) (dao_id proposal_id : Nat) (admin : Address) : BytesN 32 :=
  Vdf.derive_vdf_input C.toHashes dao_id proposal_id zero_block_hash (C.sha256 (C.address_xdr admin))

/-- An output was submitted that long after the time. -/
def SubmittedAfter (dao_id proposal_id : Nat) (log : List (VotingState × VotingEnv × Call)) (created delay : Nat) : Prop :=
  ∃ e ∈ log, e.2.2.SubmitsVdf dao_id proposal_id ∧ created + delay ≤ e.2.1.timestamp

/-- A final output is that of the stored delay and input, and was submitted when the delay had passed since the
creation of the proposal. -/
def VdfCoherent (C : Crypto) (dao_id proposal_id : Nat) (log : List (VotingState × VotingEnv × Call))
    (s : VotingState) : Prop :=
  (s.elections dao_id proposal_id).vdf_finalized = true →
    ∃ delay input, (s.elections dao_id proposal_id).vdf_delay = some delay ∧
      (s.elections dao_id proposal_id).vdf_input = some input ∧
      (s.elections dao_id proposal_id).vdf_output = some (Vdf.compute_vdf C.toHashes input delay) ∧
      ∀ created, creationTime (s.elections dao_id proposal_id) = some created →
        SubmittedAfter dao_id proposal_id log created delay

/-- An output comes when the delay has passed, and neither a delay nor the proposal itself comes after it that does
not fit it. -/
structure KeepsVdf (C : Crypto) (dao_id proposal_id : Nat) (m : VotingMoment) : Prop where
  submitted : m.call.2.SubmitsVdf dao_id proposal_id →
    ∀ created delay, creationTime (m.pre.elections dao_id proposal_id) = some created →
      (m.pre.elections dao_id proposal_id).vdf_delay = some delay → created + delay ≤ m.call.1.timestamp
  delayed : ∀ delay admin, m.call.2 = .config (.set_vdf_delay dao_id proposal_id delay admin) →
    (m.pre.elections dao_id proposal_id).vdf_finalized = true →
      (m.pre.elections dao_id proposal_id).vdf_output =
          some (Vdf.compute_vdf C.toHashes (vdf_input C dao_id proposal_id admin) delay) ∧
        ∀ created, creationTime (m.pre.elections dao_id proposal_id) = some created →
          SubmittedAfter dao_id proposal_id m.past created delay
  created : (m.pre.elections dao_id proposal_id).proposal = none →
    (m.post.elections dao_id proposal_id).proposal ≠ none →
      (m.pre.elections dao_id proposal_id).vdf_finalized = true →
        ∀ delay, (m.pre.elections dao_id proposal_id).vdf_delay = some delay →
          SubmittedAfter dao_id proposal_id m.past m.call.1.timestamp delay

section
variable {C : Crypto} {env : VotingEnv} {s s' : VotingState} {call : Call} {d q : Nat} {e e' : Election}
  {log : List (VotingState × VotingEnv × Call)}

theorem creationTime_eq (e : Election) : creationTime e = (terms e).map ProposalInfo.created_at := by
  rw [creationTime, terms, Option.map_map]
  rfl

theorem SameTerms.creationTime (h : SameTerms e e') : creationTime e' = creationTime e := by
  rw [creationTime_eq, creationTime_eq, h.terms]

theorem set_vdf_delay_eq_ok {delay : Nat} {admin : Address} (h : set_vdf_delay C env s d q delay admin = .ok s') :
    s'.elections d q = { s.elections d q with vdf_delay := some delay, vdf_input := some (vdf_input C d q admin) } := by
  simp [set_vdf_delay] at h
  obtain ⟨-, -, -, -, rfl⟩ := h
  exact VotingState.set_election_self ..

theorem submit_vdf_output_eq_ok {output : BytesN 32} {checkpoints : List (BytesN 32)} {time : Nat}
    (h : submit_vdf_output C env s d q output checkpoints time = .ok s') :
    ∃ delay input, (s.elections d q).vdf_finalized = false ∧ (s.elections d q).vdf_delay = some delay ∧
      (s.elections d q).vdf_input = some input ∧ Vdf.compute_vdf C.toHashes input delay = output ∧
      (s'.elections d q).proposal = (s.elections d q).proposal ∧ (s'.elections d q).vdf_delay = some delay ∧
      (s'.elections d q).vdf_input = some input ∧ (s'.elections d q).vdf_output = some output ∧
      (s'.elections d q).vdf_finalized = true := by
  simp [submit_vdf_output] at h
  obtain ⟨-, hfresh, delay, hdelay, -, input, hinput, hverify, rfl⟩ := h
  rw [VotingState.set_election_self]
  exact ⟨delay, input, hfresh, hdelay, hinput, Vdf.compute_vdf_of_verify_vdf hverify, rfl, hdelay, hinput, rfl, rfl⟩

theorem Call.submitsVdf_iff : call.SubmitsVdf d q ↔
    ∃ output checkpoints time, call = .config (.submit_vdf_output d q output checkpoints time) := by
  constructor
  · intro h
    unfold Call.SubmitsVdf at h
    split at h
    · next output checkpoints time =>
      obtain ⟨rfl, rfl⟩ := h
      exact ⟨output, checkpoints, time, rfl⟩
    · exact h.elim
  · rintro ⟨output, checkpoints, time, rfl⟩
    exact ⟨rfl, rfl⟩

theorem writes_vdf (h : call.writes .vdf = true) :
    (∃ d q, call.SubmitsVdf d q) ∨ ∃ d q delay admin, call = .config (.set_vdf_delay d q delay admin) := by
  cases call with
  | config call =>
    cases call with
    | submit_vdf_output d q => exact .inl ⟨d, q, rfl, rfl⟩
    | set_vdf_delay d q delay admin => exact .inr ⟨d, q, delay, admin, rfl⟩
    | _ => cases h
  | ballot call => cases call <;> cases h
  | tally call => cases call <;> cases h
  | create call => cases h
  | phase call => cases h
  | dao call => cases h
  | inst call => cases h

/-- Two calls write what is stored about the delay function. -/
theorem vdf_unchanged (hs : VotingOk s) (h : step C s env call = .ok s') (hsubmits : ¬ call.SubmitsVdf d q)
    (hdelays : ∀ delay admin, call ≠ .config (.set_vdf_delay d q delay admin)) :
    SamePart (s.elections d q) (s'.elections d q) .vdf := by
  have of_config {c : ConfigCall} (h : step C s env (.config c) = .ok s') (hne : ¬ (d = c.election.1 ∧ q = c.election.2)) :
      SamePart (s.elections d q) (s'.elections d q) .vdf := by
    obtain ⟨e', hr, -⟩ := config_step h
    rw [hr.of_ne hne]
    exact .refl _ _
  by_cases hwrites : call.writes .vdf = true
  · rcases writes_vdf hwrites with ⟨d', q', hsubmits'⟩ | ⟨d', q', delay, admin, rfl⟩
    · obtain ⟨output, checkpoints, time, rfl⟩ := Call.submitsVdf_iff.mp hsubmits'
      refine of_config h ?_
      rintro ⟨rfl, rfl⟩
      exact hsubmits ⟨rfl, rfl⟩
    · refine of_config h ?_
      rintro ⟨rfl, rfl⟩
      exact hdelays delay admin rfl
  · exact step_samePart hs h (Bool.eq_false_iff.mpr hwrites) d q

theorem create_created_at {call : CreateCall} {id : Nat} (h : call.create C env s = .ok (id, s')) :
    creationTime (s'.elections call.dao_id id) = some env.timestamp := by
  cases call with
  | create_proposal | create_proposal_with_vk_version =>
    simp [CreateCall.create, create_proposal, create_proposal_with_vk_version, create_proposal_with_version,
      next_proposal_id] at h
    obtain ⟨-, -, -, -, -, version, -, -, hash, -, root, -, index, -, -, rfl, rfl⟩ := h
    exact congrArg creationTime (VotingState.set_election_self ..)
  | create_proposal_in_registration =>
    simp only [CreateCall.create, create_proposal_in_registration, bind_eq_ok, expect_eq_ok, pure_eq_ok,
      Prod.mk.injEq] at h
    obtain ⟨⟨_, s₁⟩, hcreate, p, hp, rfl, rfl⟩ := h
    simp [create_proposal_with_version, next_proposal_id] at hcreate
    obtain ⟨-, -, -, -, -, version, -, -, hash, -, root, -, index, -, -, rfl, rfl⟩ := hcreate
    dsimp only at hp ⊢
    rw [VotingState.set_election_self, Option.some.injEq] at hp
    subst hp
    exact congrArg creationTime (VotingState.set_election_self ..)
  | create_encrypted_proposal =>
    simp [CreateCall.create, create_encrypted_proposal, next_proposal_id] at h
    obtain ⟨-, -, -, -, -, version, -, vk, -, -, -, root, -, index, -, -, rfl, rfl⟩ := h
    exact congrArg creationTime (VotingState.set_election_self ..)
  | create_qv_proposal =>
    simp [CreateCall.create, create_qv_proposal, next_proposal_id] at h
    obtain ⟨-, -, -, -, version, -, -, vk, -, root, -, index, -, -, rfl, rfl⟩ := h
    exact congrArg creationTime (VotingState.set_election_self ..)

/-- Where an output was submitted, it is final. -/
theorem VotingRun.submitted {registry guardian : Address} (hrun : VotingRun C registry guardian log s)
    (hlog : ∃ e ∈ log, e.2.2.SubmitsVdf d q) : (s.elections d q).vdf_finalized = true := by
  refine Run.invariant_log (P := fun log s => (∃ e ∈ log, e.2.2.SubmitsVdf d q) →
    (s.elections d q).vdf_finalized = true) (by simp) (fun log s call s' hr ih hs hlog => ?_) hrun hlog
  obtain ⟨env, call⟩ := call
  obtain ⟨e, he, hsubmits⟩ := hlog
  by_cases hcall : call.SubmitsVdf d q
  · obtain ⟨output, checkpoints, time, rfl⟩ := Call.submitsVdf_iff.mp hcall
    obtain ⟨delay, input, -, -, -, -, -, -, -, -, hfinal⟩ := submit_vdf_output_eq_ok hs
    exact hfinal
  · have hbefore : (s.elections d q).vdf_finalized = true := by
      rcases List.mem_cons.mp he with rfl | he
      · exact absurd hsubmits hcall
      · exact ih ⟨e, he, hsubmits⟩
    by_cases hdelays : ∃ delay admin, call = .config (.set_vdf_delay d q delay admin)
    · obtain ⟨delay, admin, rfl⟩ := hdelays
      rw [set_vdf_delay_eq_ok hs]
      exact hbefore
    · push Not at hdelays
      have hsame := vdf_unchanged (VotingRun.ok hr) hs hcall hdelays
      simp only [SamePart, Prod.mk.injEq] at hsame
      rw [hsame.2.2.2, hbefore]

theorem submittedAfter_cons {created delay : Nat} :
    SubmittedAfter d q ((s, env, call) :: log) created delay ↔
      (call.SubmitsVdf d q ∧ created + delay ≤ env.timestamp) ∨ SubmittedAfter d q log created delay := by
  simp only [SubmittedAfter, List.mem_cons, or_and_right, exists_or, exists_eq_left]

theorem delay_coherent_iff {delay : Nat} {admin : Address}
    (h : step C s env (.config (.set_vdf_delay d q delay admin)) = .ok s') :
    VdfCoherent C d q ((s, env, .config (.set_vdf_delay d q delay admin)) :: log) s' ↔
      KeepsVdf C d q ⟨log, s, (env, .config (.set_vdf_delay d q delay admin)), s'⟩ := by
  have helection := set_vdf_delay_eq_ok h
  have hafter (created delay₁ : Nat) :
      SubmittedAfter d q ((s, env, .config (.set_vdf_delay d q delay admin)) :: log) created delay₁ ↔
        SubmittedAfter d q log created delay₁ := by
    rw [submittedAfter_cons]
    exact or_iff_right fun hsubmits => hsubmits.1
  constructor
  · intro hcoherent'
    refine ⟨fun hsubmits => hsubmits.elim, fun delay₁ admin₁ hcall hfinal => ?_, fun hpre hpost => ?_⟩
    · obtain ⟨rfl, rfl⟩ : delay = delay₁ ∧ admin = admin₁ := by simpa using hcall
      obtain ⟨delay₂, input₂, hdelay₂, hinput₂, houtput₂, htime⟩ := hcoherent' (by rw [helection]; exact hfinal)
      rw [helection] at hdelay₂ hinput₂ houtput₂ htime
      obtain rfl : delay = delay₂ := Option.some.inj hdelay₂
      obtain rfl : vdf_input C d q admin = input₂ := Option.some.inj hinput₂
      exact ⟨houtput₂, fun created hcreation => (hafter _ _).mp (htime created hcreation)⟩
    · rw [helection] at hpost
      exact absurd hpre hpost
  · intro hkeeps hfinal
    rw [helection] at hfinal
    obtain ⟨houtput, htime⟩ := hkeeps.delayed delay admin rfl hfinal
    rw [helection]
    exact ⟨delay, _, rfl, rfl, houtput, fun created hcreation => (hafter _ _).mpr (htime created hcreation)⟩

section
variable {registry guardian : Address} (hrun : VotingRun C registry guardian log s)
include hrun

/-- An output is the first one, so the times of the others do not count. -/
theorem submit_coherent_iff (h : step C s env call = .ok s') (hcall : call.SubmitsVdf d q) :
    VdfCoherent C d q ((s, env, call) :: log) s' ↔ KeepsVdf C d q ⟨log, s, (env, call), s'⟩ := by
  obtain ⟨output, checkpoints, time, rfl⟩ := Call.submitsVdf_iff.mp hcall
  obtain ⟨delay, input, hfresh, hdelay, hinput, rfl, hp, hdelay', hinput', houtput', hfinal⟩ := submit_vdf_output_eq_ok h
  have hnone (created delay : Nat) : ¬ SubmittedAfter d q log created delay := by
    rintro ⟨e, he, hsubmits, -⟩
    rw [hrun.submitted ⟨e, he, hsubmits⟩] at hfresh
    cases hfresh
  have hcreated : creationTime (s'.elections d q) = creationTime (s.elections d q) := by
    rw [creationTime, creationTime, hp]
  constructor
  · intro hcoherent
    obtain ⟨delay₁, input₁, hdelay₁, -, -, htime⟩ := hcoherent hfinal
    refine ⟨fun _ created delay₂ hcreation hdelay₂ => ?_, fun _ _ hne => (nomatch hne), fun hpre hpost => ?_⟩
    · obtain rfl : delay₁ = delay₂ := Option.some.inj (hdelay₁.symm.trans (hdelay'.trans (hdelay.symm.trans hdelay₂)))
      rcases submittedAfter_cons.mp (htime created (hcreated.trans hcreation)) with ⟨-, hle⟩ | hbefore
      · exact hle
      · exact absurd hbefore (hnone _ _)
    · exact absurd (hp.trans hpre) hpost
  · intro hkeeps _
    refine ⟨delay, input, hdelay', hinput', houtput', fun created hcreation => submittedAfter_cons.mpr (.inl ⟨hcall, ?_⟩)⟩
    exact hkeeps.submitted hcall created delay (hcreated.symm.trans hcreation) hdelay

theorem vdfCoherent_step_iff (hcoherent : VdfCoherent C d q log s) (h : step C s env call = .ok s') :
    VdfCoherent C d q ((s, env, call) :: log) s' ↔ KeepsVdf C d q ⟨log, s, (env, call), s'⟩ := by
  by_cases hsubmits : call.SubmitsVdf d q
  · exact submit_coherent_iff hrun h hsubmits
  by_cases hdelays : ∃ delay admin, call = .config (.set_vdf_delay d q delay admin)
  · obtain ⟨delay, admin, rfl⟩ := hdelays
    exact delay_coherent_iff h
  push Not at hdelays
  -- What is stored about the delay function stays, so only a creation can matter.
  have hsame := vdf_unchanged hrun.ok h hsubmits hdelays
  simp only [SamePart, Prod.mk.injEq] at hsame
  obtain ⟨hdelay, hinput, houtput, hfinal⟩ := hsame
  have hafter (created delay : Nat) :
      SubmittedAfter d q ((s, env, call) :: log) created delay ↔ SubmittedAfter d q log created delay := by
    rw [submittedAfter_cons]
    exact or_iff_right fun hcall => hsubmits hcall.1
  rcases step_created hrun.ok h d q with ⟨hterms, -⟩ | ⟨c, rfl, rfl, hcreate, hnone⟩
  · refine iff_of_true ?_ ⟨fun hcall => absurd hcall hsubmits, fun delay admin hcall => absurd hcall (hdelays delay admin),
      fun hpre hpost => absurd (hterms.proposal_eq_none_iff.mpr hpre) hpost⟩
    simp only [VdfCoherent, hdelay, hinput, houtput, hfinal, hafter, hterms.creationTime]
    exact hcoherent
  · have hcreation : creationTime (s'.elections c.dao_id q) = some env.timestamp := create_created_at hcreate
    constructor
    · intro hcoherent'
      refine ⟨fun hcall => absurd hcall hsubmits, fun delay admin hcall => absurd hcall (hdelays delay admin),
        fun _ _ hbefore delay hdelay₁ => ?_⟩
      obtain ⟨delay₂, input, hdelay₂, -, -, htime⟩ := hcoherent' (hfinal.trans hbefore)
      obtain rfl : delay = delay₂ := Option.some.inj (hdelay₁.symm.trans (hdelay.symm.trans hdelay₂))
      exact (hafter _ _).mp (htime _ hcreation)
    · intro hkeeps hfinal'
      have hbefore := hfinal.symm.trans hfinal'
      obtain ⟨delay, input, hdelay₁, hinput₁, houtput₁, -⟩ := hcoherent hbefore
      refine ⟨delay, input, hdelay.trans hdelay₁, hinput.trans hinput₁, houtput.trans houtput₁, fun created hcreated => ?_⟩
      obtain rfl : env.timestamp = created := Option.some.inj (hcreation.symm.trans hcreated)
      have hsome : (s'.elections c.dao_id q).proposal ≠ none := by
        intro hp
        rw [creationTime, hp] at hcreation
        cases hcreation
      exact (hafter _ _).mpr (hkeeps.created hnone hsome hbefore delay hdelay₁)

end

/-- In every run and for every election, a final output is that of the stored delay and input and came when the
delay had passed since the creation, if and only if every call keeps to that. -/
theorem vdf_coherent_iff {registry guardian : Address} (hrun : VotingRun C registry guardian log s) (d q : Nat) :
    (∀ t ∈ Run.prefixes log s, VdfCoherent C d q t.1 t.2) ↔ ∀ m ∈ Run.moments log s, KeepsVdf C d q m := by
  refine Run.forall_prefixes_iff_moments (P := VdfCoherent C d q) (C := KeepsVdf C d q) (fun hfinal => absurd hfinal Bool.false_ne_true)
    (fun log s call s' hr hcoherent (hs : Accepts C s call s') => ?_) hrun
  exact vdfCoherent_step_iff hr hcoherent hs

end

/-! ## An output that comes too early -/

/-- The hash of 64 bytes is all ones, any other is all zeros. -/
def chainCrypto : Crypto where
  __ := sampleCrypto
  sha256 := fun bytes => if bytes.length = 64 then Vector.replicate 32 1 else Vector.replicate 32 0

/-- An election of time 1500 with delay 1000, and its output. -/
def vdfElection (submitted_at : Nat) : List (VotingEnv × Call) :=
  (openElection 0 ++ [Call.config (.set_vdf_delay 0 1 1000 0)]).map (fun c => (sampleEnvAt 1500, c)) ++
    [(sampleEnvAt submitted_at, .config (.submit_vdf_output 0 1 (Vector.replicate 32 0)
      (List.replicate 99 (Vector.replicate 32 0)) 0))]

theorem vdf_coherent_iff_for_one_output : ∃ log s, VotingRun chainCrypto 0 0 log s ∧
    ((∀ t ∈ Run.prefixes log s, VdfCoherent chainCrypto 0 1 t.1 t.2) ↔
      ∀ m ∈ Run.moments log s, KeepsVdf chainCrypto 0 1 m) ∧ (s.elections 0 1).vdf_finalized = true := by
  obtain ⟨log, s, hrun, htest⟩ := exists_run_at (C := chainCrypto) (r := 0) (g := 0) (vdfElection 2500)
    (fun _ s => (s.elections 0 1).vdf_finalized) (by decide +kernel)
  exact ⟨log, s, hrun, vdf_coherent_iff hrun 0 1, htest⟩

/-- The output of an election of time 1500 with delay 1000 is submitted at time 2000. -/
theorem output_before_delay : ∃ log s, VotingRun chainCrypto 0 0 log s ∧
    (s.elections 0 1).vdf_delay = some 1000 ∧ creationTime (s.elections 0 1) = some 1500 ∧
    ¬ ∀ t ∈ Run.prefixes log s, VdfCoherent chainCrypto 0 1 t.1 t.2 := by
  obtain ⟨log, s, hrun, htest⟩ := exists_run_at (C := chainCrypto) (r := 0) (g := 0) (vdfElection 2000)
    (fun log s => decide ((s.elections 0 1).vdf_finalized = true ∧ (s.elections 0 1).vdf_delay = some 1000 ∧
      creationTime (s.elections 0 1) = some 1500 ∧ ∀ e ∈ log, e.2.1.timestamp ≤ 2000)) (by decide +kernel)
  obtain ⟨hfinal, hdelay, hcreated, hlog⟩ := of_decide_eq_true htest
  refine ⟨log, s, hrun, hdelay, hcreated, fun hall => ?_⟩
  obtain ⟨delay, -, hdelay', -, -, htime⟩ := hall _ (Run.past_mem_prefixes log s) hfinal
  obtain rfl : 1000 = delay := Option.some.inj (hdelay.symm.trans hdelay')
  obtain ⟨e, he, -, hlate⟩ := htime 1500 hcreated
  exact absurd (hlate.trans (hlog e he)) (by decide)

end ZkVote.Voting
