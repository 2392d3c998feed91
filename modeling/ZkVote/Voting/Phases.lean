import ZkVote.Voting.Finality

/-!
# The voting contract: the phases of a schedule

Votes are committed up to the deadline and revealed from the opening on, both
instants included. The two phases of a schedule meet when the instants are one.
-/

open Lib Lib.Outcome

namespace ZkVote.Voting

/-- Some vote can be committed at the time. -/
def CanCommit (C : Crypto) (s : VotingState) (dao_id proposal_id t : Nat) : Prop :=
  ∃ env n root commitment proof s', env.timestamp = t ∧
    commit_vote C env s dao_id proposal_id n root commitment proof = .ok s'

/-- Some vote can be revealed at the time. -/
def CanReveal (C : Crypto) (s : VotingState) (dao_id proposal_id t : Nat) : Prop :=
  ∃ env n vote_choice blinding s', env.timestamp = t ∧
    reveal_vote C env s dao_id proposal_id n vote_choice blinding = .ok s'

/-- A schedule that `set_commit_reveal` accepts. -/
def Acceptable (cfg : CommitRevealConfig) : Prop :=
  ∃ env s d q admin s', set_commit_reveal env s d q cfg.commit_deadline cfg.reveal_opens_at cfg.reveal_closes_at
    cfg.require_vdf admin = .ok s'

/-- In no run is there an instant at which votes can be committed and revealed for a proposal with the
schedule, in the same state or in different ones. -/
def PhasesApart (cfg : CommitRevealConfig) : Prop :=
  ∀ (C : Crypto) (registry guardian : Address) (log : List (VotingState × VotingEnv × Call)) (s : VotingState),
    VotingRun C registry guardian log s → ∀ d q t, ∀ s₁ ∈ Run.states log s, ∀ s₂ ∈ Run.states log s,
      (s₁.elections d q).commit_reveal = some cfg → (s₂.elections d q).commit_reveal = some cfg →
        ¬ (CanCommit C s₁ d q t ∧ CanReveal C s₂ d q t)

section
variable {C : Crypto} {s s' : VotingState} {d q t : Nat} {cfg : CommitRevealConfig} {n : U256}

theorem Acceptable.ordered (h : Acceptable cfg) : cfg.commit_deadline ≤ cfg.reveal_opens_at ∧
    (cfg.reveal_closes_at ≠ 0 → cfg.reveal_opens_at < cfg.reveal_closes_at) := by
  obtain ⟨env, s, d, q, admin, s', h⟩ := h
  simp [set_commit_reveal] at h
  obtain ⟨-, -, -, hopens, hcloses, -⟩ := h
  exact ⟨hopens, hcloses⟩

theorem CanCommit.le_deadline (h : CanCommit C s d q t) (hcfg : (s.elections d q).commit_reveal = some cfg) :
    t ≤ cfg.commit_deadline := by
  obtain ⟨env, n, root, commitment, proof, s', rfl, h⟩ := h
  simp [commit_vote] at h
  obtain ⟨-, -, -, -, -, cfg', hcfg', hle, -⟩ := h
  obtain rfl : cfg = cfg' := Option.some.inj (hcfg.symm.trans hcfg')
  exact hle

theorem CanReveal.opens_le (h : CanReveal C s d q t) (hcfg : (s.elections d q).commit_reveal = some cfg) :
    cfg.reveal_opens_at ≤ t := by
  obtain ⟨env, n, choice, blinding, s', rfl, h⟩ := h
  simp [reveal_vote] at h
  obtain ⟨-, -, -, -, cfg', hcfg', hle, -⟩ := h
  obtain rfl : cfg = cfg' := Option.some.inj (hcfg.symm.trans hcfg')
  exact hle

theorem phasesApart_of_lt (h : cfg.commit_deadline < cfg.reveal_opens_at) : PhasesApart cfg := by
  intro C registry guardian log s _ d q t s₁ _ s₂ _ h₁ h₂
  rintro ⟨hcommit, hreveal⟩
  have hle := hcommit.le_deadline h₁
  have hge := hreveal.opens_le h₂
  omega

end

/-! ## A schedule whose phases meet

For any of them there is a run: a delay that has elapsed, the schedule, and one vote committed at its deadline.
-/

/-- The election is open for commitments, under the schedule if there is one. -/
structure Staged (s : VotingState) (cfg : Option CommitRevealConfig) (vdf_finalized : Bool) : Prop where
  unpaused : s.inst.paused = false
  unlocked : s.inst.reentrancy_lock = false
  registry : s.inst.registry = 0
  key : (s.daos 0).keys.commit_voting_key ≠ none
  schedule : (s.elections 0 1).commit_reveal = cfg
  proposal : ∃ p, (s.elections 0 1).proposal = some p ∧ p.state = .Active ∧ p.vote_mode = .Fixed ∧
    p.eligible_root = Tree.sampleRoot ∧ p.yes_votes = 0
  vdf : (s.elections 0 1).vdf_finalized = vdf_finalized

/-- The nullifier has not been used in the election. -/
structure Unspent (s : VotingState) (n : U256) : Prop where
  persistent : (s.elections 0 1).ballots.nullifier n = false
  temporary : (s.elections 0 1).ballots.nullifier_temporary n = false
  commit : (s.elections 0 1).ballots.vote_commit n = none
  revealed : (s.elections 0 1).ballots.vote_revealed n = false

theorem sampleRoot_lt : Tree.sampleRoot < BN254_FR_MODULUS := by decide

theorem sampleRoot_eligible : Tree.root_eligibility Tree.sampleTree 0 Tree.sampleRoot 0 = 0 := by decide

theorem compute_vdf_sample (x : BytesN 32) (n : Nat) : Vdf.compute_vdf sampleCrypto.toHashes x n = x := by
  induction n with
  | zero => rfl
  | succ n ih =>
    rw [Vdf.compute_vdf, ih]
    apply Vector.ext
    intro i hi
    simp [sampleCrypto, Tree.sampleHashes]

section
variable {s s' : VotingState} {cfg : CommitRevealConfig} {vdf_finalized : Bool} {t : Nat} {n : U256}

theorem Staged.submits {x : BytesN 32} (h : Staged s none false) (hdelay : (s.elections 0 1).vdf_delay = some 1000)
    (hinput : (s.elections 0 1).vdf_input = some x) :
    ∃ s', step sampleCrypto s (sampleEnvAt 1000) (.config (.submit_vdf_output 0 1 x [] 0)) = .ok s' ∧
      Staged s' none true ∧ (s'.elections 0 1).ballots = (s.elections 0 1).ballots := by
  have hok : ∃ s', step sampleCrypto s (sampleEnvAt 1000) (.config (.submit_vdf_output 0 1 x [] 0)) = .ok s' := by
    simp [step, ConfigCall.run, submit_vdf_output, h.vdf, hdelay, hinput, Vdf.verify_vdf, compute_vdf_sample]
    exact ⟨.inl h.unpaused, by decide⟩
  obtain ⟨s', hs⟩ := hok
  refine ⟨s', hs, ?_⟩
  simp [step, ConfigCall.run, submit_vdf_output] at hs
  obtain ⟨-, -, delay, -, -, input, -, -, rfl⟩ := hs
  refine ⟨⟨rfl, h.unlocked, h.registry, h.key, ?_, ?_, ?_⟩, ?_⟩
  · simpa using h.schedule
  · simpa using h.proposal
  · simp
  · simp

theorem Staged.schedules (h : Staged s none vdf_finalized) (hcfg : Acceptable cfg)
    (hzero : (s.elections 0 1).ballots.vote_commit_count = 0) :
    ∃ s', step sampleCrypto s (sampleEnvAt t) (.config (.set_commit_reveal 0 1 cfg.commit_deadline
        cfg.reveal_opens_at cfg.reveal_closes_at cfg.require_vdf 0)) = .ok s' ∧
      Staged s' (some cfg) vdf_finalized ∧ (s'.elections 0 1).ballots = (s.elections 0 1).ballots := by
  obtain ⟨hopens, hcloses⟩ := hcfg.ordered
  have hok : ∃ s', step sampleCrypto s (sampleEnvAt t) (.config (.set_commit_reveal 0 1 cfg.commit_deadline
      cfg.reveal_opens_at cfg.reveal_closes_at cfg.require_vdf 0)) = .ok s' := by
    simp [step, ConfigCall.run, set_commit_reveal, hzero]
    exact ⟨.inl h.unpaused, rfl, rfl, hopens, hcloses⟩
  obtain ⟨s', hs⟩ := hok
  refine ⟨s', hs, ?_⟩
  simp [step, ConfigCall.run, set_commit_reveal] at hs
  obtain ⟨-, -, -, -, -, -, rfl⟩ := hs
  refine ⟨⟨rfl, h.unlocked, h.registry, h.key, ?_, ?_, ?_⟩, ?_⟩
  · simp
  · simpa using h.proposal
  · simpa using h.vdf
  · simp

theorem Staged.commits (h : Staged s (some cfg) vdf_finalized) (ht : t ≤ cfg.commit_deadline)
    (hn : n < BN254_FR_MODULUS) (hne : n ≠ 0) (hfresh : Unspent s n)
    (hcount : (s.elections 0 1).ballots.vote_commit_count ≤ 1) (c : BytesN 32) :
    ∃ s', commit_vote sampleCrypto (sampleEnvAt t) s 0 1 n Tree.sampleRoot c sampleProof = .ok s' := by
  obtain ⟨p, hp, hactive, hfixed, hroot, -⟩ := h.proposal
  obtain ⟨vk, hvk⟩ := Option.ne_none_iff_exists'.mp h.key
  simp [commit_vote, hp, hvk, h.schedule, hne, hfresh.persistent, hfresh.temporary, hfresh.commit]
  exact ⟨.inl h.unpaused, h.unlocked, hn, sampleRoot_lt, ht, hactive,
    ⟨sampleRoot_eligible, .inl ⟨hfixed, hroot.symm⟩⟩, rfl, by omega⟩

theorem Staged.after_commit {env : VotingEnv} {root : U256} {c : BytesN 32} {proof : Proof}
    (h : Staged s (some cfg) vdf_finalized)
    (hcommit : commit_vote sampleCrypto env s 0 1 n root c proof = .ok s') :
    Staged s' (some cfg) vdf_finalized ∧ (s'.elections 0 1).ballots.vote_commit n = some c ∧
      (s'.elections 0 1).ballots.vote_revealed = (s.elections 0 1).ballots.vote_revealed ∧
      (s'.elections 0 1).ballots.vote_commit_count = (s.elections 0 1).ballots.vote_commit_count + 1 ∧
      ∀ m, m ≠ n → Unspent s m → Unspent s' m := by
  simp [commit_vote] at hcommit
  obtain ⟨-, -, -, -, -, -, -, -, p, -, -, -, -, -, vk, -, -, -, rfl⟩ := hcommit
  refine ⟨⟨rfl, rfl, h.registry, h.key, ?_, ?_, ?_⟩, ?_, ?_, ?_, ?_⟩
  · simpa using h.schedule
  · simpa using h.proposal
  · simpa using h.vdf
  · simp
  · simp
  · simp
  · rintro m hm ⟨hpersistent, htemporary, hcommit, hrevealed⟩
    exact ⟨by simpa [hm], by simpa, by simpa [hm], by simpa⟩

theorem Staged.reveals (h : Staged s (some cfg) true) (ht : cfg.reveal_opens_at ≤ t)
    (hcloses : cfg.reveal_closes_at ≠ 0 → t ≤ cfg.reveal_closes_at) (hn : n < BN254_FR_MODULUS)
    (hfresh : (s.elections 0 1).ballots.vote_revealed n = false)
    (hcommit : (s.elections 0 1).ballots.vote_commit n =
      some (compute_vote_commitment sampleCrypto 0 1 n true sampleBlinding)) :
    ∃ s', reveal_vote sampleCrypto (sampleEnvAt t) s 0 1 n true sampleBlinding = .ok s' := by
  obtain ⟨p, hp, -, -, -, hyes⟩ := h.proposal
  simp [reveal_vote, hp, h.schedule, hfresh, hcommit, h.vdf]
  exact ⟨.inl h.unpaused, h.unlocked, hn, by decide, ht, hcloses, by simp [HasRoom, hyes]⟩

end

/-- A key, a key for commitments, an election, and a delay for it. -/
def delayedElection : List Call :=
  [.dao (.set_vk_from_registry 0 (sampleVk 7)), .dao (.set_commit_vk 0 (sampleVk 5) 0),
    .create (.create_proposal 0 [] [] 0 1 .Fixed), .config (.set_vdf_delay 0 1 1000 0)]

def unspentIn (s : VotingState) (n : U256) : Bool :=
  decide ((s.elections 0 1).ballots.nullifier n = false ∧ (s.elections 0 1).ballots.nullifier_temporary n = false ∧
    (s.elections 0 1).ballots.vote_commit n = none ∧ (s.elections 0 1).ballots.vote_revealed n = false)

/-- An open election, delayed, in which nobody has voted. -/
def stagedIn (s : VotingState) : Bool :=
  match (s.elections 0 1).proposal, (s.elections 0 1).vdf_input with
  | some p, some _ => decide (s.inst.paused = false ∧ s.inst.reentrancy_lock = false ∧ s.inst.registry = 0 ∧
      (s.daos 0).keys.commit_voting_key ≠ none ∧ (s.elections 0 1).commit_reveal = none ∧
      (p.state = .Active ∧ p.vote_mode = .Fixed ∧ p.eligible_root = Tree.sampleRoot ∧ p.yes_votes = 0) ∧
      (s.elections 0 1).vdf_finalized = false ∧ (s.elections 0 1).vdf_delay = some 1000 ∧
      (s.elections 0 1).ballots.vote_commit_count = 0 ∧ unspentIn s 3 = true ∧ unspentIn s 4 = true)
  | _, _ => false

theorem unspent_of_unspentIn {n : U256} (hn : unspentIn s n = true) : Unspent s n := by
  obtain ⟨hpersistent, htemporary, hcommit, hrevealed⟩ := of_decide_eq_true hn
  exact ⟨hpersistent, htemporary, hcommit, hrevealed⟩

theorem exists_staged : ∃ log s x, VotingRun sampleCrypto 0 0 log s ∧ Staged s none false ∧
    (s.elections 0 1).vdf_delay = some 1000 ∧ (s.elections 0 1).vdf_input = some x ∧
    (s.elections 0 1).ballots.vote_commit_count = 0 ∧ Unspent s 3 ∧ Unspent s 4 := by
  obtain ⟨log, s, hrun, htest⟩ := exists_run (C := sampleCrypto) (r := 0) (g := 0) delayedElection
    (fun _ s => stagedIn s) (by decide)
  unfold stagedIn at htest
  split at htest
  · rename_i p x hp hx
    obtain ⟨hunpaused, hunlocked, hregistry, hkey, hschedule, hproposal, hvdf, hdelay, hzero, h3, h4⟩ :=
      of_decide_eq_true htest
    exact ⟨log, s, x, hrun, ⟨hunpaused, hunlocked, hregistry, hkey, hschedule, ⟨p, hp, hproposal⟩, hvdf⟩, hdelay, hx,
      hzero, unspent_of_unspentIn h3, unspent_of_unspentIn h4⟩
  · cases htest

/-- At the common instant the vote committed under nullifier 3 is revealed while nullifier 4 still commits. -/
theorem Acceptable.overlap {cfg : CommitRevealConfig} (h : Acceptable cfg)
    (htie : cfg.commit_deadline = cfg.reveal_opens_at) : ¬ PhasesApart cfg := by
  obtain ⟨-, hcloses⟩ := h.ordered
  obtain ⟨log, s₀, x, hrun, hstaged, hdelay, hinput, hzero, h3, h4⟩ := exists_staged
  obtain ⟨s₁, hs₁, hstaged₁, hballots₁⟩ := hstaged.submits hdelay hinput
  obtain ⟨s₂, hs₂, hstaged₂, hballots₂⟩ :=
    hstaged₁.schedules (t := cfg.commit_deadline) h (by rw [hballots₁, hzero])
  have hballots : (s₂.elections 0 1).ballots = (s₀.elections 0 1).ballots := hballots₂.trans hballots₁
  have unspent {n : U256} (hn : Unspent s₀ n) : Unspent s₂ n := by
    obtain ⟨hpersistent, htemporary, hcommit, hrevealed⟩ := hn
    exact ⟨by rwa [hballots], by rwa [hballots], by rwa [hballots], by rwa [hballots]⟩
  let c := compute_vote_commitment sampleCrypto 0 1 3 true sampleBlinding
  obtain ⟨s₃, hs₃⟩ := hstaged₂.commits le_rfl (by decide) (by decide) (unspent h3) (by rw [hballots, hzero]; simp) c
  obtain ⟨hstaged₃, hcommit, hrevealed, hcount, hother⟩ := hstaged₂.after_commit hs₃
  have haccepted : step sampleCrypto s₂ (sampleEnvAt cfg.commit_deadline)
    (.ballot (.commit_vote 0 1 3 Tree.sampleRoot c sampleProof)) = .ok s₃ := hs₃
  have hrun₃ := ((hrun.step hs₁).step hs₂).step haccepted
  obtain ⟨s₄, hs₄⟩ := hstaged₃.commits le_rfl (n := 4) (by decide) (by decide) (hother 4 (by decide) (unspent h4))
    (by rw [hcount, hballots, hzero]) c
  obtain ⟨s₅, hs₅⟩ := hstaged₃.reveals (t := cfg.commit_deadline) htie.ge
    (fun hne => htie.le.trans (hcloses hne).le) (by decide) (by rw [hrevealed]; exact (unspent h3).revealed) hcommit
  intro hapart
  exact hapart _ _ _ _ s₃ hrun₃ 0 1 cfg.commit_deadline s₃ (List.mem_cons_self ..) s₃ (List.mem_cons_self ..)
    hstaged₃.schedule hstaged₃.schedule
    ⟨⟨_, _, _, _, _, s₄, rfl, hs₄⟩, ⟨_, _, _, _, s₅, rfl, hs₅⟩⟩

/-- A schedule that is accepted keeps its phases apart if and only if its reveals open after the deadline. -/
theorem phases_apart_iff {cfg : CommitRevealConfig} (h : Acceptable cfg) :
    PhasesApart cfg ↔ cfg.commit_deadline < cfg.reveal_opens_at := by
  refine ⟨fun hapart => ?_, phasesApart_of_lt⟩
  obtain ⟨hle, -⟩ := h.ordered
  by_contra hnot
  exact h.overlap (by omega) hapart

/-- The reveals open at the deadline. -/
def meetingSchedule : CommitRevealConfig where
  commit_deadline := 10
  reveal_opens_at := 10
  reveal_closes_at := 0
  require_vdf := false

theorem meetingSchedule_acceptable : Acceptable meetingSchedule := by
  have hok : (set_commit_reveal sampleEnv (constructor 0 0) 0 1 10 10 0 false 0).isOk = true := by decide
  obtain ⟨s', hs⟩ := isOk_iff.mp hok
  exact ⟨sampleEnv, constructor 0 0, 0, 1, 0, s', hs⟩

theorem phases_apart_iff_for_a_meeting_schedule : Acceptable meetingSchedule ∧
    (PhasesApart meetingSchedule ↔ meetingSchedule.commit_deadline < meetingSchedule.reveal_opens_at) :=
  ⟨meetingSchedule_acceptable, phases_apart_iff meetingSchedule_acceptable⟩

/-- `set_commit_reveal` accepts it, and its phases meet. -/
theorem meeting_schedule_overlaps : Acceptable meetingSchedule ∧ ¬ PhasesApart meetingSchedule :=
  ⟨meetingSchedule_acceptable, meetingSchedule_acceptable.overlap rfl⟩

end ZkVote.Voting
