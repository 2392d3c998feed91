import ZkVote.Deployment
import ZkVote.Tree.Evictions
import ZkVote.Voting.Terms

/-!
# Pinned roots

The tree asks before it evicts a root, and the voting contract answers for its
active proposals. A proposal in registration is not one of them yet.
-/

open Lib Lib.Outcome

namespace ZkVote.Deployment

/-- The proposal is voted on under one root, and not closed yet. -/
def Pins (p : Voting.ProposalInfo) : Prop :=
  p.vote_mode = .Fixed ∧ (p.state = .Registration ∨ p.state = .Active)

/-- The root has no index in the tree of the DAO. -/
def Unindexed (d : Deployment) (dao_id : Nat) (root : U256) : Prop :=
  (d.tree.daos dao_id).root_index root = none

/-- A tree that knows the voting contract has an index for the root of every such proposal. -/
def PinnedSafe (d : Deployment) : Prop :=
  d.tree.voting ≠ none → ∀ dao_id proposal_id p, (d.voting.elections dao_id proposal_id).proposal = some p →
    Pins p → ¬ Unindexed d dao_id p.eligible_root

/-- A call that leaves such a proposal with a root that has no index. -/
def Unpins (C : Voting.Crypto) (d : Deployment) : Call → Prop
  | .tree _ (.set_voting_contract ..) => ∃ dao_id proposal_id p,
      (d.voting.elections dao_id proposal_id).proposal = some p ∧ Pins p ∧ Unindexed d dao_id p.eligible_root
  | .tree _ call => d.tree.voting ≠ none ∧ ∃ dao_id proposal_id p,
      (d.voting.elections dao_id proposal_id).proposal = some p ∧ p.vote_mode = .Fixed ∧
        p.state = .Registration ∧ Tree.Evicts C.toHashes d.tree call dao_id p.eligible_root
  | .voting _ (.create call) => d.tree.voting ≠ none ∧ call.isEncrypted = true ∧ call.vote_mode = .Fixed ∧
      ∀ root, Tree.epoch_root d.tree call.dao_id (Tree.current_epoch d.tree call.dao_id) = .ok root →
        Unindexed d call.dao_id root
  | .voting _ (.config call) => d.tree.voting ≠ none ∧ ∃ root p, call.setsRoot = some root ∧
      (d.voting.elections call.election.1 call.election.2).proposal = some p ∧ p.vote_mode = .Fixed ∧
        Unindexed d call.election.1 root
  | _ => False

section
variable {C : Voting.Crypto} {sbt registry guardian : Address} {d d' : Deployment}
  {log : List (Deployment × Call)} {s : Voting.VotingState} {dao_id proposal_id : Nat} {p : Voting.ProposalInfo}

theorem root_pin_of_active (hs : Voting.VotingOk s) (hzero : (s.elections dao_id 0).proposal = none)
    (hp : (s.elections dao_id proposal_id).proposal = some p) (hmode : p.vote_mode = .Fixed)
    (hactive : p.state = .Active) : Voting.root_pin s dao_id p.eligible_root = true := by
  have hle := (hs.elections dao_id proposal_id).numbered (by rw [hp]; simp)
  obtain ⟨id, rfl⟩ : ∃ id, proposal_id = id + 1 := by
    cases proposal_id with
    | zero => rw [hzero] at hp; cases hp
    | succ id => exact ⟨id, rfl⟩
  unfold Voting.root_pin
  rw [List.any_eq_true]
  exact ⟨id, List.mem_range.mpr hle, by simp [hp, hmode, hactive]⟩

/-! ## Steps of the tree -/

/-- With the voting contract known, an eviction takes the root of a proposal in registration only. -/
theorem evicts_registration {env : Tree.TreeEnv} {call : Tree.Call} {t : Tree.MembershipTree}
    (hs : Voting.VotingOk d.voting) (hzero : (d.voting.elections dao_id 0).proposal = none)
    (h : Tree.step C.toHashes d.tree { env with root_pin := Voting.root_pin d.voting } call = .ok t)
    (hvoting : d.tree.voting ≠ none) (hp : (d.voting.elections dao_id proposal_id).proposal = some p)
    (hpins : Pins p) (hevicts : Tree.Evicts C.toHashes d.tree call dao_id p.eligible_root) :
    p.state = .Registration := by
  obtain ⟨hmode, hregistration | hactive⟩ := hpins
  · exact hregistration
  · have hfree := Tree.step_unpinned h hvoting hevicts
    dsimp only at hfree
    rw [root_pin_of_active hs hzero hp hmode hactive] at hfree
    cases hfree

theorem unpins_tree {env : Tree.TreeEnv} {call : Tree.Call} (hcall : ∀ a b, call ≠ .set_voting_contract a b) :
    Unpins C d (.tree env call) ↔ d.tree.voting ≠ none ∧ ∃ dao_id proposal_id p,
      (d.voting.elections dao_id proposal_id).proposal = some p ∧ p.vote_mode = .Fixed ∧
        p.state = .Registration ∧ Tree.Evicts C.toHashes d.tree call dao_id p.eligible_root := by
  cases call with
  | set_voting_contract a b => exact absurd rfl (hcall a b)
  | _ => exact Iff.rfl

theorem tree_pinnedSafe_iff {env : Tree.TreeEnv} {call : Tree.Call}
    (hok : Tree.TreeOk C.toHashes d.tree) (hs : Voting.VotingOk d.voting)
    (hzero : ∀ dao_id, (d.voting.elections dao_id 0).proposal = none) (hsafe : PinnedSafe d)
    (h : Accepts C d (.tree env call) d') : PinnedSafe d' ↔ ¬ Unpins C d (.tree env call) := by
  obtain ⟨t, ht, rfl⟩ := accepts_tree.mp h
  by_cases hcall : ∃ a b, call = .set_voting_contract a b
  · obtain ⟨a, b, rfl⟩ := hcall
    simp only [Tree.step, Tree.set_voting_contract, bind_eq_ok, pure_eq_ok] at ht
    obtain ⟨_, -, _, -, rfl⟩ := ht
    constructor
    · rintro hafter ⟨q, n, p, hp, hpins, hunindexed⟩
      exact hafter (by simp) q n p hp hpins hunindexed
    · intro hnone hvoting q n p hp hpins hunindexed
      exact hnone ⟨q, n, p, hp, hpins, hunindexed⟩
  · push Not at hcall
    have hsame := Tree.step_voting ht hcall
    rw [unpins_tree hcall]
    constructor
    · rintro hafter ⟨hvoting, q, n, p, hp, hmode, hstate, hevicts⟩
      have hpins : Pins p := ⟨hmode, .inl hstate⟩
      have hindexed := hsafe hvoting q n p hp hpins
      have hkept := hafter (by rwa [hsame]) q n p hp hpins
      exact (Tree.step_index_iff hok ht hindexed).mp hkept hevicts
    · intro hnone hvoting q n p hp hpins
      rw [hsame] at hvoting
      refine (Tree.step_index_iff hok ht (hsafe hvoting q n p hp hpins)).mpr fun hevicts => ?_
      have hstate := evicts_registration hs (hzero q) ht hvoting hp hpins hevicts
      exact hnone ⟨hvoting, q, n, p, hp, hpins.1, hstate, hevicts⟩

/-! ## Steps of the voting contract -/

variable {env : Voting.VotingEnv} {call : Voting.Call} {s' : Voting.VotingState} {p' : Voting.ProposalInfo}

/-- A proposal that still pins a root pinned it before, unless its root was set. -/
theorem pins_of_step (hs : Voting.VotingOk s) (h : Voting.step C s env call = .ok s')
    (hp : (s.elections dao_id proposal_id).proposal = some p)
    (hp' : (s'.elections dao_id proposal_id).proposal = some p') (hpins : Pins p')
    (hroot : ∀ c : Voting.ConfigCall, call = .config c → c.election = (dao_id, proposal_id) → c.setsRoot = none) :
    Pins p ∧ p'.eligible_root = p.eligible_root := by
  have hmade : Voting.Made s call dao_id proposal_id := .inl (by simp [hp])
  have hmode : p'.terms.vote_mode = p.terms.vote_mode :=
    congrArg _ ((Voting.step_terms hs h hmade).terms_eq hp hp')
  have hsame := Voting.step_root hs h hmade hroot
  simp only [Voting.eligibleRoot, hp, hp', Option.map_some, Option.some.injEq] at hsame
  obtain ⟨p₁, hp₁, hrank⟩ := Voting.step_rank hs h hp
  rw [hp', Option.some.injEq] at hp₁
  subst hp₁
  obtain ⟨hfixed, hopen⟩ := hpins
  refine ⟨⟨hmode ▸ hfixed, ?_⟩, hsame⟩
  cases hstate : p.state <;> rcases hopen with hopen | hopen <;>
    simp_all [Voting.ProposalState.rank]

/-- A root read for a plain or a quadratic proposal has an index; that of an epoch may have lost it. -/
theorem created_unindexed_iff {call : Voting.CreateCall} {e e' : Voting.Election}
    (h : Voting.Created C { env with tree := d.tree } s call e e' p) :
    Unindexed d call.dao_id p.eligible_root ↔ call.isEncrypted = true ∧
      ∀ root, Tree.epoch_root d.tree call.dao_id (Tree.current_epoch d.tree call.dao_id) = .ok root →
        Unindexed d call.dao_id root := by
  have hroot := h.root
  unfold Voting.CreateCall.root at hroot
  cases hencrypted : call.isEncrypted with
  | true =>
    rw [if_pos hencrypted] at hroot
    constructor
    · intro hunindexed
      refine ⟨rfl, fun root hepoch => ?_⟩
      rw [hroot, Except.ok.injEq] at hepoch
      exact hepoch ▸ hunindexed
    · rintro ⟨-, hall⟩
      exact hall _ hroot
  | false =>
    rw [hencrypted, if_neg (by simp)] at hroot
    have hk := h.indexed
    simp only [Tree.curr_idx, bind_eq_ok, Tree.root_idx, orPanic_eq_ok] at hk
    obtain ⟨root, hcurrent, hindex⟩ := hk
    rw [hroot, Except.ok.injEq] at hcurrent
    subst hcurrent
    refine iff_of_false (fun hunindexed => ?_) (by simp)
    rw [Unindexed, hindex] at hunindexed
    cases hunindexed

theorem create_pinnedSafe_iff {call : Voting.CreateCall} (hsafe : PinnedSafe d) (hvoting : d.tree.voting ≠ none)
    (h : Voting.step C d.voting { env with tree := d.tree } (.create call) = .ok s') :
    PinnedSafe { d with voting := s' } ↔ ¬ Unpins C d (.voting env (.create call)) := by
  simp only [Voting.step, Voting.CreateCall.run, bind_eq_ok, pure_eq_ok] at h
  obtain ⟨⟨id, s₁⟩, hcreate, rfl⟩ := h
  obtain ⟨e', p, hc, hcreated⟩ := Voting.create_created hcreate
  have hp : (s₁.elections call.dao_id id).proposal = some p := by rw [hc.election, hc.proposal]
  constructor
  · rintro hafter ⟨-, hencrypted, hmode, hroots⟩
    have hstate : p.state = .Active := by
      rw [hcreated.state]
      cases call <;> simp_all [Voting.CreateCall.isEncrypted, Voting.CreateCall.state]
    exact hafter hvoting _ _ p hp ⟨hcreated.vote_mode.trans hmode, .inr hstate⟩
      ((created_unindexed_iff hcreated).mpr ⟨hencrypted, hroots⟩)
  · intro hnone _ q n p' hp' hpins hunindexed
    by_cases hq : q = call.dao_id ∧ n = id
    · obtain ⟨rfl, rfl⟩ := hq
      rw [hp, Option.some.injEq] at hp'
      subst hp'
      obtain ⟨hencrypted, hroots⟩ := (created_unindexed_iff hcreated).mp hunindexed
      exact hnone ⟨hvoting, hencrypted, hcreated.vote_mode.symm.trans hpins.1, hroots⟩
    · rw [show s₁.elections q n = d.voting.elections q n from hc.election_other hq] at hp'
      exact hsafe hvoting q n p' hp' hpins hunindexed

/-- A call that neither makes a proposal nor sets the root of this one leaves it safe. -/
theorem kept_of_step (hs : Voting.VotingOk d.voting) (hsafe : PinnedSafe d) (hvoting : d.tree.voting ≠ none)
    (h : Voting.step C d.voting { env with tree := d.tree } call = .ok s')
    (hmade : Voting.Made d.voting call dao_id proposal_id)
    (hp' : (s'.elections dao_id proposal_id).proposal = some p') (hpins : Pins p')
    (hroot : ∀ c : Voting.ConfigCall, call = .config c → c.election = (dao_id, proposal_id) → c.setsRoot = none) :
    ¬ Unindexed d dao_id p'.eligible_root := by
  have hiff := (Voting.step_terms hs h hmade).proposal_eq_none_iff
  cases hp : (d.voting.elections dao_id proposal_id).proposal with
  | none =>
    rw [hiff.mpr hp] at hp'
    cases hp'
  | some p =>
    obtain ⟨hbefore, hsame⟩ := pins_of_step hs h hp hp' hpins hroot
    rw [hsame]
    exact hsafe hvoting _ _ p hp hbefore

theorem config_pinnedSafe_iff {call : Voting.ConfigCall} (hs : Voting.VotingOk d.voting) (hsafe : PinnedSafe d)
    (hvoting : d.tree.voting ≠ none)
    (h : Voting.step C d.voting { env with tree := d.tree } (.config call) = .ok s') :
    PinnedSafe { d with voting := s' } ↔ ¬ Unpins C d (.voting env (.config call)) := by
  constructor
  · rintro hafter ⟨-, root, p, hset, hp, hmode, hunindexed⟩
    obtain ⟨p₀, p', hp₀, hp', hterms, hroot, hstate⟩ := Voting.set_root_step h hset
    rw [hp, Option.some.injEq] at hp₀
    subst hp₀
    refine hafter hvoting _ _ p' hp' ⟨?_, .inl hstate⟩ (hroot ▸ hunindexed)
    have hsame : p'.terms.vote_mode = p.terms.vote_mode := congrArg _ hterms
    exact hsame.trans hmode
  · intro hnone _ q n p' hp' hpins hunindexed
    have hmade : Voting.Made d.voting (.config call) q n := .inr (by simp)
    by_cases hset : call.election = (q, n) ∧ ∃ root, call.setsRoot = some root
    · obtain ⟨hq, root, hset⟩ := hset
      obtain ⟨p, p₁, hp, hp₁, hterms, rfl, -⟩ := Voting.set_root_step h hset
      rw [hq, hp', Option.some.injEq] at hp₁
      subst hp₁
      have hsame : p'.terms.vote_mode = p.terms.vote_mode := congrArg _ hterms
      refine hnone ⟨hvoting, _, p, hset, hp, hsame.symm.trans hpins.1, ?_⟩
      rwa [hq]
    · refine kept_of_step hs hsafe hvoting h hmade hp' hpins (fun c hc hq => ?_) hunindexed
      cases hc
      by_contra hsome
      exact hset ⟨hq, Option.ne_none_iff_exists'.mp hsome⟩

theorem voting_pinnedSafe_iff (hs : Voting.VotingOk d.voting) (hsafe : PinnedSafe d)
    (h : Accepts C d (.voting env call) d') : PinnedSafe d' ↔ ¬ Unpins C d (.voting env call) := by
  obtain ⟨s', hstep, rfl⟩ := accepts_voting.mp h
  by_cases hvoting : d.tree.voting = none
  · have hout : ¬ Unpins C d (.voting env call) := by
      cases call <;> simp [Unpins, hvoting]
    exact iff_of_true (fun hknown => absurd hvoting hknown) hout
  · cases call with
    | create call => exact create_pinnedSafe_iff hsafe hvoting hstep
    | config call => exact config_pinnedSafe_iff hs hsafe hvoting hstep
    | _ =>
      refine iff_of_true (fun _ q n p' hp' hpins hunindexed => ?_) id
      exact kept_of_step (d := d) hs hsafe hvoting hstep (.inr (by simp)) hp' hpins (by simp) hunindexed

end

/-- In every run of the two contracts, every open Fixed proposal has a root with an index in every state
passed, if and only if no accepted call unpins one. -/
theorem pinned_roots_indexed_iff (C : Voting.Crypto) {sbt registry guardian : Address}
    {log : List (Deployment × Call)} {d : Deployment} (hrun : DeploymentRun C sbt registry guardian log d) :
    (∀ d' ∈ Run.states log d, PinnedSafe d') ↔ ∀ e ∈ log, ¬ Unpins C e.1 e.2 := by
  refine Run.forall_states_iff_of_step (C := fun d call => ¬ Unpins C d call) (fun hknown => absurd rfl hknown)
    (fun log d call d' hr hsafe (h : Accepts C d call d') => ?_) hrun
  obtain ⟨tlog, htree⟩ := DeploymentRun.tree hr
  obtain ⟨vlog, hvoting⟩ := DeploymentRun.voting hr
  cases call with
  | tree env call => exact tree_pinnedSafe_iff htree.ok hvoting.ok hvoting.proposal_zero hsafe h
  | voting env call => exact voting_pinnedSafe_iff hvoting.ok hsafe h

/-! ## A root evicted before its proposal is active -/

/-- A history of ten roots, a proposal in registration under the second of them, and ten more members. -/
def registrationCalls : List Call :=
  [.tree sampleEnv (.set_voting_contract 9 0), .tree sampleEnv (.init_tree 0 4 "BN254" 0),
    .tree sampleEnv (.set_max_roots 0 10 0), .tree sampleEnv (.register_from_registry 0 7 1),
    .voting Voting.sampleEnv (.dao (.set_vk_from_registry 0 (Voting.sampleVk 7))),
    .voting Voting.sampleEnv (.create (.create_proposal_in_registration 0 [] [] 0 1 .Fixed))] ++
    (List.range 10).map fun i => .tree sampleEnv (.register_from_registry 0 (10 + i) (10 + i))

/-- The first proposal is active and Fixed, and its root has no index. -/
def activeUnindexed (d : Deployment) : Bool :=
  match (d.voting.elections 0 1).proposal with
  | some p => p.state = .Active ∧ p.vote_mode = .Fixed ∧ d.tree.voting ≠ none ∧
      (d.tree.daos 0).root_index p.eligible_root = none
  | none => false

theorem pinned_roots_indexed_iff_in_registration : ∃ log d,
    DeploymentRun Voting.sampleCrypto 0 0 0 log d ∧
    ((∀ d' ∈ Run.states log d, PinnedSafe d') ↔ ∀ e ∈ log, ¬ Unpins Voting.sampleCrypto e.1 e.2) := by
  obtain ⟨log, d, hrun, -⟩ := exists_run (C := Voting.sampleCrypto) (b := 0) (r := 0) (g := 0)
    registrationCalls (fun _ _ => true) (by decide +kernel)
  exact ⟨log, d, hrun, pinned_roots_indexed_iff Voting.sampleCrypto hrun⟩

/-- Its root is evicted during the registration, and the proposal is activated all the same. -/
theorem active_proposal_unindexed : ∃ log d, DeploymentRun Voting.sampleCrypto 0 0 0 log d ∧
    ¬ ∀ d' ∈ Run.states log d, PinnedSafe d' := by
  obtain ⟨log, d, hrun, htest⟩ := exists_run (C := Voting.sampleCrypto) (b := 0) (r := 0) (g := 0)
    (registrationCalls ++ [.voting Voting.sampleEnv (.phase (.activate_proposal 0 1 1))])
    (fun _ d => activeUnindexed d) (by decide +kernel)
  refine ⟨log, d, hrun, fun hsafe => ?_⟩
  unfold activeUnindexed at htest
  split at htest
  · rename_i p hp
    obtain ⟨hactive, hfixed, hknown, hunindexed⟩ := of_decide_eq_true htest
    exact hsafe d (List.mem_cons_self ..) hknown 0 1 p hp ⟨hfixed, .inr hactive⟩ hunindexed
  · cases htest

end ZkVote.Deployment
