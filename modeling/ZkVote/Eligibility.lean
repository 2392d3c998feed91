import ZkVote.Deployment
import ZkVote.Tree.Evictions
import ZkVote.Voting.Terms

/-!
# The root of a proposal

A Fixed proposal says three times under which root it is voted on: its root, the
snapshot root, and the index that the root has in the tree.
-/

open Lib Lib.Outcome

namespace ZkVote.Deployment

/-- The three agree. -/
structure OneRoot (t : Tree.MembershipTree) (dao_id : Nat) (p : Voting.ProposalInfo) : Prop where
  snapshot : p.eligible_root = p.eligibility_snapshot_root
  index : (t.daos dao_id).root_index p.eligible_root = some p.earliest_root_index

/-- What the check of the other ballots lets through, the two checks of a weighted ballot let through. -/
def RootShared (d : Deployment) (dao_id : Nat) (p : Voting.ProposalInfo) : Prop :=
  ∀ (env : Voting.VotingEnv) ctx root,
    Voting.assert_root_eligible { env with tree := d.tree } ctx dao_id p root = .ok () →
      root = p.eligible_root ∧ root = p.eligibility_snapshot_root

/-- The fields of every Fixed proposal agree, so that its entry points agree on a root. -/
def Coherent (d : Deployment) : Prop :=
  ∀ dao_id proposal_id p, (d.voting.elections dao_id proposal_id).proposal = some p → p.vote_mode = .Fixed →
    OneRoot d.tree dao_id p ∧ RootShared d dao_id p

/-- The call names the root of the current epoch as the snapshot, and that root is the current one or as late. -/
def EpochCurrent (t : Tree.MembershipTree) (call : Voting.CreateCall) : Prop :=
  ∃ root, Tree.epoch_root t call.dao_id (Tree.current_epoch t call.dao_id) = .ok root ∧
    call.snapshotRoot = some root ∧ Tree.root_idx t call.dao_id root = Tree.curr_idx t call.dao_id

/-- A call that writes one of the three without the others. -/
def Separates (C : Voting.Crypto) (d : Deployment) : Call → Prop
  | .tree _ call => ∃ dao_id proposal_id p, (d.voting.elections dao_id proposal_id).proposal = some p ∧
      p.vote_mode = .Fixed ∧ (Tree.Evicts C.toHashes d.tree call dao_id p.eligible_root ∨
        Tree.Reindexes C.toHashes d.tree call dao_id p.eligible_root p.earliest_root_index)
  | .voting _ (.create call) => call.isEncrypted = true ∧ call.vote_mode = .Fixed ∧ ¬ EpochCurrent d.tree call
  | .voting _ (.config call) => ∃ root p, call.setsRoot = some root ∧
      (d.voting.elections call.election.1 call.election.2).proposal = some p ∧ p.vote_mode = .Fixed ∧
        root ≠ p.eligible_root
  | _ => False

section
variable {C : Voting.Crypto} {sbt registry guardian : Address} {d d' : Deployment}
  {log : List (Deployment × Call)} {s s' : Voting.VotingState} {dao_id proposal_id : Nat}
  {p p' : Voting.ProposalInfo} {env : Voting.VotingEnv} {call : Voting.Call}

theorem OneRoot.shared (h : OneRoot d.tree dao_id p) (hmode : p.vote_mode = .Fixed) : RootShared d dao_id p := by
  intro env ctx root hroot
  simp only [Voting.assert_root_eligible, hmode, bind_eq_ok, require_eq_ok] at hroot
  obtain ⟨-, heligible, -⟩ := hroot
  exact ⟨heligible, heligible.trans h.snapshot⟩

theorem coherent_iff : Coherent d ↔ ∀ dao_id proposal_id p,
    (d.voting.elections dao_id proposal_id).proposal = some p → p.vote_mode = .Fixed → OneRoot d.tree dao_id p :=
  ⟨fun h q n p hp hmode => (h q n p hp hmode).1,
    fun h q n p hp hmode => ⟨h q n p hp hmode, (h q n p hp hmode).shared hmode⟩⟩

/-! ## Steps of the tree -/

theorem tree_coherent_iff {env : Tree.TreeEnv} {call : Tree.Call} (hok : Tree.TreeOk C.toHashes d.tree)
    (hcoherent : Coherent d) (h : Accepts C d (.tree env call) d') :
    Coherent d' ↔ ¬ Separates C d (.tree env call) := by
  obtain ⟨t, ht, rfl⟩ := accepts_tree.mp h
  rw [coherent_iff]
  constructor
  · rintro hafter ⟨q, n, p, hp, hmode, hlost⟩
    have hindex := (hcoherent q n p hp hmode).1.index
    obtain ⟨hevicts, hreindexes⟩ := (Tree.step_index_eq_iff hok ht hindex).mp (hafter q n p hp hmode).index
    exact hlost.elim hevicts hreindexes
  · intro hnone q n p hp hmode
    have hbefore := (hcoherent q n p hp hmode).1
    refine ⟨hbefore.snapshot, (Tree.step_index_eq_iff hok ht hbefore.index).mpr ⟨?_, ?_⟩⟩
    · exact fun hevicts => hnone ⟨q, n, p, hp, hmode, .inl hevicts⟩
    · exact fun hreindexes => hnone ⟨q, n, p, hp, hmode, .inr hreindexes⟩

/-! ## Steps of the voting contract -/

theorem oneRoot_of_step (hs : Voting.VotingOk d.voting) (hcoherent : Coherent d)
    (h : Voting.step C d.voting { env with tree := d.tree } call = .ok s')
    (hmade : Voting.Made d.voting call dao_id proposal_id)
    (hroot : ∀ c : Voting.ConfigCall, call = .config c → c.election = (dao_id, proposal_id) → c.setsRoot = none)
    (hp' : (s'.elections dao_id proposal_id).proposal = some p') (hmode : p'.vote_mode = .Fixed) :
    OneRoot d.tree dao_id p' := by
  have hsame := Voting.step_terms hs h hmade
  cases hp : (d.voting.elections dao_id proposal_id).proposal with
  | none =>
    rw [hsame.proposal_eq_none_iff.mpr hp] at hp'
    cases hp'
  | some p =>
    have hterms := hsame.terms_eq hp hp'
    have hvote_mode : p'.vote_mode = p.vote_mode := (congrArg Voting.ProposalInfo.vote_mode hterms :)
    have hsnapshot : p'.eligibility_snapshot_root = p.eligibility_snapshot_root :=
      (congrArg Voting.ProposalInfo.eligibility_snapshot_root hterms :)
    have hearliest : p'.earliest_root_index = p.earliest_root_index :=
      (congrArg Voting.ProposalInfo.earliest_root_index hterms :)
    have heligible := Voting.step_root hs h hmade hroot
    simp only [Voting.eligibleRoot, hp, hp', Option.map_some, Option.some.injEq] at heligible
    have hbefore := (hcoherent _ _ p hp (hvote_mode ▸ hmode)).1
    refine ⟨?_, ?_⟩
    · rw [heligible, hsnapshot, hbefore.snapshot]
    · rw [heligible, hearliest, hbefore.index]

theorem created_oneRoot_iff {call : Voting.CreateCall} {e e' : Voting.Election}
    (h : Voting.Created C { env with tree := d.tree } s call e e' p) (hmode : p.vote_mode = .Fixed) :
    OneRoot d.tree call.dao_id p ↔ (call.isEncrypted = true → EpochCurrent d.tree call) := by
  have hroot := h.root
  have hindexed := h.indexed
  have hsnapshot := h.snapshot
  rw [h.vote_mode] at hmode
  unfold Voting.CreateCall.root at hroot
  cases hencrypted : call.isEncrypted with
  | true =>
    rw [if_pos hencrypted] at hroot
    obtain ⟨named, hnamed⟩ : ∃ named, call.snapshotRoot = some named := by
      cases call <;> first | exact ⟨_, rfl⟩ | cases hencrypted
    rw [hnamed, Option.getD_some] at hsnapshot
    constructor
    · intro hone _
      refine ⟨p.eligible_root, hroot, ?_, ?_⟩
      · rw [hnamed, ← hsnapshot, hone.snapshot]
      · rw [hindexed, Tree.root_idx, hone.index]
        rfl
    · intro hepoch
      obtain ⟨root, hcurrent, hsame, hindex⟩ := hepoch rfl
      obtain rfl : p.eligible_root = root := Except.ok.inj (hroot.symm.trans hcurrent)
      rw [hnamed, Option.some.injEq] at hsame
      rw [hindexed, Tree.root_idx, orPanic_eq_ok] at hindex
      exact ⟨hsame.symm.trans hsnapshot.symm, hindex⟩
  | false =>
    rw [hencrypted, if_neg (by simp)] at hroot
    have hplain : call.snapshotRoot = none := by
      cases call with
      | create_encrypted_proposal => cases hencrypted
      | create_qv_proposal => cases hmode
      | _ => rfl
    rw [hplain, Option.getD_none] at hsnapshot
    simp only [Tree.curr_idx, bind_eq_ok, Tree.root_idx, orPanic_eq_ok] at hindexed
    obtain ⟨root, hcurrent, hindex⟩ := hindexed
    obtain rfl : p.eligible_root = root := Except.ok.inj (hroot.symm.trans hcurrent)
    exact iff_of_true ⟨hsnapshot.symm, hindex⟩ (by simp)

theorem create_coherent_iff {call : Voting.CreateCall} (hcoherent : Coherent d)
    (h : Voting.step C d.voting { env with tree := d.tree } (.create call) = .ok s') :
    Coherent { d with voting := s' } ↔ ¬ Separates C d (.voting env (.create call)) := by
  simp only [Voting.step, Voting.CreateCall.run, bind_eq_ok, pure_eq_ok] at h
  obtain ⟨⟨id, s₁⟩, hcreate, rfl⟩ := h
  obtain ⟨e', p, hc, hcreated⟩ := Voting.create_created hcreate
  have hp : (s₁.elections call.dao_id id).proposal = some p := by rw [hc.election, hc.proposal]
  rw [coherent_iff]
  constructor
  · rintro hafter ⟨hencrypted, hmode, hepoch⟩
    have hfixed : p.vote_mode = .Fixed := hcreated.vote_mode.trans hmode
    exact hepoch ((created_oneRoot_iff hcreated hfixed).mp (hafter _ _ p hp hfixed) hencrypted)
  · intro hnone q n p' hp' hmode
    by_cases hq : q = call.dao_id ∧ n = id
    · obtain ⟨rfl, rfl⟩ := hq
      rw [hp, Option.some.injEq] at hp'
      subst hp'
      refine (created_oneRoot_iff hcreated hmode).mpr fun hencrypted => ?_
      by_contra hepoch
      exact hnone ⟨hencrypted, hcreated.vote_mode.symm.trans hmode, hepoch⟩
    · rw [show s₁.elections q n = d.voting.elections q n from hc.election_other hq] at hp'
      exact (hcoherent q n p' hp' hmode).1

theorem config_coherent_iff {call : Voting.ConfigCall} (hs : Voting.VotingOk d.voting) (hcoherent : Coherent d)
    (h : Voting.step C d.voting { env with tree := d.tree } (.config call) = .ok s') :
    Coherent { d with voting := s' } ↔ ¬ Separates C d (.voting env (.config call)) := by
  rw [coherent_iff]
  constructor
  · rintro hafter ⟨root, p, hset, hp, hmode, hother⟩
    obtain ⟨p₀, p', hp₀, hp', hterms, hroot, -⟩ := Voting.set_root_step h hset
    obtain rfl : p = p₀ := Option.some.inj (hp.symm.trans hp₀)
    have hvote_mode : p'.vote_mode = p.vote_mode := (congrArg Voting.ProposalInfo.vote_mode hterms :)
    have hsnapshot : p'.eligibility_snapshot_root = p.eligibility_snapshot_root :=
      (congrArg Voting.ProposalInfo.eligibility_snapshot_root hterms :)
    have hone := hafter _ _ p' hp' (hvote_mode.trans hmode)
    have hbefore := (hcoherent _ _ p hp hmode).1
    exact hother (by rw [← hroot, hone.snapshot, hsnapshot, hbefore.snapshot])
  · intro hnone q n p' hp' hmode
    have hmade : Voting.Made d.voting (.config call) q n := .inr (by simp)
    by_cases hset : call.election = (q, n) ∧ ∃ root, call.setsRoot = some root
    · obtain ⟨hq, root, hset⟩ := hset
      obtain ⟨p, p₁, hp, hp₁, hterms, rfl, -⟩ := Voting.set_root_step h hset
      rw [hq] at hp hp₁
      obtain rfl : p' = p₁ := Option.some.inj (hp'.symm.trans hp₁)
      have hvote_mode : p'.vote_mode = p.vote_mode := (congrArg Voting.ProposalInfo.vote_mode hterms :)
      have hsnapshot : p'.eligibility_snapshot_root = p.eligibility_snapshot_root :=
        (congrArg Voting.ProposalInfo.eligibility_snapshot_root hterms :)
      have hearliest : p'.earliest_root_index = p.earliest_root_index :=
        (congrArg Voting.ProposalInfo.earliest_root_index hterms :)
      have hfixed : p.vote_mode = .Fixed := hvote_mode.symm.trans hmode
      have hbefore := (hcoherent q n p hp hfixed).1
      have hsame : p'.eligible_root = p.eligible_root := by
        by_contra hother
        exact hnone ⟨_, p, hset, by rw [hq]; exact hp, hfixed, hother⟩
      refine ⟨?_, ?_⟩
      · rw [hsame, hsnapshot, hbefore.snapshot]
      · rw [hsame, hearliest, hbefore.index]
    · refine oneRoot_of_step (d := d) hs hcoherent h hmade (fun c hc hq => ?_) hp' hmode
      cases hc
      by_contra hsome
      exact hset ⟨hq, Option.ne_none_iff_exists'.mp hsome⟩

theorem voting_coherent_iff (hs : Voting.VotingOk d.voting) (hcoherent : Coherent d)
    (h : Accepts C d (.voting env call) d') : Coherent d' ↔ ¬ Separates C d (.voting env call) := by
  obtain ⟨s', hstep, rfl⟩ := accepts_voting.mp h
  cases call with
  | create call => exact create_coherent_iff hcoherent hstep
  | config call => exact config_coherent_iff hs hcoherent hstep
  | _ =>
    refine iff_of_true (coherent_iff.mpr fun q n p' hp' hmode => ?_) id
    exact oneRoot_of_step (d := d) hs hcoherent hstep (.inr (by simp)) (by simp) hp' hmode

/-- In every run of the two contracts, the three fields of every Fixed proposal agree in every state passed, if and
only if no accepted call writes one of them without the others. -/
theorem coherent_roots_iff (hrun : DeploymentRun C sbt registry guardian log d) :
    (∀ d' ∈ Run.states log d, Coherent d') ↔ ∀ e ∈ log, ¬ Separates C e.1 e.2 := by
  refine Run.forall_states_iff_of_step (C := fun d call => ¬ Separates C d call) ?_
    (fun log d call d' hr hcoherent (h : Accepts C d call d') => ?_) hrun
  · intro q n p hp
    cases hp
  · obtain ⟨tlog, htree⟩ := DeploymentRun.tree hr
    obtain ⟨vlog, hvoting⟩ := DeploymentRun.voting hr
    cases call with
    | tree env call => exact tree_coherent_iff htree.ok hcoherent h
    | voting env call => exact voting_coherent_iff hvoting.ok hcoherent h

end

/-! ## A root set in registration -/

/-- The root of a tree of two leaves over both members. -/
def secondRoot : U256 :=
  Tree.merkleRoot Tree.sampleHashes "BN254" 1 fun i => if i = 0 then 7 else if i = 1 then 10 else Tree.zero_value

/-- A Fixed proposal in registration under the root of one member, then a second member. -/
def lateMemberCalls : List Call :=
  [.tree sampleEnv (.init_tree 0 1 "BN254" 0), .tree sampleEnv (.register_from_registry 0 7 1),
    .voting Voting.sampleEnv (.dao (.set_vk_from_registry 0 (Voting.sampleVk 7))),
    .voting Voting.sampleEnv (.create (.create_proposal_in_registration 0 [] [] 0 1 .Fixed)),
    .tree sampleEnv (.register_from_registry 0 10 2)]

theorem coherent_roots_iff_for_two_members : ∃ log d, DeploymentRun Voting.sampleCrypto 0 0 0 log d ∧
    ((∀ d' ∈ Run.states log d, Coherent d') ↔ ∀ e ∈ log, ¬ Separates Voting.sampleCrypto e.1 e.2) := by
  obtain ⟨log, d, hrun, -⟩ := exists_run (C := Voting.sampleCrypto) (b := 0) (r := 0) (g := 0)
    lateMemberCalls (fun _ _ => true) (by decide +kernel)
  exact ⟨log, d, hrun, coherent_roots_iff hrun⟩

def takesSecondRoot (d : Deployment) : Bool := (d.voting.elections 0 1).proposal.any fun p =>
  decide (p.vote_mode = .Fixed ∧ p.state = .Active ∧ p.eligible_root ≠ p.eligibility_snapshot_root) &&
    (Voting.assert_root_eligible { Voting.sampleEnv with tree := d.tree } .Anonymous 0 p secondRoot).isOk

/-- The root is set to that of both members. Then `vote` takes that root, and a weighted ballot takes none. -/
theorem set_root_closes_weighted : ∃ log d, DeploymentRun Voting.sampleCrypto 0 0 0 log d ∧
    (¬ ∀ d' ∈ Run.states log d, Coherent d') ∧
    ∃ p, (d.voting.elections 0 1).proposal = some p ∧ p.vote_mode = .Fixed ∧ p.state = .Active ∧
      Voting.assert_root_eligible { Voting.sampleEnv with tree := d.tree } .Anonymous 0 p secondRoot = .ok () ∧
      ∀ root, ¬ (root = p.eligible_root ∧ root = p.eligibility_snapshot_root) := by
  obtain ⟨log, d, hrun, htest⟩ := exists_run (C := Voting.sampleCrypto) (b := 0) (r := 0) (g := 0)
    (lateMemberCalls ++ [.voting Voting.sampleEnv (.config (.set_merkle_root 0 1 secondRoot 0)),
      .voting Voting.sampleEnv (.phase (.activate_proposal 0 1 1))])
    (fun _ d => takesSecondRoot d) (by decide +kernel)
  simp only [takesSecondRoot, Option.any_eq_true, Bool.and_eq_true, decide_eq_true_eq, isOk_iff] at htest
  obtain ⟨p, hp, ⟨hmode, hactive, hne⟩, ⟨⟩, hroot⟩ := htest
  refine ⟨log, d, hrun, fun hcoherent => ?_, p, hp, hmode, hactive, hroot, fun root hboth => ?_⟩
  · exact hne (hcoherent d (List.mem_cons_self ..) 0 1 p hp hmode).1.snapshot
  · exact hne (hboth.1.symm.trans hboth.2)

end ZkVote.Deployment
