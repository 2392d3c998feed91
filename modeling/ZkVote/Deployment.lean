import ZkVote.Tree.Revocation
import ZkVote.Voting.Weighted

/-!
# The tree and the voting contract together

Each asks the other: the tree whether a root is pinned by a proposal, the voting
contract whether a root is still valid.
-/

open Lib Lib.Outcome

namespace ZkVote

structure Deployment where
  tree : Tree.MembershipTree
  voting : Voting.VotingState

namespace Deployment

inductive Call where
  | tree (env : Tree.TreeEnv) (call : Tree.Call)
  | voting (env : Voting.VotingEnv) (call : Voting.Call)

/-- A call to one of the two. What it asks the other is answered by the other's storage. -/
def next (C : Voting.Crypto) (d : Deployment) : Call → Option Deployment
  | .tree env call =>
    (Tree.step C.toHashes d.tree { env with root_pin := Voting.root_pin d.voting } call).toOption.map
      fun t => { d with tree := t }
  | .voting env call =>
    (Voting.step C d.voting { env with tree := d.tree } call).toOption.map fun s => { d with voting := s }

/-- An accepted call. -/
def Accepts (C : Voting.Crypto) (d : Deployment) (call : Call) (d' : Deployment) : Prop :=
  next C d call = some d'

/-- Both contracts as they are deployed. -/
def init (C : Voting.Crypto) (sbt registry guardian : Address) : Deployment where
  tree := Tree.constructor C.toHashes sbt
  voting := Voting.constructor registry guardian

def DeploymentRun (C : Voting.Crypto) (sbt registry guardian : Address) :
    List (Deployment × Call) → Deployment → Prop :=
  Run (Accepts C) (init C sbt registry guardian)

section
variable {C : Voting.Crypto} {sbt registry guardian : Address} {d d' : Deployment}
  {log : List (Deployment × Call)} {dao_id : Nat}

theorem accepts_tree {env : Tree.TreeEnv} {call : Tree.Call} : Accepts C d (.tree env call) d' ↔
    ∃ t, Tree.step C.toHashes d.tree { env with root_pin := Voting.root_pin d.voting } call = .ok t ∧
      { d with tree := t } = d' := by
  rw [Accepts, next, Option.map_eq_some_iff]
  simp only [toOption_eq_some]

theorem accepts_voting {env : Voting.VotingEnv} {call : Voting.Call} : Accepts C d (.voting env call) d' ↔
    ∃ s, Voting.step C d.voting { env with tree := d.tree } call = .ok s ∧ { d with voting := s } = d' := by
  rw [Accepts, next, Option.map_eq_some_iff]
  simp only [toOption_eq_some]

theorem DeploymentRun.tree (hrun : DeploymentRun C sbt registry guardian log d) :
    ∃ log', Tree.TreeRun C.toHashes sbt log' d.tree := by
  refine Run.simulates Deployment.tree (fun d call d' h => ?_) hrun
  cases call with
  | tree env call =>
    obtain ⟨t, ht, rfl⟩ := accepts_tree.mp h
    exact .inr ⟨(_, call), ht⟩
  | voting env call =>
    obtain ⟨s, -, rfl⟩ := accepts_voting.mp h
    exact .inl rfl

theorem DeploymentRun.voting (hrun : DeploymentRun C sbt registry guardian log d) :
    ∃ log', Voting.VotingRun C registry guardian log' d.voting := by
  refine Run.simulates Deployment.voting (fun d call d' h => ?_) hrun
  cases call with
  | tree env call =>
    obtain ⟨t, -, rfl⟩ := accepts_tree.mp h
    exact .inl rfl
  | voting env call =>
    obtain ⟨s, hs, rfl⟩ := accepts_voting.mp h
    exact .inr ⟨(_, call), hs⟩

end

/-! ## Ballots after a removal -/

/-- No root of the ballot has an index below `m`, if the ballot is for the DAO. -/
def AboveFloor (dao_id m : Nat) (d : Deployment) : Call → Prop
  | .voting _ (.ballot call) => call.election.1 = dao_id → ∀ r ∈ call.roots, ∀ k,
      (d.tree.daos dao_id).root_index r = some k → m ≤ k
  | _ => True

/-- The proposal of a weighted ballot has no root with an index below `m`, if it is the DAO's. -/
def ProposalAboveFloor (dao_id m : Nat) (d : Deployment) : Call → Prop
  | .voting _ (.ballot call) => call.election.1 = dao_id → call.isWeighted = true → ∀ p,
      (d.voting.elections dao_id call.election.2).proposal = some p → ∀ k,
        (d.tree.daos dao_id).root_index p.eligible_root = some k → m ≤ k
  | _ => True

/-- The floor of the DAO has reached `m`, and the tree is one that a run leads to. -/
structure Raised (C : Voting.Crypto) (sbt : Address) (dao_id m : Nat) (d : Deployment) : Prop where
  reachable : ∃ log, Tree.TreeRun C.toHashes sbt log d.tree
  cleared : ∃ i, Tree.Cleared C.toHashes (d.tree.daos dao_id) i m

section
variable {C : Voting.Crypto} {sbt registry guardian : Address} {d d' : Deployment}
  {log : List (Deployment × Call)} {dao_id m : Nat} {env : Tree.TreeEnv} {member admin : Address}

theorem Raised.floor_le (h : Raised C sbt dao_id m d) : m ≤ Tree.min_root d.tree dao_id := by
  obtain ⟨i, hcleared⟩ := h.cleared
  obtain ⟨k, hk, hle⟩ := hcleared.floor
  rwa [Tree.min_root, hk, Option.getD_some]

theorem Raised.step {call : Call} (h : Raised C sbt dao_id m d) (hs : Accepts C d call d') :
    Raised C sbt dao_id m d' := by
  obtain ⟨⟨log, hrun⟩, i, hcleared⟩ := h
  cases call with
  | tree env call =>
    obtain ⟨t, ht, rfl⟩ := accepts_tree.mp hs
    exact ⟨⟨_, .call (i := (_, call)) hrun ht⟩, i, ((Tree.step_ok hrun.ok ht).daos dao_id).cleared hcleared⟩
  | voting env call =>
    obtain ⟨s, -, rfl⟩ := accepts_voting.mp hs
    exact ⟨⟨log, hrun⟩, i, hcleared⟩

theorem raised_of_removal (hrun : DeploymentRun C sbt registry guardian log d)
    (hremove : Accepts C d (.tree env (.remove_member dao_id member admin)) d') :
    Raised C sbt dao_id (Tree.min_root d'.tree dao_id) d' := by
  obtain ⟨tlog, htree⟩ := hrun.tree
  obtain ⟨t, ht, rfl⟩ := accepts_tree.mp hremove
  obtain ⟨-, -, members, index, hlt, k, hremoved⟩ :=
    Tree.remove_member_ok htree.ok.cache (htree.ok.daos dao_id) ht
  have hfloor : Tree.min_root t dao_id = k := by
    rw [Tree.min_root, hremoved.min_valid_root_idx, Option.getD_some]
  refine ⟨⟨_, .call (i := (_, Tree.Call.remove_member dao_id member admin)) htree ht⟩, index, ?_⟩
  rw [hfloor]
  exact hremoved.cleared (htree.indexBelow dao_id)

/-- The roots that the tree's own check lets through are above the floor; what is left is the root of a
weighted ballot, which is the proposal's. -/
theorem Raised.aboveFloor_iff {call : Call} (h : Raised C sbt dao_id m d) (hs : Accepts C d call d') :
    AboveFloor dao_id m d call ↔ ProposalAboveFloor dao_id m d call := by
  cases call with
  | tree env call => exact Iff.rfl
  | voting env call =>
    obtain ⟨s, hvoting, -⟩ := accepts_voting.mp hs
    cases call with
    | ballot call =>
      obtain ⟨e', hballot⟩ := Voting.ballot_step hvoting
      refine forall_congr' fun hdao => ?_
      constructor
      · intro habove hweighted p hp k hk
        obtain ⟨r, hr⟩ : ∃ r, r ∈ call.roots := by
          cases call <;> simp [Voting.BallotCall.isWeighted] at hweighted ⊢
        obtain ⟨p', hp', rfl⟩ := Voting.weighted_root hvoting hweighted hr
        rw [hdao, hp, Option.some.injEq] at hp'
        exact habove _ hr k (hp' ▸ hk)
      · intro habove r hr k hk
        rcases hballot.roots r hr with heligible | ⟨hweighted, p, hp, rfl⟩
        · obtain ⟨k', hk', -, hle⟩ := Tree.root_eligibility_eq_zero.mp heligible
          rw [hdao] at hk' hle
          rw [hk, Option.some.injEq] at hk'
          exact h.floor_le.trans (hk' ▸ hle)
        · rw [hdao] at hp
          exact habove hweighted p hp k hk
    | _ => exact Iff.rfl

/-- After a removal that has raised the floor to `m`, no ballot of the DAO is recorded under a root with a
lower index, if and only if no weighted ballot is recorded in an election whose own root has one. -/
theorem ballots_above_floor_iff {d₀ d₁ : Deployment} {after : List (Deployment × Call)}
    (hrun : DeploymentRun C sbt registry guardian log d₀)
    (hremove : Accepts C d₀ (.tree env (.remove_member dao_id member admin)) d₁)
    (hafter : Run (Accepts C) d₁ after d) :
    (∀ e ∈ after, AboveFloor dao_id (Tree.min_root d₁.tree dao_id) e.1 e.2) ↔
      ∀ e ∈ after, ProposalAboveFloor dao_id (Tree.min_root d₁.tree dao_id) e.1 e.2 := by
  refine forall₂_congr fun e he => ?_
  obtain ⟨before, rest, d', -, hbefore, hs, -⟩ := Run.split hafter he
  have hraised : Raised C sbt dao_id (Tree.min_root d₁.tree dao_id) e.1 :=
    Run.invariant (raised_of_removal hrun hremove) (fun _ _ _ => Raised.step) hbefore
  exact hraised.aboveFloor_iff hs

end

/-! ## A removed member's root -/

def sampleEnv : Tree.TreeEnv := { Tree.sampleEnv with timestamp := 10, sequence := 1 }

/-- A tree with one member, and a weighted election under its root. -/
def sampleCalls : List Call :=
  [.tree sampleEnv (.set_voting_contract 9 0), .tree sampleEnv (.init_tree 0 1 "BN254" 0),
    .tree sampleEnv (.register_from_registry 0 7 1)] ++
    Voting.weightedElection.map (Call.voting Voting.sampleEnv)

def removal : Call := .tree sampleEnv (.remove_member 0 1 0)

def ballot : Call := .voting Voting.sampleEnv (Voting.sampleWeighted 3 true).call

theorem exists_run {C : Voting.Crypto} {b r g : Address} (calls : List Call)
    (test : List (Deployment × Call) → Deployment → Bool)
    (h : (Run.replay (next C) calls [] (init C b r g)).any (fun e => test e.1 e.2) = true) :
    ∃ log d, DeploymentRun C b r g log d ∧ test log d = true :=
  Run.exists_of_replay (fun _ _ _ h => h) h

def ballotAfterRemoval (d₀ : Deployment) : Bool :=
  (next Voting.madeCrypto d₀ removal).any fun d₁ => (next Voting.madeCrypto d₁ ballot).any fun _ =>
    decide ((d₁.tree.daos 0).root_index Tree.sampleRoot = some 0 ∧ Tree.min_root d₁.tree 0 = 1)

/-- The removal gives out index 1. A ballot under the root with index 0 is still accepted. -/
theorem ballot_after_removal : ∃ before d₀ d₁ d₂, DeploymentRun Voting.madeCrypto 0 0 0 before d₀ ∧
    Accepts Voting.madeCrypto d₀ removal d₁ ∧ Accepts Voting.madeCrypto d₁ ballot d₂ ∧
      (d₁.tree.daos 0).root_index Tree.sampleRoot = some 0 ∧ Tree.min_root d₁.tree 0 = 1 := by
  obtain ⟨before, d₀, hrun, htest⟩ : ∃ log d, DeploymentRun Voting.madeCrypto 0 0 0 log d ∧ ballotAfterRemoval d = true :=
    exists_run sampleCalls (fun _ d₀ => ballotAfterRemoval d₀) (by decide)
  obtain ⟨d₁, hremoval, htest⟩ := (Option.any_eq_true _ _).mp htest
  obtain ⟨d₂, hballot, htest⟩ := (Option.any_eq_true _ _).mp htest
  exact ⟨before, d₀, d₁, d₂, hrun, hremoval, hballot, of_decide_eq_true htest⟩

theorem ballots_above_floor_iff_for_one_ballot : ∃ before after d₀ d₁ d,
    DeploymentRun Voting.madeCrypto 0 0 0 before d₀ ∧ Accepts Voting.madeCrypto d₀ removal d₁ ∧
    Run (Accepts Voting.madeCrypto) d₁ after d ∧ after ≠ [] ∧
    ((∀ e ∈ after, AboveFloor 0 (Tree.min_root d₁.tree 0) e.1 e.2) ↔
      ∀ e ∈ after, ProposalAboveFloor 0 (Tree.min_root d₁.tree 0) e.1 e.2) := by
  obtain ⟨before, d₀, d₁, d₂, hrun, hremoval, hballot, -⟩ := ballot_after_removal
  have hafter : Run (Accepts Voting.madeCrypto) d₁ [(d₁, ballot)] d₂ := .call .start hballot
  exact ⟨before, _, d₀, d₁, d₂, hrun, hremoval, hafter, by simp, ballots_above_floor_iff hrun hremoval hafter⟩

/-- The member's root has an index below the floor, and a ballot is recorded under it. -/
theorem ballot_below_floor : ∃ before after d₀ d₁ d,
    DeploymentRun Voting.madeCrypto 0 0 0 before d₀ ∧ Accepts Voting.madeCrypto d₀ removal d₁ ∧
    Run (Accepts Voting.madeCrypto) d₁ after d ∧
    ¬ ∀ e ∈ after, AboveFloor 0 (Tree.min_root d₁.tree 0) e.1 e.2 := by
  obtain ⟨before, d₀, d₁, d₂, hrun, hremoval, hballot, hindex, hfloor⟩ := ballot_after_removal
  refine ⟨before, [(d₁, ballot)], d₀, d₁, d₂, hrun, hremoval, .call .start hballot, fun habove => ?_⟩
  have hle := habove (d₁, ballot) (by simp) rfl Tree.sampleRoot (List.mem_singleton.mpr rfl) 0 hindex
  rw [hfloor] at hle
  exact absurd hle (by decide)

end Deployment

end ZkVote
