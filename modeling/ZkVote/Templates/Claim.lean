import ZkVote.Rewards.Treasury
import ZkVote.Templates.OneBallot

/-!
# The circuit of the claims

`circuits/claim.circom`: a reward goes to whoever knows the secret of a ballot, but the commitment that it looks up
is not of the form that the ballot circuits look up.
-/

open Lib Lib.Outcome
open ZkVote.Prover (Fr SCALAR_MODULUS)

namespace ZkVote.Templates

/-! ## The template -/

def CLAIM_TAG : Fr := 427020085613

/-- The private inputs. -/
structure Claimer where
  secret : Fr
  salt : Fr
  path : List (Fr × Fr)

def Claimer.commitment (lib : Circomlib) (claimer : Claimer) : Fr := lib.Poseidon [claimer.secret, claimer.salt]

structure Claim (lib : Circomlib) (levels : Nat) (root voteNullifier claimNullifier daoId proposalId : Fr)
    (claimer : Claimer) : Prop where
  included : MerkleTreeInclusionProof lib levels (claimer.commitment lib) claimer.path root
  voteNullifier_eq : voteNullifier = lib.Poseidon [claimer.secret, daoId, proposalId]
  claimNullifier_eq : claimNullifier = lib.Poseidon [claimer.secret, daoId, proposalId, CLAIM_TAG]

/-- The template on the public signals that the contract passes. -/
def Claim.Of (lib : Circomlib) (levels : Nat) : List U256 → Claimer → Prop
  | [root, voteNullifier, claimNullifier, daoId, proposalId], claimer =>
    Claim lib levels root voteNullifier claimNullifier daoId proposalId claimer
  | _, _ => False

/-! ## What a claim says -/

/-- What the tree of the DAO, the circuit of the ballot and that of the claim have hashed is free of collisions, and
of a commitment that is zero. -/
structure Untangled (C : Voting.Crypto) (lib : Circomlib) (dao_id proposal_id : Nat)
    (log : List (Deployment × Deployment.Call)) (d : Deployment) (voter : Voter) (claimer : Claimer) : Prop where
  pairs : Tree.CollisionFree C.toHashes "BN254"
    ({p | ∃ m, Tree.Stood C.toHashes dao_id (Deployment.treeLog log) d.tree m ∧ p ∈ Tree.treePairs C.toHashes m} ∪
      (Tree.pathPairs C.toHashes "BN254" (voter.commitment lib).val (voter.path.map siblingOf) ∪
        Tree.pathPairs C.toHashes "BN254" (claimer.commitment lib).val (claimer.path.map siblingOf)))
  lists : Set.InjOn lib.Poseidon {[DOMAIN_TAG, voter.secret, voter.salt, voter.blindingFactor],
    [claimer.secret, claimer.salt], [voter.secret, dao_id, proposal_id], [claimer.secret, dao_id, proposal_id]}
  voter_ne_zero : voter.commitment lib ≠ 0
  claimer_ne_zero : claimer.commitment lib ≠ 0

section
variable {C : Voting.Crypto} {lib : Circomlib} {levels : Nat} {voter : U256 → Voter} {claimer : Claimer}
  {sbt registry guardian : Address} {dao_id proposal_id : Nat} {log : List (Deployment × Deployment.Call)}
  {d : Deployment} {env : Rewards.RewardsEnv} {s s' : Rewards.RewardsState} {vote_nullifier claim_nullifier root : U256}
  {proof : Voting.Proof}

theorem root_lt_of_claim
    (h : Rewards.claim C env s dao_id proposal_id vote_nullifier claim_nullifier root proof = .ok s') :
    root < SCALAR_MODULUS := by
  simp [Rewards.claim, Rewards.assert_in_field] at h
  exact h.2.2.1

/-- In every run of the tree and the voting contract, an accepted claim for a ballot of an election of satisfied
circuits takes two registered commitments of one secret: the one that the ballot belongs to, and another for the claim.
Whoever has registered once has a vote and no reward, or a reward and no vote, unless a hash collides. -/
theorem claim_takes_two_registrations (hagrees : Agrees lib (C.poseidon "BN254"))
    (hrun : Deployment.DeploymentRun C sbt registry guardian log d)
    (hdepth : (d.tree.daos dao_id).tree_depth = some levels)
    (hfield : (d.tree.daos dao_id).poseidon_field = some "BN254")
    (hproved : AllProved lib levels voter dao_id proposal_id log) (hvoting : env.voting = d.voting)
    (htree : env.tree = d.tree)
    (h : Rewards.claim C env s dao_id proposal_id vote_nullifier claim_nullifier root proof = .ok s')
    (hclaim : Claim.Of lib levels [root, vote_nullifier, claim_nullifier, dao_id, proposal_id] claimer)
    (huntangled : Untangled C lib dao_id proposal_id log d (voter vote_nullifier) claimer) :
    (voter vote_nullifier).secret = claimer.secret ∧
    owner lib voter vote_nullifier ∈ (Tree.registrations dao_id (Deployment.treeLog log)).map Prod.fst ∧
    (claimer.commitment lib).val ∈ (Tree.registrations dao_id (Deployment.treeLog log)).map Prod.fst ∧
    owner lib voter vote_nullifier ≠ (claimer.commitment lib).val := by
  have hearned := (Rewards.claim_claimed h).earned
  -- the ballot is one of the election, and has a voter
  have hrecorded : Voting.Recorded (d.voting.elections dao_id proposal_id).ballots vote_nullifier := by
    have hused := hearned.voted
    have htemporary := ((Voting.VotingRun.ok hrun.votingRun).elections dao_id proposal_id).temporary
    rw [hvoting, Voting.nullifier_is_used, htemporary, Bool.or_false] at hused
    exact .inl hused
  have heligible := eligible_of_recorded hrun hproved hrecorded
  have hunbroken : Unbroken C lib voter dao_id log d {vote_nullifier} := by
    refine ⟨huntangled.pairs.mono ?_, ?_, ?_⟩
    · rintro p (hp | ⟨n, rfl, hp⟩)
      · exact .inl hp
      · exact .inr (.inl hp)
    · rintro _ ⟨n, rfl, rfl⟩ _ ⟨n', rfl, rfl⟩ -
      rfl
    · rintro n rfl
      exact huntangled.voter_ne_zero
  have howner := heligible.registered hagrees hrun hdepth hfield hunbroken (Set.mem_singleton vote_nullifier)
  -- the claim is under a root that the tree knows
  have hlt := root_lt_of_claim h
  obtain ⟨p, -, heligibility, -⟩ := hearned.eligible
  rw [htree] at heligibility
  obtain ⟨k, hk, -⟩ := Tree.root_eligibility_eq_zero.mp heligibility
  obtain ⟨m, hm, hroot⟩ := (hrun.treeRun.traced dao_id).indexed root k hk
  obtain ⟨-, -, hzero | hclaimer⟩ := hclaim.included.registered hagrees (hrun.treeRun.traced dao_id) hdepth hfield hm
    (by rw [ZMod.val_natCast_of_lt hlt, hroot]) huntangled.pairs (fun q hq => .inl ⟨m, hm, hq⟩)
    fun q hq => .inr (.inr hq)
  · exact absurd hzero huntangled.claimer_ne_zero
  obtain ⟨-, _, _, -, -, hcommit⟩ := heligible
  have hsecrets := huntangled.lists (by simp) (by simp) (hcommit.nullifier_eq.symm.trans hclaim.voteNullifier_eq)
  refine ⟨(List.cons.inj hsecrets).1, howner, hclaimer, fun heq => ?_⟩
  have hlists := huntangled.lists (by simp) (by simp) (ZMod.val_injective _ heq)
  simp at hlists

end

/-! ## Two registrations -/

/-- The member who votes, with a path in a tree that has the claimer too. -/
def secondVoter : Voter := { sampleVoter with path := [((26 : Nat), 0)] }

def sampleClaimer : Claimer := ⟨(5 : Nat), (6 : Nat), [((12 : Nat), 1)]⟩

/-- Two commitments of one secret, and an election in which the first votes. -/
def claimCalls : List Deployment.Call :=
  [Tree.Call.init_tree 0 1 "BN254" 0, .register_from_registry 0 11 1, .register_from_registry 0 17 2].map
      (Deployment.Call.tree Deployment.sampleEnv) ++
    (Voting.openElection 100 ++ [Voting.Call.ballot (.vote 0 1 true 16 27 Voting.sampleProof)]).map
      (Deployment.Call.voting Voting.sampleEnv)

/-- A treasury with a reward, and nothing claimed. -/
def fundedState : Rewards.RewardsState :=
  ((Run.replay (Rewards.next Voting.sampleCrypto) (Rewards.claimCalls.take 3) [] (Rewards.constructor 0)).map
    Prod.snd).getD (Rewards.constructor 0)

/-- The lists behind the commitments and the nullifier. -/
def sampleLists : List (List Fr) :=
  [[DOMAIN_TAG, (5 : Nat), (6 : Nat), (7 : Nat)], [(5 : Nat), (6 : Nat)], [(5 : Nat), 0, 1]]

theorem secondVoter_commit : VoteCommit sampleLib 1 (27 : Nat) (16 : Nat) (0 : Nat) (1 : Nat) secondVoter := by
  refine ⟨⟨rfl, fun step hstep => ?_, by decide⟩, by decide⟩
  obtain rfl := List.mem_singleton.mp hstep
  simp

theorem sampleClaimer_claims : Claim.Of sampleLib 1 [27, 16, 20, 0, 1] sampleClaimer := by
  refine ⟨⟨rfl, fun step hstep => ?_, by decide⟩, by decide, by decide⟩
  obtain rfl := List.mem_singleton.mp hstep
  simp

theorem claim_takes_two_registrations_of_one : ∃ log d s', Deployment.DeploymentRun sampleCrypto 0 0 0 log d ∧
    Rewards.claim sampleCrypto { Voting.sampleEnv with tree := d.tree, voting := d.voting } fundedState 0 1 16 20 27
      Voting.sampleProof = .ok s' ∧
    secondVoter.secret = sampleClaimer.secret ∧
    owner sampleLib (fun _ => secondVoter) 16 ∈ (Tree.registrations 0 (Deployment.treeLog log)).map Prod.fst ∧
    (sampleClaimer.commitment sampleLib).val ∈ (Tree.registrations 0 (Deployment.treeLog log)).map Prod.fst ∧
    owner sampleLib (fun _ => secondVoter) 16 ≠ (sampleClaimer.commitment sampleLib).val := by
  obtain ⟨log, d, hrun, htest⟩ := Deployment.exists_run (C := sampleCrypto) (b := 0) (r := 0) (g := 0) claimCalls
    (fun log d => (Deployment.votingLog log).all (isSample 27) && decide ((d.tree.daos 0).tree_depth = some 1 ∧
      (d.tree.daos 0).poseidon_field = some "BN254" ∧
      (Tree.registrations 0 (Deployment.treeLog log)).map Prod.fst = [17, 11]) &&
      (Rewards.claim sampleCrypto { Voting.sampleEnv with tree := d.tree, voting := d.voting } fundedState 0 1 16 20 27
        Voting.sampleProof).isOk) (by decide +kernel)
  rw [Bool.and_eq_true, Bool.and_eq_true, List.all_eq_true] at htest
  obtain ⟨⟨hballots, hdao⟩, hok⟩ := htest
  obtain ⟨hdepth, hfield, hregistered⟩ := of_decide_eq_true hdao
  obtain ⟨s', hs'⟩ := isOk_iff.mp hok
  have huntangled : Untangled sampleCrypto sampleLib 0 1 log d secondVoter sampleClaimer := by
    refine ⟨samplePairs_free.mono ?_, ?_, by decide, by decide⟩
    · rintro p (⟨m, hm, hp⟩ | hp | hp)
      · have htraced := hrun.treeRun.traced 0
        obtain ⟨hd, hf⟩ := htraced.shape m hm
        rw [hdepth, Option.some.injEq] at hd
        rw [hfield, Option.some.injEq] at hf
        refine treePairs_sample hd.symm hf.symm (fun i => ?_) hp
        have hleaf := htraced.leaves m hm i
        rw [hregistered] at hleaf
        rcases hleaf with hleaf | hleaf
        · rw [hleaf]
          decide
        · have hsub : ∀ c ∈ [17, 11], c ∈ [0, 11, 17] := by decide
          exact hsub _ hleaf
      · have hpairs : ∀ q ∈ (1, 11) :: Merkle.climbed (fun a b => Tree.hash_pair sampleHashes a b "BN254")
            (Tree.hash_leaf sampleHashes 11 "BN254") [(26, 0)], q ∈ samplePairs := by decide
        exact hpairs p (List.mem_cons.mpr hp)
      · have hpairs : ∀ q ∈ (1, 17) :: Merkle.climbed (fun a b => Tree.hash_pair sampleHashes a b "BN254")
            (Tree.hash_leaf sampleHashes 17 "BN254") [(12, 1)], q ∈ samplePairs := by decide
        exact hpairs p (List.mem_cons.mpr hp)
    · have hdistinct : ∀ l ∈ sampleLists, ∀ l' ∈ sampleLists,
          sampleLib.Poseidon l = sampleLib.Poseidon l' → l = l' := by decide
      have hlists : ∀ l ∈ ({[DOMAIN_TAG, secondVoter.secret, secondVoter.salt, secondVoter.blindingFactor],
          [sampleClaimer.secret, sampleClaimer.salt], [secondVoter.secret, (0 : Nat), (1 : Nat)],
          [sampleClaimer.secret, (0 : Nat), (1 : Nat)]} : Set (List Fr)), l ∈ sampleLists := by
        rintro l (rfl | rfl | rfl | rfl) <;> decide
      exact fun l hl l' hl' heq => hdistinct l (hlists l hl) l' (hlists l' hl') heq
  exact ⟨log, d, s', hrun, hs', claim_takes_two_registrations sampleLib_agrees hrun hdepth hfield
    (fun e he call hcall _ => proved_of_isSample secondVoter_commit (hballots e he) hcall) rfl rfl hs'
    sampleClaimer_claims huntangled⟩

end ZkVote.Templates
