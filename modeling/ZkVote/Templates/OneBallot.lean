import ZkVote.Deployment
import ZkVote.Templates.Membership
import ZkVote.Templates.SybilWeight
import ZkVote.Voting.TallyBound

/-!
# One member, one ballot

The circuits, the tree and the voting contract together: who registered stands behind every ballot.
-/

open Lib Lib.Outcome

/-! ## The two logs -/

namespace ZkVote.Deployment

/-- The calls to the tree, each with what it was answered. -/
def treeLog : List (Deployment × Call) → List (Tree.MembershipTree × Tree.TreeEnv × Tree.Call)
  | [] => []
  | (d, .tree env call) :: log => (d.tree, { env with root_pin := Voting.root_pin d.voting }, call) :: treeLog log
  | (_, .voting _ _) :: log => treeLog log

def votingLog : List (Deployment × Call) → List (Voting.VotingState × Voting.VotingEnv × Voting.Call)
  | [] => []
  | (_, .tree _ _) :: log => votingLog log
  | (d, .voting env call) :: log => (d.voting, { env with tree := d.tree }, call) :: votingLog log

section
variable {C : Voting.Crypto} {sbt registry guardian : Address} {d : Deployment} {log : List (Deployment × Call)}

theorem DeploymentRun.treeRun (hrun : DeploymentRun C sbt registry guardian log d) :
    Tree.TreeRun C.toHashes sbt (treeLog log) d.tree := by
  refine Run.invariant_log (P := fun log d => Tree.TreeRun C.toHashes sbt (treeLog log) d.tree) ?_
    (fun log d call d' _ h hs => ?_) hrun
  · exact Run.start
  cases call with
  | tree env call =>
    obtain ⟨t, ht, rfl⟩ := accepts_tree.mp hs
    exact .call (i := (_, call)) h ht
  | voting env call =>
    obtain ⟨s, -, rfl⟩ := accepts_voting.mp hs
    exact h

theorem DeploymentRun.votingRun (hrun : DeploymentRun C sbt registry guardian log d) :
    Voting.VotingRun C registry guardian (votingLog log) d.voting := by
  refine Run.invariant_log (P := fun log d => Voting.VotingRun C registry guardian (votingLog log) d.voting) ?_
    (fun log d call d' _ h hs => ?_) hrun
  · exact Run.start
  cases call with
  | tree env call =>
    obtain ⟨t, -, rfl⟩ := accepts_tree.mp hs
    exact h
  | voting env call =>
    obtain ⟨s, ht, rfl⟩ := accepts_voting.mp hs
    exact .call (i := (_, call)) h ht

end

end ZkVote.Deployment

namespace ZkVote.Templates

open ZkVote.Prover (Fr SCALAR_MODULUS)
open ZkVote.Voting (BallotCall)

/-! ## What a ballot proves -/

/-- The templates on the public signals that the contract passes. -/
def Vote.Of (lib : Circomlib) (levels : Nat) : List U256 → Voter → Prop
  | [root, nullifier, daoId, proposalId, voteChoice, numCandidates], voter =>
    Vote lib levels root nullifier daoId proposalId voteChoice numCandidates voter
  | _, _ => False

def VoteCommit.Of (lib : Circomlib) (levels : Nat) : List U256 → Voter → Prop
  | [root, nullifier, daoId, proposalId], voter => VoteCommit lib levels root nullifier daoId proposalId voter
  | _, _ => False

/-- Each nullifier of the ballot comes with private inputs that satisfy its circuit. A weighted ballot has no
circuit that knows the tree, and a quadratic one a table of its own. -/
def Proved (lib : Circomlib) (levels : Nat) (voter : U256 → Voter) (e : Voting.Election) : BallotCall → Prop
  | .vote dao_id proposal_id vote_choice nullifier root _ =>
    Vote.Of lib levels (Voting.vote_signals e dao_id proposal_id vote_choice nullifier root) (voter nullifier)
  | .vote_with_circuit dao_id proposal_id vote_choice nullifier root _ _ =>
    Vote.Of lib levels (Voting.vote_signals e dao_id proposal_id vote_choice nullifier root) (voter nullifier)
  | .cast_votes dao_id proposal_id votes => ∀ entry ∈ votes,
    Vote.Of lib levels (Voting.vote_signals e dao_id proposal_id entry.vote_choice entry.nullifier entry.root)
      (voter entry.nullifier)
  | .commit_vote dao_id proposal_id nullifier root _ _ =>
    VoteCommit.Of lib levels [root, nullifier, dao_id, proposal_id] (voter nullifier)
  | .vote_sybil_weighted dao_id proposal_id vote_choice nullifier root attestation_commitment snapshot_time vote_weight
      _ => ∃ a, SybilWeightedVote.Of lib levels [root, nullifier, dao_id, proposal_id,
        Voting.vote_choice_index vote_choice, Voting.candidate_signal (Voting.election_config e).num_candidates,
        snapshot_time, attestation_commitment, vote_weight] (voter nullifier) a
  | _ => False

section
variable {lib : Circomlib} {levels : Nat} {voter : U256 → Voter} {C : Voting.Crypto} {env : Voting.VotingEnv}
  {s s' : Voting.VotingState} {call : BallotCall}

/-- What every one of the circuits proves, and that the contract has checked the nullifier to be reduced. -/
structure Backs (lib : Circomlib) (levels : Nat) (voter : U256 → Voter) (call : BallotCall) (n : U256) : Prop where
  reduced : n < SCALAR_MODULUS
  proved : ∃ root ∈ call.roots,
    VoteCommit lib levels (root : Nat) (n : Nat) (call.election.1 : Nat) (call.election.2 : Nat) (voter n)

theorem Proved.backs {e : Voting.Election} (hproved : Proved lib levels voter e call) (h : call.run C env s = .ok s')
    {n : U256} (hn : n ∈ call.nullifiers) : Backs lib levels voter call n := by
  cases call with
  | vote d q choice m root proof =>
    obtain rfl := List.mem_singleton.mp hn
    simp [BallotCall.run, Voting.vote] at h
    exact ⟨h.2.2.1, root, List.mem_singleton_self _, Vote.commit hproved⟩
  | vote_with_circuit d q choice m root proof circuit_id =>
    obtain rfl := List.mem_singleton.mp hn
    simp [BallotCall.run, Voting.vote_with_circuit] at h
    exact ⟨h.2.1, root, List.mem_singleton_self _, Vote.commit hproved⟩
  | cast_votes d q votes =>
    obtain ⟨entry, hentry, rfl⟩ := List.mem_map.mp hn
    simp only [BallotCall.run, bind_eq_ok, Prod.exists, pure_eq_ok] at h
    obtain ⟨k, s₁, hcast, -⟩ := h
    obtain ⟨-, -, p, vk, -, -, hb, -⟩ := Voting.cast_votes_eq_ok.mp hcast
    exact ⟨(hb.entries entry hentry).nullifier_in_field, entry.root, List.mem_map_of_mem hentry,
      Vote.commit (hproved entry hentry)⟩
  | commit_vote d q m root commitment proof =>
    obtain rfl := List.mem_singleton.mp hn
    simp [BallotCall.run, Voting.commit_vote] at h
    exact ⟨h.2.2.1, root, List.mem_singleton_self _, hproved⟩
  | vote_sybil_weighted d q choice m root ac st w proof =>
    obtain rfl := List.mem_singleton.mp hn
    obtain ⟨a, ha⟩ := hproved
    simp [BallotCall.run, Voting.vote_sybil_weighted] at h
    exact ⟨h.2.2.1, root, List.mem_singleton_self _, ha.included, ha.nullifier_eq⟩
  | _ => exact hproved.elim

/-! ## Runs -/

/-- Every ballot of an election is proved. -/
def AllProved (lib : Circomlib) (levels : Nat) (voter : U256 → Voter) (dao_id proposal_id : Nat)
    (log : List (Deployment × Deployment.Call)) : Prop :=
  ∀ e ∈ Deployment.votingLog log, ∀ call, e.2.2 = .ballot call → call.election = (dao_id, proposal_id) →
    Proved lib levels voter (e.1.elections dao_id proposal_id) call

/-- The nullifier is that of a voter whose commitment the circuit has found in a tree that the DAO had. -/
structure Eligible (C : Voting.Crypto) (lib : Circomlib) (levels : Nat) (voter : U256 → Voter) (dao_id proposal_id : Nat)
    (log : List (Deployment × Deployment.Call)) (t : Tree.MembershipTree) (n : U256) : Prop where
  reduced : n < SCALAR_MODULUS
  proved : ∃ m root, Tree.Stood C.toHashes dao_id (Deployment.treeLog log) t m ∧ m.root C.toHashes = root ∧
    VoteCommit lib levels (root : Nat) (n : Nat) (dao_id : Nat) (proposal_id : Nat) (voter n)

variable {sbt registry guardian : Address} {dao_id proposal_id : Nat} {log : List (Deployment × Deployment.Call)}
  {d d' : Deployment}

/-- No nullifier is recorded but those of eligible voters. -/
theorem eligible_of_recorded (hrun : Deployment.DeploymentRun C sbt registry guardian log d)
    (hproved : AllProved lib levels voter dao_id proposal_id log) {n : U256}
    (hn : Voting.Recorded (d.voting.elections dao_id proposal_id).ballots n) :
    Eligible C lib levels voter dao_id proposal_id log d.tree n := by
  induction hrun generalizing n with
  | start => rcases hn with hn | hn <;> simp [Deployment.init, Voting.constructor] at hn
  | @call log d d' call hr hs ih =>
    cases call with
    | tree env call =>
      obtain ⟨t, -, rfl⟩ := Deployment.accepts_tree.mp hs
      obtain ⟨hreduced, m, root, hm, hroot, hcommit⟩ := ih hproved hn
      exact ⟨hreduced, m, root, Tree.stood_cons.mpr (.inr hm), hroot, hcommit⟩
    | voting env call =>
      obtain ⟨s, hcall, rfl⟩ := Deployment.accepts_voting.mp hs
      rw [AllProved, Deployment.votingLog, List.forall_mem_cons] at hproved
      have heffect := Voting.step_effect (Voting.VotingRun.ok (Deployment.DeploymentRun.votingRun hr)).dormant hcall
      rcases (heffect.recorded dao_id proposal_id).mp hn with hnew | hold
      · obtain ⟨ballot, rfl, helection⟩ := Voting.mem_nullifiers hnew
        rw [Voting.Call.nullifiers, if_pos helection] at hnew
        obtain ⟨hreduced, root, hroot, hcommit⟩ := (hproved.1 ballot rfl helection).backs hcall hnew
        obtain ⟨e', hstep⟩ := Voting.ballot_step hcall
        rw [helection] at hcommit
        refine ⟨hreduced, ?_⟩
        rcases hstep.roots root hroot with hcheck | ⟨hweighted, -⟩
        · obtain ⟨k, hk, -⟩ := Tree.root_eligibility_eq_zero.mp hcheck
          rw [helection] at hk
          obtain ⟨m, hm, heq⟩ := ((Deployment.DeploymentRun.treeRun hr).traced dao_id).indexed root k hk
          exact ⟨m, root, hm, heq, hcommit⟩
        · cases ballot with
          | vote_weighted => exact (hproved.1 _ rfl helection).elim
          | _ => cases hweighted
      · obtain ⟨hreduced, m, root, hm, hrest⟩ := ih hproved.2 hold
        exact ⟨hreduced, m, root, hm, hrest⟩

/-! ## Owners -/

/-- What the tree of the DAO and the circuits of the ballots have hashed is free of collisions, and of a
commitment that is zero. -/
structure Unbroken (C : Voting.Crypto) (lib : Circomlib) (voter : U256 → Voter) (dao_id : Nat)
    (log : List (Deployment × Deployment.Call)) (d : Deployment) (ns : Set U256) : Prop where
  pairs : Tree.CollisionFree C.toHashes "BN254"
    ({p | ∃ m, Tree.Stood C.toHashes dao_id (Deployment.treeLog log) d.tree m ∧ p ∈ Tree.treePairs C.toHashes m} ∪
      {p | ∃ n ∈ ns, p ∈ Tree.pathPairs C.toHashes "BN254" ((voter n).commitment lib).val
        ((voter n).path.map siblingOf)})
  commitments : Set.InjOn lib.Poseidon
    {l | ∃ n ∈ ns, l = [DOMAIN_TAG, (voter n).secret, (voter n).salt, (voter n).blindingFactor]}
  nonzero : ∀ n ∈ ns, (voter n).commitment lib ≠ 0

/-- The commitment that a ballot belongs to. -/
def owner (lib : Circomlib) (voter : U256 → Voter) (n : U256) : U256 := ((voter n).commitment lib).val

theorem Eligible.registered (hagrees : Agrees lib (C.poseidon "BN254"))
    (hrun : Deployment.DeploymentRun C sbt registry guardian log d)
    (hdepth : (d.tree.daos dao_id).tree_depth = some levels)
    (hfield : (d.tree.daos dao_id).poseidon_field = some "BN254") {ns : Set U256}
    (hunbroken : Unbroken C lib voter dao_id log d ns) {n : U256} (hn : n ∈ ns)
    (h : Eligible C lib levels voter dao_id proposal_id log d.tree n) :
    owner lib voter n ∈ (Tree.registrations dao_id (Deployment.treeLog log)).map Prod.fst := by
  obtain ⟨m, root, hm, hroot, hcommit⟩ := h.proved
  have htraced := hrun.treeRun.traced dao_id
  have hval : m.root C.toHashes = ((root : Nat) : Fr).val := by
    have hf := (htraced.shape m hm).2
    rw [hfield, Option.some.injEq] at hf
    have hlt : root < SCALAR_MODULUS := by
      obtain ⟨l, hl⟩ := Nat.exists_eq_succ_of_ne_zero m.depth_pos.ne'
      rw [← hroot, Tree.Members.root, Tree.merkleRoot, hl, ← hf]
      exact hagrees.lt _ _
    rw [ZMod.val_natCast_of_lt hlt, hroot]
  obtain ⟨i, -, hzero | hmem⟩ := hcommit.included.registered hagrees htraced hdepth hfield hm hval hunbroken.pairs
    (fun p hp => .inl ⟨m, hm, hp⟩) fun p hp => .inr ⟨n, hn, hp⟩
  · exact absurd hzero (hunbroken.nonzero n hn)
  · exact hmem

/-- Different ballots of an election belong to different commitments. -/
theorem owner_injOn {ns : Set U256} (hunbroken : Unbroken C lib voter dao_id log d ns)
    (h : ∀ n ∈ ns, Eligible C lib levels voter dao_id proposal_id log d.tree n) : ns.InjOn (owner lib voter) := by
  intro n hn n' hn' heq
  have hlists := hunbroken.commitments ⟨n, hn, rfl⟩ ⟨n', hn', rfl⟩ (ZMod.val_injective _ heq)
  simp only [List.cons.injEq, true_and] at hlists
  obtain ⟨hreduced, m, root, -, -, hcommit⟩ := h n hn
  obtain ⟨hreduced', m', root', -, -, hcommit'⟩ := h n' hn'
  have hcast : ((n : Nat) : Fr) = (n' : Nat) := by
    rw [hcommit.nullifier_eq, hcommit'.nullifier_eq, hlists.1]
  rw [← ZMod.val_natCast_of_lt hreduced, hcast, ZMod.val_natCast_of_lt hreduced']

/-- In every run of the tree and the voting contract, of an election whose ballots come from satisfied circuits of
the tree's depth: every ballot belongs to a registered commitment, no two to the same one, and the votes counted are no
more than the registrations, unless a hash collides. -/
theorem votes_le_registrations (hagrees : Agrees lib (C.poseidon "BN254"))
    (hrun : Deployment.DeploymentRun C sbt registry guardian log d)
    (hdepth : (d.tree.daos dao_id).tree_depth = some levels)
    (hfield : (d.tree.daos dao_id).poseidon_field = some "BN254")
    (hproved : AllProved lib levels voter dao_id proposal_id log)
    (hattested : ∀ e ∈ Deployment.votingLog log, e.2.2.attested = 0)
    (hunbroken : Unbroken C lib voter dao_id log d
      {n | Voting.Recorded (d.voting.elections dao_id proposal_id).ballots n}) :
    (∀ n, Voting.Recorded (d.voting.elections dao_id proposal_id).ballots n →
      owner lib voter n ∈ (Tree.registrations dao_id (Deployment.treeLog log)).map Prod.fst) ∧
    Set.InjOn (owner lib voter) {n | Voting.Recorded (d.voting.elections dao_id proposal_id).ballots n} ∧
    Voting.votes (d.voting.elections dao_id proposal_id) ≤
      (Tree.registrations dao_id (Deployment.treeLog log)).length := by
  have heligible : ∀ n, Voting.Recorded (d.voting.elections dao_id proposal_id).ballots n →
      Eligible C lib levels voter dao_id proposal_id log d.tree n := fun n => eligible_of_recorded hrun hproved
  have hregistered : ∀ n, Voting.Recorded (d.voting.elections dao_id proposal_id).ballots n →
      owner lib voter n ∈ (Tree.registrations dao_id (Deployment.treeLog log)).map Prod.fst := fun n hn =>
    (heligible n hn).registered hagrees hrun hdepth hfield hunbroken hn
  have hinj := owner_injOn hunbroken heligible
  refine ⟨hregistered, hinj, ?_⟩
  have hbacked := hrun.votingRun.backed hattested dao_id proposal_id
  have hused : Voting.used (d.voting.elections dao_id proposal_id).ballots ⊆
      {n | Voting.Recorded (d.voting.elections dao_id proposal_id).ballots n} := fun n hn => .inl hn
  let regs := ((Tree.registrations dao_id (Deployment.treeLog log)).map Prod.fst).toFinset
  calc Voting.votes (d.voting.elections dao_id proposal_id)
      ≤ (Voting.used (d.voting.elections dao_id proposal_id).ballots).ncard :=
        (Nat.le_add_right _ _).trans hbacked.bound
    _ ≤ (regs : Set U256).ncard := Set.ncard_le_ncard_of_injOn (owner lib voter)
        (fun n hn => List.mem_toFinset.mpr (hregistered n (hused hn))) (hinj.mono hused) regs.finite_toSet
    _ = regs.card := Set.ncard_coe_finset regs
    _ ≤ ((Tree.registrations dao_id (Deployment.treeLog log)).map Prod.fst).length := List.toFinset_card_le _
    _ = (Tree.registrations dao_id (Deployment.treeLog log)).length := List.length_map _

end

/-! ## One ballot -/

/-- One member, and an election in which that member votes. -/
def sampleCalls : List Deployment.Call :=
  (sampleMember 11).map (Deployment.Call.tree Deployment.sampleEnv) ++
    (Voting.openElection 100 ++ [Voting.Call.ballot (.vote 0 1 true 16 14 Voting.sampleProof)]).map
      (Deployment.Call.voting Voting.sampleEnv)

/-- No ballot of the log is another one, or under another root. -/
def isSample (known : U256) (e : Voting.VotingState × Voting.VotingEnv × Voting.Call) : Bool :=
  match e.2.2 with
  | .ballot (.vote dao_id proposal_id _ nullifier root _) => dao_id = 0 && proposal_id = 1 && nullifier = 16 &&
    root = known && (Voting.election_config (e.1.elections 0 1)).num_candidates = 0
  | .ballot _ => false
  | _ => true

theorem proved_of_isSample {known : U256} {member : Voter}
    (hcommit : VoteCommit sampleLib 1 (known : Nat) (16 : Nat) (0 : Nat) (1 : Nat) member)
    {e : Voting.VotingState × Voting.VotingEnv × Voting.Call} (h : isSample known e = true) {call : BallotCall}
    (hcall : e.2.2 = .ballot call) : Proved sampleLib 1 (fun _ => member) (e.1.elections 0 1) call := by
  obtain ⟨s, env, _⟩ := e
  subst hcall
  cases call with
  | vote dao_id proposal_id vote_choice nullifier root proof =>
    simp [isSample] at h
    obtain ⟨⟨⟨⟨rfl, rfl⟩, rfl⟩, rfl⟩, hcount⟩ := h
    refine ⟨hcommit.included, hcommit.nullifier_eq, ?_⟩
    have hindex : Voting.vote_choice_index vote_choice < 2 := by cases vote_choice <;> decide
    rw [hcount]
    refine (sampleLib_exact.less.one (by decide) ?_ (by decide)).mpr (decide_eq_true ?_)
    · rw [val_natCast (hindex.trans (by decide))]
      exact hindex.trans (by decide)
    · rw [val_natCast (hindex.trans (by decide))]
      exact hindex
  | _ => cases h

/-- All that is hashed for trees of one level over these commitments. -/
def samplePairs : List (U256 × U256) :=
  [(1, 0), (1, 11), (1, 17), (12, 12), (12, 13), (12, 26), (13, 12), (13, 13), (13, 26), (26, 12), (26, 13), (26, 26)]

theorem samplePairs_free : Tree.CollisionFree sampleHashes "BN254" {p | p ∈ samplePairs} := by
  have hdistinct : ∀ p ∈ samplePairs, ∀ q ∈ samplePairs, samplePair p.1 p.2 = samplePair q.1 q.2 → p = q := by decide
  exact fun p hp q hq => hdistinct p hp q hq

theorem treePairs_sample {m : Tree.Members} (hdepth : m.depth = 1) (hfield : m.field = "BN254")
    (hleaves : ∀ i, m.leaf i ∈ [0, 11, 17]) : Tree.treePairs sampleHashes m ⊆ {p | p ∈ samplePairs} := by
  have hhashes : ∀ i, Tree.hash_leaf sampleHashes (m.leaf i) m.field ∈ [12, 13, 26] := fun i => by
    have hhash : ∀ c ∈ [0, 11, 17], Tree.hash_leaf sampleHashes c "BN254" ∈ [12, 13, 26] := by decide
    exact hfield ▸ hhash _ (hleaves i)
  rintro _ (⟨l, hl, i, rfl⟩ | ⟨i, rfl⟩)
  · obtain rfl : l = 0 := by omega
    have hpairs : ∀ x ∈ [12, 13, 26], ∀ y ∈ [12, 13, 26], (x, y) ∈ samplePairs := by decide
    exact hpairs _ (hhashes (2 * i)) _ (hhashes (2 * i + 1))
  · have hpairs : ∀ c ∈ [0, 11, 17], (1, c) ∈ samplePairs := by decide
    exact hpairs _ (hleaves i)

theorem votes_le_registrations_for_one : ∃ log d, Deployment.DeploymentRun sampleCrypto 0 0 0 log d ∧
    Voting.votes (d.voting.elections 0 1) = 1 ∧ (Tree.registrations 0 (Deployment.treeLog log)).length = 1 ∧
    (∀ n, Voting.Recorded (d.voting.elections 0 1).ballots n →
      owner sampleLib (fun _ => sampleVoter) n ∈ (Tree.registrations 0 (Deployment.treeLog log)).map Prod.fst) ∧
    Set.InjOn (owner sampleLib fun _ => sampleVoter) {n | Voting.Recorded (d.voting.elections 0 1).ballots n} ∧
    Voting.votes (d.voting.elections 0 1) ≤ (Tree.registrations 0 (Deployment.treeLog log)).length := by
  obtain ⟨log, d, hrun, htest⟩ := Deployment.exists_run (C := sampleCrypto) (b := 0) (r := 0) (g := 0) sampleCalls
    (fun log d => (Deployment.votingLog log).all (isSample 14) && decide ((d.tree.daos 0).tree_depth = some 1 ∧
      (d.tree.daos 0).poseidon_field = some "BN254" ∧ Voting.votes (d.voting.elections 0 1) = 1 ∧
      (∀ e ∈ Deployment.votingLog log, e.2.2.attested = 0) ∧ Voting.spent 0 1 (Deployment.votingLog log) = [16] ∧
      (Tree.registrations 0 (Deployment.treeLog log)).map Prod.fst = [11])) (by decide +kernel)
  rw [Bool.and_eq_true, List.all_eq_true] at htest
  obtain ⟨hdepth, hfield, hvotes, hattested, hspent, hregistered⟩ := of_decide_eq_true htest.2
  have honly : ∀ n, Voting.Recorded (d.voting.elections 0 1).ballots n → n = 16 := fun n hn => by
    have hmem := (hrun.votingRun.mem_spent 0 1 n).mpr hn
    rw [hspent] at hmem
    exact List.mem_singleton.mp hmem
  have hunbroken : Unbroken sampleCrypto sampleLib (fun _ => sampleVoter) 0 log d
      {n | Voting.Recorded (d.voting.elections 0 1).ballots n} := by
    refine ⟨samplePairs_free.mono ?_, ?_, fun n hn => by decide⟩
    · rintro p (⟨m, hm, hp⟩ | ⟨n, hn, hp⟩)
      · have htraced := hrun.treeRun.traced 0
        obtain ⟨hd, hf⟩ := htraced.shape m hm
        rw [hdepth, Option.some.injEq] at hd
        rw [hfield, Option.some.injEq] at hf
        refine treePairs_sample hd.symm hf.symm (fun i => ?_) hp
        have hleaf := htraced.leaves m hm i
        rw [hregistered, List.mem_singleton] at hleaf
        rcases hleaf with hleaf | hleaf <;> rw [hleaf] <;> decide
      · have hpairs : ∀ q ∈ (1, 11) :: Merkle.climbed (fun a b => Tree.hash_pair sampleHashes a b "BN254")
            (Tree.hash_leaf sampleHashes 11 "BN254") [(13, 0)], q ∈ samplePairs := by decide
        exact hpairs p (List.mem_cons.mpr hp)
    · rintro _ ⟨n, -, rfl⟩ _ ⟨n', -, rfl⟩ -
      rfl
  refine ⟨log, d, hrun, hvotes, ?_, votes_le_registrations sampleLib_agrees hrun hdepth hfield
    (fun e he call hcall _ => proved_of_isSample ⟨sampleVoter_included, by decide⟩ (htest.1 e he) hcall) hattested
    hunbroken⟩
  rw [← List.length_map (f := Prod.fst), hregistered]
  rfl

end ZkVote.Templates
