import ZkVote.Comments.Contract
import ZkVote.Voting.Keys
import ZkVote.Tree.History

/-!
# The comments contract: ballots as comments

Both contracts ask for a proof of the vote circuit, under keys that the voting
contract keeps. They agree on the roots, and not on the public signals.
-/

open Lib Lib.Outcome

namespace ZkVote.Comments

open Voting (VerificationKey VerificationKeyBls381 Proof ProofBls381 Crypto PathContext VotingState ProposalInfo
  RootEligible KeysOk VotingRun)

/-! ## The roots -/

section
variable {C : Crypto} {env : CommentsEnv} {s s' : CommentsState} {ctx : PathContext} {dao_id proposal_id : Nat}
  {nullifier root : U256} {vote_choice : Bool} {p : ProposalInfo} {u : Unit} {check : ProofCheck}

@[simp] theorem check_eligibility_eq_ok {earliest : Nat} :
    check_eligibility env ctx dao_id root earliest = .ok u ↔
      Tree.root_eligibility env.tree dao_id root earliest = 0 := by
  unfold check_eligibility
  split <;> simp_all

theorem get_proposal_eligibility_eq (hp : (env.voting.elections dao_id proposal_id).proposal = some p) :
    get_proposal_eligibility env dao_id proposal_id =
      (do let vote_mode ← expect (VoteMode.decode p.vote_mode)
          return (vote_mode, p.eligible_root, p.earliest_root_index)) := by
  have hget : Voting.get_proposal env.voting dao_id proposal_id = .ok p := by
    unfold Voting.get_proposal
    rw [hp]
    rfl
  unfold get_proposal_eligibility Voting.get_vote_mode Voting.get_eligible_root Voting.get_earliest_idx
  rw [hget]
  rfl

theorem root_eligibility_from {earliest : Nat} : Tree.root_eligibility env.tree dao_id root earliest = 0 ↔
    Tree.root_eligibility env.tree dao_id root 0 = 0 ∧
      ∃ index, Tree.root_idx env.tree dao_id root = .ok index ∧ ¬ index < earliest := by
  rw [Tree.root_eligibility_eq_zero, Tree.root_eligibility_eq_zero]
  unfold Tree.root_idx
  simp only [orPanic_eq_ok]
  constructor
  · rintro ⟨k, hk, hearliest, hmin⟩
    exact ⟨⟨k, hk, Nat.zero_le k, hmin⟩, k, hk, by omega⟩
  · rintro ⟨⟨k, hk, -, hmin⟩, index, hindex, hearliest⟩
    obtain rfl : k = index := Option.some.inj (hk.symm.trans hindex)
    exact ⟨k, hk, by omega, hmin⟩

/-- A root is good for a comment on a proposal if and only if it is good for a ballot on it. -/
theorem validate_root_eligibility_iff (hp : (env.voting.elections dao_id proposal_id).proposal = some p) :
    validate_root_eligibility env ctx dao_id proposal_id root = .ok u ↔
      RootEligible env.toVotingEnv dao_id p root := by
  unfold validate_root_eligibility RootEligible
  rw [get_proposal_eligibility_eq hp]
  cases hm : p.vote_mode with
  | Quadratic => simp [VoteMode.decode]
  | Fixed =>
    simp [VoteMode.decode, assert_root_not_revoked, and_comm]
  | Trailing =>
    simp only [VoteMode.decode, bind_eq_ok, expect_eq_ok, pure_eq_ok, Option.some.injEq, reduceCtorEq, false_and,
      true_and, false_or, exists_eq_left', check_eligibility_eq_ok]
    exact root_eligibility_from

/-! ## The signals -/

/-- The verifier rejects signals whose number is not that of the key. -/
structure ChecksLength (C : Crypto) : Prop where
  bn254 : ∀ vk proof signals, C.verify_groth16 vk proof signals = true → signals.length + 1 = vk.ic.length
  bls381 : ∀ vk proof signals, C.verify_groth16_bls381 vk proof signals = true →
    signals.length + 1 = vk.ic.length

/-- The check passes on signals of this number only. -/
def ProofCheck.Wants (check : ProofCheck) (n : Nat) : Prop :=
  ∀ verify signals, check.verifier = .ok verify → verify signals = true → signals.length = n

/-- A key that the voting contract hands out has room for the six signals of a ballot. -/
theorem get_vk_length {vk : VerificationKey} (hkeys : KeysOk (env.voting.daos dao_id).keys)
    (h : get_vk_from_voting env dao_id = .ok vk) : vk.ic.length = 7 := by
  simp only [get_vk_from_voting, invoke_eq_ok, Voting.get_vk, Voting.get_vk_by_version, bind_eq_ok,
    orPanic_eq_ok] at h
  obtain ⟨version, -, hfound⟩ := h
  exact hkeys.ic_length .plain version (.plain vk) (by simp [Voting.Keys.find, hfound])

theorem get_vk_bls381_length {vk : VerificationKeyBls381} (hkeys : KeysOk (env.voting.daos dao_id).keys)
    (h : get_vk_from_voting_bls381 env dao_id = .ok vk) : vk.ic.length = 7 := by
  simp only [get_vk_from_voting_bls381, invoke_eq_ok, Voting.get_vk_bls381, Voting.get_vk_by_version_bls381,
    bind_eq_ok, orPanic_eq_ok] at h
  obtain ⟨version, -, hfound⟩ := h
  exact hkeys.ic_length .bls381 version (.bls381 vk) (by simp [Voting.Keys.find, hfound])

theorem bn254_wants {proof : Proof} (hC : ChecksLength C) (hkeys : KeysOk (env.voting.daos dao_id).keys) :
    (bn254 C env dao_id proof).Wants 6 := by
  intro verify signals hverifier hverify
  simp only [bn254, bind_eq_ok, pure_eq_ok] at hverifier
  obtain ⟨vk, hvk, rfl⟩ := hverifier
  have hlength := hC.bn254 vk proof signals hverify
  have hic := get_vk_length hkeys hvk
  omega

theorem bls381_wants {proof : ProofBls381} (hC : ChecksLength C)
    (hkeys : KeysOk (env.voting.daos dao_id).keys) : (bls381 C env dao_id proof).Wants 6 := by
  intro verify signals hverifier hverify
  simp only [bls381, bind_eq_ok, pure_eq_ok] at hverifier
  obtain ⟨vk, hvk, rfl⟩ := hverifier
  have hlength := hC.bls381 vk proof signals hverify
  have hic := get_vk_bls381_length hkeys hvk
  omega

/-- The contract gives five. -/
theorem assert_proof_ne_ok (h : check.Wants 6) :
    assert_proof check env dao_id proposal_id vote_choice nullifier root ≠ .ok u := by
  intro hok
  simp only [assert_proof, bind_eq_ok, require_eq_ok] at hok
  obtain ⟨-, -, -, -, verify, hverifier, hverify⟩ := hok
  have hlength := h verify _ hverifier hverify
  simp [pub_signals] at hlength

/-- Where the proposal and the root are good, it is the proof that fails. -/
theorem assert_proof_eq_error {verify : List U256 → Bool} (h : check.Wants 6)
    (hexists : assert_proposal_exists env dao_id proposal_id = .ok ())
    (hp : (env.voting.elections dao_id proposal_id).proposal = some p)
    (hroot : RootEligible env.toVotingEnv dao_id p root) (hverifier : check.verifier = .ok verify) :
    assert_proof check env dao_id proposal_id vote_choice nullifier root = fail .ProofInvalid := by
  have hverify : verify (pub_signals dao_id proposal_id vote_choice nullifier root) = false := by
    rw [Bool.eq_false_iff]
    intro hverify
    have hlength := h verify _ hverifier hverify
    simp [pub_signals] at hlength
  have hvalid : validate_root_eligibility env .Anonymous dao_id proposal_id root = .ok () :=
    (validate_root_eligibility_iff hp).mpr hroot
  unfold assert_proof
  rw [hexists, hvalid, hverifier]
  simp only [ok_bind, hverify]
  rfl

/-! ## Anonymous calls -/

theorem add_anonymous_ne_ok {content_cid : Bytes} {parent_id : Option Nat} {r : Nat × CommentsState}
    (h : check.Wants 6) : add_anonymous check env s dao_id proposal_id content_cid parent_id nullifier root
      vote_choice ≠ .ok r := by
  intro hok
  simp only [add_anonymous, bind_eq_ok] at hok
  obtain ⟨_, -, _, -, _, -, _, -, _, -, _, hproof, -⟩ := hok
  exact assert_proof_ne_ok h hproof

theorem edit_anonymous_ne_ok {comment_id : Nat} {new_content_cid : Bytes} (h : check.Wants 6) :
    edit_anonymous check env s dao_id proposal_id comment_id new_content_cid nullifier root vote_choice ≠
      .ok s' := by
  intro hok
  simp only [edit_anonymous, bind_eq_ok] at hok
  obtain ⟨_, -, _, -, _, -, _, -, _, -, _, -, _, hproof, -⟩ := hok
  exact assert_proof_ne_ok h hproof

theorem delete_anonymous_comment_same {comment_id : Nat} {proof : Proof} (hC : ChecksLength C)
    (hkeys : KeysOk (env.voting.daos dao_id).keys)
    (h : delete_anonymous_comment C env s dao_id proposal_id comment_id nullifier root vote_choice proof = .ok s') :
    s' = s := by
  simp only [delete_anonymous_comment, bind_eq_ok, ite_eq_ok, pure_eq_ok] at h
  obtain ⟨_, -, _, -, comment, -, ⟨-, hsame⟩ | ⟨-, _, -, _, hproof, -⟩⟩ := h
  · exact hsame.symm
  · exact absurd hproof (assert_proof_ne_ok (bn254_wants hC hkeys))

/-! ## Runs -/

/-- Every comment has an author to its name, and none a nullifier. -/
def Authored (s : CommentsState) : Prop :=
  ∀ key comment, s.comment key = some comment → comment.author ≠ none ∧ comment.nullifier = none

theorem Authored.write {key : Nat × Nat × Nat} {comment : CommentInfo} {count : Nat × Nat → Nat}
    (h : Authored s) (hauthor : comment.author ≠ none) (hnullifier : comment.nullifier = none) :
    Authored { s with comment := Function.update s.comment key (some comment), comment_count := count } := by
  intro key' comment' hfound
  simp only [Function.update_apply] at hfound
  split at hfound
  · rw [← Option.some.inj hfound]
    exact ⟨hauthor, hnullifier⟩
  · exact h key' comment' hfound

/-- A call that changes what a comment says or whether it is deleted, and not whose it is. -/
theorem Authored.rewrite {key : Nat × Nat × Nat} {comment comment' : CommentInfo} (h : Authored s)
    (hfound : s.comment key = some comment) (hauthor : comment'.author = comment.author)
    (hnullifier : comment'.nullifier = comment.nullifier) :
    Authored { s with comment := Function.update s.comment key (some comment') } := by
  obtain ⟨hsome, hnone⟩ := h key comment hfound
  exact h.write (hauthor ▸ hsome) (hnullifier.trans hnone)

theorem step_authored {call : Call} (hC : ChecksLength C) (hkeys : ∀ d, KeysOk (env.voting.daos d).keys)
    (hs : Authored s) (h : step C s env call = .ok s') : Authored s' := by
  cases call with
  | add_comment dao_id proposal_id content_cid parent_id author =>
    simp only [step, map_eq_ok, add_comment, next_comment_id, bind_eq_ok, pure_eq_ok] at h
    obtain ⟨-, ⟨-, -, -, -, -, -, -, -, -, -, -, ⟨new_id, -, rfl⟩, rfl⟩, rfl⟩ := h
    exact hs.write (by simp) rfl
  | add_anonymous_comment dao_id proposal_id content_cid parent_id nullifier root vote_choice proof =>
    obtain ⟨r, hr, -⟩ := map_eq_ok.mp h
    exact absurd hr (add_anonymous_ne_ok (bn254_wants hC (hkeys dao_id)))
  | add_anonymous_comment_bls381 dao_id proposal_id content_cid parent_id nullifier root vote_choice proof =>
    obtain ⟨r, hr, -⟩ := map_eq_ok.mp h
    exact absurd hr (add_anonymous_ne_ok (bls381_wants hC (hkeys dao_id)))
  | edit_comment dao_id proposal_id comment_id new_content_cid author =>
    simp only [step, edit_comment, find_comment, bind_eq_ok, orPanic_eq_ok, pure_eq_ok] at h
    obtain ⟨-, -, -, -, comment, hfound, -, -, -, -, rfl⟩ := h
    exact hs.rewrite hfound rfl rfl
  | edit_anonymous_comment dao_id proposal_id comment_id new_content_cid nullifier root vote_choice proof =>
    exact absurd h (edit_anonymous_ne_ok (bn254_wants hC (hkeys dao_id)))
  | edit_anonymous_comment_bls381 dao_id proposal_id comment_id new_content_cid nullifier root vote_choice proof =>
    exact absurd h (edit_anonymous_ne_ok (bls381_wants hC (hkeys dao_id)))
  | delete_comment dao_id proposal_id comment_id author =>
    simp only [step, delete_comment, find_comment, bind_eq_ok, orPanic_eq_ok, ite_eq_ok, pure_eq_ok] at h
    obtain ⟨-, -, comment, hfound, ⟨-, rfl⟩ | ⟨-, -, -, rfl⟩⟩ := h
    · exact hs
    · exact hs.rewrite hfound rfl rfl
  | delete_anonymous_comment dao_id proposal_id comment_id nullifier root vote_choice proof =>
    rw [delete_anonymous_comment_same hC (hkeys dao_id) h]
    exact hs
  | admin_delete_comment dao_id proposal_id comment_id admin reason_hash =>
    simp only [step, admin_delete_comment, find_comment, bind_eq_ok, orPanic_eq_ok, ite_eq_ok, pure_eq_ok] at h
    obtain ⟨-, -, -, -, -, -, comment, hfound, ⟨-, rfl⟩ | ⟨-, rfl⟩⟩ := h
    · exact hs
    · exact hs.rewrite hfound rfl rfl

/-- Over a voting contract as its own calls leave it, no comment is ever anonymous. -/
theorem CommentsRun.authored {registry : Address} {log : List (CommentsState × CommentsEnv × Call)}
    (hC : ChecksLength C) (hrun : CommentsRun C registry log s)
    (hvoting : ∀ e ∈ log, ∃ registry guardian votes, VotingRun C registry guardian votes e.2.1.voting) :
    Authored s := by
  have hinit : Authored (constructor registry) := fun _ _ hfound => by cases hfound
  have hkeys : ∀ e ∈ log, ∀ d, KeysOk (e.2.1.voting.daos d).keys := fun e he d => by
    obtain ⟨_, _, _, hvotes⟩ := hvoting e he
    exact hvotes.keysOk d
  exact Run.invariant_of (C := fun _ call => ∀ d, KeysOk (call.1.voting.daos d).keys) hinit
    (fun s call s' hs hkeys hstep => step_authored hC hkeys hs hstep) hrun hkeys

end

/-! ## Ballots -/

/-- The proof of a ballot, on either curve. -/
inductive BallotProof where
  | bn254 (proof : Proof)
  | bls381 (proof : ProofBls381)

/-- The voting contract, had this nullifier not been used and the proposal no deadline. -/
def forgiven (v : VotingState) (dao_id proposal_id : Nat) (nullifier : U256) : VotingState :=
  let e := v.elections dao_id proposal_id
  v.set_election dao_id proposal_id { e with
    proposal := e.proposal.map fun p => { p with end_time := 0 }
    ballots := { e.ballots with
      nullifier := Function.update e.ballots.nullifier nullifier false
      nullifier_temporary := Function.update e.ballots.nullifier_temporary nullifier false } }

/-- `vote` or `vote_bls381` would take the ballot, the use of its nullifier and the deadline apart. -/
def Votable (C : Crypto) (env : CommentsEnv) (dao_id proposal_id : Nat) (vote_choice : Bool)
    (nullifier root : U256) : BallotProof → Prop
  | .bn254 proof => (Voting.vote C env.toVotingEnv (forgiven env.voting dao_id proposal_id nullifier) dao_id
      proposal_id vote_choice nullifier root proof).isOk = true
  | .bls381 proof => (Voting.vote_bls381 C env.toVotingEnv (forgiven env.voting dao_id proposal_id nullifier)
      dao_id proposal_id vote_choice nullifier root proof).isOk = true

/-- A comment that comes with the ballot's proof. -/
def comment_with (C : Crypto) (env : CommentsEnv) (s : CommentsState) (dao_id proposal_id : Nat)
    (content_cid : Bytes) (parent_id : Option Nat) (vote_choice : Bool) (nullifier root : U256) :
    BallotProof → Outcome CommentsError (Nat × CommentsState)
  | .bn254 proof =>
    add_anonymous_comment C env s dao_id proposal_id content_cid parent_id nullifier root vote_choice proof
  | .bls381 proof =>
    add_anonymous_comment_bls381 C env s dao_id proposal_id content_cid parent_id nullifier root vote_choice proof

/-- Some comment with the ballot's proof is accepted. -/
def Commentable (C : Crypto) (env : CommentsEnv) (s : CommentsState) (dao_id proposal_id : Nat)
    (vote_choice : Bool) (nullifier root : U256) (proof : BallotProof) : Prop :=
  ∃ content_cid parent_id,
    (comment_with C env s dao_id proposal_id content_cid parent_id vote_choice nullifier root proof).isOk = true

/-- The check that the proof is put to. -/
def BallotProof.check (C : Crypto) (env : CommentsEnv) (dao_id : Nat) : BallotProof → ProofCheck
  | .bn254 proof => Comments.bn254 C env dao_id proof
  | .bls381 proof => Comments.bls381 C env dao_id proof

section
variable {C : Crypto} {env : CommentsEnv} {s : CommentsState} {dao_id proposal_id : Nat} {nullifier root : U256}
  {vote_choice : Bool} {proof : BallotProof} {registry guardian : Address}
  {votes : List (VotingState × Voting.VotingEnv × Voting.Call)}

theorem comment_with_eq {content_cid : Bytes} {parent_id : Option Nat} :
    comment_with C env s dao_id proposal_id content_cid parent_id vote_choice nullifier root proof =
      add_anonymous (proof.check C env dao_id) env s dao_id proposal_id content_cid parent_id nullifier root
        vote_choice := by
  cases proof <;> rfl

theorem BallotProof.check_wants (hC : ChecksLength C) (hkeys : KeysOk (env.voting.daos dao_id).keys) :
    (proof.check C env dao_id).Wants 6 := by
  cases proof with
  | bn254 proof => exact bn254_wants hC hkeys
  | bls381 proof => exact bls381_wants hC hkeys

@[simp] theorem forgiven_proposal : ((forgiven env.voting dao_id proposal_id nullifier).elections dao_id
    proposal_id).proposal =
      (env.voting.elections dao_id proposal_id).proposal.map fun p => { p with end_time := 0 } := by
  simp [forgiven, VotingState.set_election]

theorem Votable.shared (h : Votable C env dao_id proposal_id vote_choice nullifier root proof) :
    (proof.check C env dao_id).in_field nullifier = .ok () ∧ (proof.check C env dao_id).in_field root = .ok () ∧
      nullifier ≠ 0 ∧ ∃ p, (env.voting.elections dao_id proposal_id).proposal = some p ∧
        RootEligible env.toVotingEnv dao_id p root := by
  cases proof with
  | bn254 proof =>
    simp only [Votable, isOk_iff, Voting.vote, bind_eq_ok, require_eq_ok, expect_eq_ok,
      Voting.assert_in_field_eq_ok, Voting.assert_root_eligible_eq_ok, Voting.set_reentrancy_lock_eq_ok,
      Voting.require_not_paused_eq_ok] at h
    obtain ⟨_, _, ⟨-, rfl⟩, _, ⟨-, rfl⟩, _, hn, _, hr, _, hne, _, -, p, hp, _, -, _, -, _, hroot, -⟩ := h
    simp only [Voting.locked_elections, Voting.resumed_elections, forgiven_proposal, Option.map_eq_some_iff] at hp
    obtain ⟨p, hp, rfl⟩ := hp
    exact ⟨require_eq_ok.mpr hn, require_eq_ok.mpr hr, hne, p, hp, hroot⟩
  | bls381 proof =>
    simp only [Votable, isOk_iff, Voting.vote_bls381, bind_eq_ok, require_eq_ok, expect_eq_ok,
      Voting.assert_in_field_bls381_eq_ok, Voting.assert_root_eligible_eq_ok, Voting.set_reentrancy_lock_eq_ok,
      Voting.require_not_paused_eq_ok] at h
    obtain ⟨_, _, ⟨-, rfl⟩, _, ⟨-, rfl⟩, _, hn, _, hr, _, hne, _, -, p, hp, _, -, _, -, _, hroot, -⟩ := h
    simp only [Voting.locked_elections, Voting.resumed_elections, forgiven_proposal, Option.map_eq_some_iff] at hp
    obtain ⟨p, hp, rfl⟩ := hp
    exact ⟨require_eq_ok.mpr hn, require_eq_ok.mpr hr, hne, p, hp, hroot⟩

/-- A ballot's comment gets as far as its proof, and no further. -/
theorem ballot_stops_at_proof {content_cid : Bytes} {verify : List U256 → Bool} (hC : ChecksLength C)
    (hrun : VotingRun C registry guardian votes env.voting) (hcontent : content_cid.length ≤ MAX_CID_LEN)
    (hkey : (proof.check C env dao_id).verifier = .ok verify)
    (hvote : Votable C env dao_id proposal_id vote_choice nullifier root proof) :
    comment_with C env s dao_id proposal_id content_cid none vote_choice nullifier root proof =
      fail .ProofInvalid := by
  obtain ⟨hnullifier, hroot, hne, p, hp, heligible⟩ := hvote.shared
  have hcount : proposal_id ≤ (env.voting.daos dao_id).proposal_count :=
    (hrun.ok.elections dao_id proposal_id).numbered (by rw [hp]; simp)
  have hid : proposal_id ≠ 0 := by
    rintro rfl
    rw [hrun.proposal_zero] at hp
    cases hp
  have hexists : assert_proposal_exists env dao_id proposal_id = .ok () := by
    unfold assert_proposal_exists Voting.proposal_count
    rw [require_eq_ok]
    omega
  have hfail : assert_proof (proof.check C env dao_id) env dao_id proposal_id vote_choice nullifier root =
      fail .ProofInvalid :=
    assert_proof_eq_error (BallotProof.check_wants hC (hrun.keysOk dao_id)) hexists hp heligible hkey
  rw [comment_with_eq]
  unfold add_anonymous
  rw [hnullifier, hroot, hfail]
  simp only [ok_bind, require, if_pos hne, assert_content, if_pos hcontent, assert_parent]
  rfl

end

/-- A ballot makes a comment never: if the voting contract takes its proof, the comments contract does not. -/
theorem ballots_make_comments_iff {C : Crypto} (hC : ChecksLength C) {env : CommentsEnv}
    {registry guardian : Address} {votes : List (VotingState × Voting.VotingEnv × Voting.Call)}
    (hrun : VotingRun C registry guardian votes env.voting) (s : CommentsState) (dao_id proposal_id : Nat)
    (vote_choice : Bool) (nullifier root : U256) (proof : BallotProof) :
    (Votable C env dao_id proposal_id vote_choice nullifier root proof →
      Commentable C env s dao_id proposal_id vote_choice nullifier root proof) ↔
      ¬ Votable C env dao_id proposal_id vote_choice nullifier root proof := by
  have hreject : ¬ Commentable C env s dao_id proposal_id vote_choice nullifier root proof := by
    rintro ⟨content_cid, parent_id, hcomment⟩
    rw [comment_with_eq, isOk_iff] at hcomment
    obtain ⟨r, hr⟩ := hcomment
    exact add_anonymous_ne_ok (BallotProof.check_wants hC (hrun.keysOk dao_id)) hr
  exact ⟨fun h hvote => hreject (h hvote), fun h hvote => absurd hvote h⟩

/-! ## A ballot on each curve -/

/-- A proof is made for one list of signals. -/
structure BindsSignals (C : Crypto) (made : BallotProof → List U256) : Prop where
  bn254 : ∀ vk proof signals, C.verify_groth16 vk proof signals = true → signals = made (.bn254 proof)
  bls381 : ∀ vk proof signals, C.verify_groth16_bls381 vk proof signals = true → signals = made (.bls381 proof)

/-- A yes under nullifier 3: on proposal 1 with the one curve, on proposal 2 with the other. -/
def sampleMade : BallotProof → List U256
  | .bn254 _ => [Tree.sampleRoot, 3, 0, 1, 1, 2]
  | .bls381 _ => [Tree.sampleRoot, 3, 0, 2, 1, 2]

def madeCrypto : Crypto :=
  { Voting.sampleCrypto with
    verify_groth16 := fun vk proof signals =>
      decide (signals = sampleMade (.bn254 proof) ∧ signals.length + 1 = vk.ic.length)
    verify_groth16_bls381 := fun vk proof signals =>
      decide (signals = sampleMade (.bls381 proof) ∧ signals.length + 1 = vk.ic.length) }

theorem madeCrypto_checksLength : ChecksLength madeCrypto :=
  ⟨fun _ _ _ h => (of_decide_eq_true h).2, fun _ _ _ h => (of_decide_eq_true h).2⟩

theorem madeCrypto_bindsSignals : BindsSignals madeCrypto sampleMade :=
  ⟨fun _ _ _ h => (of_decide_eq_true h).1, fun _ _ _ h => (of_decide_eq_true h).1⟩

def sampleVkBls381 : VerificationKeyBls381 where
  alpha := Vector.replicate 96 0
  beta := Vector.replicate 192 0
  gamma := Vector.replicate 192 0
  delta := Vector.replicate 192 0
  ic := List.replicate 7 (Vector.replicate 96 0)

def sampleProofBls381 : ProofBls381 where
  a := Vector.replicate 96 0
  b := Vector.replicate 192 0
  c := Vector.replicate 96 0

/-- The proposal of each curve, and a proof for it. -/
def sampleBallots : List (Nat × BallotProof) := [(1, .bn254 Voting.sampleProof), (2, .bls381 sampleProofBls381)]

def twoCurves : List Voting.Call :=
  Voting.openElection 100 ++
    [.dao (.set_vk_from_registry_bls381 0 sampleVkBls381), .create (.create_proposal 0 [] [] 100 1 .Fixed)]

def envOf (v : VotingState) : CommentsEnv := { Voting.sampleEnv with voting := v }

def votable (v : VotingState) (ballot : Nat × BallotProof) : Bool :=
  match ballot.2 with
  | .bn254 proof => (Voting.vote madeCrypto Voting.sampleEnv (forgiven v 0 ballot.1 3) 0 ballot.1 true 3
      Tree.sampleRoot proof).isOk
  | .bls381 proof => (Voting.vote_bls381 madeCrypto Voting.sampleEnv (forgiven v 0 ballot.1 3) 0 ballot.1 true 3
      Tree.sampleRoot proof).isOk

theorem votable_sound {v : VotingState} {ballot : Nat × BallotProof} (h : votable v ballot = true) :
    Votable madeCrypto (envOf v) 0 ballot.1 true 3 Tree.sampleRoot ballot.2 := by
  obtain ⟨id, proof⟩ := ballot
  cases proof <;> exact h

theorem exists_ballots : ∃ votes v, VotingRun madeCrypto 0 0 votes (envOf v).voting ∧
    ∀ ballot ∈ sampleBallots, Votable madeCrypto (envOf v) 0 ballot.1 true 3 Tree.sampleRoot ballot.2 := by
  obtain ⟨votes, v, hrun, htest⟩ := Voting.exists_run (C := madeCrypto) (r := 0) (g := 0) twoCurves
    (fun _ v => sampleBallots.all (votable v)) (by decide +kernel)
  exact ⟨votes, v, hrun, fun ballot hb => votable_sound (List.all_eq_true.mp htest ballot hb)⟩

theorem ballots_make_comments_iff_on_each_curve : ∃ env votes, VotingRun madeCrypto 0 0 votes env.voting ∧
    ∀ ballot ∈ sampleBallots,
      Votable madeCrypto env 0 ballot.1 true 3 Tree.sampleRoot ballot.2 ∧
      ((Votable madeCrypto env 0 ballot.1 true 3 Tree.sampleRoot ballot.2 →
        Commentable madeCrypto env (constructor 0) 0 ballot.1 true 3 Tree.sampleRoot ballot.2) ↔
        ¬ Votable madeCrypto env 0 ballot.1 true 3 Tree.sampleRoot ballot.2) := by
  obtain ⟨votes, v, hrun, hvotable⟩ := exists_ballots
  exact ⟨envOf v, votes, hrun, fun ballot hb => ⟨hvotable ballot hb,
    ballots_make_comments_iff madeCrypto_checksLength hrun (constructor 0) 0 ballot.1 true 3 Tree.sampleRoot
      ballot.2⟩⟩

/-- On each curve there is a ballot that the voting contract takes and that makes no comment. -/
theorem ballots_without_comments : ∃ env votes, VotingRun madeCrypto 0 0 votes env.voting ∧
    BindsSignals madeCrypto sampleMade ∧ ChecksLength madeCrypto ∧
    ∀ ballot ∈ sampleBallots, Votable madeCrypto env 0 ballot.1 true 3 Tree.sampleRoot ballot.2 ∧
      ¬ Commentable madeCrypto env (constructor 0) 0 ballot.1 true 3 Tree.sampleRoot ballot.2 := by
  obtain ⟨votes, v, hrun, hvotable⟩ := exists_ballots
  refine ⟨envOf v, votes, hrun, madeCrypto_bindsSignals, madeCrypto_checksLength, fun ballot hb =>
    ⟨hvotable ballot hb, ?_⟩⟩
  rintro ⟨content_cid, parent_id, hcomment⟩
  rw [comment_with_eq, isOk_iff] at hcomment
  obtain ⟨r, hr⟩ := hcomment
  exact add_anonymous_ne_ok (BallotProof.check_wants madeCrypto_checksLength (hrun.keysOk 0)) hr

end ZkVote.Comments
