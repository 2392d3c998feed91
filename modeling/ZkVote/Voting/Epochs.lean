import ZkVote.Voting.Steps

/-!
# The voting contract: key epochs

Which epochs the check of an encrypted ballot lets through, and which ballots get in.
-/

open Lib Lib.Outcome

namespace ZkVote.Voting

/-- The rotation to the current epoch is no older than the grace period. -/
def WithinGrace (env : VotingEnv) (dao_id : Nat) : Prop :=
  ∃ advanced_at, Tree.epoch_advanced_at env.tree dao_id (Tree.current_epoch env.tree dao_id) = .ok advanced_at ∧
    env.timestamp ≤ advanced_at + EPOCH_GRACE_SECS

/-- The current epoch, or the one before it shortly after the rotation. -/
def EpochKept (env : VotingEnv) (dao_id epoch : Nat) : Prop :=
  epoch = Tree.current_epoch env.tree dao_id ∨
    epoch + 1 = Tree.current_epoch env.tree dao_id ∧ WithinGrace env dao_id

section
variable {C : Crypto} {env : VotingEnv} {ctx : PathContext} {dao_id epoch registry guardian : Nat}
  {log : List (VotingState × VotingEnv × Call)} {s : VotingState}

theorem assert_epoch_eq_ok (htime : env.timestamp ≤ u64Max) : assert_epoch env ctx dao_id epoch = .ok () ↔
    epoch = Tree.current_epoch env.tree dao_id ∨
      epoch < Tree.current_epoch env.tree dao_id ∧ WithinGrace env dao_id := by
  have hsaturated : ∀ advanced_at, ¬ saturatingAdd 64 advanced_at EPOCH_GRACE_SECS < env.timestamp ↔
      env.timestamp ≤ advanced_at + EPOCH_GRACE_SECS := by
    intro advanced_at
    unfold saturatingAdd
    unfold u64Max at htime
    omega
  unfold assert_epoch WithinGrace
  simp only [bind_eq_ok, require_eq_ok]
  by_cases hearlier : epoch < Tree.current_epoch env.tree dao_id
  · simp [hearlier, hearlier.ne, hearlier.le, hsaturated]
  · simp only [hearlier, if_false, false_and, or_false, and_true, exists_const]
    omega

/-- The check goes further than the rule: within the grace period every earlier epoch passes. -/
theorem epochKept_of_passed (hpassed : epoch = Tree.current_epoch env.tree dao_id ∨
    epoch < Tree.current_epoch env.tree dao_id ∧ WithinGrace env dao_id) :
    EpochKept env dao_id epoch ↔ Tree.current_epoch env.tree dao_id ≤ epoch + 1 := by
  unfold EpochKept
  obtain rfl | ⟨hearlier, hgrace⟩ := hpassed
  · simp
  · simp only [hgrace, and_true]
    omega

/-- The encrypted ballots of the log. -/
def encryptedBallots (log : List (VotingState × VotingEnv × Call)) : List (VotingEnv × Nat × Nat) :=
  log.filterMap fun
    | (_, env, .ballot (.vote_encrypted dao_id _ _ _ epoch _ _ _ _)) => some (env, dao_id, epoch)
    | _ => none

theorem encryptedBallots_eq_nil (hrun : VotingRun C registry guardian log s) : encryptedBallots log = [] := by
  induction hrun with
  | start => rfl
  | @call log s s' i hrun hs ih =>
    obtain ⟨env, call⟩ := i
    unfold encryptedBallots at ih ⊢
    rw [List.filterMap_cons]
    split
    · exact ih
    · next ballot hballot =>
      split at hballot
      · next heq =>
        cases heq
        exact absurd hs vote_encrypted_rejected
      · cases hballot

/-- Every encrypted ballot that gets in keeps the rule: the nullifier of none survives the extension of its TTL. What
the check of the epoch lets through by itself keeps it only up to the epoch before the current one. -/
theorem encrypted_epochs_kept (hrun : VotingRun C registry guardian log s) :
    (∀ b ∈ encryptedBallots log, EpochKept b.1 b.2.1 b.2.2) ∧
      (∀ env dao_id proposal_id nullifier root epoch c1 c_yes c_no proof s',
        vote_encrypted C env s dao_id proposal_id nullifier root epoch c1 c_yes c_no proof = .ok s' →
          EpochKept env dao_id epoch) ∧
      ∀ env ctx dao_id epoch, env.timestamp ≤ u64Max → assert_epoch env ctx dao_id epoch = .ok () →
        (EpochKept env dao_id epoch ↔ Tree.current_epoch env.tree dao_id ≤ epoch + 1) := by
  refine ⟨?_, ?_, ?_⟩
  · rw [encryptedBallots_eq_nil hrun]
    exact List.forall_mem_nil _
  · intro env dao_id proposal_id nullifier root epoch c1 c_yes c_no proof s' h
    exact absurd h vote_encrypted_rejected
  · intro env ctx dao_id epoch htime h
    exact epochKept_of_passed ((assert_epoch_eq_ok htime).mp h)

end

def twoRotations : VotingEnv where
  __ := sampleEnv
  tree := Tree.sampleTree.set_dao 0 { Tree.sampleTree.daos 0 with
    epoch := some 2
    epoch_advanced_at := fun _ => some 10 }

/-- In an open election; and after two rotations the check lets the first epoch through. -/
theorem encrypted_epochs_kept_in_election : ∃ log s, VotingRun sampleCrypto 0 0 log s ∧
    (∀ b ∈ encryptedBallots log, EpochKept b.1 b.2.1 b.2.2) ∧ (s.elections 0 1).proposal ≠ none ∧
    ¬ EpochKept twoRotations 0 0 := by
  obtain ⟨log, s, hrun, htest⟩ := exists_run (C := sampleCrypto) (r := 0) (g := 0) (openElection 20)
    (fun _ s => (s.elections 0 1).proposal.isSome) (by decide +kernel)
  obtain ⟨hkept, -, hpassed⟩ := encrypted_epochs_kept hrun
  refine ⟨log, s, hrun, hkept, Option.isSome_iff_ne_none.mp htest, ?_⟩
  rw [hpassed twoRotations .Anonymous 0 0 (by decide +kernel) (by decide +kernel)]
  decide +kernel

end ZkVote.Voting
