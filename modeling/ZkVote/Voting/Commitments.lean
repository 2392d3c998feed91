import ZkVote.Voting.Finality

/-!
# The voting contract: committed votes

What a commitment binds, and the votes that are counted from commitments.
-/

open Lib Lib.Outcome

namespace ZkVote.Voting

/-- What a commitment is of. -/
structure Opening where
  dao_id : Nat
  proposal_id : Nat
  nullifier : U256
  vote_choice : Bool
  blinding : Bytes

namespace Opening

/-- Ids of 64 bits, a nullifier of 256. -/
def Fits (o : Opening) : Prop := o.dao_id < 2 ^ 64 ∧ o.proposal_id < 2 ^ 64 ∧ o.nullifier < 2 ^ 256

/-- What is hashed. -/
def input (o : Opening) : Bytes :=
  COMMIT_DOMAIN ++ toBeBytes 8 o.dao_id ++ toBeBytes 8 o.proposal_id ++ U256.to_be_bytes o.nullifier ++
    toBeBytes 4 (vote_choice_index o.vote_choice) ++ o.blinding

def commitment (C : Crypto) (o : Opening) : BytesN 32 :=
  compute_vote_commitment C o.dao_id o.proposal_id o.nullifier o.vote_choice o.blinding

end Opening

theorem toBeBytes_injective {w a b : Nat} (ha : a < 256 ^ w) (hb : b < 256 ^ w) (h : toBeBytes w a = toBeBytes w b) :
    a = b := by
  have hmod := mod_of_toBeBytes h
  rwa [Nat.mod_eq_of_lt ha, Nat.mod_eq_of_lt hb] at hmod

theorem vote_choice_index_injective {a b : Bool} (h : toBeBytes 4 (vote_choice_index a) =
    toBeBytes 4 (vote_choice_index b)) : a = b := by
  have hsmall : ∀ choice, vote_choice_index choice < 256 ^ 4 := by decide
  have hindex := toBeBytes_injective (hsmall a) (hsmall b) h
  revert hindex
  cases a <;> cases b <;> decide

/-- Only the blinding varies in length, and it comes last. -/
theorem Opening.input_injective {o o' : Opening} (h : o.Fits) (h' : o'.Fits) (heq : o.input = o'.input) : o = o' := by
  obtain ⟨hdao, hproposal, hnullifier⟩ := h
  obtain ⟨hdao', hproposal', hnullifier'⟩ := h'
  unfold input U256.to_be_bytes at heq
  obtain ⟨heq, hblinding⟩ := List.append_inj heq (by simp)
  obtain ⟨heq, hchoice⟩ := List.append_inj heq (by simp)
  obtain ⟨heq, hn⟩ := List.append_inj heq (by simp)
  obtain ⟨heq, hq⟩ := List.append_inj heq (by simp)
  obtain ⟨-, hd⟩ := List.append_inj heq (by simp)
  cases o
  cases o'
  rw [Opening.mk.injEq]
  exact ⟨toBeBytes_injective hdao hdao' hd, toBeBytes_injective hproposal hproposal' hq,
    toBeBytes_injective hnullifier hnullifier' hn, vote_choice_index_injective hchoice, hblinding⟩

/-! ## Commitments and reveals of a run -/

/-- The commitment that the call puts under the nullifier. -/
def Call.commits (dao_id proposal_id : Nat) (nullifier : U256) : Call → Option (BytesN 32)
  | .ballot (.commit_vote d q n _ commitment _) =>
    if d = dao_id ∧ q = proposal_id ∧ n = nullifier then some commitment else none
  | _ => none

/-- The opening that the call reveals. -/
def Call.reveals : Call → Option Opening
  | .tally (.reveal_vote d q n vote_choice blinding) => some ⟨d, q, n, vote_choice, blinding⟩
  | _ => none

/-- The call reveals what is under the nullifier. -/
def Call.RevealsAt (dao_id proposal_id : Nat) (nullifier : U256) (call : Call) : Prop :=
  ∃ o, call.reveals = some o ∧ o.dao_id = dao_id ∧ o.proposal_id = proposal_id ∧ o.nullifier = nullifier

section
variable {C : Crypto} {env : VotingEnv} {s s' : VotingState} {call : Call} {d q : Nat} {n : U256}
  {e' : Election}

/-- What is stored under a nullifier after the call. -/
def CommitsOf (s s' : VotingState) (call : Call) : Prop :=
  ∀ d q n, (s'.elections d q).ballots.vote_commit n =
      (call.commits d q n).or ((s.elections d q).ballots.vote_commit n) ∧
    (call.commits d q n ≠ none → (s.elections d q).ballots.vote_commit n = none)

theorem commitsOf_of_same (hsame : ∀ d q, (s'.elections d q).ballots.vote_commit = (s.elections d q).ballots.vote_commit)
    (hnone : ∀ d q n, call.commits d q n = none) : CommitsOf s s' call := by
  intro d q n
  rw [hnone, hsame]
  simp

theorem Rewrites.same {α : Type} (f : Election → α) (hr : Rewrites s s' d q e') (hf : f e' = f (s.elections d q))
    (d' q' : Nat) : f (s'.elections d' q') = f (s.elections d' q') := by
  by_cases hdq : d' = d ∧ q' = q
  · obtain ⟨rfl, rfl⟩ := hdq
    rw [hr.self, hf]
  · rw [hr.of_ne hdq]

theorem commit_vote_commits {root : U256} {commitment : BytesN 32} {proof : Proof}
    (h : commit_vote C env s d q n root commitment proof = .ok s') :
    CommitsOf s s' (.ballot (.commit_vote d q n root commitment proof)) := by
  simp [commit_vote] at h
  obtain ⟨-, -, -, -, -, config, -, -, p, -, -, -, -, habsent, vk, -, -, -, rfl⟩ := h
  intro d' q' n'
  by_cases hslot : d = d' ∧ q = q' ∧ n = n'
  · have hsome : (Call.ballot (.commit_vote d q n root commitment proof)).commits d' q' n' = some commitment :=
      if_pos hslot
    obtain ⟨rfl, rfl, rfl⟩ := hslot
    rw [hsome]
    simp [habsent]
  · have hnone : (Call.ballot (.commit_vote d q n root commitment proof)).commits d' q' n' = none := if_neg hslot
    rw [hnone, Option.none_or]
    refine ⟨?_, by simp⟩
    simp only [clear_reentrancy_lock_elections, VotingState.set_election_apply]
    split
    · next hdq =>
      have hne : n' ≠ n := fun hn => hslot ⟨hdq.1.symm, hdq.2.symm, hn.symm⟩
      obtain ⟨rfl, rfl⟩ := hdq
      simp [hne]
    · rfl

/-- The commitments of every election and their number are as they were. -/
def SameCommits (s s' : VotingState) : Prop :=
  ∀ d q, ((s'.elections d q).ballots.vote_commit, (s'.elections d q).ballots.vote_commit_count) =
    ((s.elections d q).ballots.vote_commit, (s.elections d q).ballots.vote_commit_count)

theorem SameCommits.vote_commit (h : SameCommits s s') (d q : Nat) :
    (s'.elections d q).ballots.vote_commit = (s.elections d q).ballots.vote_commit := (Prod.mk.inj (h d q)).1

theorem Rewrites.sameCommits (hr : Rewrites s s' d q e')
    (hsame : (e'.ballots.vote_commit, e'.ballots.vote_commit_count) =
      ((s.elections d q).ballots.vote_commit, (s.elections d q).ballots.vote_commit_count)) : SameCommits s s' :=
  hr.same (fun e => (e.ballots.vote_commit, e.ballots.vote_commit_count)) hsame

theorem ballot_sameCommits {call : BallotCall} (h : call.run C env s = .ok s') (hcommit : call.isCommit = false) :
    SameCommits s s' := by
  cases call with
  | commit_vote => cases hcommit
  | vote =>
    simp [BallotCall.run, vote] at h
    obtain ⟨-, -, -, -, -, -, p, -, -, -, -, vk, -, -, -, -, rfl⟩ := h
    exact Rewrites.sameCommits ⟨⟨rfl, rfl, rfl, rfl, rfl, rfl⟩, rfl, rfl, rfl⟩ rfl
  | vote_bls381 =>
    simp [BallotCall.run, vote_bls381] at h
    obtain ⟨-, -, -, -, -, -, p, -, -, -, -, vk, -, -, -, -, -, rfl⟩ := h
    exact Rewrites.sameCommits ⟨⟨rfl, rfl, rfl, rfl, rfl, rfl⟩, rfl, rfl, rfl⟩ rfl
  | cast_votes =>
    obtain ⟨⟨k, s₁⟩, hcast, hs⟩ := bind_eq_ok.mp h
    cases hs
    obtain ⟨-, -, p, vk, -, -, -, -, rfl⟩ := cast_votes_eq_ok.mp hcast
    exact Rewrites.sameCommits ⟨⟨rfl, rfl, rfl, rfl, rfl, rfl⟩, rfl, rfl, rfl⟩ rfl
  | vote_with_circuit =>
    simp [BallotCall.run, vote_with_circuit] at h
    obtain ⟨-, -, -, -, -, p, -, -, -, vk, -, -, -, -, -, rfl⟩ := h
    exact Rewrites.sameCommits ⟨⟨rfl, rfl, rfl, rfl, rfl, rfl⟩, rfl, rfl, rfl⟩ rfl
  | vote_weighted =>
    simp [BallotCall.run, vote_weighted] at h
    obtain ⟨-, -, -, -, -, -, -, -, -, -, -, p, -, -, -, -, -, vk, -, -, -, -, rfl⟩ := h
    exact Rewrites.sameCommits ⟨⟨rfl, rfl, rfl, rfl, rfl, rfl⟩, rfl, rfl, rfl⟩ rfl
  | vote_sybil_weighted =>
    simp [BallotCall.run, vote_sybil_weighted] at h
    obtain ⟨-, -, -, -, -, -, -, -, -, p, -, -, -, vk, -, -, -, -, -, rfl⟩ := h
    exact Rewrites.sameCommits ⟨⟨rfl, rfl, rfl, rfl, rfl, rfl⟩, rfl, rfl, rfl⟩ rfl
  | cast_qv_vote =>
    simp [BallotCall.run, cast_qv_vote] at h
    obtain ⟨-, -, -, -, -, -, p, -, -, -, -, -, vk, -, -, -, -, -, rfl⟩ := h
    exact Rewrites.sameCommits ⟨.refl _, rfl, rfl, rfl⟩ rfl
  | vote_encrypted => exact absurd h vote_encrypted_rejected
  | record_bridged_vote => exact absurd h record_bridged_vote_rejected

theorem ballot_commits {call : BallotCall} (h : call.run C env s = .ok s') : CommitsOf s s' (.ballot call) := by
  cases hcommit : call.isCommit with
  | true =>
    cases call <;> simp [BallotCall.isCommit] at hcommit
    exact commit_vote_commits h
  | false =>
    refine commitsOf_of_same (ballot_sameCommits h hcommit).vote_commit fun d q n => ?_
    cases call <;> simp [BallotCall.isCommit] at hcommit <;> rfl

theorem step_commits (hdormant : Dormant s) (h : step C s env call = .ok s') : CommitsOf s s' call := by
  cases step_effect hdormant h with
  | ballot => exact ballot_commits h
  | @tally call e' rewrites effect =>
    refine commitsOf_of_same (rewrites.same (fun e => e.ballots.vote_commit) ?_) fun _ _ _ => rfl
    cases effect with
    | revealed hp hp' counts committed fresh ballots => rw [ballots]
    | submitted hp hp' attested ballots => rw [ballots]
    | undecided same => rw [same.ballots]
  | @create call id e' p hstep =>
    refine commitsOf_of_same ?_ fun _ _ _ => rfl
    rw [hstep.elections]
    exact VotingState.set_election_forall
      (P := fun d q e => e.ballots.vote_commit = (s.elections d q).ballots.vote_commit) (fun _ _ => rfl) (by rw [hstep.ballots])
  | arranged harranged hballot htally =>
    refine commitsOf_of_same (fun d q => by rw [harranged.ballots]) fun d q n => ?_
    cases call with
    | ballot call => exact absurd rfl (hballot call)
    | _ => rfl

/-- What has been revealed after the call. -/
def RevealsOf (s s' : VotingState) (call : Call) : Prop :=
  ∀ d q n, ((s'.elections d q).ballots.vote_revealed n = true ↔
      call.RevealsAt d q n ∨ (s.elections d q).ballots.vote_revealed n = true) ∧
    (call.RevealsAt d q n → (s.elections d q).ballots.vote_revealed n = false)

theorem revealsOf_of_same
    (hsame : ∀ d q, (s'.elections d q).ballots.vote_revealed = (s.elections d q).ballots.vote_revealed)
    (hnone : call.reveals = none) : RevealsOf s s' call := by
  intro d q n
  have hno : ¬ call.RevealsAt d q n := by
    rintro ⟨o, ho, -⟩
    rw [hnone] at ho
    cases ho
  rw [hsame]
  simp [hno]

theorem BallotEffect.same_revealed {e : Election} {call : BallotCall} (h : BallotEffect e e' call) :
    e'.ballots.vote_revealed = e.ballots.vote_revealed := by
  cases h with
  | counted hp hp' mode spends => exact spends.vote_revealed
  | committed hp hp' mode nullifiers spends => exact spends.vote_revealed
  | quadratic hp hp' mode nullifiers call_eq fresh ballots => rw [ballots]

theorem reveal_vote_reveals {choice : Bool} {blinding : Bytes}
    (h : reveal_vote C env s d q n choice blinding = .ok s') :
    RevealsOf s s' (.tally (.reveal_vote d q n choice blinding)) := by
  simp [reveal_vote] at h
  obtain ⟨-, -, -, -, config, -, -, -, -, hfresh, -, p, -, -, rfl⟩ := h
  intro d' q' n'
  have hat : (Call.tally (.reveal_vote d q n choice blinding)).RevealsAt d' q' n' ↔ d = d' ∧ q = q' ∧ n = n' := by
    simp [Call.RevealsAt, Call.reveals]
  rw [hat]
  simp only [clear_reentrancy_lock_elections, VotingState.set_election_apply]
  by_cases hdq : d' = d ∧ q' = q
  · obtain ⟨rfl, rfl⟩ := hdq
    rw [if_pos ⟨rfl, rfl⟩]
    by_cases hn : n' = n
    · subst hn
      simp [hfresh]
    · simp [hn, Ne.symm hn]
  · rw [if_neg hdq]
    have hne : ¬ (d = d' ∧ q = q' ∧ n = n') := fun heq => hdq ⟨heq.1.symm, heq.2.1.symm⟩
    simp [hne]

theorem step_reveals (hdormant : Dormant s) (h : step C s env call = .ok s') : RevealsOf s s' call := by
  cases step_effect hdormant h with
  | ballot hstep =>
    exact revealsOf_of_same (hstep.rewrites.same (fun e => e.ballots.vote_revealed) hstep.effect.same_revealed) rfl
  | @tally call e' rewrites effect =>
    cases effect with
    | revealed => exact reveal_vote_reveals h
    | submitted hp hp' attested ballots =>
      exact revealsOf_of_same (rewrites.same (fun e => e.ballots.vote_revealed) (by rw [ballots])) rfl
    | undecided same other =>
      by_cases hnone : (Call.tally call).reveals = none
      · exact revealsOf_of_same (rewrites.same (fun e => e.ballots.vote_revealed) (by rw [same.ballots])) hnone
      · cases call with
        | reveal_vote => exact reveal_vote_reveals h
        | _ => exact absurd rfl hnone
  | @create call id e' p hstep =>
    refine revealsOf_of_same ?_ rfl
    rw [hstep.elections]
    exact VotingState.set_election_forall
      (P := fun d q e => e.ballots.vote_revealed = (s.elections d q).ballots.vote_revealed) (fun _ _ => rfl) (by rw [hstep.ballots])
  | arranged harranged hballot htally =>
    refine revealsOf_of_same (fun d q => by rw [harranged.ballots]) ?_
    cases call with
    | tally call => exact absurd rfl (htally call)
    | _ => rfl

theorem reveal_vote_opens {o : Opening}
    (h : reveal_vote C env s o.dao_id o.proposal_id o.nullifier o.vote_choice o.blinding = .ok s') :
    (s.elections o.dao_id o.proposal_id).ballots.vote_commit o.nullifier = some (o.commitment C) ∧
      (∃ p, (s.elections o.dao_id o.proposal_id).proposal = some p ∧
        (s'.elections o.dao_id o.proposal_id).proposal = some (counted p o.vote_choice)) ∧
      ∀ d q, ¬ (d = o.dao_id ∧ q = o.proposal_id) → s'.elections d q = s.elections d q := by
  refine ⟨?_, reveal_vote_counts h, fun d q hne => ?_⟩
  · simp [reveal_vote] at h
    obtain ⟨-, -, -, -, config, -, -, -, -, -, hcommit, -⟩ := h
    exact hcommit
  · simp [reveal_vote] at h
    obtain ⟨-, -, -, -, config, -, -, -, -, -, -, p, -, -, rfl⟩ := h
    rw [clear_reentrancy_lock_elections, VotingState.set_election_apply, if_neg hne]
    rfl

/-! ## Runs -/

/-- The vote that the call reveals has been committed under its nullifier, as no other vote has. It is counted
for its choice, in its own election, and no commitment to it has been revealed before. -/
structure RevealsCommitted (C : Crypto) (known : Bytes → Prop) (m : Moment VotingState (VotingEnv × Call))
    (o : Opening) : Prop where
  committed : ∃ e ∈ m.past, e.2.2.commits o.dao_id o.proposal_id o.nullifier = some (o.commitment C)
  chosen : ∀ e ∈ m.past, ∀ o' : Opening, o'.Fits → known o'.input →
    e.2.2.commits o.dao_id o.proposal_id o.nullifier = some (o'.commitment C) → o' = o
  counts : ∃ p, (m.pre.elections o.dao_id o.proposal_id).proposal = some p ∧
    (m.post.elections o.dao_id o.proposal_id).proposal = some (counted p o.vote_choice)
  others : ∀ d q, ¬ (d = o.dao_id ∧ q = o.proposal_id) → m.post.elections d q = m.pre.elections d q
  once : ∀ e ∈ m.past, ¬ e.2.2.RevealsAt o.dao_id o.proposal_id o.nullifier
  first : ∀ e ∈ m.past, ∀ o', e.2.2.reveals = some o' → o'.Fits → known o'.input → o'.commitment C ≠ o.commitment C

theorem Opening.commitment_injective {known : Bytes → Prop}
    (hinj : ∀ a b, known a → known b → C.sha256 a = C.sha256 b → a = b) {o o' : Opening} (h : o.Fits) (h' : o'.Fits)
    (hknown : known o.input) (hknown' : known o'.input) (heq : o.commitment C = o'.commitment C) : o = o' :=
  Opening.input_injective h h' (hinj _ _ hknown hknown' heq)

section
variable {registry guardian : Address} {log : List (VotingState × VotingEnv × Call)}

/-- The commitment under a nullifier is the one that a call of the run put there. -/
theorem VotingRun.committed (hrun : VotingRun C registry guardian log s) {c : BytesN 32} :
    (s.elections d q).ballots.vote_commit n = some c ↔ ∃ e ∈ log, e.2.2.commits d q n = some c := by
  refine Run.invariant_log (P := fun log s => (s.elections d q).ballots.vote_commit n = some c ↔
      ∃ e ∈ log, e.2.2.commits d q n = some c)
    (by simp [Voting.constructor]) (fun log s call s' hr hlog (hs : Accepts C s call s') => ?_) hrun
  obtain ⟨hstored, habsent⟩ := step_commits (VotingRun.ok hr).dormant hs d q n
  rw [hstored]
  cases hcall : call.2.commits d q n with
  | none =>
    rw [Option.none_or, hlog]
    simp [hcall]
  | some c' =>
    have hnone := habsent (by rw [hcall]; exact Option.some_ne_none _)
    rw [hnone] at hlog
    have hold : ¬ ∃ e ∈ log, e.2.2.commits d q n = some c := fun he => by cases hlog.mpr he
    simp only [Option.some_or, List.mem_cons, exists_eq_or_imp, hcall, or_iff_left hold]

theorem VotingRun.revealed (hrun : VotingRun C registry guardian log s) :
    (s.elections d q).ballots.vote_revealed n = true ↔ ∃ e ∈ log, e.2.2.RevealsAt d q n := by
  refine Run.invariant_log (P := fun log s => (s.elections d q).ballots.vote_revealed n = true ↔
      ∃ e ∈ log, e.2.2.RevealsAt d q n)
    (by simp [Voting.constructor]) (fun log s call s' hr hlog (hs : Accepts C s call s') => ?_) hrun
  rw [(step_reveals (VotingRun.ok hr).dormant hs d q n).1, hlog]
  simp only [List.mem_cons, exists_eq_or_imp]

/-- Of the past of a reveal. -/
theorem VotingRun.reveal {known : Bytes → Prop}
    (hinj : ∀ a b, known a → known b → C.sha256 a = C.sha256 b → a = b)
    (hrun : VotingRun C registry guardian log s) (hs : Accepts C s (env, call) s') {o : Opening}
    (ho : call.reveals = some o) (hfits : o.Fits) (hknown : known o.input) :
    RevealsCommitted C known ⟨log, s, (env, call), s'⟩ o := by
  have hdormant := (VotingRun.ok hrun).dormant
  have hat : call.RevealsAt o.dao_id o.proposal_id o.nullifier := ⟨o, ho, rfl, rfl, rfl⟩
  have hunrevealed := (step_reveals hdormant hs o.dao_id o.proposal_id o.nullifier).2 hat
  have hreveal : reveal_vote C env s o.dao_id o.proposal_id o.nullifier o.vote_choice o.blinding = .ok s' := by
    unfold Call.reveals at ho
    split at ho
    · cases ho
      exact hs
    · cases ho
  obtain ⟨hcommit, hcounts, hothers⟩ := reveal_vote_opens hreveal
  have honce : ∀ e ∈ log, ¬ e.2.2.RevealsAt o.dao_id o.proposal_id o.nullifier := by
    intro e he hreveals
    rw [(VotingRun.revealed hrun).mpr ⟨e, he, hreveals⟩] at hunrevealed
    cases hunrevealed
  refine ⟨(VotingRun.committed hrun).mp hcommit, fun e he o' hfits' hknown' hcommits => ?_, hcounts, hothers, honce,
    fun e he o' ho' hfits' hknown' heq => ?_⟩
  · have hstored := (VotingRun.committed hrun).mpr ⟨e, he, hcommits⟩
    rw [hcommit, Option.some.injEq] at hstored
    exact (Opening.commitment_injective hinj hfits hfits' hknown hknown' hstored).symm
  · have hsame := Opening.commitment_injective hinj hfits' hfits hknown' hknown heq
    subst hsame
    exact honce e he ⟨_, ho', rfl, rfl, rfl⟩

theorem VotingRun.reveals {known : Bytes → Prop}
    (hinj : ∀ a b, known a → known b → C.sha256 a = C.sha256 b → a = b)
    (hrun : VotingRun C registry guardian log s) :
    ∀ m ∈ Run.moments log s, ∀ o, m.call.2.reveals = some o → o.Fits → known o.input →
      RevealsCommitted C known m o := by
  refine Run.forall_moments (fun log s i s' hr hs o ho hfits hknown => ?_) hrun
  exact VotingRun.reveal hinj hr hs ho hfits hknown

end

end

end ZkVote.Voting
