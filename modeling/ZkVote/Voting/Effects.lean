import ZkVote.Voting.Batches

/-!
# The voting contract: what a ballot does

Eight of the ten entry points record the nullifiers of a ballot in one table, one
keeps a table of its own, and two never get that far.
-/

open Lib Lib.Outcome

namespace ZkVote.Voting

/-- The call rewrites one election, and none of the entries that say who may do what. -/
structure Rewrites (s s' : VotingState) (dao_id proposal_id : Nat) (e' : Election) : Prop where
  inst : SameInst s.inst s'.inst
  daos : s'.daos = s.daos
  legacy : s'.legacy_nullifier_used = s.legacy_nullifier_used
  elections : s'.elections = (s.set_election dao_id proposal_id e').elections

/-! ## Ballots -/

/-- The nullifiers are new to Persistent storage, and are in it from now on. -/
structure Spends (b b' : Ballots) (nullifiers : List U256) : Prop where
  fresh : ∀ n ∈ nullifiers, b.nullifier n = false
  nodup : nullifiers.Nodup
  nullifier : ∀ n, b'.nullifier n = true ↔ n ∈ nullifiers ∨ b.nullifier n = true
  nullifier_temporary : b'.nullifier_temporary = b.nullifier_temporary
  qv_ballot : b'.qv_ballot = b.qv_ballot
  encrypted_ballot_count : b'.encrypted_ballot_count = b.encrypted_ballot_count
  vote_revealed : b'.vote_revealed = b.vote_revealed

/-- One more vote for each of `k` nullifiers. -/
structure Counts (p p' : ProposalInfo) (k : Nat) : Prop where
  total : p'.yes_votes + p'.no_votes = p.yes_votes + p.no_votes + k
  state : p'.state = p.state
  vote_mode : p'.vote_mode = p.vote_mode
  fits : p.Fits → p'.Fits

def BallotCall.isWeighted : BallotCall → Bool
  | .vote_weighted .. => true
  | _ => false

def BallotCall.isQuadratic : BallotCall → Bool
  | .cast_qv_vote .. => true
  | _ => false

/-- The three ways in which a ballot is recorded. -/
inductive BallotEffect (e e' : Election) (call : BallotCall) : Prop where
  | counted {p p' : ProposalInfo} (proposal : e.proposal = some p) (proposal' : e'.proposal = some p')
      (mode : call.isWeighted = true ∨ p.vote_mode ≠ .Quadratic)
      (spends : Spends e.ballots e'.ballots call.nullifiers)
      (counts : Counts p p' call.nullifiers.length)
      (commits : e'.ballots.vote_commit = e.ballots.vote_commit)
  | committed {p : ProposalInfo} {n : U256} {commitment : BytesN 32} (proposal : e.proposal = some p)
      (proposal' : e'.proposal = e.proposal) (mode : p.vote_mode ≠ .Quadratic)
      (nullifiers : call.nullifiers = [n]) (spends : Spends e.ballots e'.ballots [n])
      (absent : e.ballots.vote_commit n = none)
      (commits : e'.ballots.vote_commit = Function.update e.ballots.vote_commit n (some commitment))
  | quadratic {p : ProposalInfo} {n : U256} {ballot : QvBallot} {count credits : Nat}
      (proposal : e.proposal = some p) (proposal' : e'.proposal = e.proposal)
      (mode : p.vote_mode = .Quadratic) (nullifiers : call.nullifiers = [n])
      (call_eq : call.isWeighted = false ∧ call.isQuadratic = true) (fresh : e.ballots.qv_ballot n = none)
      (ballots : e'.ballots = { e.ballots with
        qv_ballot := Function.update e.ballots.qv_ballot n (some ballot)
        qv_ballot_count := count
        qv_credits_total := credits })

/-- An accepted ballot changes its own election only, and there not the configuration. Its roots have passed
the tree's check, or are the root of the proposal. -/
structure BallotStep (env : VotingEnv) (s s' : VotingState) (call : BallotCall) (e' : Election) : Prop where
  rewrites : Rewrites s s' call.election.1 call.election.2 e'
  config : e'.config = (s.elections call.election.1 call.election.2).config
  roots : ∀ r ∈ call.roots, Tree.root_eligibility env.tree call.election.1 r 0 = 0 ∨
    call.isWeighted = true ∧ ∃ p, (s.elections call.election.1 call.election.2).proposal = some p ∧
      r = p.eligible_root
  effect : BallotEffect (s.elections call.election.1 call.election.2) e' call

section
variable {C : Crypto} {env : VotingEnv} {s s' : VotingState} {dao_id proposal_id : Nat}
  {b b' : Ballots} {p : ProposalInfo} {nullifier root : U256} {vote_choice : Bool}

theorem Spends.one (h : b.nullifier nullifier = false)
    (hnullifier : b'.nullifier = Function.update b.nullifier nullifier true)
    (htemporary : b'.nullifier_temporary = b.nullifier_temporary) (hqv : b'.qv_ballot = b.qv_ballot)
    (hcount : b'.encrypted_ballot_count = b.encrypted_ballot_count)
    (hrevealed : b'.vote_revealed = b.vote_revealed) : Spends b b' [nullifier] := by
  refine ⟨by simpa using h, by simp, fun n => ?_, htemporary, hqv, hcount, hrevealed⟩
  by_cases hn : n = nullifier <;> simp [hnullifier, hn]

theorem Spends.trans {b'' : Ballots} {ns ns' : List U256} (h : Spends b b' ns) (h' : Spends b' b'' ns') :
    Spends b b'' (ns ++ ns') := by
  have hdisjoint : ∀ n ∈ ns', n ∉ ns := fun n hn hmem => by
    have hused := (h.nullifier n).mpr (.inl hmem)
    rw [h'.fresh n hn] at hused
    cases hused
  refine ⟨fun n hn => ?_, ?_, fun n => ?_, h'.nullifier_temporary.trans h.nullifier_temporary,
    h'.qv_ballot.trans h.qv_ballot, h'.encrypted_ballot_count.trans h.encrypted_ballot_count,
    h'.vote_revealed.trans h.vote_revealed⟩
  · rcases List.mem_append.mp hn with hn | hn
    · exact h.fresh n hn
    · by_contra hused
      have hused' := (h.nullifier n).mpr (.inr (by simpa using hused))
      rw [h'.fresh n hn] at hused'
      cases hused'
  · exact List.nodup_append.mpr ⟨h.nodup, h'.nodup, fun n hn n' hn' heq => hdisjoint n' hn' (heq ▸ hn)⟩
  · rw [h'.nullifier, h.nullifier, List.mem_append]
    tauto

theorem spends_consumed {ns : List U256} (hfresh : ∀ n ∈ ns, b.nullifier n = false) (hnodup : ns.Nodup) :
    Spends b (consumed b ns) ns :=
  ⟨hfresh, hnodup, fun n => by simp [consumed], rfl, rfl, rfl, rfl⟩

theorem counts_counted (h : HasRoom p vote_choice) : Counts p (counted p vote_choice) 1 := by
  refine ⟨counted_total, counted_state, counted_vote_mode, fun hp => ?_⟩
  cases vote_choice
  · exact ⟨hp.1, h⟩
  · exact ⟨h, hp.2⟩

theorem counts_tallied {votes : List BatchVote} (h : (tallied p votes).Fits) :
    Counts p (tallied p votes) (votes.map BatchVote.nullifier).length := by
  refine ⟨?_, rfl, rfl, fun _ => h⟩
  have hlength : votes.length = yesVotes votes + noVotes votes := by
    rw [List.length_eq_countP_add_countP (fun entry : BatchVote => entry.vote_choice)]
    simp [yesVotes, noVotes]
  simp only [tallied, List.length_map, hlength]
  omega

theorem vote_step {proof : Proof}
    (h : vote C env s dao_id proposal_id vote_choice nullifier root proof = .ok s') :
    ∃ e', BallotStep env s s' (.vote dao_id proposal_id vote_choice nullifier root proof) e' := by
  simp [vote] at h
  obtain ⟨-, -, -, -, -, ⟨hfresh, -⟩, p, hp, -, heligible, -, vk, -, -, -, hroom, rfl⟩ := h
  exact ⟨_, ⟨⟨rfl, rfl, rfl, rfl, rfl, rfl⟩, rfl, rfl, rfl⟩, rfl,
    fun r hr => .inl (List.mem_singleton.mp hr ▸ heligible.1),
    .counted hp rfl (.inr heligible.mode_ne) (.one hfresh rfl rfl rfl rfl rfl) (counts_counted hroom) rfl⟩

theorem vote_bls381_step {proof : ProofBls381}
    (h : vote_bls381 C env s dao_id proposal_id vote_choice nullifier root proof = .ok s') :
    ∃ e', BallotStep env s s' (.vote_bls381 dao_id proposal_id vote_choice nullifier root proof) e' := by
  simp [vote_bls381] at h
  obtain ⟨-, -, -, -, -, ⟨hfresh, -⟩, p, hp, -, heligible, -, vk, -, -, -, -, hroom, rfl⟩ := h
  exact ⟨_, ⟨⟨rfl, rfl, rfl, rfl, rfl, rfl⟩, rfl, rfl, rfl⟩, rfl,
    fun r hr => .inl (List.mem_singleton.mp hr ▸ heligible.1),
    .counted hp rfl (.inr heligible.mode_ne) (.one hfresh rfl rfl rfl rfl rfl) (counts_counted hroom) rfl⟩

theorem cast_votes_step {votes : List BatchVote} {k : Nat}
    (h : cast_votes C env s dao_id proposal_id votes = .ok (k, s')) :
    ∃ e', BallotStep env s s' (.cast_votes dao_id proposal_id votes) e' := by
  obtain ⟨-, -, p, vk, hr, hmode, hb, -, rfl⟩ := cast_votes_eq_ok.mp h
  have hfresh : ∀ n ∈ votes.map BatchVote.nullifier,
      (s.elections dao_id proposal_id).ballots.nullifier n = false := by
    intro n hn
    obtain ⟨entry, hentry, rfl⟩ := List.mem_map.mp hn
    exact (nullifier_is_used_eq_false.mp (hb.entries entry hentry).unused).1
  refine ⟨_, ⟨⟨rfl, rfl, rfl, rfl, rfl, rfl⟩, rfl, rfl, rfl⟩, rfl, fun r hroot => .inl ?_,
    .counted hr.proposal rfl (.inr hmode) (spends_consumed hfresh hb.distinct) (counts_tallied hb.fits) rfl⟩
  obtain ⟨entry, hentry, rfl⟩ := List.mem_map.mp hroot
  exact (hb.entries entry hentry).eligible.1

theorem vote_with_circuit_step {proof : Proof} {circuit_id : Bytes}
    (h : vote_with_circuit C env s dao_id proposal_id vote_choice nullifier root proof circuit_id = .ok s') :
    ∃ e', BallotStep env s s'
      (.vote_with_circuit dao_id proposal_id vote_choice nullifier root proof circuit_id) e' := by
  simp [vote_with_circuit] at h
  obtain ⟨-, -, -, -, ⟨hfresh, -⟩, p, hp, -, heligible, vk, -, -, -, -, hroom, rfl⟩ := h
  exact ⟨_, ⟨⟨rfl, rfl, rfl, rfl, rfl, rfl⟩, rfl, rfl, rfl⟩, rfl,
    fun r hr => .inl (List.mem_singleton.mp hr ▸ heligible.1),
    .counted hp rfl (.inr heligible.mode_ne) (.one hfresh rfl rfl rfl rfl rfl) (counts_counted hroom) rfl⟩

theorem vote_weighted_step {proof : Proof} {balance_commitment max_supply : U256} {weight domain_tag : Nat}
    (h : vote_weighted C env s dao_id proposal_id vote_choice nullifier root proof balance_commitment
      max_supply weight domain_tag = .ok s') :
    ∃ e', BallotStep env s s' (.vote_weighted dao_id proposal_id vote_choice nullifier root proof
      balance_commitment max_supply weight domain_tag) e' := by
  simp [vote_weighted] at h
  obtain ⟨-, -, -, -, -, -, -, -, -, -, hfresh, p, hp, -, hroot, -, -, vk, -, -, -, hroom, rfl⟩ := h
  exact ⟨_, ⟨⟨rfl, rfl, rfl, rfl, rfl, rfl⟩, rfl, rfl, rfl⟩, rfl,
    fun r hr => .inr ⟨rfl, p, hp, (List.mem_singleton.mp hr).trans hroot⟩,
    .counted hp rfl (.inl rfl) (.one hfresh rfl rfl rfl rfl rfl) (counts_counted hroom) rfl⟩

theorem vote_sybil_weighted_step {attestation_commitment : U256} {snapshot_time vote_weight : Nat}
    {proof : Proof}
    (h : vote_sybil_weighted C env s dao_id proposal_id vote_choice nullifier root attestation_commitment
      snapshot_time vote_weight proof = .ok s') :
    ∃ e', BallotStep env s s' (.vote_sybil_weighted dao_id proposal_id vote_choice nullifier root
      attestation_commitment snapshot_time vote_weight proof) e' := by
  simp [vote_sybil_weighted] at h
  obtain ⟨-, -, -, -, -, -, -, -, ⟨hfresh, -⟩, p, hp, -, heligible, vk, -, -, -, -, hroom, rfl⟩ := h
  exact ⟨_, ⟨⟨rfl, rfl, rfl, rfl, rfl, rfl⟩, rfl, rfl, rfl⟩, rfl,
    fun r hr => .inl (List.mem_singleton.mp hr ▸ heligible.1),
    .counted hp rfl (.inr heligible.mode_ne) (.one hfresh rfl rfl rfl rfl rfl) (counts_counted hroom) rfl⟩

theorem commit_vote_step {commitment : BytesN 32} {proof : Proof}
    (h : commit_vote C env s dao_id proposal_id nullifier root commitment proof = .ok s') :
    ∃ e', BallotStep env s s' (.commit_vote dao_id proposal_id nullifier root commitment proof) e' := by
  simp [commit_vote] at h
  obtain ⟨-, -, -, -, -, config, -, -, p, hp, -, heligible, ⟨hfresh, -⟩, habsent, vk, -, -, -, rfl⟩ := h
  exact ⟨_, ⟨⟨rfl, rfl, rfl, rfl, rfl, rfl⟩, rfl, rfl, rfl⟩, rfl,
    fun r hr => .inl (List.mem_singleton.mp hr ▸ heligible.1),
    .committed hp rfl heligible.mode_ne rfl (.one hfresh rfl rfl rfl rfl rfl) habsent rfl⟩

theorem cast_qv_vote_step {total_credits_spent : Nat} {allocations_hash : U256} {proof : Proof}
    (h : cast_qv_vote C env s dao_id proposal_id nullifier root total_credits_spent allocations_hash proof =
      .ok s') :
    ∃ e', BallotStep env s s' (.cast_qv_vote dao_id proposal_id nullifier root total_credits_spent
      allocations_hash proof) e' := by
  simp [cast_qv_vote] at h
  obtain ⟨-, -, -, -, -, hfresh, p, hp, hmode, -, -, hroot, vk, -, -, -, -, -, rfl⟩ := h
  exact ⟨_, ⟨.refl _, rfl, rfl, rfl⟩, rfl, fun r hr => .inl (List.mem_singleton.mp hr ▸ hroot),
    .quadratic hp rfl hmode rfl ⟨rfl, rfl⟩ hfresh rfl⟩

/-- The TTL bump looks for a Persistent entry that a fresh nullifier does not have. -/
theorem record_bridged_vote_rejected :
    record_bridged_vote C env s dao_id proposal_id vote_choice nullifier root ≠ .ok s' := by
  intro h
  simp [record_bridged_vote] at h
  obtain ⟨-, bridge, -, -, -, -, -, -, ⟨hfresh, -⟩, p, -, -, hpresent, -⟩ := h
  rw [hfresh] at hpresent
  cases hpresent

theorem vote_encrypted_rejected {epoch : Nat} {c1 c_yes c_no : BytesN 64} {proof : Proof} :
    vote_encrypted C env s dao_id proposal_id nullifier root epoch c1 c_yes c_no proof ≠ .ok s' := by
  intro h
  simp [vote_encrypted] at h
  obtain ⟨-, -, -, -, -, ⟨hfresh, -⟩, p, -, -, config, -, -, hpresent, -⟩ := h
  rw [hfresh] at hpresent
  cases hpresent

theorem ballot_step {call : BallotCall} (h : call.run C env s = .ok s') :
    ∃ e', BallotStep env s s' call e' := by
  cases call with
  | vote => exact vote_step h
  | vote_bls381 => exact vote_bls381_step h
  | cast_votes =>
    obtain ⟨⟨k, s₁⟩, hcast, hs⟩ := bind_eq_ok.mp h
    cases hs
    exact cast_votes_step hcast
  | vote_with_circuit => exact vote_with_circuit_step h
  | vote_weighted => exact vote_weighted_step h
  | vote_sybil_weighted => exact vote_sybil_weighted_step h
  | commit_vote => exact commit_vote_step h
  | vote_encrypted => exact absurd h vote_encrypted_rejected
  | record_bridged_vote => exact absurd h record_bridged_vote_rejected
  | cast_qv_vote => exact cast_qv_vote_step h

end

end ZkVote.Voting
