import ZkVote.Voting.Checks

/-!
# The voting contract: batches

`cast_votes` makes the checks of `vote` in its own order and with its lookups
hoisted. A batch is accepted exactly when its ballots would be, one by one.
-/

open Lib Lib.Outcome

namespace ZkVote.Voting

/-! ## One ballot -/

/-- The checks of a plain ballot that depend on the ballot. -/
structure EntryOk (env : VotingEnv) (e : Election) (dao_id : Nat) (p : ProposalInfo) (entry : BatchVote) :
    Prop where
  nullifier_in_field : entry.nullifier < BN254_FR_MODULUS
  root_in_field : entry.root < BN254_FR_MODULUS
  nonzero : entry.nullifier ≠ 0
  unused : nullifier_is_used e.ballots entry.nullifier = false
  eligible : RootEligible env dao_id p entry.root
  candidate : CandidateValid e entry.vote_choice

/-- The checks that do not. -/
structure Ready (C : Crypto) (env : VotingEnv) (s : VotingState) (dao_id proposal_id : Nat)
    (p : ProposalInfo) (vk : VerificationKey) : Prop where
  not_paused : NotPaused env s
  unlocked : s.inst.reentrancy_lock = false
  proposal : (s.elections dao_id proposal_id).proposal = some p
  voting_open : VotingOpen env p
  curve : (s.elections dao_id proposal_id).proposal_curve.getD .Bn254 = .Bn254
  key : resolve_election_vk C s .Anonymous dao_id (s.elections dao_id proposal_id) p
    (election_config (s.elections dao_id proposal_id)).merkle_depth = .ok vk

def entry_signals (e : Election) (dao_id proposal_id : Nat) (entry : BatchVote) : List U256 :=
  vote_signals e dao_id proposal_id entry.vote_choice entry.nullifier entry.root

/-- The proof verifies for the signals of its ballot. -/
def Verified (C : Crypto) (vk : VerificationKey) (e : Election) (dao_id proposal_id : Nat)
    (entry : BatchVote) : Prop :=
  C.verify_groth16 vk entry.proof (entry_signals e dao_id proposal_id entry) = true

/-- The state after a plain ballot. -/
def voted (C : Crypto) (s : VotingState) (dao_id proposal_id : Nat) (p : ProposalInfo)
    (entry : BatchVote) : VotingState :=
  let e := s.elections dao_id proposal_id
  clear_reentrancy_lock ((locked (resumed s)).set_election dao_id proposal_id { e with
    proposal := some (counted p entry.vote_choice)
    ballots := accumulate_nullifier C
      { e.ballots with nullifier := Function.update e.ballots.nullifier entry.nullifier true }
      entry.nullifier })

section
variable {C : Crypto} {env : VotingEnv} {s s' : VotingState} {dao_id proposal_id : Nat} {e : Election}
  {p : ProposalInfo} {vk : VerificationKey} {entry : BatchVote} {votes : List BatchVote} {b b' : Batch}

theorem resolve_election_vk_congr {ctx : PathContext} {merkle_depth : Nat} (h : s'.daos = s.daos) :
    resolve_election_vk C s' ctx dao_id e p merkle_depth = resolve_election_vk C s ctx dao_id e p merkle_depth := by
  simp only [resolve_election_vk, get_vk_by_version, h]

theorem vote_eq_ok :
    vote C env s dao_id proposal_id entry.vote_choice entry.nullifier entry.root entry.proof = .ok s' ↔
      ∃ p vk, Ready C env s dao_id proposal_id p vk ∧
        EntryOk env (s.elections dao_id proposal_id) dao_id p entry ∧
        Verified C vk (s.elections dao_id proposal_id) dao_id proposal_id entry ∧
        HasRoom p entry.vote_choice ∧ voted C s dao_id proposal_id p entry = s' := by
  have hkey : ∀ p, resolve_election_vk C (locked (resumed s)) .Anonymous dao_id
        (s.elections dao_id proposal_id) p (election_config (s.elections dao_id proposal_id)).merkle_depth =
      resolve_election_vk C s .Anonymous dao_id (s.elections dao_id proposal_id) p
        (election_config (s.elections dao_id proposal_id)).merkle_depth :=
    fun p => resolve_election_vk_congr rfl
  simp [vote, hkey]
  constructor
  · rintro ⟨h1, h2, h3, h4, h5, h6, p, h7, h8, h9, h10, vk, h11, h12, h13, h14, h15⟩
    exact ⟨p, vk, ⟨h1, h2, h7, h8, h10, h11⟩, ⟨h3, h4, h5, nullifier_is_used_eq_false.mpr h6, h9, h12⟩, h13,
      h14, h15⟩
  · rintro ⟨p, vk, hr, he, hv, hroom, hs⟩
    exact ⟨hr.not_paused, hr.unlocked, he.nullifier_in_field, he.root_in_field, he.nonzero,
      nullifier_is_used_eq_false.mp he.unused, p, hr.proposal, hr.voting_open, he.eligible, hr.curve, vk,
      hr.key, he.candidate, hv, hroom, hs⟩

/-! ## The loop -/

def yesVotes (votes : List BatchVote) : Nat := votes.countP fun entry => entry.vote_choice

def noVotes (votes : List BatchVote) : Nat := votes.countP fun entry => !entry.vote_choice

/-- What the loop has collected after the votes. -/
def Batch.extended (b : Batch) (e : Election) (dao_id proposal_id : Nat) (votes : List BatchVote) : Batch where
  proofs := b.proofs ++ votes.map BatchVote.proof
  signal_sets := b.signal_sets ++ votes.map (entry_signals e dao_id proposal_id)
  seen := b.seen ++ votes.map BatchVote.nullifier
  yes := b.yes + yesVotes votes
  no := b.no + noVotes votes

/-- The counters of the loop are 32 bits wide. -/
def Batch.Fits (b : Batch) : Prop := b.yes < 2 ^ 32 ∧ b.no < 2 ^ 32

theorem yesVotes_cons (entry : BatchVote) (votes : List BatchVote) :
    yesVotes (entry :: votes) = yesVotes [entry] + yesVotes votes := by
  simp [yesVotes, List.countP_cons, Nat.add_comm]

theorem noVotes_cons (entry : BatchVote) (votes : List BatchVote) :
    noVotes (entry :: votes) = noVotes [entry] + noVotes votes := by
  simp [noVotes, List.countP_cons, Nat.add_comm]

theorem Batch.extended_cons (b : Batch) (entry : BatchVote) (votes : List BatchVote) :
    b.extended e dao_id proposal_id (entry :: votes) =
      (b.extended e dao_id proposal_id [entry]).extended e dao_id proposal_id votes := by
  simp only [Batch.extended, yesVotes_cons entry votes, noVotes_cons entry votes, Nat.add_assoc]
  simp

theorem add_entry_eq_ok (hb : b.Fits) : add_entry env e dao_id proposal_id p entry b = .ok b' ↔
    EntryOk env e dao_id p entry ∧ entry.nullifier ∉ b.seen ∧
      (b.extended e dao_id proposal_id [entry]).Fits ∧ b.extended e dao_id proposal_id [entry] = b' := by
  have hcount : ∀ b₁, count_entry entry.vote_choice b = .ok b₁ ↔
      (b.yes + yesVotes [entry] < 2 ^ 32 ∧ b.no + noVotes [entry] < 2 ^ 32) ∧
        { b with yes := b.yes + yesVotes [entry], no := b.no + noVotes [entry] } = b₁ := by
    intro b₁
    have h1 := hb.1
    have h2 := hb.2
    cases hc : entry.vote_choice <;> simp [count_entry, yesVotes, noVotes, hc] at h1 h2 ⊢ <;> omega
  simp only [add_entry, bind_eq_ok, require_eq_ok, assert_in_field_eq_ok, assert_root_eligible_eq_ok,
    assert_candidate_index_eq_ok, hcount, pure_eq_ok, exists_and_left, exists_const]
  constructor
  · rintro ⟨h1, h2, h3, h4, h5, h6, h7, _, ⟨hfits, rfl⟩, rfl⟩
    exact ⟨⟨h1, h2, h3, h5, h6, h7⟩, h4, hfits, rfl⟩
  · rintro ⟨⟨h1, h2, h3, h5, h6, h7⟩, h4, hfits, rfl⟩
    exact ⟨h1, h2, h3, h4, h5, h6, h7, _, ⟨hfits, rfl⟩, rfl⟩

theorem add_entries_eq_ok (hb : b.Fits) (hseen : b.seen.Nodup) :
    add_entries env e dao_id proposal_id p votes b = .ok b' ↔
      (∀ entry ∈ votes, EntryOk env e dao_id p entry) ∧
        (b.seen ++ votes.map BatchVote.nullifier).Nodup ∧
        (b.extended e dao_id proposal_id votes).Fits ∧ b.extended e dao_id proposal_id votes = b' := by
  induction votes generalizing b with
  | nil => simp [add_entries, Batch.extended, yesVotes, noVotes, hseen, hb]
  | cons entry votes ih =>
    have hnodup (h : entry.nullifier ∉ b.seen) : (b.extended e dao_id proposal_id [entry]).seen.Nodup :=
      List.nodup_append.mpr ⟨hseen, by simp, by
        rintro x hx y hy rfl
        exact h (List.mem_singleton.mp hy ▸ hx)⟩
    simp only [add_entries, bind_eq_ok, add_entry_eq_ok hb]
    constructor
    · rintro ⟨b₁, ⟨hentry, hnew, hfits, rfl⟩, h⟩
      rw [ih hfits (hnodup hnew)] at h
      obtain ⟨hrest, hall, hfits', rfl⟩ := h
      rw [Batch.extended_cons b entry votes]
      refine ⟨List.forall_mem_cons.mpr ⟨hentry, hrest⟩, ?_, hfits', rfl⟩
      simpa [Batch.extended] using hall
    · rintro ⟨hall, hdistinct, hfits', hb'⟩
      rw [List.forall_mem_cons] at hall
      have hnew : entry.nullifier ∉ b.seen := fun hmem => by
        rw [List.nodup_append] at hdistinct
        exact hdistinct.2.2 _ hmem _ (by simp) rfl
      rw [Batch.extended_cons b entry votes] at hfits' hb'
      have hfits : (b.extended e dao_id proposal_id [entry]).Fits := by
        unfold Batch.Fits Batch.extended at hfits' ⊢
        dsimp only at hfits' ⊢
        omega
      refine ⟨_, ⟨hall.1, hnew, hfits, rfl⟩, ?_⟩
      rw [ih hfits (hnodup hnew)]
      refine ⟨hall.2, ?_, hfits', hb'⟩
      simpa [Batch.extended] using hdistinct

/-- The ballots with the nullifiers of the votes added. -/
def consumed (b : Ballots) (nullifiers : List U256) : Ballots :=
  { b with nullifier := fun n => decide (n ∈ nullifiers) || b.nullifier n }

theorem consume_entries_eq_ok {b b' : Ballots} : consume_entries votes b = .ok b' ↔
    consumed b (votes.map BatchVote.nullifier) = b' := by
  induction votes generalizing b with
  | nil => simp [consume_entries, consumed]
  | cons entry votes ih =>
    have hcons : consumed { b with nullifier := Function.update b.nullifier entry.nullifier true }
        (votes.map BatchVote.nullifier) = consumed b ((entry :: votes).map BatchVote.nullifier) := by
      unfold consumed
      congr 1
      funext n
      by_cases hn : n = entry.nullifier <;> simp [hn]
    simp only [consume_entries, bind_eq_ok, consume_nullifier_eq_ok, exists_eq_left', ih, hcons]

/-! ## A whole batch -/

/-- The proposal with all the votes counted. -/
def tallied (p : ProposalInfo) (votes : List BatchVote) : ProposalInfo :=
  { p with yes_votes := p.yes_votes + yesVotes votes, no_votes := p.no_votes + noVotes votes }

/-- The counters of the proposal are 64 bits wide. -/
def ProposalInfo.Fits (p : ProposalInfo) : Prop := p.yes_votes < 2 ^ 64 ∧ p.no_votes < 2 ^ 64

/-- The ballots are in order, new, distinct, and there is room to count them. -/
structure BatchOk (env : VotingEnv) (e : Election) (dao_id : Nat) (p : ProposalInfo)
    (votes : List BatchVote) : Prop where
  entries : ∀ entry ∈ votes, EntryOk env e dao_id p entry
  distinct : (votes.map BatchVote.nullifier).Nodup
  fits : (tallied p votes).Fits

/-- The state after a batch. -/
def batchCast (s : VotingState) (dao_id proposal_id : Nat) (p : ProposalInfo) (votes : List BatchVote) :
    VotingState :=
  let e := s.elections dao_id proposal_id
  clear_reentrancy_lock ((locked (resumed s)).set_election dao_id proposal_id { e with
    proposal := some (tallied p votes)
    ballots := consumed e.ballots (votes.map BatchVote.nullifier) })

theorem batch_fits (h : votes.length ≤ MAX_VOTE_BATCH) :
    (({} : Batch).extended e dao_id proposal_id votes).Fits := by
  have hmax : MAX_VOTE_BATCH < 2 ^ 32 := by decide
  have hyes : yesVotes votes ≤ votes.length := List.countP_le_length
  have hno : noVotes votes ≤ votes.length := List.countP_le_length
  simp only [Batch.Fits, Batch.extended]
  omega

theorem cast_votes_eq_ok {k : Nat} : cast_votes C env s dao_id proposal_id votes = .ok (k, s') ↔
    ¬ (votes.length = 0 ∨ MAX_VOTE_BATCH < votes.length) ∧ k = votes.length ∧
      ∃ p vk, Ready C env s dao_id proposal_id p vk ∧ p.vote_mode ≠ .Quadratic ∧
        BatchOk env (s.elections dao_id proposal_id) dao_id p votes ∧
        C.verify_groth16_batch vk (votes.map BatchVote.proof)
          (votes.map (entry_signals (s.elections dao_id proposal_id) dao_id proposal_id)) = true ∧
        batchCast s dao_id proposal_id p votes = s' := by
  have hkey : ∀ p, resolve_election_vk C (locked (resumed s)) .Anonymous dao_id
        (s.elections dao_id proposal_id) p (election_config (s.elections dao_id proposal_id)).merkle_depth =
      resolve_election_vk C s .Anonymous dao_id (s.elections dao_id proposal_id) p
        (election_config (s.elections dao_id proposal_id)).merkle_depth :=
    fun p => resolve_election_vk_congr rfl
  have hstart : ({} : Batch).Fits := ⟨by decide, by decide⟩
  simp only [cast_votes, bind_eq_ok, require_not_paused_eq_ok, set_reentrancy_lock_eq_ok, require_eq_ok,
    expect_eq_ok, assert_voting_open_eq_ok, add_entries_eq_ok hstart List.nodup_nil,
    consume_entries_eq_ok, orPanic_eq_ok, checkedAdd_eq_some, pure_eq_ok, Prod.mk.injEq, exists_and_left,
    exists_const, and_assoc, exists_eq_left', locked_elections, resumed_elections, resumed_lock, hkey]
  constructor
  · rintro ⟨h1, h2, hsize, p, hp, hopen, hmode, hcurve, vk, hvk, hentries, hdistinct, _, hverify, hyes,
      hno, hk, hs⟩
    simp only [Batch.extended, List.nil_append, Nat.zero_add] at hdistinct hverify hyes hno hs
    exact ⟨hsize, hk.symm, p, vk, ⟨h1, h2, hp, hopen, hcurve, hvk⟩, hmode,
      ⟨hentries, hdistinct, hyes, hno⟩, hverify, hs⟩
  · rintro ⟨hsize, hk, p, vk, hr, hmode, hb, hverify, hs⟩
    refine ⟨hr.not_paused, hr.unlocked, hsize, p, hr.proposal, hr.voting_open, hmode, hr.curve, vk, hr.key,
      hb.entries, hb.distinct, batch_fits (by omega), ?_⟩
    simp only [Batch.extended, List.nil_append, Nat.zero_add]
    exact ⟨hverify, hb.fits.1, hb.fits.2, hk.symm, hs⟩

/-! ## One by one -/

/-- `vote` on each ballot in order. -/
def vote_each (C : Crypto) (env : VotingEnv) (dao_id proposal_id : Nat) :
    List BatchVote → VotingState → Outcome VotingError VotingState
  | [], s => .ok s
  | entry :: votes, s => do
    let s ← vote C env s dao_id proposal_id entry.vote_choice entry.nullifier entry.root entry.proof
    vote_each C env dao_id proposal_id votes s

theorem counted_eq_tallied : counted p entry.vote_choice = tallied p [entry] := by
  cases hc : entry.vote_choice <;> simp [counted, tallied, yesVotes, noVotes, hc]

theorem tallied_cons (p : ProposalInfo) (entry : BatchVote) (votes : List BatchVote) :
    tallied p (entry :: votes) = tallied (tallied p [entry]) votes := by
  simp only [tallied, yesVotes_cons entry votes, noVotes_cons entry votes, Nat.add_assoc]

theorem Ready.voted (h : Ready C env s dao_id proposal_id p vk) :
    Ready C env (voted C s dao_id proposal_id p entry) dao_id proposal_id (tallied p [entry]) vk := by
  refine ⟨.inl rfl, rfl, ?_, h.voting_open, ?_, ?_⟩
  · simp [Voting.voted, counted_eq_tallied]
  · simpa [Voting.voted] using h.curve
  · have hkey := h.key
    rw [Voting.voted, clear_reentrancy_lock_elections, VotingState.set_election_self]
    exact hkey

/-- The next ballot is in order if it was before and is not a copy of the last one. -/
theorem entryOk_voted {x : BatchVote} :
    EntryOk env ((voted C s dao_id proposal_id p entry).elections dao_id proposal_id) dao_id
        (tallied p [entry]) x ↔
      EntryOk env (s.elections dao_id proposal_id) dao_id p x ∧ x.nullifier ≠ entry.nullifier := by
  rw [voted, clear_reentrancy_lock_elections, VotingState.set_election_self]
  have hunused : ∀ b : Ballots, nullifier_is_used (accumulate_nullifier C
        { b with nullifier := Function.update b.nullifier entry.nullifier true } entry.nullifier)
        x.nullifier = false ↔ nullifier_is_used b x.nullifier = false ∧ x.nullifier ≠ entry.nullifier := by
    intro b
    by_cases hx : x.nullifier = entry.nullifier <;> simp [accumulate_nullifier, hx]
  constructor
  · rintro ⟨h1, h2, h3, h4, h5, h6⟩
    obtain ⟨hused, hne⟩ := (hunused _).mp h4
    exact ⟨⟨h1, h2, h3, hused, h5, h6⟩, hne⟩
  · rintro ⟨⟨h1, h2, h3, h4, h5, h6⟩, hne⟩
    exact ⟨h1, h2, h3, (hunused _).mpr ⟨h4, hne⟩, h5, h6⟩

theorem hasRoom_iff_fits (h : p.Fits) : HasRoom p entry.vote_choice ↔ (tallied p [entry]).Fits := by
  obtain ⟨h1, h2⟩ := h
  cases hc : entry.vote_choice <;> simp [HasRoom, ProposalInfo.Fits, tallied, yesVotes, noVotes, hc] <;> omega

theorem batchOk_cons (h : p.Fits) : BatchOk env (s.elections dao_id proposal_id) dao_id p (entry :: votes) ↔
    EntryOk env (s.elections dao_id proposal_id) dao_id p entry ∧ HasRoom p entry.vote_choice ∧
      BatchOk env ((voted C s dao_id proposal_id p entry).elections dao_id proposal_id) dao_id
        (tallied p [entry]) votes := by
  rw [hasRoom_iff_fits h]
  constructor
  · rintro ⟨hentries, hdistinct, hfits⟩
    rw [List.forall_mem_cons] at hentries
    rw [List.map_cons, List.nodup_cons] at hdistinct
    rw [tallied_cons] at hfits
    refine ⟨hentries.1, ?_, fun x hx => entryOk_voted.mpr ⟨hentries.2 x hx, fun heq => ?_⟩, hdistinct.2,
      hfits⟩
    · unfold ProposalInfo.Fits tallied at hfits ⊢
      dsimp only at hfits ⊢
      omega
    · exact hdistinct.1 (heq ▸ List.mem_map_of_mem hx)
  · rintro ⟨hentry, -, hentries, hdistinct, hfits⟩
    refine ⟨List.forall_mem_cons.mpr ⟨hentry, fun x hx => (entryOk_voted.mp (hentries x hx)).1⟩, ?_, ?_⟩
    · rw [List.map_cons, List.nodup_cons]
      refine ⟨fun hmem => ?_, hdistinct⟩
      obtain ⟨x, hx, heq⟩ := List.mem_map.mp hmem
      exact (entryOk_voted.mp (hentries x hx)).2 heq
    · rwa [tallied_cons]

theorem verified_voted {x : BatchVote} :
    Verified C vk ((voted C s dao_id proposal_id p entry).elections dao_id proposal_id) dao_id proposal_id x ↔
      Verified C vk (s.elections dao_id proposal_id) dao_id proposal_id x := by
  rw [voted, clear_reentrancy_lock_elections, VotingState.set_election_self]
  rfl

/-- Voting one by one succeeds when every check passes on the state before the first ballot. -/
theorem vote_each_ok_iff (hr : Ready C env s dao_id proposal_id p vk) (hfits : p.Fits) :
    (∃ s', vote_each C env dao_id proposal_id votes s = .ok s') ↔
      BatchOk env (s.elections dao_id proposal_id) dao_id p votes ∧
        ∀ entry ∈ votes, Verified C vk (s.elections dao_id proposal_id) dao_id proposal_id entry := by
  induction votes generalizing s p with
  | nil => simpa [vote_each] using ⟨by simp, by simp, hfits⟩
  | cons entry votes ih =>
    have hnext : (∃ s', vote_each C env dao_id proposal_id (entry :: votes) s = .ok s') ↔
        EntryOk env (s.elections dao_id proposal_id) dao_id p entry ∧
          Verified C vk (s.elections dao_id proposal_id) dao_id proposal_id entry ∧
          HasRoom p entry.vote_choice ∧
          ∃ s', vote_each C env dao_id proposal_id votes (voted C s dao_id proposal_id p entry) = .ok s' := by
      simp only [vote_each, bind_eq_ok, vote_eq_ok]
      constructor
      · rintro ⟨s', _, ⟨p', vk', hr', hentry, hv, hroom, rfl⟩, h⟩
        obtain rfl : p = p' := Option.some.inj (hr.proposal.symm.trans hr'.proposal)
        obtain rfl : vk = vk' := Except.ok.inj (hr.key.symm.trans hr'.key)
        exact ⟨hentry, hv, hroom, s', h⟩
      · rintro ⟨hentry, hv, hroom, s', h⟩
        exact ⟨s', _, ⟨p, vk, hr, hentry, hv, hroom, rfl⟩, h⟩
    rw [hnext, batchOk_cons (C := C) hfits, List.forall_mem_cons]
    constructor
    · rintro ⟨hentry, hv, hroom, h⟩
      obtain ⟨hrest, hvs⟩ := (ih hr.voted ((hasRoom_iff_fits hfits).mp hroom)).mp h
      exact ⟨⟨hentry, hroom, hrest⟩, hv, fun x hx => verified_voted.mp (hvs x hx)⟩
    · rintro ⟨⟨hentry, hroom, hrest⟩, hv, hvs⟩
      exact ⟨hentry, hv, hroom, (ih hr.voted ((hasRoom_iff_fits hfits).mp hroom)).mpr
        ⟨hrest, fun x hx => verified_voted.mpr (hvs x hx)⟩⟩

theorem vote_each_result (hp : (s.elections dao_id proposal_id).proposal = some p)
    (h : vote_each C env dao_id proposal_id votes s = .ok s') :
    (s'.elections dao_id proposal_id).proposal = some (tallied p votes) ∧
      ∀ n, nullifier_is_used (s'.elections dao_id proposal_id).ballots n =
        nullifier_is_used (consumed (s.elections dao_id proposal_id).ballots
          (votes.map BatchVote.nullifier)) n := by
  induction votes generalizing s p with
  | nil =>
    cases h
    exact ⟨hp, fun n => by simp [consumed, nullifier_is_used]⟩
  | cons entry votes ih =>
    simp only [vote_each, bind_eq_ok, vote_eq_ok] at h
    obtain ⟨_, ⟨p', vk, hr, -, -, -, rfl⟩, h⟩ := h
    obtain rfl : p = p' := Option.some.inj (hp.symm.trans hr.proposal)
    obtain ⟨hproposal, hused⟩ := ih hr.voted.proposal h
    refine ⟨by rw [hproposal, tallied_cons p entry votes], fun n => ?_⟩
    rw [hused, voted, clear_reentrancy_lock_elections, VotingState.set_election_self]
    by_cases hn : n = entry.nullifier <;> simp [consumed, nullifier_is_used, accumulate_nullifier, hn]

end

end ZkVote.Voting
