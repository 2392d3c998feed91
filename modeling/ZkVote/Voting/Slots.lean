import ZkVote.Voting.Keys

/-!
# The voting contract: where the keys are

Every key that a ballot or a tally is verified against has a place in the storage of
its DAO, and proposals keep the hashes of theirs.
-/

open Lib Lib.Outcome

namespace ZkVote.Voting

inductive Slot where
  | voting_key
  | vk_by_version (version : Nat)
  | voting_key_bls381
  | vk_by_version_bls381 (version : Nat)
  | depth_vk (merkle_depth : Nat)
  | tally_vk
  | qv_voting_key
  | qv_vk_by_version (version : Nat)
  | qv_tally_key
  | commit_voting_key
  | sybil_voting_key
  | weighted_voting_key
  | encrypted_vk
  deriving DecidableEq

/-- The hash of the key in a slot. -/
def Keys.held (C : Crypto) (k : Keys) : Slot → Option (BytesN 32)
  | .voting_key => k.voting_key.map (hash_vk C)
  | .vk_by_version version => (k.vk_by_version version).map (hash_vk C)
  | .voting_key_bls381 => k.voting_key_bls381.map (hash_vk_bls381 C)
  | .vk_by_version_bls381 version => (k.vk_by_version_bls381 version).map (hash_vk_bls381 C)
  | .depth_vk merkle_depth => (k.depth_vk merkle_depth).map (hash_vk C)
  | .tally_vk => k.tally_vk.map (hash_vk C)
  | .qv_voting_key => k.qv_voting_key.map (hash_vk C)
  | .qv_vk_by_version version => (k.qv_vk_by_version version).map (hash_vk C)
  | .qv_tally_key => k.qv_tally_key.map (hash_vk C)
  | .commit_voting_key => k.commit_voting_key.map (hash_vk C)
  | .sybil_voting_key => k.sybil_voting_key.map (hash_vk C)
  | .weighted_voting_key => k.weighted_voting_key.map (hash_vk C)
  | .encrypted_vk => k.encrypted_vk.map (hash_vk C)

namespace DaoCall

/-- The hash of the key that a setter brings. -/
def hash (C : Crypto) : DaoCall → Option (BytesN 32)
  | set_vk _ vk _ | set_vk_with_transcript _ vk _ _ | set_vk_from_registry _ vk | set_encrypted_vk _ vk _
  | set_tally_vk _ vk _ | set_weighted_vk _ vk _ | set_sybil_vk _ vk _ | set_commit_vk _ vk _
  | set_vk_for_depth _ _ vk _ | set_qv_vk _ vk _ | set_qv_tally_vk _ vk _ => some (hash_vk C vk)
  | set_vk_bls381 _ vk _ | set_vk_from_registry_bls381 _ vk => some (hash_vk_bls381 C vk)
  | _ => none

/-- The slots it puts the key in. -/
def slots (k : Keys) : DaoCall → List Slot
  | set_vk .. | set_vk_with_transcript .. | set_vk_from_registry .. =>
    [.voting_key, .vk_by_version (k.version .plain + 1)]
  | set_vk_bls381 .. | set_vk_from_registry_bls381 .. =>
    [.voting_key_bls381, .vk_by_version_bls381 (k.version .bls381 + 1)]
  | set_qv_vk .. => [.qv_voting_key, .qv_vk_by_version (k.version .quadratic + 1)]
  | set_encrypted_vk .. => [.encrypted_vk]
  | set_tally_vk .. => [.tally_vk]
  | set_weighted_vk .. => [.weighted_voting_key]
  | set_sybil_vk .. => [.sybil_voting_key]
  | set_commit_vk .. => [.commit_voting_key]
  | set_vk_for_depth _ merkle_depth _ _ => [.depth_vk merkle_depth]
  | set_qv_tally_vk .. => [.qv_tally_key]
  | _ => []

end DaoCall

/-- The hash of the key that the proof of a ballot is checked with. -/
def BallotCall.checkedWith (C : Crypto) (env : VotingEnv) (s : VotingState) : BallotCall → Option (BytesN 32)
  | vote d q _ _ _ _ | cast_votes d q _ => do
    let e := s.elections d q
    let p ← e.proposal
    let vk ← (resolve_election_vk C s .Anonymous d e p (election_config e).merkle_depth).toOption
    return hash_vk C vk
  | vote_bls381 d q _ _ _ _ => do
    let p ← (s.elections d q).proposal
    let vk ← (s.daos d).keys.vk_by_version_bls381 p.vk_version
    return hash_vk_bls381 C vk
  | vote_with_circuit _ _ _ _ _ _ circuit_id =>
    (load_vk_from_registry env s circuit_id).toOption.map (hash_vk C)
  | vote_weighted d _ _ _ _ _ _ _ _ _ => (s.daos d).keys.weighted_voting_key.map (hash_vk C)
  | vote_sybil_weighted d _ _ _ _ _ _ _ _ => (s.daos d).keys.sybil_voting_key.map (hash_vk C)
  | commit_vote d _ _ _ _ _ => (s.daos d).keys.commit_voting_key.map (hash_vk C)
  | vote_encrypted d _ _ _ _ _ _ _ _ => (s.daos d).keys.encrypted_vk.map (hash_vk C)
  | record_bridged_vote .. => none
  | cast_qv_vote d q _ _ _ _ _ => do
    let p ← (s.elections d q).proposal
    let vk ← (s.daos d).keys.qv_vk_by_version p.vk_version
    return hash_vk C vk

/-- The hash of the key that the proof of a tally is checked with. -/
def TallyCall.checkedWith (C : Crypto) (s : VotingState) : TallyCall → Option (BytesN 32)
  | submit_recursive_tally d _ _ _ _ _ _ => (s.daos d).keys.tally_vk.map (hash_vk C)
  | record_qv_tally d _ _ _ _ => (s.daos d).keys.qv_tally_key.map (hash_vk C)
  | reveal_vote .. | finalize_encrypted_tally .. | migrate_nullifier .. => none

/-- The hashes of keys that an election pins. -/
def pins (e : Election) : List (BytesN 32) :=
  (e.proposal.map ProposalInfo.vk_hash).toList ++ e.proposal_depth_vk_hash.toList ++
    (e.encrypted_config.map EncryptedTallyConfig.vk_hash).toList

section
variable {C : Crypto} {env : VotingEnv} {s s' : VotingState} {k : Keys} {hash : BytesN 32}

theorem held_of_find {v : Nat} {kind : KeyKind} {key : Key} (h : k.find v kind = some key) :
    ∃ slot, k.held C slot = some (key.hash C) := by
  cases kind with
  | plain =>
    obtain ⟨vk, hvk, rfl⟩ := Option.map_eq_some_iff.mp h
    exact ⟨.vk_by_version v, by simp [Keys.held, hvk, Key.hash]⟩
  | bls381 =>
    obtain ⟨vk, hvk, rfl⟩ := Option.map_eq_some_iff.mp h
    exact ⟨.vk_by_version_bls381 v, by simp [Keys.held, hvk, Key.hash]⟩
  | quadratic =>
    obtain ⟨vk, hvk, rfl⟩ := Option.map_eq_some_iff.mp h
    exact ⟨.qv_vk_by_version v, by simp [Keys.held, hvk, Key.hash]⟩

/-! ## Setters -/

theorem map_update {α β : Type} {f : Nat → Option α} {g : α → β} {n m : Nat} {a : α} :
    (Function.update f n (some a) m).map g = if m = n then some (g a) else (f m).map g := by
  rw [Function.update_apply]
  split <;> rfl

theorem held_add_plain {vk : VerificationKey} {slot : Slot} : (k.add (.plain vk)).held C slot =
    if slot ∈ [.voting_key, .vk_by_version (k.version .plain + 1)] then some (hash_vk C vk) else k.held C slot := by
  cases slot <;> simp [Keys.held, Keys.add, map_update]

theorem held_add_bls381 {vk : VerificationKeyBls381} {slot : Slot} : (k.add (.bls381 vk)).held C slot =
    if slot ∈ [.voting_key_bls381, .vk_by_version_bls381 (k.version .bls381 + 1)] then
      some (hash_vk_bls381 C vk) else k.held C slot := by
  cases slot <;> simp [Keys.held, Keys.add, map_update]

theorem held_add_quadratic {vk : VerificationKey} {slot : Slot} : (k.add (.quadratic vk)).held C slot =
    if slot ∈ [.qv_voting_key, .qv_vk_by_version (k.version .quadratic + 1)] then some (hash_vk C vk)
    else k.held C slot := by
  cases slot <;> simp [Keys.held, Keys.add, map_update]

theorem held_keys (call : DaoCall) (slot : Slot) : (call.keys k).held C slot =
    if slot ∈ call.slots k then call.hash C else k.held C slot := by
  cases call with
  | set_vk | set_vk_with_transcript | set_vk_from_registry => exact held_add_plain
  | set_vk_bls381 | set_vk_from_registry_bls381 => exact held_add_bls381
  | set_qv_vk => exact held_add_quadratic
  | set_vk_for_depth =>
    cases slot <;> simp [Keys.held, DaoCall.keys, DaoCall.slots, DaoCall.hash, map_update]
  | _ => cases slot <;> simp [Keys.held, DaoCall.keys, DaoCall.slots, DaoCall.hash]

theorem slots_nonempty {call : DaoCall} (h : call.hash C ≠ none) : ∃ slot, slot ∈ call.slots k := by
  cases call <;> first | exact absurd rfl h | exact ⟨_, List.mem_cons_self ..⟩

/-! ## Pins -/

theorem mem_pins {e : Election} : hash ∈ pins e ↔ (∃ p, e.proposal = some p ∧ p.vk_hash = hash) ∨
    e.proposal_depth_vk_hash = some hash ∨
      ∃ config, e.encrypted_config = some config ∧ config.vk_hash = hash := by
  simp [pins]

/-- The election keeps its pins, but for the key of a depth. -/
theorem SameTerms.mem_pins {e e' : Election} (h : SameTerms e e') (hpin : hash ∈ pins e')
    (hdepth : e'.proposal_depth_vk_hash ≠ some hash) : hash ∈ pins e := by
  rcases Voting.mem_pins.mp hpin with ⟨p', hp', rfl⟩ | hdepth' | hconfig
  · have hsome : e.proposal ≠ none := fun hnone => by
      rw [h.proposal_eq_none_iff.mpr hnone] at hp'
      cases hp'
    obtain ⟨p, hp⟩ := Option.ne_none_iff_exists'.mp hsome
    have hterms := congrArg ProposalInfo.vk_hash (h.terms_eq hp hp')
    exact Voting.mem_pins.mpr (.inl ⟨p, hp, hterms.symm⟩)
  · exact absurd hdepth' hdepth
  · rw [h.encrypted_config] at hconfig
    exact Voting.mem_pins.mpr (.inr (.inr hconfig))

theorem created_depth {call : CreateCall} {id : Nat} (h : call.create C env s = .ok (id, s')) :
    (s'.elections call.dao_id id).proposal_depth_vk_hash =
      (s.elections call.dao_id id).proposal_depth_vk_hash := by
  have plain {d end_time : Nat} {title content_cid : Bytes} {creator : Address} {vote_mode : VoteMode}
      {vk_version : Option Nat} {s' : VotingState}
      (h : create_proposal_with_version C env s d title content_cid end_time creator vote_mode vk_version =
        .ok (id, s')) :
      (s'.elections d id).proposal_depth_vk_hash = (s.elections d id).proposal_depth_vk_hash := by
    simp [create_proposal_with_version, next_proposal_id] at h
    obtain ⟨-, -, -, -, -, version, -, -, vk_hash, -, root, -, index, -, -, rfl, rfl⟩ := h
    simp
  cases call with
  | create_proposal => exact plain h
  | create_proposal_with_vk_version => exact plain h
  | create_proposal_in_registration =>
    simp only [CreateCall.create, create_proposal_in_registration, bind_eq_ok, expect_eq_ok, pure_eq_ok,
      Prod.mk.injEq] at h
    obtain ⟨⟨_, s₁⟩, hcreate, p, hp, rfl, rfl⟩ := h
    have hdepth := plain hcreate
    simpa using hdepth
  | create_encrypted_proposal =>
    simp [CreateCall.create, create_encrypted_proposal, next_proposal_id] at h
    obtain ⟨-, -, -, -, -, version, -, vk, -, -, -, root, -, index, -, -, rfl, rfl⟩ := h
    simp
  | create_qv_proposal =>
    simp [CreateCall.create, create_qv_proposal, next_proposal_id] at h
    obtain ⟨-, -, -, -, version, -, -, vk, -, root, -, index, -, -, rfl, rfl⟩ := h
    simp

theorem created_pins {call : CreateCall} {id : Nat} (h : call.create C env s = .ok (id, s'))
    (hpin : hash ∈ pins (s'.elections call.dao_id id)) :
    hash ∈ pins (s.elections call.dao_id id) ∨ ∃ slot, (s.daos call.dao_id).keys.held C slot = some hash := by
  obtain ⟨e', p, hstep, hcreated⟩ := create_created h
  have hdepth := created_depth h
  rw [hstep.election] at hpin hdepth
  cases hencrypted : call.isEncrypted with
  | false =>
    have hconfig := hcreated.encrypted_config
    rw [hencrypted, if_neg (by decide)] at hconfig
    rcases mem_pins.mp hpin with ⟨p', hp', rfl⟩ | hpinned | hpinned
    · obtain rfl : p = p' := Option.some.inj (hstep.proposal.symm.trans hp')
      obtain ⟨key, hfound, hhash⟩ := hcreated.key hencrypted
      exact .inr (hhash ▸ held_of_find hfound)
    · exact .inl (mem_pins.mpr (.inr (.inl (hdepth ▸ hpinned))))
    · exact .inl (mem_pins.mpr (.inr (.inr (hconfig ▸ hpinned))))
  | true =>
    cases call with
    | create_encrypted_proposal d creator params =>
      simp [CreateCall.create, create_encrypted_proposal, next_proposal_id] at h
      obtain ⟨-, -, -, -, -, version, -, vk, hvk, -, -, root, -, index, -, -, rfl, rfl⟩ := h
      have helection := hstep.election
      simp only [CreateCall.dao_id, VotingState.set_election_self] at helection
      subst helection
      rcases mem_pins.mp hpin with ⟨p', hp', rfl⟩ | hpinned | ⟨config, hconfig, rfl⟩
      · rw [← Option.some.inj hp']
        exact .inr ⟨.encrypted_vk, by simp [Keys.held, hvk]⟩
      · exact .inl (mem_pins.mpr (.inr (.inl hpinned)))
      · rw [← Option.some.inj hconfig]
        exact .inr ⟨.encrypted_vk, by simp [Keys.held, hvk]⟩
    | _ => cases hencrypted

theorem step_pins {call : Call} (hs : VotingOk s) (h : step C s env call = .ok s') {d q : Nat}
    (hpin : hash ∈ pins (s'.elections d q)) :
    hash ∈ pins (s.elections d q) ∨ ∃ slot, (s.daos d).keys.held C slot = some hash := by
  rcases step_created hs h d q with ⟨hterms, hmade | hsame⟩ | ⟨c, rfl, rfl, hcreate, -⟩
  · by_cases hdepth : (s'.elections d q).proposal_depth_vk_hash = some hash
    · by_cases hconfig : ∃ c : ConfigCall, call = .config c ∧ c.election = (d, q)
      · obtain ⟨c, rfl, helection⟩ := hconfig
        have hparameters := congrArg Parameters.depth_vk_hash (config_passed h).parameters
        rw [helection] at hparameters
        simp only [parameters, hdepth] at hparameters
        cases c with
        | set_election_config_with_depth d' q' min_balance twab_window num_candidates merkle_depth =>
          cases helection
          simp only [ConfigCall.parameters] at hparameters
          split at hparameters
          · exact .inl (mem_pins.mpr (.inr (.inl hparameters.symm)))
          · exact .inr ⟨.depth_vk merkle_depth, hparameters.symm⟩
        | _ =>
          cases helection
          exact .inl (mem_pins.mpr (.inr (.inl hparameters.symm)))
      · have hsetup := step_setup hs h hmade fun c hcall hc => hconfig ⟨c, hcall, hc⟩
        rw [hsetup.depth_vk_hash] at hdepth
        exact .inl (mem_pins.mpr (.inr (.inl hdepth)))
    · exact .inl (hterms.mem_pins hpin hdepth)
  · exact .inl (hsame ▸ hpin)
  · exact created_pins hcreate hpin

/-! ## What ballots and tallies are checked with -/

theorem resolve_held {e : Election} {p : ProposalInfo} {d depth : Nat} {ctx : PathContext} {vk : VerificationKey}
    (h : resolve_election_vk C s ctx d e p depth = .ok vk) :
    ∃ slot, (s.daos d).keys.held C slot = some (hash_vk C vk) := by
  unfold resolve_election_vk at h
  split at h
  · simp only [get_vk_by_version, bind_eq_ok, orPanic_eq_ok, require_eq_ok, pure_eq_ok] at h
    obtain ⟨vk', hvk, _, -, rfl⟩ := h
    exact ⟨.vk_by_version p.vk_version, by simp [Keys.held, hvk]⟩
  · simp only [bind_eq_ok, orPanic_eq_ok, require_eq_ok, pure_eq_ok] at h
    obtain ⟨vk', hvk, pinned, -, _, -, rfl⟩ := h
    exact ⟨.depth_vk depth, by simp [Keys.held, hvk]⟩

/-- The key that an accepted ballot has been checked with is in a slot of the DAO, or is pinned. -/
theorem ballot_key_held {call : BallotCall} (h : call.run C env s = .ok s')
    (hkey : call.checkedWith C env s = some hash) :
    hash ∈ pins (s.elections call.election.1 call.election.2) ∨
      ∃ slot, (s.daos call.election.1).keys.held C slot = some hash := by
  cases call with
  | vote | cast_votes =>
    simp only [BallotCall.checkedWith, Option.bind_eq_bind, Option.bind_eq_some_iff, toOption_eq_some,
      Option.pure_def, Option.some.injEq] at hkey
    obtain ⟨p, -, vk, hvk, rfl⟩ := hkey
    exact .inr (resolve_held hvk)
  | vote_bls381 =>
    simp only [BallotCall.checkedWith, Option.bind_eq_bind, Option.bind_eq_some_iff, Option.pure_def,
      Option.some.injEq] at hkey
    obtain ⟨p, -, vk, hvk, rfl⟩ := hkey
    exact .inr ⟨.vk_by_version_bls381 p.vk_version, by simp [Keys.held, hvk]⟩
  | vote_with_circuit d q choice n root proof circuit_id =>
    obtain ⟨vk, hvk, rfl⟩ := Option.map_eq_some_iff.mp hkey
    rw [toOption_eq_some] at hvk
    simp [BallotCall.run, vote_with_circuit] at h
    obtain ⟨-, -, -, -, -, p, hp, -, -, vk', hload, ⟨_, hcheck⟩, -⟩ := h
    obtain rfl : vk = vk' := Except.ok.inj (hvk.symm.trans hload)
    exact .inl (mem_pins.mpr (.inl ⟨p, hp, (assert_circuit_vk_hash hload hcheck).symm⟩))
  | vote_weighted => exact .inr ⟨.weighted_voting_key, hkey⟩
  | vote_sybil_weighted => exact .inr ⟨.sybil_voting_key, hkey⟩
  | commit_vote => exact .inr ⟨.commit_voting_key, hkey⟩
  | vote_encrypted => exact .inr ⟨.encrypted_vk, hkey⟩
  | record_bridged_vote => cases hkey
  | cast_qv_vote =>
    simp only [BallotCall.checkedWith, Option.bind_eq_bind, Option.bind_eq_some_iff, Option.pure_def,
      Option.some.injEq] at hkey
    obtain ⟨p, -, vk, hvk, rfl⟩ := hkey
    exact .inr ⟨.qv_vk_by_version p.vk_version, by simp [Keys.held, hvk]⟩

theorem tally_key_held {call : TallyCall} (hkey : call.checkedWith C s = some hash) :
    ∃ slot, (s.daos call.election.1).keys.held C slot = some hash := by
  cases call with
  | submit_recursive_tally => exact ⟨.tally_vk, hkey⟩
  | record_qv_tally => exact ⟨.qv_tally_key, hkey⟩
  | _ => cases hkey

end

end ZkVote.Voting
