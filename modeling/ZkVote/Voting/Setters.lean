import ZkVote.Voting.Creation

/-!
# The voting contract: what a DAO sets

A setter puts one key into the tables of its DAO, for the DAO's admin or for the registry.
The other calls write an entry each and leave the keys.
-/

open Lib Lib.Outcome

namespace ZkVote.Voting

/-! ## Keys -/

/-- The counter of a table. -/
def Keys.version (k : Keys) : KeyKind → Nat
  | .plain => k.vk_version.getD 0
  | .bls381 => k.vk_version_bls381.getD 0
  | .quadratic => k.qv_vk_version.getD 0

/-- The tables with one more key. -/
def Keys.add (k : Keys) : Key → Keys
  | .plain vk => { k with
      vk_version := some (k.version .plain + 1)
      voting_key := some vk
      vk_by_version := Function.update k.vk_by_version (k.version .plain + 1) (some vk) }
  | .bls381 vk => { k with
      curve_id := some .Bls12381
      vk_version_bls381 := some (k.version .bls381 + 1)
      voting_key_bls381 := some vk
      vk_by_version_bls381 := Function.update k.vk_by_version_bls381 (k.version .bls381 + 1) (some vk) }
  | .quadratic vk => { k with
      qv_vk_version := some (k.version .quadratic + 1)
      qv_voting_key := some vk
      qv_vk_by_version := Function.update k.qv_vk_by_version (k.version .quadratic + 1) (some vk) }

/-- The keys of the DAO after a setter. -/
def DaoCall.keys (k : Keys) : DaoCall → Keys
  | set_vk _ vk _ | set_vk_with_transcript _ vk _ _ | set_vk_from_registry _ vk => k.add (.plain vk)
  | set_vk_bls381 _ vk _ | set_vk_from_registry_bls381 _ vk => k.add (.bls381 vk)
  | set_qv_vk _ vk _ => k.add (.quadratic vk)
  | set_encrypted_vk _ vk _ =>
    { k with encrypted_vk := some vk, encrypted_vk_version := some (k.encrypted_vk_version.getD 0 + 1) }
  | set_recursive_vk _ vk_bytes _ => { k with recursive_vk := some vk_bytes }
  | set_tally_vk _ vk _ => { k with tally_vk := some vk }
  | set_weighted_vk _ vk _ => { k with weighted_voting_key := some vk }
  | set_sybil_vk _ vk _ => { k with sybil_voting_key := some vk }
  | set_commit_vk _ vk _ => { k with commit_voting_key := some vk }
  | set_vk_for_depth _ merkle_depth vk _ =>
    { k with depth_vk := Function.update k.depth_vk merkle_depth (some vk) }
  | set_qv_tally_vk _ vk _ => { k with qv_tally_key := some vk }
  | set_weighted_balance_commitment .. | set_dao_current_circuit .. | set_migration ..
  | record_balance_checkpoint .. | set_voter_cooldown .. | clear_voter_cooldown .. => k

/-- A key for ballots that are counted one by one has the length of their circuit. -/
def DaoCall.LengthOk : DaoCall → Prop
  | set_vk _ vk _ | set_vk_with_transcript _ vk _ _ | set_vk_from_registry _ vk =>
    vk.ic.length = VOTE_CIRCUIT_IC_LEN
  | set_vk_bls381 _ vk _ | set_vk_from_registry_bls381 _ vk => vk.ic.length = VOTE_CIRCUIT_IC_LEN
  | set_qv_vk _ vk _ => vk.ic.length = QV_CIRCUIT_IC_LEN
  | set_encrypted_vk _ vk _ => vk.ic.length = ENCRYPTED_CIRCUIT_IC_LEN
  | _ => True

/-- A setter sets its key and checks its length; apart from that it may resume the contract. -/
structure DaoSets (s s' : VotingState) (call : DaoCall) : Prop where
  keys : (s'.daos call.dao_id).keys = call.keys (s.daos call.dao_id).keys
  length : call.LengthOk
  inst : s'.inst = s.inst ∨ s'.inst = (resumed s).inst

/-! ## Entries -/

/-- The commitment it pins, if that is what it does. -/
def DaoCall.pins : DaoCall → Option U256
  | .set_weighted_balance_commitment _ commitment => some commitment
  | _ => none

/-- The commitments pinned in a DAO after one more, if there is one. -/
def pinned (d : Dao) : Option U256 → U256 → Bool
  | some commitment => Function.update d.weighted_balance_commitment commitment true
  | none => d.weighted_balance_commitment

/-- Keys change under the signature of the DAO's admin or of the registry. -/
structure DaoStep (env : VotingEnv) (s s' : VotingState) (call : DaoCall) (d' : Dao) : Prop where
  inst : SameInst s.inst s'.inst
  elections : s'.elections = s.elections
  legacy : s'.legacy_nullifier_used = s.legacy_nullifier_used
  daos : s'.daos = Function.update s.daos call.dao_id d'
  proposal_count : d'.proposal_count = (s.daos call.dao_id).proposal_count
  pinned : d'.weighted_balance_commitment = pinned (s.daos call.dao_id) call.pins
  keys : d'.keys = (s.daos call.dao_id).keys ∨ AdminSigns env s call.dao_id ∨ RegistrySigns env s

/-- All that a call about a DAO writes, and what it has checked. -/
structure DaoWrites (env : VotingEnv) (s s' : VotingState) (call : DaoCall) (d' : Dao) : Prop where
  base : ∃ s₀, (s₀ = s ∨ s₀ = resumed s) ∧ s₀.set_dao call.dao_id d' = s'
  proposal_count : d'.proposal_count = (s.daos call.dao_id).proposal_count
  pinned : d'.weighted_balance_commitment = pinned (s.daos call.dao_id) call.pins
  keys : d'.keys = call.keys (s.daos call.dao_id).keys
  length : call.LengthOk
  signed : (∀ k, call.keys k = k) ∨ AdminSigns env s call.dao_id ∨ RegistrySigns env s

section
variable {C : Crypto} {env : VotingEnv} {s s' s₀ : VotingState} {d : Nat} {call : DaoCall}

theorem set_keys_writes (hs : s₀ = s ∨ s₀ = resumed s)
    (h : set_keys s₀ call.dao_id (call.keys (s.daos call.dao_id).keys) = s') (hpins : call.pins = none)
    (hlength : call.LengthOk) (hsigned : AdminSigns env s call.dao_id ∨ RegistrySigns env s) :
    ∃ d', DaoWrites env s s' call d' := by
  refine ⟨{ s.daos call.dao_id with keys := call.keys (s.daos call.dao_id).keys }, ⟨s₀, hs, ?_⟩, rfl, ?_, rfl,
    hlength, .inr hsigned⟩
  · rw [← h]
    rcases hs with rfl | rfl <;> rfl
  · rw [hpins]
    rfl

theorem store_vk_keys {vk : VerificationKey} (h : store_vk (resumed s) d vk = .ok s') :
    set_keys (resumed s) d ((s.daos d).keys.add (.plain vk)) = s' := by
  simp [store_vk] at h
  exact h.2

theorem store_vk_bls381_keys {vk : VerificationKeyBls381} (h : store_vk_bls381 (resumed s) d vk = .ok s') :
    set_keys (resumed s) d ((s.daos d).keys.add (.bls381 vk)) = s' := by
  simp [store_vk_bls381] at h
  exact h.2

theorem set_admin_key_writes {admin : Address} {check : Outcome VotingError Unit}
    (h : set_admin_key env s call.dao_id admin check call.keys = .ok s') (hpins : call.pins = none)
    (hlength : call.LengthOk) : ∃ d', DaoWrites env s s' call d' := by
  simp [set_admin_key] at h
  obtain ⟨-, hauth, hadmin, -, hk⟩ := h
  exact set_keys_writes (.inr rfl) hk hpins hlength (.inl ⟨admin, hadmin, hauth⟩)

@[simp] theorem require_voter_or_admin_ok {dao_id : Nat} {voter caller : Address} {u : Unit} :
    require_voter_or_admin env s dao_id voter caller = .ok u ↔
      env.auths caller = true ∧
        (caller = voter ∨ env.get_admin s.inst.registry dao_id = some caller) := by
  unfold require_voter_or_admin
  by_cases hc : caller = voter <;> simp [hc]

theorem dao_writes (h : call.run C env s = .ok s') : ∃ d', DaoWrites env s s' call d' := by
  cases call with
  | set_vk d vk admin =>
    simp [DaoCall.run, set_vk, validate_vk] at h
    obtain ⟨-, hauth, hadmin, hlength, -, registry, -, -, h⟩ := h
    exact set_keys_writes (.inr rfl) (store_vk_keys h) rfl hlength (.inl ⟨admin, hadmin, hauth⟩)
  | set_vk_with_transcript d vk admin =>
    simp [DaoCall.run, set_vk_with_transcript, validate_vk] at h
    obtain ⟨-, hauth, hadmin, hlength, -, -, h⟩ := h
    exact set_keys_writes (.inr rfl) (store_vk_keys h) rfl hlength (.inl ⟨admin, hadmin, hauth⟩)
  | set_vk_from_registry d vk =>
    simp [DaoCall.run, set_vk_from_registry, validate_vk] at h
    obtain ⟨hauth, -, hlength, -, h⟩ := h
    exact set_keys_writes (.inr rfl) (store_vk_keys h) rfl hlength (.inr hauth)
  | set_vk_bls381 d vk admin =>
    simp [DaoCall.run, set_vk_bls381, validate_vk] at h
    obtain ⟨-, hauth, hadmin, hlength, -, h⟩ := h
    exact set_keys_writes (.inr rfl) (store_vk_bls381_keys h) rfl hlength (.inl ⟨admin, hadmin, hauth⟩)
  | set_vk_from_registry_bls381 d vk =>
    simp [DaoCall.run, set_vk_from_registry_bls381, validate_vk] at h
    obtain ⟨hauth, -, hlength, -, h⟩ := h
    exact set_keys_writes (.inr rfl) (store_vk_bls381_keys h) rfl hlength (.inr hauth)
  | set_encrypted_vk d vk admin =>
    simp [DaoCall.run, set_encrypted_vk] at h
    obtain ⟨-, hauth, hadmin, hlength, -, -, hk⟩ := h
    exact set_keys_writes (.inr rfl) hk rfl hlength (.inl ⟨admin, hadmin, hauth⟩)
  | set_recursive_vk => exact set_admin_key_writes h rfl trivial
  | set_tally_vk => exact set_admin_key_writes h rfl trivial
  | set_weighted_vk => exact set_admin_key_writes h rfl trivial
  | set_sybil_vk => exact set_admin_key_writes h rfl trivial
  | set_commit_vk => exact set_admin_key_writes h rfl trivial
  | set_vk_for_depth => exact set_admin_key_writes h rfl trivial
  | set_qv_vk d vk admin =>
    simp [DaoCall.run, set_qv_vk] at h
    obtain ⟨hauth, hadmin, hlength, -, hk⟩ := h
    exact set_keys_writes (.inl rfl) hk rfl hlength (.inl ⟨admin, hadmin, hauth⟩)
  | set_qv_tally_vk d vk admin =>
    simp [DaoCall.run, set_qv_tally_vk] at h
    obtain ⟨hauth, hadmin, -, hk⟩ := h
    exact set_keys_writes (.inl rfl) hk rfl trivial (.inl ⟨admin, hadmin, hauth⟩)
  | set_weighted_balance_commitment =>
    simp [DaoCall.run, set_weighted_balance_commitment] at h
    obtain ⟨-, -, -, hs⟩ := h
    exact ⟨_, ⟨_, .inr rfl, hs⟩, rfl, rfl, rfl, trivial, .inl fun _ => rfl⟩
  | set_dao_current_circuit =>
    simp [DaoCall.run, set_dao_current_circuit] at h
    obtain ⟨-, -, hs⟩ := h
    exact ⟨_, ⟨_, .inr rfl, hs⟩, rfl, rfl, rfl, trivial, .inl fun _ => rfl⟩
  | set_migration =>
    simp [DaoCall.run, set_migration] at h
    obtain ⟨-, -, hs⟩ := h
    exact ⟨_, ⟨_, .inr rfl, hs⟩, rfl, rfl, rfl, trivial, .inl fun _ => rfl⟩
  | record_balance_checkpoint =>
    simp [DaoCall.run, record_balance_checkpoint] at h
    obtain ⟨-, -, -, hs⟩ := h
    exact ⟨_, ⟨_, .inr rfl, hs⟩, rfl, rfl, rfl, trivial, .inl fun _ => rfl⟩
  | set_voter_cooldown =>
    simp [DaoCall.run, set_voter_cooldown] at h
    obtain ⟨-, -, -, hs⟩ := h
    exact ⟨_, ⟨_, .inr rfl, hs⟩, rfl, rfl, rfl, trivial, .inl fun _ => rfl⟩
  | clear_voter_cooldown =>
    simp [DaoCall.run, clear_voter_cooldown] at h
    obtain ⟨-, -, hs⟩ := h
    exact ⟨_, ⟨_, .inr rfl, hs⟩, rfl, rfl, rfl, trivial, .inl fun _ => rfl⟩

theorem dao_step (h : call.run C env s = .ok s') : ∃ d', DaoStep env s s' call d' := by
  obtain ⟨d', ⟨s₀, hs, rfl⟩, hcount, hpinned, hkeys, -, hsigned⟩ := dao_writes h
  have hkeys : d'.keys = (s.daos call.dao_id).keys ∨ AdminSigns env s call.dao_id ∨ RegistrySigns env s := by
    rcases hsigned with hsame | hsigned
    · exact .inl (hkeys.trans (hsame _))
    · exact .inr hsigned
  rcases hs with rfl | rfl
  · exact ⟨d', .refl _, rfl, rfl, rfl, hcount, hpinned, hkeys⟩
  · exact ⟨d', resumed_sameInst, rfl, rfl, rfl, hcount, hpinned, hkeys⟩

theorem dao_sets (h : call.run C env s = .ok s') : DaoSets s s' call := by
  obtain ⟨d', ⟨s₀, hs, rfl⟩, -, -, hkeys, hlength, -⟩ := dao_writes h
  refine ⟨?_, hlength, ?_⟩
  · simp [VotingState.set_dao, hkeys]
  · rcases hs with rfl | rfl
    · exact .inl rfl
    · exact .inr rfl

end

end ZkVote.Voting
