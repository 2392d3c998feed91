import ZkVote.Voting.State

/-!
# The voting contract: guards, keys and configuration

Events and TTL extensions of entries just written are left out.
-/

open Lib Lib.Outcome

namespace ZkVote.Voting

/-! ## Guards -/

def panic_coarse (ctx : PathContext) (e : VotingError) : VotingError := e.to_coarse ctx

/-- A pause that ran out is lifted by the next call. -/
def require_not_paused (env : VotingEnv) (s : VotingState) : Outcome VotingError VotingState :=
  if s.inst.paused = false then .ok s
  else if saturatingAdd 64 s.inst.paused_at MAX_PAUSE_DURATION ≤ env.timestamp then
    .ok { s with inst.paused := false }
  else fail .ContractPaused

def set_reentrancy_lock (s : VotingState) : Outcome VotingError VotingState := do
  require (s.inst.reentrancy_lock = false) .ReentrantCall
  return { s with inst.reentrancy_lock := true }

def clear_reentrancy_lock (s : VotingState) : VotingState := { s with inst.reentrancy_lock := false }

def assert_in_field (ctx : PathContext) (value : U256) : Outcome VotingError Unit :=
  require (value < BN254_FR_MODULUS) (panic_coarse ctx .SignalNotInField)

def assert_in_field_bls381 (ctx : PathContext) (value : U256) : Outcome VotingError Unit :=
  require (value < BLS12_381_FR_MODULUS) (panic_coarse ctx .SignalNotInField)

def require_guardian (s : VotingState) (guardian : Address) : Outcome VotingError Unit :=
  require (s.inst.guardian = guardian) .NotGuardian

def require_registry (env : VotingEnv) (s : VotingState) : Outcome VotingError Unit :=
  require_auth env.toEnv s.inst.registry

/-- Compares `who` with the admin that the cached registry names. It asks for no signature. -/
def is_dao_admin (env : VotingEnv) (s : VotingState) (dao_id : Nat) (who : Address) :
    Outcome VotingError Bool := do
  let dao_admin ← expect (env.get_admin s.inst.registry dao_id)
  return decide (dao_admin = who)

def assert_admin (env : VotingEnv) (s : VotingState) (dao_id : Nat) (admin : Address) :
    Outcome VotingError Unit := do
  let is_admin ← is_dao_admin env s dao_id admin
  require (is_admin = true) .NotAdmin

def assert_election_config_authority (env : VotingEnv) (s : VotingState) (dao_id proposal_id : Nat)
    (caller : Address) : Outcome VotingError Unit := do
  require_auth env.toEnv caller
  let is_admin ← is_dao_admin env s dao_id caller
  if is_admin = true then .ok ()
  else do
    let proposal ← orPanic (s.elections dao_id proposal_id).proposal .InvalidState
    require (proposal.created_by = caller) .NotAdmin

/-! ## Verification keys -/

def hash_vk (C : Crypto) (vk : VerificationKey) : BytesN 32 :=
  C.sha256 (vk.alpha.toList ++ vk.beta.toList ++ vk.gamma.toList ++ vk.delta.toList ++
    (vk.ic.map Vector.toList).flatten)

def hash_vk_bls381 (C : Crypto) (vk : VerificationKeyBls381) : BytesN 32 :=
  C.sha256 (vk.alpha.toList ++ vk.beta.toList ++ vk.gamma.toList ++ vk.delta.toList ++
    (vk.ic.map Vector.toList).flatten)

def get_curve_id (s : VotingState) (dao_id : Nat) : CurveId := (s.daos dao_id).keys.curve_id.getD .Bn254

def get_vk_by_version (s : VotingState) (dao_id version : Nat) : Outcome VotingError VerificationKey :=
  orPanic ((s.daos dao_id).keys.vk_by_version version) .VkVersionMismatch

def get_vk_by_version_bls381 (s : VotingState) (dao_id version : Nat) :
    Outcome VotingError VerificationKeyBls381 :=
  orPanic ((s.daos dao_id).keys.vk_by_version_bls381 version) .VkVersionMismatch

def get_qv_vk_by_version (s : VotingState) (dao_id version : Nat) : Outcome VotingError VerificationKey :=
  orPanic ((s.daos dao_id).keys.qv_vk_by_version version) .QvVkNotSet

def validate_vk (ic_len : Nat) : Outcome VotingError Unit := do
  require (ic_len = VOTE_CIRCUIT_IC_LEN) .VkIcLengthMismatch
  require (ic_len ≤ MAX_IC_LENGTH) .VkIcTooLarge

def set_keys (s : VotingState) (dao_id : Nat) (k : Keys) : VotingState :=
  s.set_dao dao_id { s.daos dao_id with keys := k }

/-- `bump_vk_version` and the two writes that follow it in every BN254 setter. -/
def store_vk (s : VotingState) (dao_id : Nat) (vk : VerificationKey) : Outcome VotingError VotingState := do
  let k := (s.daos dao_id).keys
  let new_version ← expect (checkedAdd 32 (k.vk_version.getD 0) 1)
  return set_keys s dao_id { k with
    vk_version := some new_version
    voting_key := some vk
    vk_by_version := Function.update k.vk_by_version new_version (some vk) }

def store_vk_bls381 (s : VotingState) (dao_id : Nat) (vk : VerificationKeyBls381) :
    Outcome VotingError VotingState := do
  let k := (s.daos dao_id).keys
  let new_version ← expect (checkedAdd 32 (k.vk_version_bls381.getD 0) 1)
  return set_keys s dao_id { k with
    curve_id := some .Bls12381
    vk_version_bls381 := some new_version
    voting_key_bls381 := some vk
    vk_by_version_bls381 := Function.update k.vk_by_version_bls381 new_version (some vk) }

def set_vk (C : Crypto) (env : VotingEnv) (s : VotingState) (dao_id : Nat) (vk : VerificationKey)
    (admin : Address) : Outcome VotingError VotingState := do
  let s ← require_not_paused env s
  require_auth env.toEnv admin
  assert_admin env s dao_id admin
  validate_vk vk.ic.length
  let transcript_registry ← expect s.inst.transcript_registry
  require (env.is_vk_attested transcript_registry (hash_vk C vk) = true) .VkNotAttested
  store_vk s dao_id vk

/-- Without a transcript registry nothing is checked. -/
def check_transcript (C : Crypto) (env : VotingEnv) (s : VotingState) (vk : VerificationKey)
    (transcript_hash : BytesN 32) : Outcome VotingError Unit :=
  match s.inst.transcript_registry with
  | some transcript_registry =>
    require (env.verify_attestation transcript_registry transcript_hash (hash_vk C vk) = true) .VkNotAttested
  | none => .ok ()

def set_vk_with_transcript (C : Crypto) (env : VotingEnv) (s : VotingState) (dao_id : Nat)
    (vk : VerificationKey) (admin : Address) (transcript_hash : BytesN 32) :
    Outcome VotingError VotingState := do
  let s ← require_not_paused env s
  require_auth env.toEnv admin
  assert_admin env s dao_id admin
  validate_vk vk.ic.length
  check_transcript C env s vk transcript_hash
  store_vk s dao_id vk

def set_vk_from_registry (env : VotingEnv) (s : VotingState) (dao_id : Nat) (vk : VerificationKey) :
    Outcome VotingError VotingState := do
  require_registry env s
  let s ← require_not_paused env s
  validate_vk vk.ic.length
  store_vk s dao_id vk

def set_vk_bls381 (env : VotingEnv) (s : VotingState) (dao_id : Nat) (vk : VerificationKeyBls381)
    (admin : Address) : Outcome VotingError VotingState := do
  let s ← require_not_paused env s
  require_auth env.toEnv admin
  assert_admin env s dao_id admin
  validate_vk vk.ic.length
  store_vk_bls381 s dao_id vk

def set_vk_from_registry_bls381 (env : VotingEnv) (s : VotingState) (dao_id : Nat)
    (vk : VerificationKeyBls381) : Outcome VotingError VotingState := do
  require_registry env s
  let s ← require_not_paused env s
  validate_vk vk.ic.length
  store_vk_bls381 s dao_id vk

/-- A setter of one key: not paused, the admin signed, the check holds. -/
def set_admin_key (env : VotingEnv) (s : VotingState) (dao_id : Nat) (admin : Address)
    (check : Outcome VotingError Unit) (update : Keys → Keys) : Outcome VotingError VotingState := do
  let s ← require_not_paused env s
  require_auth env.toEnv admin
  assert_admin env s dao_id admin
  check
  return set_keys s dao_id (update (s.daos dao_id).keys)

def set_encrypted_vk (env : VotingEnv) (s : VotingState) (dao_id : Nat) (vk : VerificationKey)
    (admin : Address) : Outcome VotingError VotingState := do
  let s ← require_not_paused env s
  require_auth env.toEnv admin
  assert_admin env s dao_id admin
  require (vk.ic.length = ENCRYPTED_CIRCUIT_IC_LEN) .VkIcLengthMismatch
  require (vk.ic.length ≤ MAX_IC_LENGTH) .VkIcTooLarge
  let k := (s.daos dao_id).keys
  let new_version ← expect (checkedAdd 32 (k.encrypted_vk_version.getD 0) 1)
  return set_keys s dao_id { k with encrypted_vk := some vk, encrypted_vk_version := some new_version }

def set_recursive_vk (env : VotingEnv) (s : VotingState) (dao_id : Nat) (vk_bytes : Bytes)
    (admin : Address) : Outcome VotingError VotingState :=
  set_admin_key env s dao_id admin (.ok ()) fun k => { k with recursive_vk := some vk_bytes }

def set_tally_vk (env : VotingEnv) (s : VotingState) (dao_id : Nat) (vk : VerificationKey)
    (admin : Address) : Outcome VotingError VotingState :=
  set_admin_key env s dao_id admin
    (require (vk.ic.length = TALLY_CIRCUIT_IC_LEN) .VkIcLengthMismatch)
    fun k => { k with tally_vk := some vk }

/-- The IC check of `set_weighted_vk`, `set_sybil_vk` and `set_commit_vk`. -/
def require_ic_len (vk : VerificationKey) (len : Nat) : Outcome VotingError Unit :=
  require (¬ (vk.ic.length ≠ len ∨ MAX_IC_LENGTH < vk.ic.length)) .VkIcLengthMismatch

def set_weighted_vk (env : VotingEnv) (s : VotingState) (dao_id : Nat) (vk : VerificationKey)
    (admin : Address) : Outcome VotingError VotingState :=
  set_admin_key env s dao_id admin (require_ic_len vk WEIGHTED_CIRCUIT_IC_LEN)
    fun k => { k with weighted_voting_key := some vk }

def set_sybil_vk (env : VotingEnv) (s : VotingState) (dao_id : Nat) (vk : VerificationKey)
    (admin : Address) : Outcome VotingError VotingState :=
  set_admin_key env s dao_id admin (require_ic_len vk SYBIL_CIRCUIT_IC_LEN)
    fun k => { k with sybil_voting_key := some vk }

def set_commit_vk (env : VotingEnv) (s : VotingState) (dao_id : Nat) (vk : VerificationKey)
    (admin : Address) : Outcome VotingError VotingState :=
  set_admin_key env s dao_id admin (require_ic_len vk COMMIT_CIRCUIT_IC_LEN)
    fun k => { k with commit_voting_key := some vk }

def set_vk_for_depth (env : VotingEnv) (s : VotingState) (dao_id merkle_depth : Nat)
    (vk : VerificationKey) (admin : Address) : Outcome VotingError VotingState :=
  set_admin_key env s dao_id admin
    (do require (¬ (merkle_depth = 0 ∨ MAX_MERKLE_DEPTH < merkle_depth)) .InvalidMerkleDepth
        validate_vk vk.ic.length)
    fun k => { k with depth_vk := Function.update k.depth_vk merkle_depth (some vk) }

/-- The quadratic setters do not look at the pause. -/
def set_qv_vk (env : VotingEnv) (s : VotingState) (dao_id : Nat) (vk : VerificationKey)
    (admin : Address) : Outcome VotingError VotingState := do
  require_auth env.toEnv admin
  assert_admin env s dao_id admin
  require (vk.ic.length = QV_CIRCUIT_IC_LEN) .VkIcLengthMismatch
  let k := (s.daos dao_id).keys
  let new_version ← expect (checkedAdd 32 (k.qv_vk_version.getD 0) 1)
  return set_keys s dao_id { k with
    qv_vk_version := some new_version
    qv_voting_key := some vk
    qv_vk_by_version := Function.update k.qv_vk_by_version new_version (some vk) }

def set_qv_tally_vk (env : VotingEnv) (s : VotingState) (dao_id : Nat) (vk : VerificationKey)
    (admin : Address) : Outcome VotingError VotingState := do
  require_auth env.toEnv admin
  assert_admin env s dao_id admin
  require (¬ (vk.ic.length < 2 ∨ MAX_IC_LENGTH < vk.ic.length)) .VkIcTooLarge
  return set_keys s dao_id { (s.daos dao_id).keys with qv_tally_key := some vk }

/-- No signature is asked for. -/
def set_weighted_balance_commitment (env : VotingEnv) (s : VotingState) (dao_id : Nat)
    (commitment : U256) : Outcome VotingError VotingState := do
  let s ← require_not_paused env s
  assert_in_field .Anonymous commitment
  require (commitment ≠ 0) .InvalidBalanceCommitment
  let d := s.daos dao_id
  return s.set_dao dao_id { d with
    weighted_balance_commitment := Function.update d.weighted_balance_commitment commitment true }

/-! ## The contract itself -/

def constructor (registry guardian : Address) : VotingState :=
  { inst := { registry := registry, guardian := guardian } }

def set_guardian (env : VotingEnv) (s : VotingState) (current_guardian new_guardian : Address) :
    Outcome VotingError VotingState := do
  require_auth env.toEnv current_guardian
  require_guardian s current_guardian
  return { s with inst.guardian := new_guardian }

def is_paused (env : VotingEnv) (s : VotingState) : Bool :=
  s.inst.paused && decide (env.timestamp < saturatingAdd 64 s.inst.paused_at MAX_PAUSE_DURATION)

def pause (env : VotingEnv) (s : VotingState) (guardian : Address) : Outcome VotingError VotingState := do
  require_auth env.toEnv guardian
  require_guardian s guardian
  require (is_paused env s = false) .ContractPaused
  return { s with inst.paused := true, inst.paused_at := env.timestamp }

def unpause (env : VotingEnv) (s : VotingState) (guardian : Address) :
    Outcome VotingError VotingState := do
  require_auth env.toEnv guardian
  require_guardian s guardian
  return { s with inst.paused := false }

def apply_upgrade_from_registry (C : Crypto) (env : VotingEnv) (s : VotingState)
    (from_version to_version storage_version : Nat) (migration_payload : Bytes) :
    Outcome VotingError VotingState := do
  require_registry env s
  require (¬ (s.inst.version ≠ from_version ∨ to_version ≤ from_version)) .UpgradeVersionMismatch
  require (¬ storage_version < s.inst.storage_version) .StorageVersionDowngrade
  require (migration_payload.length ≤ MAX_UPGRADE_PAYLOAD_LEN) .UpgradePayloadTooLarge
  let migration : ContractMigrationInfo :=
    { from_version := from_version
      to_version := to_version
      storage_version := storage_version
      payload_hash := C.sha256 migration_payload
      applied_at := env.timestamp }
  return { s with
    inst.version := to_version
    inst.storage_version := storage_version
    inst.upgrade_migration := Function.update s.inst.upgrade_migration to_version (some migration) }

def rollback_upgrade_from_registry (env : VotingEnv) (s : VotingState) (from_version to_version : Nat) :
    Outcome VotingError VotingState := do
  require_registry env s
  require (¬ (s.inst.version ≠ from_version ∨ from_version ≤ to_version)) .UpgradeVersionMismatch
  return { s with
    inst.version := to_version
    inst.upgrade_rollback := Function.update s.inst.upgrade_rollback from_version (some to_version) }

def set_bridge_contract (env : VotingEnv) (s : VotingState) (guardian bridge : Address) :
    Outcome VotingError VotingState := do
  require_auth env.toEnv guardian
  require_guardian s guardian
  return { s with inst.bridge_contract := some bridge }

/-- No signature is asked for. -/
def set_circuit_registry (env : VotingEnv) (s : VotingState) (circuit_registry : Address) :
    Outcome VotingError VotingState := do
  let s ← require_not_paused env s
  return { s with inst.circuit_registry := some circuit_registry }

/-- No signature is asked for. -/
def set_transcript_registry (env : VotingEnv) (s : VotingState) (transcript_registry : Address) :
    Outcome VotingError VotingState := do
  let s ← require_not_paused env s
  return { s with inst.transcript_registry := some transcript_registry }

def set_dao_current_circuit (env : VotingEnv) (s : VotingState) (dao_id : Nat) (circuit_id : Bytes) :
    Outcome VotingError VotingState := do
  let s ← require_not_paused env s
  require_registry env s
  return s.set_dao dao_id { s.daos dao_id with dao_current_circuit := some circuit_id }

def set_migration (env : VotingEnv) (s : VotingState) (dao_id : Nat)
    (old_circuit_id new_circuit_id : Bytes) (deadline : Nat) : Outcome VotingError VotingState := do
  let s ← require_not_paused env s
  require_registry env s
  let migration : MigrationInfo :=
    { old_circuit_id := old_circuit_id, new_circuit_id := new_circuit_id, deadline := deadline }
  return s.set_dao dao_id { s.daos dao_id with dao_migration := some migration }

/-! ## Voters' balances -/

def record_balance_checkpoint (env : VotingEnv) (s : VotingState) (dao_id : Nat) (voter : Address)
    (balance : Int) (admin : Address) : Outcome VotingError VotingState := do
  let s ← require_not_paused env s
  require_auth env.toEnv admin
  assert_admin env s dao_id admin
  let d := s.daos dao_id
  return s.set_dao dao_id { d with
    balance_checkpoint := Function.update d.balance_checkpoint voter
      (Function.update (d.balance_checkpoint voter) env.sequence (some balance)) }

/-- The voter or the DAO admin. -/
def require_voter_or_admin (env : VotingEnv) (s : VotingState) (dao_id : Nat) (voter caller : Address) :
    Outcome VotingError Unit :=
  if caller ≠ voter then do
    require_auth env.toEnv caller
    assert_admin env s dao_id caller
  else require_auth env.toEnv voter

def set_voter_cooldown (env : VotingEnv) (s : VotingState) (dao_id : Nat) (voter caller : Address) :
    Outcome VotingError VotingState := do
  let s ← require_not_paused env s
  require_voter_or_admin env s dao_id voter caller
  let cooldown_end ← expect (checkedAdd 64 env.timestamp 604800)
  let d := s.daos dao_id
  return s.set_dao dao_id { d with
    transfer_cooldown := Function.update d.transfer_cooldown voter (some cooldown_end) }

def clear_voter_cooldown (env : VotingEnv) (s : VotingState) (dao_id : Nat) (voter caller : Address) :
    Outcome VotingError VotingState := do
  let s ← require_not_paused env s
  require_voter_or_admin env s dao_id voter caller
  let d := s.daos dao_id
  return s.set_dao dao_id { d with
    transfer_cooldown := Function.update d.transfer_cooldown voter none }

end ZkVote.Voting
