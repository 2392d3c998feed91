import ZkVote.Lib.Runs
import ZkVote.Voting.State

/-!
# The DAO registry

`contracts/dao-registry/src/lib.rs`. Who administers a DAO, what its signers have
agreed to, and which contracts it upgrades. A call returns the calls it makes in turn.
-/

open Lib Lib.Outcome

namespace ZkVote.Registry

inductive RegistryError where
  | NameTooLong | DaoNotFound | NotAdmin | MetadataCidTooLong | UpgradeNotFound | UpgradeTimelockNotReady
  | UpgradeExpired | UpgradeAlreadyExecuted | UpgradeInvalidWindow | UpgradePayloadTooLarge | InvalidRole
  | NotMultisigAdmin | InsufficientSignatures | ProposalNotFound | ProposalAlreadyExecuted
  | InvalidSignature | DuplicateSigner | InvalidThreshold | SignerNotFound | NameAlreadyReserved
  | CommitRevealMismatch | ReservationExpired | RevealTooEarly
  deriving DecidableEq, Repr

def VERSION : Nat := 2
def MAX_DAO_NAME_LEN : Nat := 24
def MAX_METADATA_CID_LEN : Nat := 64
def MIN_UPGRADE_DELAY : Nat := 24 * 60 * 60
def MAX_UPGRADE_PAYLOAD_LEN : Nat := 4096
def RESERVATION_TTL_LEDGERS : Nat := 720
/-- How long a multisig proposal is open. -/
def MULTISIG_WINDOW : Nat := 7 * 24 * 60 * 60

structure NameReservation where
  reserver : Address
  commitment : BytesN 32
  committed_at : Nat
  expires_at : Nat
  deriving DecidableEq

structure DaoInfo where
  id : Nat
  name : Bytes
  admin : Address
  created_at : Nat
  membership_open : Bool
  members_can_propose : Bool
  metadata_cid : Option Bytes
  deriving DecidableEq

structure DaoCreationReceipt where
  dao_id : Nat
  idempotency_key : BytesN 32
  creator : Address
  created_at : Nat
  deriving DecidableEq

inductive DaoRole where
  | Admin | Member | Auditor
  deriving DecidableEq, Repr

structure MemberRole where
  member : Address
  role : DaoRole
  assigned_at : Nat
  deriving DecidableEq

structure MultisigConfig where
  dao_id : Nat
  signers : List Address
  threshold : Nat
  created_at : Nat
  deriving DecidableEq

structure MultisigProposal where
  dao_id : Nat
  proposal_id : Nat
  title : Bytes
  description : Bytes
  action_type : Bytes
  action_data : Bytes
  proposer : Address
  created_at : Nat
  expires_at : Nat
  signatures : List Address
  executed : Bool
  deriving DecidableEq

structure CircuitUpgradeProposal where
  dao_id : Nat
  from_circuit_id : Bytes
  to_circuit_id : Bytes
  circuit_type : Bytes
  proposed_at : Nat
  deadline : Nat
  approved : Bool
  deriving DecidableEq

structure ContractUpgradeProposal where
  dao_id : Nat
  target_contract : Address
  wasm_hash : BytesN 32
  rollback_wasm_hash : BytesN 32
  from_version : Nat
  to_version : Nat
  storage_version : Nat
  migration_payload : Bytes
  proposed_at : Nat
  eta : Nat
  expires_at : Nat
  executed : Bool
  rolled_back : Bool
  deriving DecidableEq

structure DaoRegistry where
  version : Option Nat := none
  dao_count : Nat := 0
  dao : Nat → Option DaoInfo := fun _ => none
  member_role : Nat × Address → Option MemberRole := fun _ => none
  multisig_config : Nat → Option MultisigConfig := fun _ => none
  multisig_proposal_count : Nat := 0
  multisig_proposal : Nat × Nat → Option MultisigProposal := fun _ => none
  upgrade_proposal_count : Nat := 0
  circuit_upgrade : Nat × Nat → Option CircuitUpgradeProposal := fun _ => none
  contract_upgrade : Nat × Nat → Option ContractUpgradeProposal := fun _ => none
  idempotency_key : BytesN 32 → Option Nat := fun _ => none
  receipt : Nat → Option DaoCreationReceipt := fun _ => none
  name_reservation : BytesN 32 → Option NameReservation := fun _ => none

/-- A call to another contract, which the registry signs for. The first address is the contract. -/
inductive Invocation where
  | mint_from_registry (sbt : Address) (dao_id : Nat) (to_ : Address)
  | init_tree_from_registry (tree : Address) (dao_id depth : Nat) (field : Symbol)
  | register_from_registry (tree : Address) (dao_id : Nat) (commitment : U256) (member : Address)
  | set_vk_from_registry (voting : Address) (dao_id : Nat) (vk : Voting.VerificationKey)
  | apply_upgrade_from_registry (target : Address) (wasm_hash : BytesN 32)
      (from_version to_version storage_version : Nat) (migration_payload : Bytes)
  | rollback_upgrade_from_registry (target : Address) (wasm_hash : BytesN 32) (from_version to_version : Nat)
  deriving DecidableEq

/-! ## Reading -/

def get_dao (s : DaoRegistry) (dao_id : Nat) : Outcome RegistryError DaoInfo :=
  orPanic (s.dao dao_id) .DaoNotFound

def get_admin (s : DaoRegistry) (dao_id : Nat) : Outcome RegistryError Address := do
  let info ← get_dao s dao_id
  return info.admin

def require_dao_admin (s : DaoRegistry) (dao_id : Nat) (admin : Address) : Outcome RegistryError Unit := do
  let dao ← orPanic (s.dao dao_id) .DaoNotFound
  require (admin = dao.admin) .NotAdmin

/-! ## DAOs -/

def next_dao_id (s : DaoRegistry) : Outcome RegistryError (Nat × DaoRegistry) := do
  let new_id ← expect (checkedAdd 64 s.dao_count 1)
  return (new_id, { s with version := s.version.or (some VERSION), dao_count := new_id })

/-- The checks and the entry that the three ways to create a DAO share. -/
def create_entry (env : Env) (s : DaoRegistry) (name : Bytes) (creator : Address)
    (membership_open members_can_propose : Bool) (metadata_cid : Option Bytes) :
    Outcome RegistryError (Nat × DaoRegistry) := do
  require_auth env creator
  require (name.length ≤ MAX_DAO_NAME_LEN) .NameTooLong
  require (metadata_cid.any (fun cid => MAX_METADATA_CID_LEN < cid.length) = false) .MetadataCidTooLong
  let (dao_id, s) ← next_dao_id s
  let info : DaoInfo :=
    { id := dao_id
      name := name
      admin := creator
      created_at := env.timestamp
      membership_open := membership_open
      members_can_propose := members_can_propose
      metadata_cid := metadata_cid }
  return (dao_id, { s with dao := Function.update s.dao dao_id (some info) })

def create_dao (env : Env) (s : DaoRegistry) (name : Bytes) (creator : Address)
    (membership_open members_can_propose : Bool) (metadata_cid : Option Bytes) :
    Outcome RegistryError (Nat × DaoRegistry) :=
  create_entry env s name creator membership_open members_can_propose metadata_cid

/-- A key that is known already answers anyone. -/
def create_dao_idempotent (env : Env) (s : DaoRegistry) (idempotency_key : BytesN 32) (name : Bytes)
    (creator : Address) (membership_open members_can_propose : Bool) (metadata_cid : Option Bytes) :
    Outcome RegistryError ((Nat × Bool) × DaoRegistry) :=
  match s.idempotency_key idempotency_key with
  | some dao_id => return ((dao_id, false), s)
  | none => do
    let (dao_id, s) ← create_dao env s name creator membership_open members_can_propose metadata_cid
    let receipt : DaoCreationReceipt :=
      { dao_id := dao_id
        idempotency_key := idempotency_key
        creator := creator
        created_at := env.timestamp }
    return ((dao_id, true), { s with
      idempotency_key := Function.update s.idempotency_key idempotency_key (some dao_id)
      receipt := Function.update s.receipt dao_id (some receipt) })

def create_and_init_dao_no_reg (env : Env) (s : DaoRegistry) (name : Bytes) (creator : Address)
    (membership_open members_can_propose : Bool) (metadata_cid : Option Bytes)
    (sbt_contract tree_contract voting_contract : Address) (tree_depth : Nat) (field : Symbol)
    (vk : Voting.VerificationKey) : Outcome RegistryError (DaoRegistry × List Invocation) := do
  let (dao_id, s) ← create_entry env s name creator membership_open members_can_propose metadata_cid
  return (s, [.mint_from_registry sbt_contract dao_id creator,
    .init_tree_from_registry tree_contract dao_id tree_depth field,
    .set_vk_from_registry voting_contract dao_id vk])

def create_and_init_dao (env : Env) (s : DaoRegistry) (name : Bytes) (creator : Address)
    (membership_open members_can_propose : Bool) (sbt_contract tree_contract voting_contract : Address)
    (tree_depth : Nat) (creator_commitment : U256) (field : Symbol) (vk : Voting.VerificationKey) :
    Outcome RegistryError (DaoRegistry × List Invocation) := do
  let (dao_id, s) ← create_entry env s name creator membership_open members_can_propose none
  return (s, [.mint_from_registry sbt_contract dao_id creator,
    .init_tree_from_registry tree_contract dao_id tree_depth field,
    .register_from_registry tree_contract dao_id creator_commitment creator,
    .set_vk_from_registry voting_contract dao_id vk])

def transfer_admin (env : Env) (s : DaoRegistry) (dao_id : Nat) (new_admin : Address) :
    Outcome RegistryError DaoRegistry := do
  let info ← orPanic (s.dao dao_id) .DaoNotFound
  require_auth env info.admin
  return { s with dao := Function.update s.dao dao_id (some { info with admin := new_admin }) }

/-- A setting of a DAO that its admin may change. -/
def set_info (s : DaoRegistry) (dao_id : Nat) (admin : Address) (change : DaoInfo → DaoInfo) :
    Outcome RegistryError DaoRegistry := do
  let info ← orPanic (s.dao dao_id) .DaoNotFound
  require (admin = info.admin) .NotAdmin
  return { s with dao := Function.update s.dao dao_id (some (change info)) }

def set_proposal_mode (env : Env) (s : DaoRegistry) (dao_id : Nat) (members_can_propose : Bool)
    (admin : Address) : Outcome RegistryError DaoRegistry := do
  require_auth env admin
  set_info s dao_id admin fun info => { info with members_can_propose := members_can_propose }

def set_membership_open (env : Env) (s : DaoRegistry) (dao_id : Nat) (membership_open : Bool)
    (admin : Address) : Outcome RegistryError DaoRegistry := do
  require_auth env admin
  set_info s dao_id admin fun info => { info with membership_open := membership_open }

def set_name (env : Env) (s : DaoRegistry) (dao_id : Nat) (name : Bytes) (admin : Address) :
    Outcome RegistryError DaoRegistry := do
  require_auth env admin
  require (name.length ≤ MAX_DAO_NAME_LEN) .NameTooLong
  set_info s dao_id admin fun info => { info with name := name }

def set_metadata_cid (env : Env) (s : DaoRegistry) (dao_id : Nat) (metadata_cid : Option Bytes)
    (admin : Address) : Outcome RegistryError DaoRegistry := do
  require_auth env admin
  require (metadata_cid.any (fun cid => MAX_METADATA_CID_LEN < cid.length) = false) .MetadataCidTooLong
  set_info s dao_id admin fun info => { info with metadata_cid := metadata_cid }

/-- Of the reservations, only one that has expired is replaced. -/
def commit_name (env : Env) (s : DaoRegistry) (commitment : BytesN 32) (reserver : Address) :
    Outcome RegistryError DaoRegistry := do
  require_auth env reserver
  require ((s.name_reservation commitment).any (fun existing => env.sequence ≤ existing.expires_at) = false)
    .NameAlreadyReserved
  let expires_at ← expect (checkedAdd 32 env.sequence RESERVATION_TTL_LEDGERS)
  let reservation : NameReservation :=
    { reserver := reserver
      commitment := commitment
      committed_at := env.sequence
      expires_at := expires_at }
  return { s with name_reservation := Function.update s.name_reservation commitment (some reservation) }

/-! ## Roles -/

def DaoRole.of_u32 : Nat → Option DaoRole
  | 0 => some .Admin
  | 1 => some .Member
  | 2 => some .Auditor
  | _ => none

def assign_role (env : Env) (s : DaoRegistry) (dao_id : Nat) (member : Address) (role : Nat) (admin : Address) :
    Outcome RegistryError DaoRegistry := do
  require_auth env admin
  require_dao_admin s dao_id admin
  let role_enum ← orPanic (DaoRole.of_u32 role) .InvalidRole
  let member_role : MemberRole := { member := member, role := role_enum, assigned_at := env.timestamp }
  return { s with member_role := Function.update s.member_role (dao_id, member) (some member_role) }

def revoke_role (env : Env) (s : DaoRegistry) (dao_id : Nat) (member : Address) (admin : Address) :
    Outcome RegistryError DaoRegistry := do
  require_auth env admin
  require_dao_admin s dao_id admin
  return { s with member_role := Function.update s.member_role (dao_id, member) none }

/-! ## Multisig -/

/-- The admin replaces the signers whenever they like. -/
def init_multisig (env : Env) (s : DaoRegistry) (dao_id : Nat) (signers : List Address) (threshold : Nat)
    (admin : Address) : Outcome RegistryError DaoRegistry := do
  require_auth env admin
  require_dao_admin s dao_id admin
  require (¬ (threshold = 0 ∨ signers.length < threshold)) .InvalidThreshold
  require signers.Nodup .DuplicateSigner
  let config : MultisigConfig :=
    { dao_id := dao_id, signers := signers, threshold := threshold, created_at := env.timestamp }
  return { s with multisig_config := Function.update s.multisig_config dao_id (some config) }

def next_multisig_proposal_id (s : DaoRegistry) : Outcome RegistryError (Nat × DaoRegistry) := do
  let new_id ← expect (checkedAdd 64 s.multisig_proposal_count 1)
  return (new_id, { s with multisig_proposal_count := new_id })

def create_multisig_proposal (env : Env) (s : DaoRegistry) (dao_id : Nat)
    (title description action_type action_data : Bytes) (proposer : Address) :
    Outcome RegistryError (Nat × DaoRegistry) := do
  require_auth env proposer
  require (s.dao dao_id ≠ none) .DaoNotFound
  let config ← orPanic (s.multisig_config dao_id) .NotMultisigAdmin
  require (proposer ∈ config.signers) .NotMultisigAdmin
  let (proposal_id, s) ← next_multisig_proposal_id s
  let expires_at ← expect (checkedAdd 64 env.timestamp MULTISIG_WINDOW)
  let proposal : MultisigProposal :=
    { dao_id := dao_id
      proposal_id := proposal_id
      title := title
      description := description
      action_type := action_type
      action_data := action_data
      proposer := proposer
      created_at := env.timestamp
      expires_at := expires_at
      signatures := [proposer]
      executed := false }
  return (proposal_id, { s with
    multisig_proposal := Function.update s.multisig_proposal (dao_id, proposal_id) (some proposal) })

def sign_multisig_proposal (env : Env) (s : DaoRegistry) (dao_id proposal_id : Nat) (signer : Address) :
    Outcome RegistryError DaoRegistry := do
  require_auth env signer
  let proposal ← orPanic (s.multisig_proposal (dao_id, proposal_id)) .ProposalNotFound
  require (proposal.executed = false) .ProposalAlreadyExecuted
  require (¬ proposal.expires_at < env.timestamp) .UpgradeExpired
  let config ← orPanic (s.multisig_config dao_id) .NotMultisigAdmin
  require (signer ∈ config.signers) .InvalidSignature
  require (signer ∉ proposal.signatures) .DuplicateSigner
  let proposal := { proposal with signatures := proposal.signatures ++ [signer] }
  return { s with
    multisig_proposal := Function.update s.multisig_proposal (dao_id, proposal_id) (some proposal) }

/-- The signatures are counted, whoever the signers are now, and the window is not looked at. -/
def execute_multisig_proposal (env : Env) (s : DaoRegistry) (dao_id proposal_id : Nat) (executor : Address) :
    Outcome RegistryError DaoRegistry := do
  require_auth env executor
  let proposal ← orPanic (s.multisig_proposal (dao_id, proposal_id)) .ProposalNotFound
  require (proposal.executed = false) .ProposalAlreadyExecuted
  let config ← orPanic (s.multisig_config dao_id) .NotMultisigAdmin
  require (executor ∈ config.signers) .InvalidSignature
  require (¬ proposal.signatures.length < config.threshold) .InsufficientSignatures
  let proposal := { proposal with executed := true }
  return { s with
    multisig_proposal := Function.update s.multisig_proposal (dao_id, proposal_id) (some proposal) }

/-! ## Upgrades -/

/-- One counter for the upgrades of contracts and of circuits. -/
def next_upgrade_proposal_id (s : DaoRegistry) : Outcome RegistryError (Nat × DaoRegistry) := do
  let new_id ← expect (checkedAdd 64 s.upgrade_proposal_count 1)
  return (new_id, { s with upgrade_proposal_count := new_id })

/-- The target is any contract. -/
def propose_contract_upgrade (env : Env) (s : DaoRegistry) (dao_id : Nat) (target_contract : Address)
    (wasm_hash rollback_wasm_hash : BytesN 32) (from_version to_version storage_version : Nat)
    (migration_payload : Bytes) (eta expires_at : Nat) (proposer : Address) :
    Outcome RegistryError (Nat × DaoRegistry) := do
  require_auth env proposer
  require_dao_admin s dao_id proposer
  require (¬ (eta < saturatingAdd 64 env.timestamp MIN_UPGRADE_DELAY ∨ expires_at ≤ eta)) .UpgradeInvalidWindow
  require (migration_payload.length ≤ MAX_UPGRADE_PAYLOAD_LEN) .UpgradePayloadTooLarge
  let (proposal_id, s) ← next_upgrade_proposal_id s
  let proposal : ContractUpgradeProposal :=
    { dao_id := dao_id
      target_contract := target_contract
      wasm_hash := wasm_hash
      rollback_wasm_hash := rollback_wasm_hash
      from_version := from_version
      to_version := to_version
      storage_version := storage_version
      migration_payload := migration_payload
      proposed_at := env.timestamp
      eta := eta
      expires_at := expires_at
      executed := false
      rolled_back := false }
  return (proposal_id, { s with
    contract_upgrade := Function.update s.contract_upgrade (dao_id, proposal_id) (some proposal) })

def execute_contract_upgrade (env : Env) (s : DaoRegistry) (dao_id proposal_id : Nat) (executor : Address) :
    Outcome RegistryError (DaoRegistry × List Invocation) := do
  require_auth env executor
  require_dao_admin s dao_id executor
  let proposal ← orPanic (s.contract_upgrade (dao_id, proposal_id)) .UpgradeNotFound
  require (proposal.executed = false) .UpgradeAlreadyExecuted
  require (¬ env.timestamp < proposal.eta) .UpgradeTimelockNotReady
  require (¬ proposal.expires_at < env.timestamp) .UpgradeExpired
  let apply_upgrade : Invocation :=
    .apply_upgrade_from_registry proposal.target_contract proposal.wasm_hash proposal.from_version
      proposal.to_version proposal.storage_version proposal.migration_payload
  let executed := { proposal with executed := true }
  return ({ s with
    contract_upgrade := Function.update s.contract_upgrade (dao_id, proposal_id) (some executed) }, [apply_upgrade])

def rollback_contract_upgrade (env : Env) (s : DaoRegistry) (dao_id proposal_id : Nat) (executor : Address) :
    Outcome RegistryError (DaoRegistry × List Invocation) := do
  require_auth env executor
  require_dao_admin s dao_id executor
  let proposal ← orPanic (s.contract_upgrade (dao_id, proposal_id)) .UpgradeNotFound
  require (¬ (proposal.executed = false ∨ proposal.rolled_back = true)) .UpgradeInvalidWindow
  let rollback : Invocation :=
    .rollback_upgrade_from_registry proposal.target_contract proposal.rollback_wasm_hash proposal.to_version
      proposal.from_version
  let rolled_back := { proposal with rolled_back := true }
  return ({ s with
    contract_upgrade := Function.update s.contract_upgrade (dao_id, proposal_id) (some rolled_back) }, [rollback])

def propose_circuit_upgrade (env : Env) (s : DaoRegistry) (dao_id : Nat)
    (from_circuit_id to_circuit_id circuit_type : Bytes) (deadline : Nat) (proposer : Address) :
    Outcome RegistryError (Nat × DaoRegistry) := do
  require_auth env proposer
  require_dao_admin s dao_id proposer
  require (¬ deadline ≤ env.timestamp) .DaoNotFound
  let (proposal_id, s) ← next_upgrade_proposal_id s
  let proposal : CircuitUpgradeProposal :=
    { dao_id := dao_id
      from_circuit_id := from_circuit_id
      to_circuit_id := to_circuit_id
      circuit_type := circuit_type
      proposed_at := env.timestamp
      deadline := deadline
      approved := false }
  return (proposal_id, { s with
    circuit_upgrade := Function.update s.circuit_upgrade (dao_id, proposal_id) (some proposal) })

def approve_circuit_upgrade (env : Env) (s : DaoRegistry) (dao_id proposal_id : Nat) (approver : Address) :
    Outcome RegistryError DaoRegistry := do
  require_auth env approver
  let proposal ← orPanic (s.circuit_upgrade (dao_id, proposal_id)) .DaoNotFound
  require_dao_admin s dao_id approver
  require (¬ proposal.deadline < env.timestamp) .DaoNotFound
  let proposal := { proposal with approved := true }
  return { s with
    circuit_upgrade := Function.update s.circuit_upgrade (dao_id, proposal_id) (some proposal) }

/-! ## Runs -/

inductive Call where
  | create_dao (name : Bytes) (creator : Address) (membership_open members_can_propose : Bool)
      (metadata_cid : Option Bytes)
  | create_dao_idempotent (idempotency_key : BytesN 32) (name : Bytes) (creator : Address)
      (membership_open members_can_propose : Bool) (metadata_cid : Option Bytes)
  | create_and_init_dao_no_reg (name : Bytes) (creator : Address)
      (membership_open members_can_propose : Bool) (metadata_cid : Option Bytes)
      (sbt_contract tree_contract voting_contract : Address) (tree_depth : Nat) (field : Symbol)
      (vk : Voting.VerificationKey)
  | create_and_init_dao (name : Bytes) (creator : Address) (membership_open members_can_propose : Bool)
      (sbt_contract tree_contract voting_contract : Address) (tree_depth : Nat)
      (creator_commitment : U256) (field : Symbol) (vk : Voting.VerificationKey)
  | transfer_admin (dao_id : Nat) (new_admin : Address)
  | set_proposal_mode (dao_id : Nat) (members_can_propose : Bool) (admin : Address)
  | set_membership_open (dao_id : Nat) (membership_open : Bool) (admin : Address)
  | set_name (dao_id : Nat) (name : Bytes) (admin : Address)
  | set_metadata_cid (dao_id : Nat) (metadata_cid : Option Bytes) (admin : Address)
  | commit_name (commitment : BytesN 32) (reserver : Address)
  | assign_role (dao_id : Nat) (member : Address) (role : Nat) (admin : Address)
  | revoke_role (dao_id : Nat) (member admin : Address)
  | init_multisig (dao_id : Nat) (signers : List Address) (threshold : Nat) (admin : Address)
  | create_multisig_proposal (dao_id : Nat) (title description action_type action_data : Bytes)
      (proposer : Address)
  | sign_multisig_proposal (dao_id proposal_id : Nat) (signer : Address)
  | execute_multisig_proposal (dao_id proposal_id : Nat) (executor : Address)
  | propose_contract_upgrade (dao_id : Nat) (target_contract : Address)
      (wasm_hash rollback_wasm_hash : BytesN 32) (from_version to_version storage_version : Nat)
      (migration_payload : Bytes) (eta expires_at : Nat) (proposer : Address)
  | execute_contract_upgrade (dao_id proposal_id : Nat) (executor : Address)
  | rollback_contract_upgrade (dao_id proposal_id : Nat) (executor : Address)
  | propose_circuit_upgrade (dao_id : Nat) (from_circuit_id to_circuit_id circuit_type : Bytes)
      (deadline : Nat) (proposer : Address)
  | approve_circuit_upgrade (dao_id proposal_id : Nat) (approver : Address)

/-- A call that makes no other. -/
def alone (x : Outcome RegistryError DaoRegistry) : Outcome RegistryError (DaoRegistry × List Invocation) := do
  let s ← x
  return (s, [])

/-- The same for a call that returns a value. -/
def aloneWith {α : Type} (x : Outcome RegistryError (α × DaoRegistry)) :
    Outcome RegistryError (DaoRegistry × List Invocation) := do
  let (_, s) ← x
  return (s, [])

def step (s : DaoRegistry) (env : Env) : Call → Outcome RegistryError (DaoRegistry × List Invocation)
  | .create_dao name creator membership_open members_can_propose metadata_cid =>
    aloneWith (create_dao env s name creator membership_open members_can_propose metadata_cid)
  | .create_dao_idempotent idempotency_key name creator membership_open members_can_propose metadata_cid =>
    aloneWith (create_dao_idempotent env s idempotency_key name creator membership_open members_can_propose
      metadata_cid)
  | .create_and_init_dao_no_reg name creator membership_open members_can_propose metadata_cid sbt_contract
      tree_contract voting_contract tree_depth field vk =>
    create_and_init_dao_no_reg env s name creator membership_open members_can_propose metadata_cid
      sbt_contract tree_contract voting_contract tree_depth field vk
  | .create_and_init_dao name creator membership_open members_can_propose sbt_contract tree_contract
      voting_contract tree_depth creator_commitment field vk =>
    create_and_init_dao env s name creator membership_open members_can_propose sbt_contract tree_contract
      voting_contract tree_depth creator_commitment field vk
  | .transfer_admin dao_id new_admin => alone (transfer_admin env s dao_id new_admin)
  | .set_proposal_mode dao_id members_can_propose admin =>
    alone (set_proposal_mode env s dao_id members_can_propose admin)
  | .set_membership_open dao_id membership_open admin =>
    alone (set_membership_open env s dao_id membership_open admin)
  | .set_name dao_id name admin => alone (set_name env s dao_id name admin)
  | .set_metadata_cid dao_id metadata_cid admin => alone (set_metadata_cid env s dao_id metadata_cid admin)
  | .commit_name commitment reserver => alone (commit_name env s commitment reserver)
  | .assign_role dao_id member role admin => alone (assign_role env s dao_id member role admin)
  | .revoke_role dao_id member admin => alone (revoke_role env s dao_id member admin)
  | .init_multisig dao_id signers threshold admin => alone (init_multisig env s dao_id signers threshold admin)
  | .create_multisig_proposal dao_id title description action_type action_data proposer =>
    aloneWith (create_multisig_proposal env s dao_id title description action_type action_data proposer)
  | .sign_multisig_proposal dao_id proposal_id signer =>
    alone (sign_multisig_proposal env s dao_id proposal_id signer)
  | .execute_multisig_proposal dao_id proposal_id executor =>
    alone (execute_multisig_proposal env s dao_id proposal_id executor)
  | .propose_contract_upgrade dao_id target_contract wasm_hash rollback_wasm_hash from_version to_version
      storage_version migration_payload eta expires_at proposer =>
    aloneWith (propose_contract_upgrade env s dao_id target_contract wasm_hash rollback_wasm_hash
      from_version to_version storage_version migration_payload eta expires_at proposer)
  | .execute_contract_upgrade dao_id proposal_id executor =>
    execute_contract_upgrade env s dao_id proposal_id executor
  | .rollback_contract_upgrade dao_id proposal_id executor =>
    rollback_contract_upgrade env s dao_id proposal_id executor
  | .propose_circuit_upgrade dao_id from_circuit_id to_circuit_id circuit_type deadline proposer =>
    aloneWith (propose_circuit_upgrade env s dao_id from_circuit_id to_circuit_id circuit_type deadline proposer)
  | .approve_circuit_upgrade dao_id proposal_id approver =>
    alone (approve_circuit_upgrade env s dao_id proposal_id approver)

/-- A call the registry accepts, and whose own calls the other contracts accept. -/
def Accepts (s : DaoRegistry) (call : Env × Call) (s' : DaoRegistry) : Prop :=
  ∃ calls, step s call.1 call.2 = .ok (s', calls)

/-- A run from the deployment of the registry. -/
def RegistryRun : List (DaoRegistry × Env × Call) → DaoRegistry → Prop := Run Accepts {}

end ZkVote.Registry
