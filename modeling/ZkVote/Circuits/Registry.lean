import ZkVote.Lib.Runs
import ZkVote.Voting.State

/-!
# The circuit registry

`contracts/circuit-registry/src/lib.rs`. Which verification keys there are, which
of them a DAO uses, and how a registered key is replaced.
-/

open Lib Lib.Outcome

namespace ZkVote.Circuits

inductive RegistryError where
  | NotGovernance | CircuitNotFound | CircuitAlreadyRegistered | InvalidCircuitType | MigrationNotFound
  | MigrationAlreadyExists | MigrationDeadlinePassed | CircuitExpired | VkProposalNotFound
  | VkProposalAlreadyExecuted | VkProposalTimelockNotElapsed | VkProposalQuorumNotMet
  | VkProposalAlreadyApproved | VkProposalNotActive | VkProposalInvalidQuorum
  | VkProposalAlreadyCancelled | NotAdmin | MissingCeremonyProvenance
  deriving DecidableEq, Repr

def DEFAULT_MIN_VK_TIMELOCK : Nat := 86400
def DEFAULT_VK_QUORUM : Nat := 1

inductive CircuitType where
  | Vote | Comment | Tally
  deriving DecidableEq, Repr

structure CircuitInfo where
  circuit_id : Bytes
  circuit_type : CircuitType
  vk : Voting.VerificationKey
  wasm_hash : BytesN 32
  registered_at : Nat
  expiration : Nat
  num_public_signals : Nat
  ceremony_transcript_hash : Option (BytesN 32)
  deriving DecidableEq

structure DaoMigration where
  dao_id : Nat
  from_circuit_id : Bytes
  to_circuit_id : Bytes
  migration_start : Nat
  deadline : Nat
  active : Bool
  deriving DecidableEq

structure CircuitVKMap where
  vk : Voting.VerificationKey
  num_public_signals : Nat
  deriving DecidableEq

inductive VkProposalStatus where
  | Pending | Approved | Executed | Cancelled
  deriving DecidableEq, Repr

structure VkProposal where
  id : Nat
  circuit_id : Bytes
  circuit_type : CircuitType
  new_vk : Voting.VerificationKey
  new_wasm_hash : BytesN 32
  proposed_by : Address
  proposed_at : Nat
  execute_after : Nat
  required_approvals : Nat
  approvers : List Address
  status : VkProposalStatus
  dao_id : Option Nat
  deriving DecidableEq

structure RegistryState where
  governance : Address
  admins : List Address
  min_vk_timelock : Nat
  vk_quorum : Nat
  vk_proposal_counter : Nat := 0
  circuit : Bytes × CircuitType → Option CircuitInfo := fun _ => none
  dao_migration : Nat → Option DaoMigration := fun _ => none
  dao_current_circuit : Nat × CircuitType → Option Bytes := fun _ => none
  vk_proposal : Nat → Option VkProposal := fun _ => none
  dao_vk_proposal : Nat → Option Nat := fun _ => none

/-! ## Governance and admins -/

/-- Governance is the first admin. -/
def constructor (governance : Address) : RegistryState where
  governance := governance
  admins := [governance]
  min_vk_timelock := DEFAULT_MIN_VK_TIMELOCK
  vk_quorum := DEFAULT_VK_QUORUM

def assert_governance (env : Env) (s : RegistryState) : Outcome RegistryError Unit :=
  require_auth env s.governance

def is_admin (s : RegistryState) (addr : Address) : Bool := decide (addr ∈ s.admins ∨ addr = s.governance)

def assert_admin (env : Env) (s : RegistryState) (addr : Address) : Outcome RegistryError Unit := do
  require_auth env addr
  require (is_admin s addr = true) .NotAdmin

def set_admins (env : Env) (s : RegistryState) (admins : List Address) :
    Outcome RegistryError RegistryState := do
  assert_governance env s
  require (admins ≠ []) .VkProposalInvalidQuorum
  return { s with admins := admins }

def set_vk_upgrade_params (env : Env) (s : RegistryState) (min_timelock required_approvals : Nat) :
    Outcome RegistryError RegistryState := do
  assert_governance env s
  require (required_approvals ≠ 0) .VkProposalInvalidQuorum
  return { s with min_vk_timelock := min_timelock, vk_quorum := required_approvals }

/-! ## Circuits -/

def register_circuit (env : Env) (s : RegistryState) (circuit_id : Bytes) (circuit_type : CircuitType)
    (vk : Voting.VerificationKey) (wasm_hash : BytesN 32) (expiration num_public_signals : Nat)
    (ceremony_transcript_hash : Option (BytesN 32)) : Outcome RegistryError RegistryState := do
  assert_governance env s
  require (ceremony_transcript_hash ≠ none) .MissingCeremonyProvenance
  require (s.circuit (circuit_id, circuit_type) = none) .CircuitAlreadyRegistered
  let circuit : CircuitInfo :=
    { circuit_id := circuit_id
      circuit_type := circuit_type
      vk := vk
      wasm_hash := wasm_hash
      registered_at := env.timestamp
      expiration := expiration
      num_public_signals := num_public_signals
      ceremony_transcript_hash := ceremony_transcript_hash }
  return { s with circuit := Function.update s.circuit (circuit_id, circuit_type) (some circuit) }

def get_circuit (s : RegistryState) (circuit_id : Bytes) (circuit_type : CircuitType) :
    Outcome RegistryError CircuitInfo :=
  orPanic (s.circuit (circuit_id, circuit_type)) .CircuitNotFound

def get_vk (env : Env) (s : RegistryState) (circuit_id : Bytes) (circuit_type : CircuitType) :
    Outcome RegistryError CircuitVKMap := do
  let circuit ← orPanic (s.circuit (circuit_id, circuit_type)) .CircuitNotFound
  require (¬ (circuit.expiration ≠ 0 ∧ circuit.expiration < env.timestamp)) .CircuitExpired
  return { vk := circuit.vk, num_public_signals := circuit.num_public_signals }

/-! ## The circuit a DAO uses -/

def get_dao_current_circuit (s : RegistryState) (dao_id : Nat) (circuit_type : CircuitType) :
    Outcome RegistryError Bytes :=
  orPanic (s.dao_current_circuit (dao_id, circuit_type)) .CircuitNotFound

def set_dao_current_circuit (env : Env) (s : RegistryState) (dao_id : Nat) (circuit_type : CircuitType)
    (circuit_id : Bytes) : Outcome RegistryError RegistryState := do
  assert_governance env s
  require (s.circuit (circuit_id, circuit_type) ≠ none) .CircuitNotFound
  return { s with
    dao_current_circuit := Function.update s.dao_current_circuit (dao_id, circuit_type) (some circuit_id) }

def verify_tally_proof (C : Voting.Crypto) (env : Env) (s : RegistryState) (dao_id : Nat)
    (proof : Voting.Proof) (public_inputs : List U256) : Outcome RegistryError Bool := do
  let circuit_id ← get_dao_current_circuit s dao_id .Tally
  let vk_map ← get_vk env s circuit_id .Tally
  return C.verify_groth16 vk_map.vk proof public_inputs

def migrate_dao (env : Env) (s : RegistryState) (dao_id : Nat) (from_circuit_id to_circuit_id : Bytes)
    (circuit_type : CircuitType) (deadline : Nat) : Outcome RegistryError RegistryState := do
  assert_governance env s
  require (s.circuit (from_circuit_id, circuit_type) ≠ none) .CircuitNotFound
  require (s.circuit (to_circuit_id, circuit_type) ≠ none) .CircuitNotFound
  require ((s.dao_migration dao_id).any (fun existing => existing.active) = false) .MigrationAlreadyExists
  require (¬ deadline ≤ env.timestamp) .MigrationDeadlinePassed
  let migration : DaoMigration :=
    { dao_id := dao_id
      from_circuit_id := from_circuit_id
      to_circuit_id := to_circuit_id
      migration_start := env.timestamp
      deadline := deadline
      active := true }
  return { s with dao_migration := Function.update s.dao_migration dao_id (some migration) }

/-- Neither the type of the migration nor whether it is active is checked. -/
def finalize_migration (env : Env) (s : RegistryState) (dao_id : Nat) (circuit_type : CircuitType) :
    Outcome RegistryError RegistryState := do
  assert_governance env s
  let migration ← orPanic (s.dao_migration dao_id) .MigrationNotFound
  require (¬ env.timestamp < migration.deadline) .MigrationDeadlinePassed
  let migration := { migration with active := false }
  return { s with
    dao_migration := Function.update s.dao_migration dao_id (some migration)
    dao_current_circuit :=
      Function.update s.dao_current_circuit (dao_id, circuit_type) (some migration.to_circuit_id) }

def is_in_overlap_window (env : Env) (s : RegistryState) (dao_id : Nat) : Bool :=
  match s.dao_migration dao_id with
  | none => false
  | some migration =>
    migration.active && decide (migration.migration_start ≤ env.timestamp ∧ env.timestamp < migration.deadline)

/-! ## Replacing a key -/

/-- The counter stops at its maximum, and from there on every proposal takes the same id. -/
def next_vk_proposal_id (s : RegistryState) : Nat := saturatingAdd 32 s.vk_proposal_counter 1

def propose_vk_upgrade (env : Env) (s : RegistryState) (circuit_id : Bytes) (circuit_type : CircuitType)
    (new_vk : Voting.VerificationKey) (new_wasm_hash : BytesN 32) (dao_id : Option Nat)
    (proposer : Address) : Outcome RegistryError (Nat × RegistryState) := do
  assert_admin env s proposer
  require (s.circuit (circuit_id, circuit_type) ≠ none) .CircuitNotFound
  require (s.vk_quorum ≠ 0) .VkProposalInvalidQuorum
  let proposal_id := next_vk_proposal_id s
  let proposal : VkProposal :=
    { id := proposal_id
      circuit_id := circuit_id
      circuit_type := circuit_type
      new_vk := new_vk
      new_wasm_hash := new_wasm_hash
      proposed_by := proposer
      proposed_at := env.timestamp
      execute_after := saturatingAdd 64 env.timestamp s.min_vk_timelock
      required_approvals := s.vk_quorum
      approvers := []
      status := .Pending
      dao_id := dao_id }
  return (proposal_id, { s with
    vk_proposal_counter := proposal_id
    vk_proposal := Function.update s.vk_proposal proposal_id (some proposal)
    dao_vk_proposal :=
      match dao_id with
      | some did => Function.update s.dao_vk_proposal did (some proposal_id)
      | none => s.dao_vk_proposal })

def approve_vk_upgrade (env : Env) (s : RegistryState) (proposal_id : Nat) (approver : Address) :
    Outcome RegistryError RegistryState := do
  assert_admin env s approver
  let proposal ← orPanic (s.vk_proposal proposal_id) .VkProposalNotFound
  require (proposal.status = .Pending) .VkProposalNotActive
  require (approver ∉ proposal.approvers) .VkProposalAlreadyApproved
  let proposal := { proposal with approvers := proposal.approvers ++ [approver] }
  return { s with vk_proposal := Function.update s.vk_proposal proposal_id (some proposal) }

/-- The record keeps the ceremony hash and the number of signals of the key it loses. -/
def execute_vk_upgrade (env : Env) (s : RegistryState) (proposal_id : Nat) (executor : Address) :
    Outcome RegistryError RegistryState := do
  assert_governance env s
  -- An address that has authorised the frame already traps when it is asked again.
  trapUnless (executor ≠ s.governance)
  require_auth env executor
  let proposal ← orPanic (s.vk_proposal proposal_id) .VkProposalNotFound
  require (proposal.status = .Pending) .VkProposalNotActive
  require (¬ env.timestamp < proposal.execute_after) .VkProposalTimelockNotElapsed
  require (¬ proposal.approvers.length < proposal.required_approvals) .VkProposalQuorumNotMet
  let executed := { proposal with status := .Executed }
  let circuit_key := (proposal.circuit_id, proposal.circuit_type)
  let circuit ← orPanic (s.circuit circuit_key) .CircuitNotFound
  let circuit := { circuit with
    vk := proposal.new_vk, wasm_hash := proposal.new_wasm_hash, registered_at := env.timestamp }
  return { s with
    vk_proposal := Function.update s.vk_proposal proposal_id (some executed)
    circuit := Function.update s.circuit circuit_key (some circuit) }

def cancel_vk_upgrade (env : Env) (s : RegistryState) (proposal_id : Nat) (canceller : Address) :
    Outcome RegistryError RegistryState := do
  require_auth env canceller
  let proposal ← orPanic (s.vk_proposal proposal_id) .VkProposalNotFound
  require (proposal.status = .Pending) .VkProposalNotActive
  require (proposal.proposed_by = canceller ∨ s.governance = canceller) .NotGovernance
  let proposal := { proposal with status := .Cancelled }
  return { s with vk_proposal := Function.update s.vk_proposal proposal_id (some proposal) }

def get_dao_vk_proposal (s : RegistryState) (dao_id : Nat) : Option VkProposal :=
  (s.dao_vk_proposal dao_id).bind s.vk_proposal

/-! ## Runs -/

inductive Call where
  | set_admins (admins : List Address)
  | set_vk_upgrade_params (min_timelock required_approvals : Nat)
  | register_circuit (circuit_id : Bytes) (circuit_type : CircuitType) (vk : Voting.VerificationKey)
      (wasm_hash : BytesN 32) (expiration num_public_signals : Nat)
      (ceremony_transcript_hash : Option (BytesN 32))
  | migrate_dao (dao_id : Nat) (from_circuit_id to_circuit_id : Bytes) (circuit_type : CircuitType)
      (deadline : Nat)
  | finalize_migration (dao_id : Nat) (circuit_type : CircuitType)
  | set_dao_current_circuit (dao_id : Nat) (circuit_type : CircuitType) (circuit_id : Bytes)
  | propose_vk_upgrade (circuit_id : Bytes) (circuit_type : CircuitType)
      (new_vk : Voting.VerificationKey) (new_wasm_hash : BytesN 32) (dao_id : Option Nat)
      (proposer : Address)
  | approve_vk_upgrade (proposal_id : Nat) (approver : Address)
  | execute_vk_upgrade (proposal_id : Nat) (executor : Address)
  | cancel_vk_upgrade (proposal_id : Nat) (canceller : Address)

def step (s : RegistryState) (env : Env) : Call → Outcome RegistryError RegistryState
  | .set_admins admins => set_admins env s admins
  | .set_vk_upgrade_params min_timelock required_approvals =>
    set_vk_upgrade_params env s min_timelock required_approvals
  | .register_circuit circuit_id circuit_type vk wasm_hash expiration num_public_signals
      ceremony_transcript_hash =>
    register_circuit env s circuit_id circuit_type vk wasm_hash expiration num_public_signals
      ceremony_transcript_hash
  | .migrate_dao dao_id from_circuit_id to_circuit_id circuit_type deadline =>
    migrate_dao env s dao_id from_circuit_id to_circuit_id circuit_type deadline
  | .finalize_migration dao_id circuit_type => finalize_migration env s dao_id circuit_type
  | .set_dao_current_circuit dao_id circuit_type circuit_id =>
    set_dao_current_circuit env s dao_id circuit_type circuit_id
  | .propose_vk_upgrade circuit_id circuit_type new_vk new_wasm_hash dao_id proposer => do
    let (_, s) ← propose_vk_upgrade env s circuit_id circuit_type new_vk new_wasm_hash dao_id proposer
    return s
  | .approve_vk_upgrade proposal_id approver => approve_vk_upgrade env s proposal_id approver
  | .execute_vk_upgrade proposal_id executor => execute_vk_upgrade env s proposal_id executor
  | .cancel_vk_upgrade proposal_id canceller => cancel_vk_upgrade env s proposal_id canceller

/-- An accepted call. -/
def Accepts (s : RegistryState) (call : Env × Call) (s' : RegistryState) : Prop :=
  step s call.1 call.2 = .ok s'

/-- A run from the deployment of the registry. -/
def RegistryRun (governance : Address) : List (RegistryState × Env × Call) → RegistryState → Prop :=
  Run Accepts (constructor governance)

end ZkVote.Circuits
