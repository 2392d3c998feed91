import Mathlib.Logic.Function.Basic
import ZkVote.Host

/-!
# The membership tree: storage

`contracts/membership-tree/src/lib.rs`. Every key of a DAO starts with its
`dao_id`, so the storage is one record for each DAO.
-/

open Lib Lib.Outcome

namespace ZkVote.Tree

inductive TreeError where
  | NotAdmin | InvalidDepth | TreeInitialized | TreeNotInitialized | CommitmentExists
  | MemberExists | TreeFull | NoSbt | NotOpenMembership | LeafOutOfBounds | MemberRemoved
  | MemberNotInTree | RootNotFound | AlreadyInitialized | MemberNotRevoked
  | CommitmentAlreadyUsed | RateLimited | MaxRootsOutOfRange | RootPinnedByProposal
  | Sha3TreeNotInitialized | PqCommitmentExists | InvalidField | CommitmentPending
  | CommitmentNotPending | CommitmentRevealTooEarly | CommitmentHashMismatch | UnknownEpoch
  deriving DecidableEq, Repr

def DEFAULT_MAX_ROOTS : Nat := 30
def MIN_MAX_ROOTS : Nat := 10
def MAX_MAX_ROOTS : Nat := 100
def MAX_TREE_DEPTH : Nat := 18
def MIN_REGISTRATION_INTERVAL_SECS : Nat := 3600

structure PendingRegistration where
  commitment_hash : BytesN 32
  committed_at_ledger : Nat
  committed_at : Nat
  deriving DecidableEq

/-- The entries of one DAO. -/
structure DaoTree where
  tree_depth : Option Nat := none
  next_leaf_index : Option Nat := none
  filled_subtrees : Option (List U256) := none
  /-- The root history, oldest first. -/
  roots : Option (List U256) := none
  leaf_index : U256 → Option Nat := fun _ => none
  member_leaf_index : Address → Option Nat := fun _ => none
  leaf_value : Nat → Option U256 := fun _ => none
  next_root_index : Option Nat := none
  root_index : U256 → Option Nat := fun _ => none
  revoked_at : U256 → Option Nat := fun _ => none
  /-- Level and index to the hash at that position. Level 0 is never stored. -/
  node_hash : Nat × Nat → Option U256 := fun _ => none
  min_valid_root_idx : Option Nat := none
  poseidon_field : Option Symbol := none
  commitment_used : U256 → Bool := fun _ => false
  max_roots : Option Nat := none
  last_registration_at : Address → Option Nat := fun _ => none
  sha3_roots : Option (List U256) := none
  sha3_next_root_idx : Option Nat := none
  sha3_root_index : U256 → Option Nat := fun _ => none
  pending_registration : Address → Option PendingRegistration := fun _ => none
  commitment_salt_hash : BytesN 32 → Bool := fun _ => false
  epoch : Option Nat := none
  epoch_root : Nat → Option U256 := fun _ => none
  epoch_advanced_at : Nat → Option Nat := fun _ => none

/-- The instance entries that hold the zero hashes of the two fields. -/
structure ZerosCache where
  zeros : Option (List U256) := none
  z_bls : Option (List U256) := none

structure MembershipTree where
  registry : Address
  voting : Option Address := none
  cache : ZerosCache := {}
  pq_commitment : U256 → Option (Nat × Nat × Address) := fun _ => none
  daos : Nat → DaoTree := fun _ => {}

def MembershipTree.set_dao (t : MembershipTree) (dao_id : Nat) (d : DaoTree) : MembershipTree :=
  { t with daos := Function.update t.daos dao_id d }

@[simp] theorem MembershipTree.set_dao_daos (t : MembershipTree) (dao_id : Nat) (d : DaoTree) :
    (t.set_dao dao_id d).daos = Function.update t.daos dao_id d := rfl
@[simp] theorem MembershipTree.set_dao_cache (t : MembershipTree) (dao_id : Nat) (d : DaoTree) :
    (t.set_dao dao_id d).cache = t.cache := rfl
@[simp] theorem MembershipTree.set_dao_registry (t : MembershipTree) (dao_id : Nat) (d : DaoTree) :
    (t.set_dao dao_id d).registry = t.registry := rfl

/-- One call to the tree, with the answers of the contracts it asks. -/
structure TreeEnv extends Env where
  /-- `has` of the SBT contract. -/
  has : Nat → Address → Bool
  /-- `get_admin` of the registry behind the SBT contract; `none` when it traps. -/
  get_admin : Nat → Option Address
  is_membership_open : Nat → Bool
  /-- `revoke` of the SBT contract returns. -/
  revoke : Nat → Address → Address → Bool
  /-- `root_pin` of the voting contract. -/
  root_pin : Nat → U256 → Bool

end ZkVote.Tree
