import ZkVote.Tree.State

/-!
# The membership tree: the contract

Events, TTL extensions of entries just written and the cached Poseidon
parameters are left out: no function reads them back.
-/

open Lib Lib.Outcome

namespace ZkVote.Tree

/-! ## Hashes and zero hashes -/

def zero_value : U256 := 0

def hash_pair (H : Hashes) (left right : U256) (field : Symbol) : U256 := H.poseidon field left right

/-- A raw leaf is tagged with the leaf domain before it becomes a node. -/
def hash_leaf (H : Hashes) (leaf : U256) (field : Symbol) : U256 := hash_pair H 1 leaf field

/-- The zero hashes of levels 0 to `n`. -/
def zero_hashes (H : Hashes) (field : Symbol) : Nat → List U256
  | 0 => [hash_leaf H zero_value field]
  | n + 1 =>
    let zeros := zero_hashes H field n
    let current := zeros.getLastD zero_value
    zeros ++ [hash_pair H current current field]

def ensure_zeros_cache (H : Hashes) (c : ZerosCache) : ZerosCache :=
  match c.zeros with
  | some _ => c
  | none => { c with zeros := some (zero_hashes H "BN254" MAX_TREE_DEPTH) }

def ensure_zeros_cache_bls (H : Hashes) (c : ZerosCache) : ZerosCache :=
  match c.z_bls with
  | some _ => c
  | none => { c with z_bls := some (zero_hashes H "BLS12_381" MAX_TREE_DEPTH) }

def zero_at_level (H : Hashes) (c : ZerosCache) (level : Nat) :
    Outcome TreeError (U256 × ZerosCache) := do
  let c := ensure_zeros_cache H c
  let zeros ← orPanic c.zeros .TreeNotInitialized
  let zero_hash ← orPanic zeros[level]? .InvalidDepth
  return (zero_hash, c)

def zero_at_level_bls (H : Hashes) (c : ZerosCache) (level : Nat) :
    Outcome TreeError (U256 × ZerosCache) := do
  let c := ensure_zeros_cache_bls H c
  let zeros ← orPanic c.z_bls .TreeNotInitialized
  let zero_hash ← orPanic zeros[level]? .InvalidDepth
  return (zero_hash, c)

def zero_at_level_for_field (H : Hashes) (c : ZerosCache) (level : Nat) (field : Symbol) :
    Outcome TreeError (U256 × ZerosCache) :=
  if field = "BLS12_381" then zero_at_level_bls H c level else zero_at_level H c level

def assert_valid_field (field : Symbol) : Outcome TreeError Unit :=
  require (field = "BN254" ∨ field = "BLS12_381") .InvalidField

def dao_field (d : DaoTree) : Outcome TreeError Symbol := orPanic d.poseidon_field .TreeNotInitialized

/-! ## Root history -/

def get_max_roots (d : DaoTree) : Nat := d.max_roots.getD DEFAULT_MAX_ROOTS

def check_root_eviction_safety (env : TreeEnv) (t : MembershipTree) (dao_id : Nat) (candidate_root : U256) :
    Outcome TreeError Unit :=
  match t.voting with
  | none => .ok ()
  | some _ => require (env.root_pin dao_id candidate_root = false) .RootPinnedByProposal

def evict_oldest_root (d : DaoTree) (roots : List U256) : DaoTree × List U256 :=
  match roots with
  | [] => (d, [])
  | evicted_root :: rest =>
    ({ d with root_index := Function.update d.root_index evicted_root none }, rest)

def check_oldest_root (env : TreeEnv) (t : MembershipTree) (dao_id : Nat) (roots : List U256) :
    Outcome TreeError Unit :=
  match roots.head? with
  | some oldest => check_root_eviction_safety env t dao_id oldest
  | none => .ok ()

/-- The cap on the history: one root too many drops the oldest. -/
def cap_roots (env : TreeEnv) (t : MembershipTree) (dao_id : Nat) (d : DaoTree) (roots : List U256) :
    Outcome TreeError (DaoTree × List U256) :=
  if get_max_roots d < roots.length then do
    check_oldest_root env t dao_id roots
    return evict_oldest_root d roots
  else return (d, roots)

/-- The block that both paths of `insert_leaf` and `update_leaf` end with. -/
def publish_root (env : TreeEnv) (t : MembershipTree) (dao_id : Nat) (d : DaoTree) (root : U256) :
    Outcome TreeError (DaoTree × Nat) := do
  let roots ← orPanic d.roots .TreeNotInitialized
  let (d, roots) ← cap_roots env t dao_id d (roots ++ [root])
  let root_index := d.next_root_index.getD 0
  let next_root_index ← expect (checkedAdd 32 root_index 1)
  return ({ d with
    roots := some roots
    next_root_index := some next_root_index
    root_index := Function.update d.root_index root (some root_index) }, root_index)

/-! ## Writing a leaf -/

/-- What the loops over the levels carry. -/
structure PathState where
  hash : U256
  index : Nat
  filled : List U256
  nodes : Nat × Nat → Option U256
  cache : ZerosCache

/-- `Vec::set`, which traps past the end. -/
def vec_set (v : List U256) (i : Nat) (x : U256) : Outcome TreeError (List U256) := do
  trapUnless (i < v.length)
  return v.set i x

/-- Stores the hash of the parent and moves up to it. -/
def PathState.ascend (st : PathState) (level : Nat) (hash : U256) : PathState :=
  { st with
    hash := hash
    index := st.index / 2
    nodes := Function.update st.nodes (level + 1, st.index / 2) (some hash) }

def first_leaf_level (H : Hashes) (field : Symbol) (level : Nat) (st : PathState) :
    Outcome TreeError PathState := do
  let (zero_hash, cache) ← zero_at_level_for_field H st.cache level field
  return { st with cache := cache }.ascend level (hash_pair H st.hash zero_hash field)

/-- The hash at a position beside the path: a stored leaf is hashed, a stored node is read. -/
def stored_hash (H : Hashes) (field : Symbol) (leaf_value : Nat → Option U256)
    (nodes : Nat × Nat → Option U256) (cache : ZerosCache) (level index : Nat)
    (fallback : Outcome TreeError (U256 × ZerosCache)) : Outcome TreeError (U256 × ZerosCache) :=
  if level = 0 then
    match leaf_value index with
    | some raw_sibling => .ok (hash_leaf H raw_sibling field, cache)
    | none => fallback
  else
    match nodes (level, index) with
    | some x => .ok (x, cache)
    | none => fallback

def insert_level (H : Hashes) (field : Symbol) (leaf_value : Nat → Option U256) (level : Nat)
    (st : PathState) : Outcome TreeError PathState := do
  if st.index % 2 = 0 then
    let filled ← vec_set st.filled level st.hash
    let (zero_hash, cache) ← zero_at_level_for_field H st.cache level field
    return { st with filled := filled, cache := cache }.ascend level (hash_pair H st.hash zero_hash field)
  else
    let left_index := st.index - 1
    let cached : Outcome TreeError (U256 × ZerosCache) :=
      match st.filled[level]? with
      | some x => .ok (x, st.cache)
      | none => zero_at_level_for_field H st.cache level field
    let (left, cache) ← stored_hash H field leaf_value st.nodes st.cache level left_index cached
    let filled ← vec_set st.filled level left
    return { st with filled := filled, cache := cache }.ascend level (hash_pair H left st.hash field)

def update_level (H : Hashes) (field : Symbol) (leaf_value : Nat → Option U256) (level : Nat)
    (st : PathState) : Outcome TreeError PathState := do
  let is_left := st.index % 2 = 0
  let sibling_index := if is_left then st.index + 1 else st.index - 1
  let filled ← if is_left then vec_set st.filled level st.hash else .ok st.filled
  let (sibling, cache) ← stored_hash H field leaf_value st.nodes st.cache level sibling_index
    (zero_at_level_for_field H st.cache level field)
  let hash := if is_left then hash_pair H st.hash sibling field else hash_pair H sibling st.hash field
  return { st with filled := filled, cache := cache }.ascend level hash

/-- `for level in 0..depth`. -/
def for_levels (body : Nat → PathState → Outcome TreeError PathState) :
    Nat → PathState → Outcome TreeError PathState
  | 0, st => .ok st
  | depth + 1, st => do
    let st ← for_levels body depth st
    body depth st

/-- The way up from a new leaf. The first leaf of a tree takes a loop of its own. -/
def insert_path (H : Hashes) (field : Symbol) (leaf_value : Nat → Option U256) (index depth : Nat)
    (st : PathState) : Outcome TreeError PathState :=
  if index = 0 then do
    let filled ← vec_set st.filled 0 st.hash
    for_levels (first_leaf_level H field) depth { st with filled := filled }
  else for_levels (insert_level H field leaf_value) depth st

def insert_leaf (H : Hashes) (env : TreeEnv) (t : MembershipTree) (dao_id : Nat) (d : DaoTree) (leaf : U256)
    (index depth : Nat) : Outcome TreeError (MembershipTree × DaoTree) := do
  let field ← dao_field d
  let filled ← orPanic d.filled_subtrees .TreeNotInitialized
  let st ← insert_path H field d.leaf_value index depth
    { hash := hash_leaf H leaf field, index := index, filled := filled
      nodes := d.node_hash, cache := t.cache }
  let d := { d with filled_subtrees := some st.filled, node_hash := st.nodes }
  let t := { t with cache := st.cache }
  let (d, _) ← publish_root env t dao_id d st.hash
  return (t, d)

def update_leaf (H : Hashes) (env : TreeEnv) (t : MembershipTree) (dao_id : Nat) (d : DaoTree)
    (leaf_index : Nat) (new_value : U256) : Outcome TreeError (MembershipTree × DaoTree × Nat) := do
  let field ← dao_field d
  let depth ← orPanic d.tree_depth .TreeNotInitialized
  let d := { d with leaf_value := Function.update d.leaf_value leaf_index (some new_value) }
  let filled ← orPanic d.filled_subtrees .TreeNotInitialized
  let st ← for_levels (update_level H field d.leaf_value) depth
    { hash := hash_leaf H new_value field, index := leaf_index, filled := filled
      nodes := d.node_hash, cache := t.cache }
  let d := { d with filled_subtrees := some st.filled, node_hash := st.nodes }
  let t := { t with cache := st.cache }
  let (d, root_index) ← publish_root env t dao_id d st.hash
  return (t, d, root_index)

/-! ## Initialisation and configuration -/

def constructor (H : Hashes) (registry : Address) : MembershipTree :=
  { registry := registry, cache := ensure_zeros_cache H {} }

def set_voting_contract (env : TreeEnv) (t : MembershipTree) (voting_contract registry : Address) :
    Outcome TreeError MembershipTree := do
  require_auth env.toEnv registry
  require (registry = t.registry) .NotAdmin
  return { t with voting := some voting_contract }

/-- The check of every admin entrypoint: `admin` signed, and administers the DAO. -/
def assert_dao_admin (env : TreeEnv) (dao_id : Nat) (admin : Address) : Outcome TreeError Unit := do
  require_auth env.toEnv admin
  let dao_admin ← expect (env.get_admin dao_id)
  require (dao_admin = admin) .NotAdmin

def set_max_roots (env : TreeEnv) (t : MembershipTree) (dao_id new_max : Nat) (admin : Address) :
    Outcome TreeError MembershipTree := do
  assert_dao_admin env dao_id admin
  require (¬ (new_max < MIN_MAX_ROOTS ∨ MAX_MAX_ROOTS < new_max)) .MaxRootsOutOfRange
  return t.set_dao dao_id { t.daos dao_id with max_roots := some new_max }

/-- Filled subtrees of an empty tree: the zero hashes of levels 0 to `depth - 1`. -/
def empty_subtrees (H : Hashes) (field : Symbol) (c : ZerosCache) :
    Nat → Outcome TreeError (List U256 × ZerosCache)
  | 0 => .ok ([], c)
  | level + 1 => do
    let (filled, c) ← empty_subtrees H field c level
    let (zero_hash, c) ← zero_at_level_for_field H c level field
    return (filled ++ [zero_hash], c)

def init_epoch_zero (env : TreeEnv) (d : DaoTree) (root : U256) : DaoTree :=
  { d with
    epoch := some 0
    epoch_root := Function.update d.epoch_root 0 (some root)
    epoch_advanced_at := Function.update d.epoch_advanced_at 0 (some env.timestamp) }

/-- The body that `init_tree` and `init_tree_from_registry` share. -/
def init_storage (H : Hashes) (env : TreeEnv) (t : MembershipTree) (dao_id depth : Nat) (field : Symbol) :
    Outcome TreeError MembershipTree := do
  require (¬ (depth = 0 ∨ MAX_TREE_DEPTH < depth)) .InvalidDepth
  assert_valid_field field
  let d := t.daos dao_id
  require (d.tree_depth = none) .TreeInitialized
  let (filled, cache) ← empty_subtrees H field t.cache depth
  let (empty_root, cache) ← zero_at_level_for_field H cache depth field
  let d := { d with
    tree_depth := some depth
    next_leaf_index := some 0
    poseidon_field := some field
    next_root_index := some 0
    filled_subtrees := some filled
    roots := some [empty_root]
    root_index := Function.update d.root_index empty_root (some 0) }
  return { t with cache := cache }.set_dao dao_id (init_epoch_zero env d empty_root)

def init_tree (H : Hashes) (env : TreeEnv) (t : MembershipTree) (dao_id depth : Nat) (field : Symbol)
    (admin : Address) : Outcome TreeError MembershipTree := do
  assert_dao_admin env dao_id admin
  init_storage H env t dao_id depth field

def init_tree_from_registry (H : Hashes) (env : TreeEnv) (t : MembershipTree) (dao_id depth : Nat)
    (field : Symbol) : Outcome TreeError MembershipTree := do
  require_auth env.toEnv t.registry
  init_storage H env t dao_id depth field

def init_zeros_cache (H : Hashes) (t : MembershipTree) : MembershipTree :=
  { t with cache := ensure_zeros_cache H t.cache }

/-! ## Registration -/

def reserve_commitment (d : DaoTree) (commitment : U256) : Outcome TreeError DaoTree := do
  require (¬ (d.commitment_used commitment = true ∨ (d.leaf_index commitment).isSome = true))
    .CommitmentAlreadyUsed
  return { d with commitment_used := Function.update d.commitment_used commitment true }

def enforce_registration_cooldown (env : TreeEnv) (d : DaoTree) (member : Address) :
    Outcome TreeError Unit :=
  match d.last_registration_at member with
  | some last =>
    require (¬ env.timestamp < saturatingAdd 64 last MIN_REGISTRATION_INTERVAL_SECS) .RateLimited
  | none => .ok ()

def assert_tree_initialized (d : DaoTree) : Outcome TreeError Unit :=
  require (d.tree_depth ≠ none) .TreeNotInitialized

/-- The part that the three registration paths end with, from `reserve_commitment` on. -/
def register_leaf (H : Hashes) (env : TreeEnv) (t : MembershipTree) (dao_id : Nat) (commitment : U256)
    (member : Address) : Outcome TreeError MembershipTree := do
  let d ← reserve_commitment (t.daos dao_id) commitment
  require (d.member_leaf_index member = none) .MemberExists
  let depth ← orPanic d.tree_depth .TreeNotInitialized
  let next_index ← orPanic d.next_leaf_index .TreeNotInitialized
  require (next_index < 2 ^ depth) .TreeFull
  let (t, d) ← insert_leaf H env t dao_id d commitment next_index depth
  let next_leaf_index ← orPanic (checkedAdd 32 next_index 1) .TreeFull
  return t.set_dao dao_id { d with
    next_leaf_index := some next_leaf_index
    leaf_index := Function.update d.leaf_index commitment (some next_index)
    member_leaf_index := Function.update d.member_leaf_index member (some next_index)
    leaf_value := Function.update d.leaf_value next_index (some commitment)
    last_registration_at := Function.update d.last_registration_at member (some env.timestamp) }

def register_from_registry (H : Hashes) (env : TreeEnv) (t : MembershipTree) (dao_id : Nat)
    (commitment : U256) (member : Address) : Outcome TreeError MembershipTree := do
  require_auth env.toEnv t.registry
  assert_tree_initialized (t.daos dao_id)
  enforce_registration_cooldown env (t.daos dao_id) member
  register_leaf H env t dao_id commitment member

def register_with_caller_internal (H : Hashes) (env : TreeEnv) (t : MembershipTree) (dao_id : Nat)
    (commitment : U256) (caller : Address) (auth_required : Bool) : Outcome TreeError MembershipTree := do
  trapUnless (auth_required = true → env.auths caller = true)
  require (env.has dao_id caller = true) .NoSbt
  enforce_registration_cooldown env (t.daos dao_id) caller
  assert_tree_initialized (t.daos dao_id)
  register_leaf H env t dao_id commitment caller

def register_with_caller (H : Hashes) (env : TreeEnv) (t : MembershipTree) (dao_id : Nat)
    (commitment : U256) (caller : Address) : Outcome TreeError MembershipTree :=
  register_with_caller_internal H env t dao_id commitment caller true

def self_register (H : Hashes) (env : TreeEnv) (t : MembershipTree) (dao_id : Nat) (commitment : U256)
    (member : Address) : Outcome TreeError MembershipTree := do
  require_auth env.toEnv member
  require (env.has dao_id member = true) .NoSbt
  require (env.is_membership_open dao_id = true) .NotOpenMembership
  enforce_registration_cooldown env (t.daos dao_id) member
  assert_tree_initialized (t.daos dao_id)
  register_leaf H env t dao_id commitment member

/-- `SHA256(commitment || salt)`. -/
def hash_registration (H : Hashes) (commitment : U256) (salt : BytesN 32) : BytesN 32 :=
  H.sha256 (U256.to_be_bytes commitment ++ salt.toList)

def commit_registration (env : TreeEnv) (t : MembershipTree) (dao_id : Nat) (commitment_hash : BytesN 32)
    (caller : Address) : Outcome TreeError MembershipTree := do
  require_auth env.toEnv caller
  require (env.has dao_id caller = true) .NoSbt
  let d := t.daos dao_id
  assert_tree_initialized d
  require (d.pending_registration caller = none) .CommitmentPending
  require (d.commitment_salt_hash commitment_hash = false) .CommitmentAlreadyUsed
  let pending : PendingRegistration :=
    { commitment_hash := commitment_hash
      committed_at_ledger := env.sequence
      committed_at := env.timestamp }
  return t.set_dao dao_id { d with
    pending_registration := Function.update d.pending_registration caller (some pending)
    commitment_salt_hash := Function.update d.commitment_salt_hash commitment_hash true }

def reveal_registration (H : Hashes) (env : TreeEnv) (t : MembershipTree) (dao_id : Nat)
    (commitment : U256) (salt : BytesN 32) (caller : Address) : Outcome TreeError MembershipTree := do
  require_auth env.toEnv caller
  let d := t.daos dao_id
  let pending ← orPanic (d.pending_registration caller) .CommitmentNotPending
  require (¬ env.sequence ≤ pending.committed_at_ledger) .CommitmentRevealTooEarly
  require (hash_registration H commitment salt = pending.commitment_hash) .CommitmentHashMismatch
  let d := { d with
    pending_registration := Function.update d.pending_registration caller none
    commitment_salt_hash := Function.update d.commitment_salt_hash pending.commitment_hash false }
  register_with_caller_internal H env (t.set_dao dao_id d) dao_id commitment caller false

/-! ## Removal and reinstatement -/

def remove_member (H : Hashes) (env : TreeEnv) (t : MembershipTree) (dao_id : Nat)
    (member admin : Address) : Outcome TreeError MembershipTree := do
  assert_dao_admin env dao_id admin
  let d := t.daos dao_id
  let leaf_index ← orPanic (d.member_leaf_index member) .MemberNotInTree
  let commitment ← orPanic (d.leaf_value leaf_index) .MemberNotInTree
  require (commitment ≠ zero_value) .MemberRemoved
  let (t, d, root_index) ← update_leaf H env t dao_id d leaf_index zero_value
  trapUnless (env.revoke dao_id member admin = true)
  return t.set_dao dao_id { d with min_valid_root_idx := some root_index }

def reinstate_member (env : TreeEnv) (t : MembershipTree) (dao_id : Nat) (member admin : Address) :
    Outcome TreeError MembershipTree := do
  assert_dao_admin env dao_id admin
  let d := t.daos dao_id
  let leaf_index ← orPanic (d.member_leaf_index member) .MemberNotInTree
  let current_value ← orPanic (d.leaf_value leaf_index) .MemberNotInTree
  require (current_value = zero_value) .MemberNotRevoked
  return t.set_dao dao_id { d with
    member_leaf_index := Function.update d.member_leaf_index member none
    last_registration_at := Function.update d.last_registration_at member none }

/-! ## Reads -/

def current_root (t : MembershipTree) (dao_id : Nat) : Outcome TreeError U256 := do
  let roots ← orPanic (t.daos dao_id).roots .TreeNotInitialized
  orPanic roots[roots.length - 1]? .TreeNotInitialized

def root_ok (t : MembershipTree) (dao_id : Nat) (root : U256) : Bool :=
  match (t.daos dao_id).roots with
  | none => false
  | some roots => roots.any (· = root)

def min_root (t : MembershipTree) (dao_id : Nat) : Nat := (t.daos dao_id).min_valid_root_idx.getD 0

/-- 0 eligible, 1 not in the history, 2 before the election, 3 before the last removal. -/
def root_eligibility (t : MembershipTree) (dao_id : Nat) (root : U256) (earliest_root_index : Nat) : Nat :=
  match (t.daos dao_id).root_index root with
  | none => 1
  | some root_index =>
    if root_index < earliest_root_index then 2
    else if root_index < min_root t dao_id then 3
    else 0

def root_idx (t : MembershipTree) (dao_id : Nat) (root : U256) : Outcome TreeError Nat :=
  orPanic ((t.daos dao_id).root_index root) .RootNotFound

def curr_idx (t : MembershipTree) (dao_id : Nat) : Outcome TreeError Nat := do
  let root ← current_root t dao_id
  root_idx t dao_id root

def current_epoch (t : MembershipTree) (dao_id : Nat) : Nat := (t.daos dao_id).epoch.getD 0

def epoch_root (t : MembershipTree) (dao_id epoch : Nat) : Outcome TreeError U256 :=
  orPanic ((t.daos dao_id).epoch_root epoch) .UnknownEpoch

def epoch_advanced_at (t : MembershipTree) (dao_id epoch : Nat) : Outcome TreeError Nat :=
  orPanic ((t.daos dao_id).epoch_advanced_at epoch) .UnknownEpoch

def verify_exclusion (t : MembershipTree) (dao_id : Nat) (commitment : U256) : Bool :=
  let d := t.daos dao_id
  match d.revoked_at commitment with
  | none => false
  | some _ =>
    match d.leaf_index commitment with
    | some index => (d.leaf_value index).getD 0 = zero_value
    | none => true

/-- What `get_merkle_path` walks with: the index, the siblings and the sides so far. -/
structure Walk where
  index : Nat
  path_elements : List U256 := []
  path_indices : List Nat := []
  cache : ZerosCache

/-- A leaf past the last one is not looked up. -/
def path_level (H : Hashes) (field : Symbol) (d : DaoTree) (next_index level : Nat) (w : Walk) :
    Outcome TreeError Walk := do
  let is_left := w.index % 2 = 0
  let sibling_index := if is_left then w.index + 1 else w.index - 1
  let leaf_value := fun i => if i < next_index then d.leaf_value i else none
  let (sibling, cache) ← stored_hash H field leaf_value d.node_hash w.cache level sibling_index
    (zero_at_level_for_field H w.cache level field)
  return { index := w.index / 2
           path_elements := w.path_elements ++ [sibling]
           path_indices := w.path_indices ++ [if is_left then 0 else 1]
           cache := cache }

def walk_levels (body : Nat → Walk → Outcome TreeError Walk) : Nat → Walk → Outcome TreeError Walk
  | 0, w => .ok w
  | depth + 1, w => do
    let w ← walk_levels body depth w
    body depth w

def get_merkle_path (H : Hashes) (t : MembershipTree) (dao_id leaf_index : Nat) :
    Outcome TreeError (List U256 × List Nat) := do
  let d := t.daos dao_id
  let field ← dao_field d
  let depth ← orPanic d.tree_depth .TreeNotInitialized
  let next_index ← orPanic d.next_leaf_index .TreeNotInitialized
  require (leaf_index < next_index) .LeafOutOfBounds
  let w ← walk_levels (path_level H field d next_index) depth { index := leaf_index, cache := t.cache }
  return (w.path_elements, w.path_indices)

/-! ## Epochs and post-quantum roots -/

def advance_epoch (env : TreeEnv) (t : MembershipTree) (dao_id : Nat) (admin : Address) :
    Outcome TreeError MembershipTree := do
  assert_dao_admin env dao_id admin
  let next ← orPanic (checkedAdd 32 (current_epoch t dao_id) 1) .InvalidDepth
  let root ← current_root t dao_id
  let d := t.daos dao_id
  return t.set_dao dao_id { d with
    epoch_advanced_at := Function.update d.epoch_advanced_at next (some env.timestamp)
    epoch_root := Function.update d.epoch_root next (some root)
    epoch := some next }

def store_pq_commitment (env : TreeEnv) (t : MembershipTree) (dao_id proposal_id : Nat)
    (member : Address) (pq_commitment : U256) : Outcome TreeError MembershipTree := do
  require_auth env.toEnv member
  require (t.pq_commitment pq_commitment = none) .PqCommitmentExists
  let _ ← current_root t dao_id
  return { t with
    pq_commitment := Function.update t.pq_commitment pq_commitment (some (dao_id, proposal_id, member)) }

/-- `SHA256(classical_root || dao_id)` as a word. -/
def pq_root_of (H : Hashes) (dao_id : Nat) (root : U256) : U256 :=
  fromBeBytes (H.sha256 (U256.to_be_bytes root ++ toBeBytes 8 dao_id)).toList

/-- One round of the migration loop: the roots gathered, the next index and the index map. -/
def migrate_root (pq_root : U256) (acc : List U256 × Nat × (U256 → Option Nat)) :
    List U256 × Nat × (U256 → Option Nat) :=
  let (sha3_roots, next_idx, index) := acc
  match index pq_root with
  | some _ => acc
  | none =>
    (sha3_roots ++ [pq_root], (checkedAdd 32 next_idx 1).getD next_idx,
      Function.update index pq_root (some next_idx))

def migrate_roots_to_pq (H : Hashes) (env : TreeEnv) (t : MembershipTree) (dao_id : Nat)
    (admin : Address) : Outcome TreeError MembershipTree := do
  assert_dao_admin env dao_id admin
  let d := t.daos dao_id
  let roots ← orPanic d.roots .TreeNotInitialized
  let (sha3_roots, next_idx, index) :=
    roots.foldl (fun acc root => migrate_root (pq_root_of H dao_id root) acc)
      ([], d.sha3_next_root_idx.getD 0, d.sha3_root_index)
  return t.set_dao dao_id { d with
    sha3_roots := some sha3_roots
    sha3_next_root_idx := some next_idx
    sha3_root_index := index }

/-! ## Calls -/

inductive Call where
  | set_voting_contract (voting_contract registry : Address)
  | set_max_roots (dao_id new_max : Nat) (admin : Address)
  | init_tree (dao_id depth : Nat) (field : Symbol) (admin : Address)
  | init_tree_from_registry (dao_id depth : Nat) (field : Symbol)
  | init_zeros_cache
  | register_from_registry (dao_id : Nat) (commitment : U256) (member : Address)
  | register_with_caller (dao_id : Nat) (commitment : U256) (caller : Address)
  | self_register (dao_id : Nat) (commitment : U256) (member : Address)
  | commit_registration (dao_id : Nat) (commitment_hash : BytesN 32) (caller : Address)
  | reveal_registration (dao_id : Nat) (commitment : U256) (salt : BytesN 32) (caller : Address)
  | advance_epoch (dao_id : Nat) (admin : Address)
  | remove_member (dao_id : Nat) (member admin : Address)
  | reinstate_member (dao_id : Nat) (member admin : Address)
  | store_pq_commitment (dao_id proposal_id : Nat) (member : Address) (pq_commitment : U256)
  | migrate_roots_to_pq (dao_id : Nat) (admin : Address)

def step (H : Hashes) (t : MembershipTree) (env : TreeEnv) : Call → Outcome TreeError MembershipTree
  | .set_voting_contract voting_contract registry => set_voting_contract env t voting_contract registry
  | .set_max_roots dao_id new_max admin => set_max_roots env t dao_id new_max admin
  | .init_tree dao_id depth field admin => init_tree H env t dao_id depth field admin
  | .init_tree_from_registry dao_id depth field => init_tree_from_registry H env t dao_id depth field
  | .init_zeros_cache => .ok (init_zeros_cache H t)
  | .register_from_registry dao_id commitment member =>
    register_from_registry H env t dao_id commitment member
  | .register_with_caller dao_id commitment caller => register_with_caller H env t dao_id commitment caller
  | .self_register dao_id commitment member => self_register H env t dao_id commitment member
  | .commit_registration dao_id commitment_hash caller =>
    commit_registration env t dao_id commitment_hash caller
  | .reveal_registration dao_id commitment salt caller =>
    reveal_registration H env t dao_id commitment salt caller
  | .advance_epoch dao_id admin => advance_epoch env t dao_id admin
  | .remove_member dao_id member admin => remove_member H env t dao_id member admin
  | .reinstate_member dao_id member admin => reinstate_member env t dao_id member admin
  | .store_pq_commitment dao_id proposal_id member pq_commitment =>
    store_pq_commitment env t dao_id proposal_id member pq_commitment
  | .migrate_roots_to_pq dao_id admin => migrate_roots_to_pq H env t dao_id admin

end ZkVote.Tree
