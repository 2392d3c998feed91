import Mathlib.Logic.Function.Basic
import ZkVote.Host
import ZkVote.Lib.Paging
import ZkVote.Lib.Runs

/-!
# The membership token

`contracts/membership-sbt/src/lib.rs`. Who holds the soulbound token of a DAO, the list of
all who ever did, and what a member's vote weighs. Every key of a DAO starts with its
`dao_id`, so the storage is one record for each DAO.
-/

open Lib Lib.Outcome

namespace ZkVote.Sbt

inductive SbtError where
  | NotDaoAdmin | AlreadyMinted | NotMember | NotOpenMembership | AlreadyInitialized | CooldownActive
  | TransferAttempted | ReputationOutOfRange | NotReputationAttestor | InvalidWeightCurve | MintRateLimitExceeded
  deriving DecidableEq, Repr

def SWEEP_MAX_RECORDS : Nat := 50
def AGE_THRESHOLD_DAYS : List Nat := [7, 30, 90, 180, 365]
def REPUTATION_THRESHOLDS : List Nat := [1, 5, 15, 40, 100]
def BASE_WEIGHT : Nat := 1
def MAX_SYBIL_WEIGHT : Nat := 10
def MAX_REPUTATION : Nat := 10000
def SECONDS_PER_DAY : Nat := 86400
def MAX_MINTS_PER_EPOCH : Nat := 50
def EPOCH_LEDGERS : Nat := 17280

structure SbtDao where
  member : Address → Bool := fun _ => false
  alias_ : Address → Option Bytes := fun _ => none
  revoked : Address → Bool := fun _ => false
  member_count : Nat := 0
  member_at_index : Nat → Option Address := fun _ => none
  transfer_cooldown : Address → Option Nat := fun _ => none
  in_active_election : Address → Option Bool := fun _ => none
  minted_at : Address → Option Nat := fun _ => none
  reputation : Address → Option Nat := fun _ => none
  reputation_attestor : Address → Bool := fun _ => false
  mint_epoch_count : Nat → Nat := fun _ => 0

structure MembershipSbt where
  registry : Address
  daos : Nat → SbtDao := fun _ => {}

def MembershipSbt.set_dao (s : MembershipSbt) (dao_id : Nat) (d : SbtDao) : MembershipSbt :=
  { s with daos := Function.update s.daos dao_id d }

@[simp] theorem MembershipSbt.set_dao_daos (s : MembershipSbt) (dao_id : Nat) (d : SbtDao) :
    (s.set_dao dao_id d).daos = Function.update s.daos dao_id d := rfl
@[simp] theorem MembershipSbt.set_dao_registry (s : MembershipSbt) (dao_id : Nat) (d : SbtDao) :
    (s.set_dao dao_id d).registry = s.registry := rfl

/-- One call to the contract, with the answers of the registry; `none` when it traps. -/
structure SbtEnv extends Env where
  get_admin : Nat → Option Address
  is_membership_open : Nat → Option Bool

/-! ## Members -/

def has (d : SbtDao) (of : Address) : Bool := d.member of && !d.revoked of

def add_member_to_list (d : SbtDao) (member : Address) : Outcome SbtError SbtDao := do
  let new_count ← expect (checkedAdd 64 d.member_count 1)
  return { d with
    member_at_index := Function.update d.member_at_index d.member_count (some member)
    member_count := new_count }

/-- Written once. -/
def record_mint_time (env : SbtEnv) (d : SbtDao) (member : Address) : SbtDao :=
  match d.minted_at member with
  | some _ => d
  | none => { d with minted_at := Function.update d.minted_at member (some env.timestamp) }

def assert_dao_admin (env : SbtEnv) (dao_id : Nat) (caller : Address) : Outcome SbtError Unit := do
  let dao_admin ← expect (env.get_admin dao_id)
  require (dao_admin = caller) .NotDaoAdmin

/-- At most so many mints of the admin in an epoch. -/
def count_mint (env : SbtEnv) (d : SbtDao) : Outcome SbtError SbtDao := do
  let epoch := env.sequence / EPOCH_LEDGERS
  require (¬ MAX_MINTS_PER_EPOCH ≤ d.mint_epoch_count epoch) .MintRateLimitExceeded
  return { d with mint_epoch_count := Function.update d.mint_epoch_count epoch (d.mint_epoch_count epoch + 1) }

def set_alias (d : SbtDao) (member : Address) : Option Bytes → SbtDao
  | some alias_ => { d with alias_ := Function.update d.alias_ member (some alias_) }
  | none => d

/-- The part that `mint` and `self_join` end with: who was never a member goes on the list. -/
def join (env : SbtEnv) (d : SbtDao) (to_ : Address) (encrypted_alias : Option Bytes) : Outcome SbtError SbtDao := do
  let is_new_member := d.member to_ = false
  let d := { d with
    member := Function.update d.member to_ true
    revoked := Function.update d.revoked to_ false }
  let d := set_alias d to_ encrypted_alias
  let d ← if is_new_member then add_member_to_list d to_ else .ok d
  return record_mint_time env d to_

def mint (env : SbtEnv) (s : MembershipSbt) (dao_id : Nat) (to_ admin : Address) (encrypted_alias : Option Bytes) :
    Outcome SbtError MembershipSbt := do
  require_auth env.toEnv admin
  assert_dao_admin env dao_id admin
  require (has (s.daos dao_id) to_ = false) .AlreadyMinted
  let d ← count_mint env (s.daos dao_id)
  let d ← join env d to_ encrypted_alias
  return s.set_dao dao_id d

/-- A revocation is not cleared, and an address goes on the list whether it is there or not. -/
def mint_from_registry (env : SbtEnv) (s : MembershipSbt) (dao_id : Nat) (to_ : Address) :
    Outcome SbtError MembershipSbt := do
  require_auth env.toEnv s.registry
  let d := s.daos dao_id
  require (has d to_ = false) .AlreadyMinted
  let d := { d with member := Function.update d.member to_ true }
  let d ← add_member_to_list d to_
  return s.set_dao dao_id (record_mint_time env d to_)

def revoke (env : SbtEnv) (s : MembershipSbt) (dao_id : Nat) (member admin : Address) :
    Outcome SbtError MembershipSbt := do
  require_auth env.toEnv admin
  assert_dao_admin env dao_id admin
  let d := s.daos dao_id
  require (d.member member = true) .NotMember
  return s.set_dao dao_id { d with revoked := Function.update d.revoked member true }

def leave (env : SbtEnv) (s : MembershipSbt) (dao_id : Nat) (member : Address) : Outcome SbtError MembershipSbt := do
  require_auth env.toEnv member
  let d := s.daos dao_id
  require ((d.transfer_cooldown member).any (fun cooldown_end => env.timestamp < cooldown_end) = false) .CooldownActive
  require (d.member member = true) .NotMember
  return s.set_dao dao_id { d with revoked := Function.update d.revoked member true }

def self_join (env : SbtEnv) (s : MembershipSbt) (dao_id : Nat) (member : Address) (encrypted_alias : Option Bytes) :
    Outcome SbtError MembershipSbt := do
  require_auth env.toEnv member
  let membership_open ← expect (env.is_membership_open dao_id)
  require (membership_open = true) .NotOpenMembership
  require (has (s.daos dao_id) member = false) .AlreadyMinted
  let d ← join env (s.daos dao_id) member encrypted_alias
  return s.set_dao dao_id d

def get_alias (s : MembershipSbt) (dao_id : Nat) (member : Address) : Option Bytes := (s.daos dao_id).alias_ member

def update_alias (env : SbtEnv) (s : MembershipSbt) (dao_id : Nat) (member admin : Address)
    (new_encrypted_alias : Bytes) : Outcome SbtError MembershipSbt := do
  require_auth env.toEnv admin
  assert_dao_admin env dao_id admin
  let d := s.daos dao_id
  require (d.member member = true) .NotMember
  return s.set_dao dao_id { d with alias_ := Function.update d.alias_ member (some new_encrypted_alias) }

/-! ## The list of members -/

def get_member_count (s : MembershipSbt) (dao_id : Nat) : Nat := (s.daos dao_id).member_count

def get_member_at_index (s : MembershipSbt) (dao_id index : Nat) : Option Address :=
  (s.daos dao_id).member_at_index index

def get_members (s : MembershipSbt) (dao_id offset limit : Nat) : Outcome SbtError (List Address) := do
  let past ← expect (checkedAdd 64 offset limit)
  let end_ := min past (get_member_count s dao_id)
  return (List.range' offset (end_ - offset)).filterMap (get_member_at_index s dao_id)

/-! ## Cooldowns -/

/-- The check of who sets what holds for an election: the member, or the admin of the DAO. -/
def member_or_admin (env : SbtEnv) (dao_id : Nat) (member caller : Address) : Outcome SbtError Unit := do
  require_auth env.toEnv caller
  if caller = member then return () else assert_dao_admin env dao_id caller

def set_election_cooldown (env : SbtEnv) (s : MembershipSbt) (dao_id : Nat) (member : Address) (cooldown_end : Nat)
    (caller : Address) : Outcome SbtError MembershipSbt := do
  member_or_admin env dao_id member caller
  let d := s.daos dao_id
  return s.set_dao dao_id { d with transfer_cooldown := Function.update d.transfer_cooldown member (some cooldown_end) }

def clear_election_cooldown (env : SbtEnv) (s : MembershipSbt) (dao_id : Nat) (member caller : Address) :
    Outcome SbtError MembershipSbt := do
  member_or_admin env dao_id member caller
  let d := s.daos dao_id
  return s.set_dao dao_id { d with transfer_cooldown := Function.update d.transfer_cooldown member none }

def is_in_cooldown (env : SbtEnv) (s : MembershipSbt) (dao_id : Nat) (member : Address) : Bool :=
  ((s.daos dao_id).transfer_cooldown member).any fun cooldown_end => env.timestamp < cooldown_end

def set_in_active_election (env : SbtEnv) (s : MembershipSbt) (dao_id : Nat) (member : Address) (active : Bool)
    (caller : Address) : Outcome SbtError MembershipSbt := do
  member_or_admin env dao_id member caller
  let d := s.daos dao_id
  return s.set_dao dao_id { d with in_active_election := Function.update d.in_active_election member (some active) }

def is_in_active_election (s : MembershipSbt) (dao_id : Nat) (member : Address) : Bool :=
  ((s.daos dao_id).in_active_election member).getD false

/-! ## Weights -/

def member_age_days (env : SbtEnv) (s : MembershipSbt) (dao_id : Nat) (member : Address) : Nat :=
  match (s.daos dao_id).minted_at member with
  | some minted_at => (env.timestamp - minted_at) / SECONDS_PER_DAY
  | none => 0

def reputation (s : MembershipSbt) (dao_id : Nat) (member : Address) : Nat := ((s.daos dao_id).reputation member).getD 0

/-- One point for each threshold that is reached. -/
def points (thresholds : List Nat) (value : Nat) : Nat := thresholds.countP fun threshold => threshold ≤ value

def age_weight (env : SbtEnv) (s : MembershipSbt) (dao_id : Nat) (member : Address) : Nat :=
  points AGE_THRESHOLD_DAYS (member_age_days env s dao_id member)

def reputation_weight (s : MembershipSbt) (dao_id : Nat) (member : Address) : Nat :=
  points REPUTATION_THRESHOLDS (reputation s dao_id member)

def sybil_weight (env : SbtEnv) (s : MembershipSbt) (dao_id : Nat) (member : Address) : Nat :=
  if has (s.daos dao_id) member = false then 0
  else
    let raw := BASE_WEIGHT + age_weight env s dao_id member + reputation_weight s dao_id member
    if MAX_SYBIL_WEIGHT < raw then MAX_SYBIL_WEIGHT else raw

def set_reputation_attestor (env : SbtEnv) (s : MembershipSbt) (dao_id : Nat) (attestor : Address) (allowed : Bool)
    (admin : Address) : Outcome SbtError MembershipSbt := do
  require_auth env.toEnv admin
  assert_dao_admin env dao_id admin
  let d := s.daos dao_id
  return s.set_dao dao_id { d with reputation_attestor := Function.update d.reputation_attestor attestor allowed }

def assert_attestor (env : SbtEnv) (d : SbtDao) (attestor : Address) : Outcome SbtError Unit := do
  require_auth env.toEnv attestor
  require (d.reputation_attestor attestor = true) .NotReputationAttestor

def accrue_reputation (env : SbtEnv) (s : MembershipSbt) (dao_id : Nat) (member : Address) (amount : Nat)
    (attestor : Address) : Outcome SbtError MembershipSbt := do
  let d := s.daos dao_id
  assert_attestor env d attestor
  require (has d member = true) .NotMember
  require (¬ MAX_REPUTATION < amount) .ReputationOutOfRange
  let new_score := min (saturatingAdd 32 (reputation s dao_id member) amount) MAX_REPUTATION
  return s.set_dao dao_id { d with reputation := Function.update d.reputation member (some new_score) }

def slash_reputation (env : SbtEnv) (s : MembershipSbt) (dao_id : Nat) (member : Address) (amount : Nat)
    (attestor : Address) : Outcome SbtError MembershipSbt := do
  let d := s.daos dao_id
  assert_attestor env d attestor
  let new_score := reputation s dao_id member - amount
  return s.set_dao dao_id { d with reputation := Function.update d.reputation member (some new_score) }

/-! ## Keepalive -/

/-- `DataKey`, but for the keys that no sweep touches. -/
inductive DataKey where
  | Member (dao_id : Nat) (member : Address)
  | Alias (dao_id : Nat) (member : Address)
  | Revoked (dao_id : Nat) (member : Address)
  | MemberCount (dao_id : Nat)
  | MemberAtIndex (dao_id index : Nat)
  | TransferCooldown (dao_id : Nat) (member : Address)
  | InActiveElection (dao_id : Nat) (member : Address)
  | MintedAt (dao_id : Nat) (member : Address)
  | Reputation (dao_id : Nat) (member : Address)
  deriving DecidableEq

/-- Of the records of a member, those that are there. -/
def member_keys (d : SbtDao) (dao_id : Nat) (member : Address) : List DataKey :=
  (if d.member member then [.Member dao_id member] else []) ++
    (if (d.alias_ member).isSome then [.Alias dao_id member] else []) ++
    (if (d.minted_at member).isSome then [.MintedAt dao_id member] else []) ++
    (if (d.reputation member).isSome then [.Reputation dao_id member] else []) ++
    (if (d.transfer_cooldown member).isSome then [.TransferCooldown dao_id member] else []) ++
    (if (d.in_active_election member).isSome then [.InActiveElection dao_id member] else []) ++
    (if d.revoked member then [.Revoked dao_id member] else [])

/-- The loop of the sweep from `i` on: how many members it finds, and the keys whose TTL it extends. -/
def sweep_from (d : SbtDao) (dao_id : Nat) : Nat → Nat → Nat × List DataKey
  | _, 0 => (0, [])
  | i, rounds + 1 =>
    let (swept, keys) := sweep_from d dao_id (i + 1) rounds
    match d.member_at_index i with
    | some member => (swept + 1, .MemberAtIndex dao_id i :: (member_keys d dao_id member ++ keys))
    | none => (swept, keys)

def sweep_dao (s : MembershipSbt) (dao_id start limit : Nat) : Outcome SbtError (Nat × List DataKey) :=
  let limit := pageSize SWEEP_MAX_RECORDS limit
  let d := s.daos dao_id
  let count_keys := if d.member_count = 0 then [] else [.MemberCount dao_id]
  let end_ := min d.member_count (saturatingAdd 64 start limit)
  let (swept, keys) := sweep_from d dao_id start (end_ - start)
  .ok (swept, count_keys ++ keys)

/-! ## Runs -/

inductive Call where
  | mint (dao_id : Nat) (to_ admin : Address) (encrypted_alias : Option Bytes)
  | mint_from_registry (dao_id : Nat) (to_ : Address)
  | revoke (dao_id : Nat) (member admin : Address)
  | leave (dao_id : Nat) (member : Address)
  | self_join (dao_id : Nat) (member : Address) (encrypted_alias : Option Bytes)
  | update_alias (dao_id : Nat) (member admin : Address) (new_encrypted_alias : Bytes)
  | set_election_cooldown (dao_id : Nat) (member : Address) (cooldown_end : Nat) (caller : Address)
  | clear_election_cooldown (dao_id : Nat) (member caller : Address)
  | set_in_active_election (dao_id : Nat) (member : Address) (active : Bool) (caller : Address)
  | set_reputation_attestor (dao_id : Nat) (attestor : Address) (allowed : Bool) (admin : Address)
  | accrue_reputation (dao_id : Nat) (member : Address) (amount : Nat) (attestor : Address)
  | slash_reputation (dao_id : Nat) (member : Address) (amount : Nat) (attestor : Address)

def step (s : MembershipSbt) (env : SbtEnv) : Call → Outcome SbtError MembershipSbt
  | .mint dao_id to_ admin encrypted_alias => mint env s dao_id to_ admin encrypted_alias
  | .mint_from_registry dao_id to_ => mint_from_registry env s dao_id to_
  | .revoke dao_id member admin => revoke env s dao_id member admin
  | .leave dao_id member => leave env s dao_id member
  | .self_join dao_id member encrypted_alias => self_join env s dao_id member encrypted_alias
  | .update_alias dao_id member admin new_encrypted_alias => update_alias env s dao_id member admin new_encrypted_alias
  | .set_election_cooldown dao_id member cooldown_end caller =>
    set_election_cooldown env s dao_id member cooldown_end caller
  | .clear_election_cooldown dao_id member caller => clear_election_cooldown env s dao_id member caller
  | .set_in_active_election dao_id member active caller => set_in_active_election env s dao_id member active caller
  | .set_reputation_attestor dao_id attestor allowed admin =>
    set_reputation_attestor env s dao_id attestor allowed admin
  | .accrue_reputation dao_id member amount attestor => accrue_reputation env s dao_id member amount attestor
  | .slash_reputation dao_id member amount attestor => slash_reputation env s dao_id member amount attestor

def constructor (registry : Address) : MembershipSbt := { registry := registry }

def Accepts (s : MembershipSbt) (call : SbtEnv × Call) (s' : MembershipSbt) : Prop := step s call.1 call.2 = .ok s'

/-- A run from the deployment of the contract. -/
def SbtRun (registry : Address) : List (MembershipSbt × SbtEnv × Call) → MembershipSbt → Prop :=
  Run Accepts (constructor registry)

/-! ## A sample deployment -/

/-- A call that everyone has signed, in DAOs that account 0 administers and anyone may join. -/
def sampleEnv : SbtEnv where
  timestamp := 0
  sequence := 0
  auths := fun _ => true
  get_admin := fun _ => some 0
  is_membership_open := fun _ => some true

def next (s : MembershipSbt) (call : SbtEnv × Call) : Option MembershipSbt := (step s call.1 call.2).toOption

theorem exists_run {r : Address} (calls : List Call)
    (test : List (MembershipSbt × SbtEnv × Call) → MembershipSbt → Bool)
    (h : (Run.replay next (calls.map fun c => (sampleEnv, c)) [] (constructor r)).any
      (fun e => test e.1 e.2) = true) :
    ∃ log s, SbtRun r log s ∧ test log s = true := by
  refine Run.exists_of_replay (fun s call s' h => ?_) h
  exact toOption_eq_some.mp h

end ZkVote.Sbt
