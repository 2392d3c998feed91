import ZkVote.Registry.Keepalive

/-!
# The DAO registry: creation under a key

A key is looked up before anything else is looked at, and answers for the whole registry.
It belongs to the first accepted call that names it, whoever names it afterwards.
-/

open Lib Lib.Outcome

namespace ZkVote.Registry

/-- What a caller asks for when they create a DAO. -/
structure DaoArgs where
  name : Bytes
  creator : Address
  membership_open : Bool
  members_can_propose : Bool
  metadata_cid : Option Bytes
  deriving DecidableEq

namespace DaoArgs

def create (a : DaoArgs) (env : Env) (s : DaoRegistry) : Outcome RegistryError (Nat × DaoRegistry) :=
  create_dao env s a.name a.creator a.membership_open a.members_can_propose a.metadata_cid

def createWith (a : DaoArgs) (env : Env) (s : DaoRegistry) (key : BytesN 32) :
    Outcome RegistryError ((Nat × Bool) × DaoRegistry) :=
  create_dao_idempotent env s key a.name a.creator a.membership_open a.members_can_propose a.metadata_cid

def call (a : DaoArgs) (key : BytesN 32) : Call :=
  .create_dao_idempotent key a.name a.creator a.membership_open a.members_can_propose a.metadata_cid

def info (a : DaoArgs) (env : Env) (id : Nat) : DaoInfo :=
  { id := id
    name := a.name
    admin := a.creator
    created_at := env.timestamp
    membership_open := a.membership_open
    members_can_propose := a.members_can_propose
    metadata_cid := a.metadata_cid }

def receipt (a : DaoArgs) (env : Env) (key : BytesN 32) (id : Nat) : DaoCreationReceipt :=
  { dao_id := id
    idempotency_key := key
    creator := a.creator
    created_at := env.timestamp }

end DaoArgs

/-- The first accepted call with the key: the state it found, and what it asked for. -/
def firstUse (key : BytesN 32) : List (DaoRegistry × Env × Call) → Option (DaoRegistry × Env × DaoArgs)
  | [] => none
  | (s, env, .create_dao_idempotent k name creator membership_open members_can_propose metadata_cid) :: log =>
    (firstUse key log).or
      (if k = key then some (s, env, ⟨name, creator, membership_open, members_can_propose, metadata_cid⟩) else none)
  | _ :: log => firstUse key log

/-- A DAO that was not there before, made for the caller as they asked, and signed by them. -/
structure Created (s : DaoRegistry) (env : Env) (key : BytesN 32) (a : DaoArgs) (id : Nat) (s' : DaoRegistry) :
    Prop where
  answer : a.createWith env s key = .ok ((id, true), s')
  signed : env.auths a.creator = true
  absent : s.dao id = none
  entry : s'.dao id = some (a.info env id)
  receipt : s'.receipt id = some (a.receipt env key id)

/-- A key nobody has used creates a DAO whenever its caller could create one without a key. A used key answers any
caller with the DAO of its first use, which has kept its receipt, and no two keys answer with one DAO. -/
structure KeyLaw (log : List (DaoRegistry × Env × Call)) (s : DaoRegistry) (env : Env) (key : BytesN 32) (a : DaoArgs) :
    Prop where
  free : firstUse key log = none → (a.createWith env s key).isOk = (a.create env s).isOk
  creates : firstUse key log = none → ∀ id created s', a.createWith env s key = .ok ((id, created), s') →
    created = true ∧ Created s env key a id s'
  answers : ∀ s₁ env₁ a₁, firstUse key log = some (s₁, env₁, a₁) → ∃ id s₂, Created s₁ env₁ key a₁ id s₂ ∧
    a.createWith env s key = .ok ((id, false), s) ∧ s.receipt id = some (a₁.receipt env₁ key id)
  apart : ∀ key' id, s.idempotency_key key = some id → s.idempotency_key key' = some id → key = key'

section
variable {env : Env} {s s' : DaoRegistry} {call : Call} {calls : List Invocation}
  {log : List (DaoRegistry × Env × Call)} {key : BytesN 32} {a : DaoArgs} {id : Nat}

/-! ## Calls with a key -/

theorem createWith_eq (a : DaoArgs) (h : s.idempotency_key key = none) : a.createWith env s key = (do
    let (dao_id, s₁) ← a.create env s
    return ((dao_id, true), { s₁ with
      idempotency_key := Function.update s₁.idempotency_key key (some dao_id)
      receipt := Function.update s₁.receipt dao_id (some (a.receipt env key dao_id)) })) := by
  rw [DaoArgs.createWith, create_dao_idempotent, h]
  rfl

theorem createWith_known (a : DaoArgs) (h : s.idempotency_key key = some id) :
    a.createWith env s key = .ok ((id, false), s) := by
  rw [DaoArgs.createWith, create_dao_idempotent, h]
  rfl

/-- All that a creation under a new key does. -/
theorem createWith_fresh {created : Bool} (hs : Numbered s) (hkey : s.idempotency_key key = none)
    (h : a.createWith env s key = .ok ((id, created), s')) :
    created = true ∧ Created s env key a id s' ∧
      s'.idempotency_key = Function.update s.idempotency_key key (some id) ∧
      s'.receipt = Function.update s.receipt id (some (a.receipt env key id)) := by
  have hfull := h
  rw [createWith_eq a hkey] at h
  obtain ⟨⟨id₁, s₁⟩, hcreate, hrest⟩ := bind_eq_ok.mp h
  simp [DaoArgs.create, create_dao, create_entry, next_dao_id] at hcreate
  obtain ⟨hsigned, -, -, -, rfl, rfl⟩ := hcreate
  cases hrest
  refine ⟨rfl, ⟨hfull, hsigned, ?_, Function.update_self .., Function.update_self ..⟩, rfl, rfl⟩
  by_contra hdao
  have := (hs.isSome_iff _).mp (Option.isSome_iff_ne_none.mpr hdao)
  omega

/-! ## The log and the keys -/

/-- What the keys and the receipts say agrees with the log. -/
structure Keyed (log : List (DaoRegistry × Env × Call)) (s : DaoRegistry) : Prop where
  unused : ∀ key, firstUse key log = none → s.idempotency_key key = none
  used : ∀ key s₁ env₁ a₁, firstUse key log = some (s₁, env₁, a₁) → ∃ id s₂, Created s₁ env₁ key a₁ id s₂ ∧
    s.idempotency_key key = some id ∧ s.receipt id = some (a₁.receipt env₁ key id)
  given : ∀ key id, s.idempotency_key key = some id → (s.dao id).isSome = true

theorem DaosStep.isSome (h : DaosStep s s') (hid : (s.dao id).isSome = true) : (s'.dao id).isSome = true := by
  cases h with
  | same _ hdao => rw [hdao, hid]
  | created _ _ hdao =>
    rw [hdao]
    by_cases hne : id = s.dao_count + 1
    · subst hne
      rw [Function.update_self]
      rfl
    · rw [Function.update_of_ne hne, hid]

theorem Keyed.of_same (h : Keyed log s) (hdaos : DaosStep s s')
    (hfirst : ∀ key, firstUse key ((s, env, call) :: log) = firstUse key log)
    (hkeys : SameKeys s s') :
    Keyed ((s, env, call) :: log) s' where
  unused key hnone := by
    rw [hfirst] at hnone
    rw [hkeys.key, h.unused key hnone]
  used key s₁ env₁ a₁ hsome := by
    rw [hfirst] at hsome
    rw [hkeys.key, hkeys.receipt]
    exact h.used key s₁ env₁ a₁ hsome
  given key id hid := by
    rw [hkeys.key] at hid
    exact hdaos.isSome (h.given key id hid)

theorem firstUse_call (a : DaoArgs) (key k : BytesN 32) : firstUse k ((s, env, a.call key) :: log) =
    (firstUse k log).or (if key = k then some (s, env, a) else none) := rfl

theorem Keyed.receipt (h : Keyed log s) (hid : s.idempotency_key key = some id) :
    ∃ s₁ env₁ a₁, firstUse key log = some (s₁, env₁, a₁) ∧ s.receipt id = some (a₁.receipt env₁ key id) := by
  cases hfirst : firstUse key log with
  | none =>
    rw [h.unused key hfirst] at hid
    cases hid
  | some first =>
    obtain ⟨s₁, env₁, a₁⟩ := first
    obtain ⟨id₁, -, -, hid₁, hreceipt⟩ := h.used key s₁ env₁ a₁ hfirst
    obtain rfl := Option.some.inj (hid.symm.trans hid₁)
    exact ⟨s₁, env₁, a₁, rfl, hreceipt⟩

/-- A known key answers, and the log says no more about the first use of any key. -/
theorem Keyed.known (h : Keyed log s) (hid : s.idempotency_key key = some id) :
    Keyed ((s, env, a.call key) :: log) s := by
  refine h.of_same (.same rfl fun _ => rfl) (fun k => ?_) ⟨rfl, rfl⟩
  rw [firstUse_call]
  by_cases hk : key = k
  · subst hk
    obtain ⟨s₁, env₁, a₁, hfirst, -⟩ := h.receipt hid
    rw [hfirst]
    rfl
  · rw [if_neg hk, Option.or_none]

theorem Keyed.created (h : Keyed log s) (hdaos : DaosStep s s') (hkey : s.idempotency_key key = none)
    (hcreated : Created s env key a id s')
    (hkeys : s'.idempotency_key = Function.update s.idempotency_key key (some id))
    (hreceipts : s'.receipt = Function.update s.receipt id (some (a.receipt env key id))) :
    Keyed ((s, env, a.call key) :: log) s' := by
  have hnone : firstUse key log = none := by
    by_contra hne
    obtain ⟨⟨s₁, env₁, a₁⟩, hfirst⟩ := Option.ne_none_iff_exists'.mp hne
    obtain ⟨id₁, -, -, hid₁, -⟩ := h.used key s₁ env₁ a₁ hfirst
    rw [hkey] at hid₁
    cases hid₁
  have hothers : ∀ k, k ≠ key → firstUse k ((s, env, a.call key) :: log) = firstUse k log := by
    intro k hk
    rw [firstUse_call, if_neg (Ne.symm hk), Option.or_none]
  refine ⟨fun k hk => ?_, fun k s₁ env₁ a₁ hk => ?_, fun k i hi => ?_⟩
  all_goals by_cases hkk : k = key
  · subst hkk
    rw [firstUse_call, hnone, if_pos rfl] at hk
    cases hk
  · rw [hothers k hkk] at hk
    rw [hkeys, Function.update_of_ne hkk, h.unused k hk]
  · subst hkk
    rw [firstUse_call, hnone, if_pos rfl] at hk
    cases hk
    exact ⟨id, s', hcreated, by rw [hkeys, Function.update_self], hcreated.receipt⟩
  · rw [hothers k hkk] at hk
    obtain ⟨i, s₂, hmade, hi, hreceipt⟩ := h.used k s₁ env₁ a₁ hk
    have hne : i ≠ id := by
      rintro rfl
      have := h.given k i hi
      rw [hcreated.absent] at this
      cases this
    rw [hkeys, Function.update_of_ne hkk]
    exact ⟨i, s₂, hmade, hi, by rw [hreceipts, Function.update_of_ne hne, hreceipt]⟩
  · subst hkk
    rw [hkeys, Function.update_self] at hi
    cases hi
    rw [hcreated.entry]
    rfl
  · rw [hkeys, Function.update_of_ne hkk] at hi
    exact hdaos.isSome (h.given k i hi)

theorem Keyed.step (h : Keyed log s) (hs : Numbered s) (hstep : Registry.step s env call = .ok (s', calls)) :
    Keyed ((s, env, call) :: log) s' := by
  have hdaos := (step_effect hstep).daos
  cases call with
  | create_dao_idempotent key name creator membership_open members_can_propose metadata_cid =>
    obtain ⟨⟨⟨id, created⟩, hanswer⟩, -⟩ := aloneWith_eq_ok.mp hstep
    change DaoArgs.createWith ⟨name, creator, membership_open, members_can_propose, metadata_cid⟩ env s key = _
      at hanswer
    cases hkey : s.idempotency_key key with
    | none =>
      obtain ⟨-, hcreated, hkeys, hreceipts⟩ := createWith_fresh hs hkey hanswer
      exact h.created hdaos hkey hcreated hkeys hreceipts
    | some id₁ =>
      rw [createWith_known _ hkey] at hanswer
      cases hanswer
      exact h.known (a := ⟨name, creator, membership_open, members_can_propose, metadata_cid⟩) hkey
  | _ => exact h.of_same hdaos (fun _ => rfl) ((step_writes hstep).keys rfl)

theorem RegistryRun.keyed (hrun : RegistryRun log s) : Keyed log s := by
  refine Run.invariant_log (P := Keyed) ?_ (fun _ _ _ _ hrun h hs => ?_) hrun
  · exact ⟨fun _ _ => rfl, nofun, nofun⟩
  · obtain ⟨calls, hs⟩ := hs
    exact h.step (RegistryRun.numbered hrun) hs

theorem key_law (hrun : RegistryRun log s) (env : Env) (key : BytesN 32) (a : DaoArgs) : KeyLaw log s env key a where
  free hnone := by
    rw [createWith_eq a (hrun.keyed.unused key hnone)]
    cases a.create env s <;> rfl
  creates hnone id created s' h := by
    obtain ⟨hfirst, hcreated, -⟩ := createWith_fresh hrun.numbered (hrun.keyed.unused key hnone) h
    exact ⟨hfirst, hcreated⟩
  answers s₁ env₁ a₁ hfirst := by
    obtain ⟨id, s₂, hcreated, hid, hreceipt⟩ := hrun.keyed.used key s₁ env₁ a₁ hfirst
    exact ⟨id, s₂, hcreated, createWith_known a hid, hreceipt⟩
  apart key' id hid hid' := by
    obtain ⟨_, _, _, -, hreceipt⟩ := hrun.keyed.receipt hid
    obtain ⟨_, _, _, -, hreceipt'⟩ := hrun.keyed.receipt hid'
    exact congrArg DaoCreationReceipt.idempotency_key (Option.some.inj (hreceipt.symm.trans hreceipt'))

end

/-! ## The key of another creator -/

/-- Two accounts, each with a DAO of its own in mind. -/
def openDao : DaoArgs := ⟨[], 1, true, true, none⟩
def closedDao : DaoArgs := ⟨[97], 2, false, false, none⟩

def sharedKey : BytesN 32 := Vector.replicate 32 9

def heldByFirst (s : DaoRegistry) : Bool :=
  (s.dao 1).any (fun info => info.admin == 1 && info.name == []) &&
  (s.receipt 1).any (fun receipt => receipt.creator == 1) &&
  (closedDao.createWith (.signedAt 20) s sharedKey).toOption.any (fun r => r.1 == (1, false))

theorem key_law_for_two_creators : ∃ log s, RegistryRun log s ∧ firstUse sharedKey log ≠ none ∧
    KeyLaw log s (.signedAt 20) sharedKey closedDao := by
  obtain ⟨log, s, hrun, htest⟩ := exists_run [(.signedAt 10, openDao.call sharedKey)]
    (fun log _ => (firstUse sharedKey log).isSome) (by decide +kernel)
  exact ⟨log, s, hrun, Option.isSome_iff_ne_none.mp htest, key_law hrun (.signedAt 20) sharedKey closedDao⟩

/-- The second account is told of the DAO of the first. -/
theorem key_answers_another_creator : ∃ log s info receipt s', RegistryRun log s ∧
    closedDao.createWith (.signedAt 20) s sharedKey = .ok ((1, false), s') ∧
    s.dao 1 = some info ∧ info.admin ≠ closedDao.creator ∧ info.name ≠ closedDao.name ∧
    s.receipt 1 = some receipt ∧ receipt.creator ≠ closedDao.creator := by
  obtain ⟨log, s, hrun, htest⟩ := exists_run [(.signedAt 10, openDao.call sharedKey)] (fun _ s => heldByFirst s)
    (by decide +kernel)
  simp only [heldByFirst, Bool.and_eq_true, Option.any_eq_true, beq_iff_eq, toOption_eq_some] at htest
  obtain ⟨⟨⟨info, hinfo, hadmin, hname⟩, receipt, hreceipt, hcreator⟩, ⟨answer, s'⟩, hanswer, rfl⟩ := htest
  refine ⟨log, s, info, receipt, s', hrun, hanswer, hinfo, ?_, ?_, hreceipt, ?_⟩
  · rw [hadmin]
    decide
  · rw [hname]
    decide
  · rw [hcreator]
    decide

end ZkVote.Registry
