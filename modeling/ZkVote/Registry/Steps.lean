import ZkVote.Registry.Contract

/-!
# The DAO registry: steps

What an accepted call leaves of the DAOs, of the multisig proposals, of the keys that DAOs were
created under, and of the upgrades.
-/

open Lib Lib.Outcome

namespace ZkVote.Registry

def Call.multisig : Call → Bool
  | .create_multisig_proposal .. | .sign_multisig_proposal .. | .execute_multisig_proposal .. => true
  | _ => false

/-- Whether a call upgrades a contract or rolls it back. -/
def Invocation.upgrades : Invocation → Bool
  | .apply_upgrade_from_registry .. | .rollback_upgrade_from_registry .. => true
  | _ => false

structure SameMultisig (s s' : DaoRegistry) : Prop where
  proposal : s'.multisig_proposal = s.multisig_proposal
  count : s'.multisig_proposal_count = s.multisig_proposal_count

/-- What a step does to the DAOs: it leaves them where they are, or takes the next id. -/
inductive DaosStep (s s' : DaoRegistry) : Prop where
  | same : s'.dao_count = s.dao_count → (∀ id, (s'.dao id).isSome = (s.dao id).isSome) → DaosStep s s'
  | created {info : DaoInfo} : s.dao_count + 1 < 2 ^ 64 → s'.dao_count = s.dao_count + 1 →
      s'.dao = Function.update s.dao (s.dao_count + 1) (some info) → DaosStep s s'

/-- What an accepted call does. Every call keeps the DAOs, and most keep the proposals too. -/
structure StepEffect (s s' : DaoRegistry) (call : Call) : Prop where
  daos : DaosStep s s'
  multisig : call.multisig = false → SameMultisig s s'

section
variable {env : Env} {s s' : DaoRegistry} {call : Call} {calls : List Invocation} {d id : Nat}

theorem alone_eq_ok {x : Outcome RegistryError DaoRegistry} :
    alone x = .ok (s', calls) ↔ x = .ok s' ∧ calls = [] := by
  cases x <;> simp [alone, eq_comm]

theorem aloneWith_eq_ok {α : Type} {x : Outcome RegistryError (α × DaoRegistry)} :
    aloneWith x = .ok (s', calls) ↔ (∃ a, x = .ok (a, s')) ∧ calls = [] := by
  rcases x with _ | ⟨a, s₁⟩ <;> simp [aloneWith, eq_comm]

theorem DaosStep.of_update {info info' : DaoInfo} (h : s.dao id = some info) (hcount : s'.dao_count = s.dao_count)
    (hdao : s'.dao = Function.update s.dao id (some info')) : DaosStep s s' := by
  refine .same hcount fun i => ?_
  rw [hdao]
  by_cases hi : i = id
  · subst hi
    rw [Function.update_self, h]
    rfl
  · rw [Function.update_of_ne hi]

/-- What is written beside the DAOs and the proposals does not matter. -/
theorem StepEffect.of_same {s₁ : DaoRegistry} (h : StepEffect s s₁ call) (hcount : s'.dao_count = s₁.dao_count)
    (hdao : s'.dao = s₁.dao) (hproposal : s'.multisig_proposal = s₁.multisig_proposal)
    (hproposals : s'.multisig_proposal_count = s₁.multisig_proposal_count) : StepEffect s s' call where
  daos := by
    cases h.daos with
    | same hcount' hdao' => exact .same (hcount.trans hcount') (by rwa [hdao])
    | created hfits hcount' hdao' => exact .created hfits (hcount.trans hcount') (hdao.trans hdao')
  multisig hcall := ⟨hproposal.trans (h.multisig hcall).proposal, hproposals.trans (h.multisig hcall).count⟩

/-- A call that writes neither. -/
theorem StepEffect.quiet (hcount : s'.dao_count = s.dao_count) (hdao : s'.dao = s.dao)
    (hproposal : s'.multisig_proposal = s.multisig_proposal)
    (hproposals : s'.multisig_proposal_count = s.multisig_proposal_count) : StepEffect s s' call := by
  have hrefl : StepEffect s s call := ⟨.same rfl fun _ => rfl, fun _ => ⟨rfl, rfl⟩⟩
  exact hrefl.of_same hcount hdao hproposal hproposals

theorem create_entry_effect {name : Bytes} {creator : Address} {mo mp : Bool} {cid : Option Bytes}
    (h : create_entry env s name creator mo mp cid = .ok (id, s')) : StepEffect s s' call := by
  simp [create_entry, next_dao_id] at h
  obtain ⟨-, -, -, hfits, rfl, rfl⟩ := h
  exact ⟨.created hfits rfl rfl, fun _ => ⟨rfl, rfl⟩⟩

theorem set_info_effect {admin : Address} {change : DaoInfo → DaoInfo} (h : set_info s d admin change = .ok s') :
    StepEffect s s' call := by
  simp [set_info] at h
  obtain ⟨info, hinfo, -, rfl⟩ := h
  exact ⟨.of_update hinfo rfl rfl, fun _ => ⟨rfl, rfl⟩⟩

theorem step_effect (h : step s env call = .ok (s', calls)) : StepEffect s s' call := by
  unfold step at h
  cases call with
  | create_dao =>
    obtain ⟨⟨_, hcreate⟩, -⟩ := aloneWith_eq_ok.mp h
    exact create_entry_effect hcreate
  | create_dao_idempotent =>
    obtain ⟨⟨_, hcreate⟩, -⟩ := aloneWith_eq_ok.mp h
    unfold create_dao_idempotent at hcreate
    split at hcreate
    · cases hcreate
      exact .quiet rfl rfl rfl rfl
    · obtain ⟨⟨_, s₁⟩, hentry, hrest⟩ := bind_eq_ok.mp hcreate
      cases hrest
      exact (create_entry_effect hentry).of_same rfl rfl rfl rfl
  | create_and_init_dao_no_reg | create_and_init_dao =>
    obtain ⟨⟨_, s₁⟩, hentry, hrest⟩ := bind_eq_ok.mp h
    cases hrest
    exact create_entry_effect hentry
  | transfer_admin =>
    simp [alone_eq_ok, transfer_admin] at h
    obtain ⟨⟨info, hinfo, -, rfl⟩, -⟩ := h
    exact ⟨.of_update hinfo rfl rfl, fun _ => ⟨rfl, rfl⟩⟩
  | set_proposal_mode | set_membership_open =>
    obtain ⟨_, -, hset⟩ := bind_eq_ok.mp (alone_eq_ok.mp h).1
    exact set_info_effect hset
  | set_name | set_metadata_cid =>
    obtain ⟨_, -, hset⟩ := bind_eq_ok.mp (alone_eq_ok.mp h).1
    obtain ⟨_, -, hset⟩ := bind_eq_ok.mp hset
    exact set_info_effect hset
  | commit_name =>
    simp [alone_eq_ok, commit_name] at h
    obtain ⟨⟨-, -, -, rfl⟩, -⟩ := h
    exact .quiet rfl rfl rfl rfl
  | assign_role =>
    simp [alone_eq_ok, assign_role, require_dao_admin] at h
    obtain ⟨⟨-, _, -, -, _, -, rfl⟩, -⟩ := h
    exact .quiet rfl rfl rfl rfl
  | revoke_role =>
    simp [alone_eq_ok, revoke_role, require_dao_admin] at h
    obtain ⟨⟨-, _, -, -, rfl⟩, -⟩ := h
    exact .quiet rfl rfl rfl rfl
  | init_multisig =>
    simp [alone_eq_ok, init_multisig, require_dao_admin] at h
    obtain ⟨⟨-, _, -, -, -, -, rfl⟩, -⟩ := h
    exact .quiet rfl rfl rfl rfl
  | create_multisig_proposal =>
    simp [aloneWith_eq_ok, create_multisig_proposal, next_multisig_proposal_id] at h
    obtain ⟨⟨-, _, _, -, -, -, -, rfl⟩, -⟩ := h
    exact ⟨.same rfl fun _ => rfl, nofun⟩
  | sign_multisig_proposal =>
    simp [alone_eq_ok, sign_multisig_proposal] at h
    obtain ⟨⟨-, _, -, -, -, _, -, -, -, rfl⟩, -⟩ := h
    exact ⟨.same rfl fun _ => rfl, nofun⟩
  | execute_multisig_proposal =>
    simp [alone_eq_ok, execute_multisig_proposal] at h
    obtain ⟨⟨-, _, -, -, _, -, -, -, rfl⟩, -⟩ := h
    exact ⟨.same rfl fun _ => rfl, nofun⟩
  | propose_contract_upgrade =>
    simp [aloneWith_eq_ok, propose_contract_upgrade, require_dao_admin, next_upgrade_proposal_id] at h
    obtain ⟨⟨-, _, -, -, -, -, -, rfl⟩, -⟩ := h
    exact .quiet rfl rfl rfl rfl
  | execute_contract_upgrade =>
    simp [execute_contract_upgrade, require_dao_admin] at h
    obtain ⟨-, _, -, -, _, -, -, -, -, rfl, -⟩ := h
    exact .quiet rfl rfl rfl rfl
  | rollback_contract_upgrade =>
    simp [rollback_contract_upgrade, require_dao_admin] at h
    obtain ⟨-, _, -, -, _, -, -, rfl, -⟩ := h
    exact .quiet rfl rfl rfl rfl
  | propose_circuit_upgrade =>
    simp [aloneWith_eq_ok, propose_circuit_upgrade, require_dao_admin, next_upgrade_proposal_id] at h
    obtain ⟨⟨-, _, -, -, -, -, rfl⟩, -⟩ := h
    exact .quiet rfl rfl rfl rfl
  | approve_circuit_upgrade =>
    simp [alone_eq_ok, approve_circuit_upgrade, require_dao_admin] at h
    obtain ⟨⟨-, _, -, _, -, -, -, rfl⟩, -⟩ := h
    exact .quiet rfl rfl rfl rfl

end

/-! ## Keys and upgrades -/

def Call.keyed : Call → Bool
  | .create_dao_idempotent .. => true
  | _ => false

def Call.upgrade : Call → Bool
  | .propose_contract_upgrade .. | .execute_contract_upgrade .. | .rollback_contract_upgrade .. => true
  | _ => false

structure SameKeys (s s' : DaoRegistry) : Prop where
  key : s'.idempotency_key = s.idempotency_key
  receipt : s'.receipt = s.receipt

/-- The upgrades of circuits are numbered with those of contracts. -/
structure SameUpgrades (s s' : DaoRegistry) : Prop where
  proposal : s'.contract_upgrade = s.contract_upgrade
  count : s.upgrade_proposal_count ≤ s'.upgrade_proposal_count

/-- Only a creation under a key writes the keys, and only the calls about an upgrade write the upgrades and make
upgrades of other contracts. -/
structure StepWrites (s s' : DaoRegistry) (call : Call) (calls : List Invocation) : Prop where
  keys : call.keyed = false → SameKeys s s'
  upgrades : call.upgrade = false → SameUpgrades s s' ∧ ∀ c ∈ calls, c.upgrades = false

section
variable {env : Env} {s s' : DaoRegistry} {call : Call} {calls : List Invocation} {d id : Nat}

theorem StepWrites.neither (hkeys : SameKeys s s') (hupgrades : SameUpgrades s s')
    (hcalls : ∀ c ∈ calls, c.upgrades = false) : StepWrites s s' call calls :=
  ⟨fun _ => hkeys, fun _ => ⟨hupgrades, hcalls⟩⟩

theorem create_entry_same {name : Bytes} {creator : Address} {mo mp : Bool} {cid : Option Bytes}
    (h : create_entry env s name creator mo mp cid = .ok (id, s')) : SameKeys s s' ∧ SameUpgrades s s' := by
  simp [create_entry, next_dao_id] at h
  obtain ⟨-, -, -, -, -, rfl⟩ := h
  exact ⟨⟨rfl, rfl⟩, ⟨rfl, le_rfl⟩⟩

theorem set_info_same {admin : Address} {change : DaoInfo → DaoInfo} (h : set_info s d admin change = .ok s') :
    SameKeys s s' ∧ SameUpgrades s s' := by
  simp [set_info] at h
  obtain ⟨_, -, -, rfl⟩ := h
  exact ⟨⟨rfl, rfl⟩, ⟨rfl, le_rfl⟩⟩

theorem step_writes (h : step s env call = .ok (s', calls)) : StepWrites s s' call calls := by
  unfold step at h
  cases call with
  | create_dao =>
    obtain ⟨⟨_, hcreate⟩, rfl⟩ := aloneWith_eq_ok.mp h
    obtain ⟨hkeys, hupgrades⟩ := create_entry_same hcreate
    exact .neither hkeys hupgrades nofun
  | create_dao_idempotent =>
    obtain ⟨⟨_, hcreate⟩, rfl⟩ := aloneWith_eq_ok.mp h
    refine ⟨nofun, fun _ => ⟨?_, nofun⟩⟩
    unfold create_dao_idempotent at hcreate
    split at hcreate
    · cases hcreate
      exact ⟨rfl, le_rfl⟩
    · obtain ⟨⟨_, s₁⟩, hentry, hrest⟩ := bind_eq_ok.mp hcreate
      cases hrest
      obtain ⟨-, hupgrades⟩ := create_entry_same hentry
      exact ⟨hupgrades.proposal, hupgrades.count⟩
  | create_and_init_dao_no_reg | create_and_init_dao =>
    obtain ⟨⟨_, s₁⟩, hentry, hrest⟩ := bind_eq_ok.mp h
    cases hrest
    obtain ⟨hkeys, hupgrades⟩ := create_entry_same hentry
    exact .neither hkeys hupgrades (by simp [Invocation.upgrades])
  | set_proposal_mode | set_membership_open =>
    obtain ⟨hset, rfl⟩ := alone_eq_ok.mp h
    obtain ⟨_, -, hset⟩ := bind_eq_ok.mp hset
    exact .neither (set_info_same hset).1 (set_info_same hset).2 nofun
  | set_name | set_metadata_cid =>
    obtain ⟨hset, rfl⟩ := alone_eq_ok.mp h
    obtain ⟨_, -, hset⟩ := bind_eq_ok.mp hset
    obtain ⟨_, -, hset⟩ := bind_eq_ok.mp hset
    exact .neither (set_info_same hset).1 (set_info_same hset).2 nofun
  | transfer_admin =>
    simp [alone_eq_ok, transfer_admin] at h
    obtain ⟨⟨_, -, -, rfl⟩, rfl⟩ := h
    exact .neither ⟨rfl, rfl⟩ ⟨rfl, le_rfl⟩ nofun
  | commit_name =>
    simp [alone_eq_ok, commit_name] at h
    obtain ⟨⟨-, -, -, rfl⟩, rfl⟩ := h
    exact .neither ⟨rfl, rfl⟩ ⟨rfl, le_rfl⟩ nofun
  | assign_role =>
    simp [alone_eq_ok, assign_role, require_dao_admin] at h
    obtain ⟨⟨-, _, -, -, _, -, rfl⟩, rfl⟩ := h
    exact .neither ⟨rfl, rfl⟩ ⟨rfl, le_rfl⟩ nofun
  | revoke_role =>
    simp [alone_eq_ok, revoke_role, require_dao_admin] at h
    obtain ⟨⟨-, _, -, -, rfl⟩, rfl⟩ := h
    exact .neither ⟨rfl, rfl⟩ ⟨rfl, le_rfl⟩ nofun
  | init_multisig =>
    simp [alone_eq_ok, init_multisig, require_dao_admin] at h
    obtain ⟨⟨-, _, -, -, -, -, rfl⟩, rfl⟩ := h
    exact .neither ⟨rfl, rfl⟩ ⟨rfl, le_rfl⟩ nofun
  | create_multisig_proposal =>
    simp [aloneWith_eq_ok, create_multisig_proposal, next_multisig_proposal_id] at h
    obtain ⟨⟨-, _, _, -, -, -, -, rfl⟩, rfl⟩ := h
    exact .neither ⟨rfl, rfl⟩ ⟨rfl, le_rfl⟩ nofun
  | sign_multisig_proposal =>
    simp [alone_eq_ok, sign_multisig_proposal] at h
    obtain ⟨⟨-, _, -, -, -, _, -, -, -, rfl⟩, rfl⟩ := h
    exact .neither ⟨rfl, rfl⟩ ⟨rfl, le_rfl⟩ nofun
  | execute_multisig_proposal =>
    simp [alone_eq_ok, execute_multisig_proposal] at h
    obtain ⟨⟨-, _, -, -, _, -, -, -, rfl⟩, rfl⟩ := h
    exact .neither ⟨rfl, rfl⟩ ⟨rfl, le_rfl⟩ nofun
  | propose_contract_upgrade =>
    simp [aloneWith_eq_ok, propose_contract_upgrade, require_dao_admin, next_upgrade_proposal_id] at h
    obtain ⟨⟨-, _, -, -, -, -, -, rfl⟩, -⟩ := h
    exact ⟨fun _ => ⟨rfl, rfl⟩, nofun⟩
  | execute_contract_upgrade =>
    simp [execute_contract_upgrade, require_dao_admin] at h
    obtain ⟨-, _, -, -, _, -, -, -, -, rfl, -⟩ := h
    exact ⟨fun _ => ⟨rfl, rfl⟩, nofun⟩
  | rollback_contract_upgrade =>
    simp [rollback_contract_upgrade, require_dao_admin] at h
    obtain ⟨-, _, -, -, _, -, -, rfl, -⟩ := h
    exact ⟨fun _ => ⟨rfl, rfl⟩, nofun⟩
  | propose_circuit_upgrade =>
    simp [aloneWith_eq_ok, propose_circuit_upgrade, require_dao_admin, next_upgrade_proposal_id] at h
    obtain ⟨⟨-, _, -, -, -, -, rfl⟩, rfl⟩ := h
    exact .neither ⟨rfl, rfl⟩ ⟨rfl, Nat.le_succ _⟩ nofun
  | approve_circuit_upgrade =>
    simp [alone_eq_ok, approve_circuit_upgrade, require_dao_admin] at h
    obtain ⟨⟨-, _, -, _, -, -, -, rfl⟩, rfl⟩ := h
    exact .neither ⟨rfl, rfl⟩ ⟨rfl, le_rfl⟩ nofun

end

/-! ## Runs -/

def next (s : DaoRegistry) (call : Env × Call) : Option DaoRegistry :=
  (step s call.1 call.2).toOption.map Prod.fst

theorem accepts_of_next {s s' : DaoRegistry} {call : Env × Call} (h : next s call = some s') : Accepts s call s' := by
  obtain ⟨⟨_, calls⟩, hs, rfl⟩ := Option.map_eq_some_iff.mp h
  exact ⟨calls, toOption_eq_some.mp hs⟩

theorem exists_run (calls : List (Env × Call)) (test : List (DaoRegistry × Env × Call) → DaoRegistry → Bool)
    (h : (Run.replay next calls [] {}).any (fun r => test r.1 r.2) = true) :
    ∃ log s, RegistryRun log s ∧ test log s = true := by
  refine Run.exists_of_replay (fun s call s' hs => ?_) h
  exact accepts_of_next hs

end ZkVote.Registry
