import Mathlib.Data.List.Basic
import ZkVote.Lib.History
import ZkVote.Registry.Steps

/-!
# The DAO registry: timelock of contract upgrades

The log says what was proposed under an id, and when it was executed and rolled back. What a
stored proposal says agrees with it.
-/

open Lib Lib.Outcome

namespace ZkVote.Registry

/-- What has been proposed under the id, the last one first, as it was then. -/
def upgradesProposed (dao_id proposal_id : Nat) : List (DaoRegistry × Env × Call) → List ContractUpgradeProposal
  | [] => []
  | (s, env, .propose_contract_upgrade d target_contract wasm_hash rollback_wasm_hash from_version to_version
      storage_version migration_payload eta expires_at _) :: log =>
    if d = dao_id ∧ s.upgrade_proposal_count + 1 = proposal_id then
      { dao_id := d
        target_contract := target_contract
        wasm_hash := wasm_hash
        rollback_wasm_hash := rollback_wasm_hash
        from_version := from_version
        to_version := to_version
        storage_version := storage_version
        migration_payload := migration_payload
        proposed_at := env.timestamp
        eta := eta
        expires_at := expires_at
        executed := false
        rolled_back := false } :: upgradesProposed dao_id proposal_id log
    else upgradesProposed dao_id proposal_id log
  | _ :: log => upgradesProposed dao_id proposal_id log

/-- Whether a call is to execute the upgrade. -/
def Call.executesUpgrade (dao_id proposal_id : Nat) : Call → Bool
  | .execute_contract_upgrade d q _ => decide (d = dao_id ∧ q = proposal_id)
  | _ => false

/-- Whether a call is to roll the upgrade back. -/
def Call.rollsBackUpgrade (dao_id proposal_id : Nat) : Call → Bool
  | .rollback_contract_upgrade d q _ => decide (d = dao_id ∧ q = proposal_id)
  | _ => false

/-- The times of an upgrade are of 64 bits. -/
def Call.fits : Call → Bool
  | .propose_contract_upgrade _ _ _ _ _ _ _ _ eta expires_at _ => decide (eta < 2 ^ 64 ∧ expires_at < 2 ^ 64)
  | _ => true

namespace ContractUpgradeProposal

def apply_upgrade (p : ContractUpgradeProposal) : Invocation :=
  .apply_upgrade_from_registry p.target_contract p.wasm_hash p.from_version p.to_version p.storage_version
    p.migration_payload

def rollback (p : ContractUpgradeProposal) : Invocation :=
  .rollback_upgrade_from_registry p.target_contract p.rollback_wasm_hash p.to_version p.from_version

/-- The proposal before anything was done with it. -/
def proposed (p : ContractUpgradeProposal) : ContractUpgradeProposal :=
  { p with executed := false, rolled_back := false }

def Waits (p : ContractUpgradeProposal) : Prop := p.proposed_at + MIN_UPGRADE_DELAY ≤ p.eta

end ContractUpgradeProposal

/-- An execution makes the one upgrade that was proposed under its id, in the window that was proposed with it,
and makes it once. A rollback follows an execution, once. Nothing else upgrades a contract. -/
structure Timelocked (m : Moment DaoRegistry (Env × Call)) : Prop where
  executed : ∀ d q, m.call.2.executesUpgrade d q = true → ∃ p, upgradesProposed d q m.past = [p] ∧ p.Waits ∧
    p.eta ≤ m.call.1.timestamp ∧ m.call.1.timestamp ≤ p.expires_at ∧
    step m.pre m.call.1 m.call.2 = .ok (m.post, [p.apply_upgrade]) ∧
    ∀ e ∈ m.past, e.2.2.executesUpgrade d q = false
  rolled_back : ∀ d q, m.call.2.rollsBackUpgrade d q = true → ∃ p, upgradesProposed d q m.past = [p] ∧
    step m.pre m.call.1 m.call.2 = .ok (m.post, [p.rollback]) ∧
    (∃ e ∈ m.past, e.2.2.executesUpgrade d q = true) ∧ ∀ e ∈ m.past, e.2.2.rollsBackUpgrade d q = false
  others : ∀ calls, step m.pre m.call.1 m.call.2 = .ok (m.post, calls) → (∃ c ∈ calls, c.upgrades = true) →
    ∃ d q, m.call.2.executesUpgrade d q = true ∨ m.call.2.rollsBackUpgrade d q = true

/-! ## The log and the stored proposals -/

/-- Nothing has been done under the id. -/
structure Untouched (log : List (DaoRegistry × Env × Call)) (d q : Nat) : Prop where
  proposed : upgradesProposed d q log = []
  executed : ∀ e ∈ log, e.2.2.executesUpgrade d q = false
  rolled_back : ∀ e ∈ log, e.2.2.rollsBackUpgrade d q = false

/-- What is stored under an id of the first `count` agrees with the log. -/
structure UpgradeLogged (log : List (DaoRegistry × Env × Call)) (count d q : Nat) (p : ContractUpgradeProposal) :
    Prop where
  numbered : q ≤ count
  terms : upgradesProposed d q log = [p.proposed]
  waits : p.Waits ∨ 2 ^ 64 ≤ p.expires_at
  executed : p.executed = true ↔ ∃ e ∈ log, e.2.2.executesUpgrade d q = true
  rolled_back : p.rolled_back = true ↔ ∃ e ∈ log, e.2.2.rollsBackUpgrade d q = true

def UpgradesLogged (log : List (DaoRegistry × Env × Call)) (s : DaoRegistry) : Prop :=
  Records s.contract_upgrade (fun k => Untouched log k.1 k.2)
    (fun k p => UpgradeLogged log s.upgrade_proposal_count k.1 k.2 p)

/-- A call that does nothing under the id. -/
structure PassesBy (log : List (DaoRegistry × Env × Call)) (s : DaoRegistry) (env : Env) (call : Call) (d q : Nat) :
    Prop where
  proposed : upgradesProposed d q ((s, env, call) :: log) = upgradesProposed d q log
  executed : call.executesUpgrade d q = false
  rolled_back : call.rollsBackUpgrade d q = false

section
variable {env : Env} {s s' : DaoRegistry} {call : Call} {calls : List Invocation} {d q : Nat}
  {log : List (DaoRegistry × Env × Call)} {p : ContractUpgradeProposal} {executor : Address}

/-! ## Steps -/

/-- All that an accepted execution says. -/
structure UpgradeExecuted (env : Env) (s s' : DaoRegistry) (d q : Nat) (p : ContractUpgradeProposal) : Prop where
  found : s.contract_upgrade (d, q) = some p
  fresh : p.executed = false
  matured : p.eta ≤ env.timestamp
  valid : env.timestamp ≤ p.expires_at
  post : s' = { s with
    contract_upgrade := Function.update s.contract_upgrade (d, q) (some { p with executed := true }) }

theorem execute_contract_upgrade_executed (h : execute_contract_upgrade env s d q executor = .ok (s', calls)) :
    ∃ p, UpgradeExecuted env s s' d q p ∧ calls = [p.apply_upgrade] := by
  simp [execute_contract_upgrade, require_dao_admin] at h
  obtain ⟨-, _, -, -, p, hfound, hfresh, hmatured, hvalid, rfl, rfl⟩ := h
  exact ⟨p, ⟨hfound, hfresh, hmatured, hvalid, rfl⟩, rfl⟩

/-- All that an accepted rollback says. -/
structure UpgradeRolledBack (s s' : DaoRegistry) (d q : Nat) (p : ContractUpgradeProposal) : Prop where
  found : s.contract_upgrade (d, q) = some p
  executed : p.executed = true
  fresh : p.rolled_back = false
  post : s' = { s with
    contract_upgrade := Function.update s.contract_upgrade (d, q) (some { p with rolled_back := true }) }

theorem rollback_contract_upgrade_rolled_back
    (h : rollback_contract_upgrade env s d q executor = .ok (s', calls)) :
    ∃ p, UpgradeRolledBack s s' d q p ∧ calls = [p.rollback] := by
  simp [rollback_contract_upgrade, require_dao_admin] at h
  obtain ⟨-, _, -, -, p, hfound, ⟨hexecuted, hfresh⟩, rfl, rfl⟩ := h
  exact ⟨p, ⟨hfound, hexecuted, hfresh, rfl⟩, rfl⟩

/-! ## What the log says of one id -/

theorem PassesBy.untouched (h : PassesBy log s env call d q) (hlog : Untouched log d q) :
    Untouched ((s, env, call) :: log) d q where
  proposed := h.proposed.trans hlog.proposed
  executed := List.forall_mem_cons.mpr ⟨h.executed, hlog.executed⟩
  rolled_back := List.forall_mem_cons.mpr ⟨h.rolled_back, hlog.rolled_back⟩

theorem PassesBy.logged {count count' : Nat} (h : PassesBy log s env call d q) (hlog : UpgradeLogged log count d q p)
    (hcount : count ≤ count') : UpgradeLogged ((s, env, call) :: log) count' d q p where
  numbered := hlog.numbered.trans hcount
  terms := h.proposed.trans hlog.terms
  waits := hlog.waits
  executed := by
    rw [hlog.executed, List.exists_mem_cons_iff, h.executed]
    simp
  rolled_back := by
    rw [hlog.rolled_back, List.exists_mem_cons_iff, h.rolled_back]
    simp

theorem UpgradesLogged.of_same (h : UpgradesLogged log s) (hsame : SameUpgrades s s')
    (hpasses : ∀ d q, PassesBy log s env call d q) : UpgradesLogged ((s, env, call) :: log) s' := by
  unfold UpgradesLogged
  rw [hsame.proposal]
  exact Records.mono h (fun k => (hpasses k.1 k.2).untouched) fun k p hp => (hpasses k.1 k.2).logged hp hsame.count

theorem UpgradesLogged.of_update (h : UpgradesLogged log s)
    (hproposals : s'.contract_upgrade = Function.update s.contract_upgrade (d, q) (some p))
    (hcount : s.upgrade_proposal_count ≤ s'.upgrade_proposal_count)
    (hpasses : ∀ d' q', (d', q') ≠ (d, q) → PassesBy log s env call d' q')
    (hlogged : UpgradeLogged ((s, env, call) :: log) s'.upgrade_proposal_count d q p) :
    UpgradesLogged ((s, env, call) :: log) s' := by
  unfold UpgradesLogged
  rw [hproposals]
  exact Records.update h hlogged (fun k hk => (hpasses k.1 k.2 hk).untouched)
    fun k hk p hp => (hpasses k.1 k.2 hk).logged hp hcount

/-! ## Proposals, executions and rollbacks -/

theorem waits_or_unfit {now eta expires_at : Nat} (heta : saturatingAdd 64 now MIN_UPGRADE_DELAY ≤ eta)
    (hexpires : eta < expires_at) : now + MIN_UPGRADE_DELAY ≤ eta ∨ 2 ^ 64 ≤ expires_at := by
  unfold saturatingAdd at heta
  omega

theorem executesUpgrade_self (executor : Address) :
    (Call.execute_contract_upgrade d q executor).executesUpgrade d q = true := decide_eq_true ⟨rfl, rfl⟩

theorem rollsBackUpgrade_self (executor : Address) :
    (Call.rollback_contract_upgrade d q executor).rollsBackUpgrade d q = true := decide_eq_true ⟨rfl, rfl⟩

theorem executesUpgrade_of_ne {d' q' : Nat} (hne : (d', q') ≠ (d, q)) (executor : Address) :
    (Call.execute_contract_upgrade d q executor).executesUpgrade d' q' = false := by
  refine decide_eq_false ?_
  rintro ⟨rfl, rfl⟩
  exact hne rfl

theorem rollsBackUpgrade_of_ne {d' q' : Nat} (hne : (d', q') ≠ (d, q)) (executor : Address) :
    (Call.rollback_contract_upgrade d q executor).rollsBackUpgrade d' q' = false := by
  refine decide_eq_false ?_
  rintro ⟨rfl, rfl⟩
  exact hne rfl

theorem UpgradesLogged.step (h : UpgradesLogged log s) (hs : Registry.step s env call = .ok (s', calls)) :
    UpgradesLogged ((s, env, call) :: log) s' := by
  cases call with
  | propose_contract_upgrade d target wasm_hash rollback_wasm_hash from_version to_version storage_version payload
      eta expires_at proposer =>
    simp [Registry.step, aloneWith_eq_ok, propose_contract_upgrade, require_dao_admin, next_upgrade_proposal_id] at hs
    obtain ⟨⟨-, _, -, -, ⟨heta, hexpires⟩, -, -, rfl⟩, -⟩ := hs
    have hnone : s.contract_upgrade (d, s.upgrade_proposal_count + 1) = none := by
      by_contra hne
      obtain ⟨p, hp⟩ := Option.ne_none_iff_exists'.mp hne
      exact absurd (h.logged _ p hp).numbered (Nat.not_succ_le_self _)
    have habsent := h.absent _ hnone
    refine h.of_update rfl (Nat.le_succ _) (fun d' q' hne => ⟨?_, rfl, rfl⟩)
      ⟨le_rfl, ?_, waits_or_unfit heta hexpires, ?_, ?_⟩
    · rw [upgradesProposed, if_neg]
      rintro ⟨rfl, rfl⟩
      exact hne rfl
    · rw [upgradesProposed, if_pos ⟨rfl, rfl⟩, habsent.proposed]
      rfl
    · refine iff_of_false Bool.false_ne_true ?_
      rintro ⟨e, he, hexecutes⟩
      rcases List.mem_cons.mp he with rfl | he
      · cases hexecutes
      · rw [habsent.executed e he] at hexecutes
        cases hexecutes
    · refine iff_of_false Bool.false_ne_true ?_
      rintro ⟨e, he, hrolls⟩
      rcases List.mem_cons.mp he with rfl | he
      · cases hrolls
      · rw [habsent.rolled_back e he] at hrolls
        cases hrolls
  | execute_contract_upgrade d q executor =>
    obtain ⟨p, hexecuted, -⟩ := execute_contract_upgrade_executed hs
    obtain rfl := hexecuted.post
    have hlogged := h.logged (d, q) p hexecuted.found
    refine h.of_update rfl le_rfl (fun d' q' hne => ⟨rfl, executesUpgrade_of_ne hne executor, rfl⟩)
      ⟨hlogged.numbered, hlogged.terms, hlogged.waits, ?_, ?_⟩
    · exact iff_of_true rfl ⟨_, List.mem_cons_self, executesUpgrade_self executor⟩
    · rw [List.exists_mem_cons_iff, ← hlogged.rolled_back]
      simp [Call.rollsBackUpgrade]
  | rollback_contract_upgrade d q executor =>
    obtain ⟨p, hrolled, -⟩ := rollback_contract_upgrade_rolled_back hs
    obtain rfl := hrolled.post
    have hlogged := h.logged (d, q) p hrolled.found
    refine h.of_update rfl le_rfl (fun d' q' hne => ⟨rfl, rfl, rollsBackUpgrade_of_ne hne executor⟩)
      ⟨hlogged.numbered, hlogged.terms, hlogged.waits, ?_, ?_⟩
    · rw [List.exists_mem_cons_iff, ← hlogged.executed]
      simp [Call.executesUpgrade]
    · exact iff_of_true rfl ⟨_, List.mem_cons_self, rollsBackUpgrade_self executor⟩
  | _ => exact h.of_same ((step_writes hs).upgrades rfl).1 fun _ _ => ⟨rfl, rfl, rfl⟩

theorem RegistryRun.upgradesLogged (hrun : RegistryRun log s) : UpgradesLogged log s := by
  refine Run.invariant_log (P := UpgradesLogged) ?_ (fun _ _ _ _ _ h hs => ?_) hrun
  · exact .empty fun _ => ⟨rfl, nofun, nofun⟩
  · obtain ⟨calls, hs⟩ := hs
    exact h.step hs

theorem mem_upgradesProposed_fits (hfits : ∀ e ∈ log, e.2.2.fits = true) (hp : p ∈ upgradesProposed d q log) :
    p.expires_at < 2 ^ 64 := by
  induction log with
  | nil => cases hp
  | cons e log ih =>
    obtain ⟨s, env, call⟩ := e
    obtain ⟨hcall, hlog⟩ := List.forall_mem_cons.mp hfits
    cases call with
    | propose_contract_upgrade =>
      unfold upgradesProposed at hp
      split at hp
      · rcases List.mem_cons.mp hp with rfl | hp
        · exact (of_decide_eq_true hcall).2
        · exact ih hlog hp
      · exact ih hlog hp
    | _ => exact ih hlog hp

theorem UpgradeLogged.waited {count : Nat} (h : UpgradeLogged log count d q p) (hfits : ∀ e ∈ log, e.2.2.fits = true) :
    p.proposed.Waits := by
  refine h.waits.resolve_right (Nat.not_le.mpr ?_)
  exact mem_upgradesProposed_fits (p := p.proposed) hfits (h.terms ▸ List.mem_singleton_self _)

theorem timelocked (hrun : RegistryRun log s) (hs : step s env call = .ok (s', calls))
    (hfits : ∀ e ∈ log, e.2.2.fits = true) : Timelocked ⟨log, s, (env, call), s'⟩ where
  executed d q hcall := by
    cases call with
    | execute_contract_upgrade d' q' executor =>
      obtain ⟨rfl, rfl⟩ := of_decide_eq_true hcall
      obtain ⟨p, hexecuted, rfl⟩ := execute_contract_upgrade_executed hs
      have hlogged := hrun.upgradesLogged.logged (_, _) p hexecuted.found
      refine ⟨p.proposed, hlogged.terms, hlogged.waited hfits, hexecuted.matured, hexecuted.valid, hs, ?_⟩
      intro e he
      by_contra hagain
      have := hlogged.executed.mpr ⟨e, he, Bool.not_eq_false _ ▸ hagain⟩
      rw [hexecuted.fresh] at this
      cases this
    | _ => cases hcall
  rolled_back d q hcall := by
    cases call with
    | rollback_contract_upgrade d' q' executor =>
      obtain ⟨rfl, rfl⟩ := of_decide_eq_true hcall
      obtain ⟨p, hrolled, rfl⟩ := rollback_contract_upgrade_rolled_back hs
      have hlogged := hrun.upgradesLogged.logged (_, _) p hrolled.found
      refine ⟨p.proposed, hlogged.terms, hs, hlogged.executed.mp hrolled.executed, ?_⟩
      intro e he
      by_contra hagain
      have := hlogged.rolled_back.mpr ⟨e, he, Bool.not_eq_false _ ▸ hagain⟩
      rw [hrolled.fresh] at this
      cases this
    | _ => cases hcall
  others calls' hs' hupgrades := by
    obtain ⟨c, hc, hupgrade⟩ := hupgrades
    cases call with
    | execute_contract_upgrade d q executor => exact ⟨d, q, .inl (executesUpgrade_self executor)⟩
    | rollback_contract_upgrade d q executor => exact ⟨d, q, .inr (rollsBackUpgrade_self executor)⟩
    | propose_contract_upgrade =>
      obtain ⟨-, rfl⟩ := aloneWith_eq_ok.mp hs'
      cases hc
    | _ =>
      have hnone := ((step_writes hs').upgrades rfl).2 c hc
      rw [hnone] at hupgrade
      cases hupgrade

theorem upgrades_timelocked (hrun : RegistryRun log s) (hfits : ∀ e ∈ log, e.2.2.fits = true) :
    ∀ m ∈ Run.moments log s, Timelocked m := by
  have hmoments : ∀ m ∈ Run.moments log s, (∀ e ∈ m.past, e.2.2.fits = true) → Timelocked m := by
    refine Run.forall_moments (P := fun m => (∀ e ∈ m.past, e.2.2.fits = true) → Timelocked m) ?_ hrun
    intro log s call s' hrun hs hfits
    exact timelocked hrun hs.choose_spec hfits
  intro m hm
  exact hmoments m hm fun e he => hfits e (Run.mem_of_mem_past hm he)

end

/-! ## Two upgrades of one contract -/

/-- Two upgrades of contract 7, the second proposed twelve hours after the first. -/
def overlapping : List (Env × Call) :=
  [(.signedAt 10, .create_dao [] 0 true true none),
    (.signedAt 10, .propose_contract_upgrade 1 7 (Vector.replicate 32 1) (Vector.replicate 32 0) 1 2 1 [] 86410
      90000 0),
    (.signedAt 43210, .propose_contract_upgrade 1 7 (Vector.replicate 32 2) (Vector.replicate 32 1) 2 3 1 [] 129610
      140000 0),
    (.signedAt 86410, .execute_contract_upgrade 1 1 0),
    (.signedAt 129610, .execute_contract_upgrade 1 2 0),
    (.signedAt 129620, .rollback_contract_upgrade 1 2 0)]

def rolledBack (s : DaoRegistry) (d q : Nat) : Bool :=
  (s.contract_upgrade (d, q)).any fun p => p.executed && p.rolled_back

theorem upgrades_timelocked_for_two : ∃ log s, RegistryRun log s ∧ rolledBack s 1 2 = true ∧
    ∀ m ∈ Run.moments log s, Timelocked m := by
  obtain ⟨log, s, hrun, htest⟩ := exists_run overlapping
    (fun log s => rolledBack s 1 2 && log.all fun e => e.2.2.fits) (by decide +kernel)
  obtain ⟨hdone, hfits⟩ := Bool.and_eq_true_iff.mp htest
  exact ⟨log, s, hrun, hdone, upgrades_timelocked hrun (List.all_eq_true.mp hfits)⟩

end ZkVote.Registry
