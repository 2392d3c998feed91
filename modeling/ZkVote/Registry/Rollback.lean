import ZkVote.Registry.Upgrades

/-!
# The DAO registry: rollback of a voting contract

A rollback names the version it goes back to, and says nothing of the layout. The layout that an
upgrade has brought stays: no call lowers it.
-/

open Lib Lib.Outcome

namespace ZkVote.Registry

open Voting (VotingState VotingEnv VotingOk VotingRun Crypto)

/-- The versions of the contract and of its layout. -/
def versions (s : VotingState) : Nat × Nat := (s.inst.version, s.inst.storage_version)

/-- What a rollback to `to_version` leaves of an upgrade from `s` to `upgraded`. -/
structure RollbackLaw (s upgraded : VotingState) (to_version : Nat) (s' : VotingState) : Prop where
  lowered : to_version < upgraded.inst.version
  version : s'.inst.version = to_version
  layout : s'.inst.storage_version = upgraded.inst.storage_version
  raised : s.inst.version < upgraded.inst.version ∧ s.inst.storage_version ≤ upgraded.inst.storage_version
  restored_iff : versions s' = versions s ↔
    to_version = s.inst.version ∧ upgraded.inst.storage_version = s.inst.storage_version

section
variable {C : Crypto} {registry guardian : Address} {env env' : VotingEnv} {s s₁ s₂ s₃ s' : VotingState}
  {call : Voting.Call} {log later : List (VotingState × VotingEnv × Voting.Call)}
  {from_version to_version storage_version from_version' to_version' : Nat} {payload : Bytes}

/-! ## Upgrades and rollbacks -/

theorem apply_upgrade_raises (h : Voting.step C s env
    (.inst (.apply_upgrade_from_registry from_version to_version storage_version payload)) = .ok s') :
    s.inst.version < s'.inst.version ∧ s.inst.storage_version ≤ s'.inst.storage_version := by
  simp [Voting.step, Voting.InstanceCall.run, Voting.apply_upgrade_from_registry] at h
  obtain ⟨-, ⟨rfl, hraised⟩, hlayout, -, rfl⟩ := h
  exact ⟨hraised, hlayout⟩

theorem rollback_lowers (h : Voting.step C s env
    (.inst (.rollback_upgrade_from_registry from_version to_version)) = .ok s') :
    to_version < s.inst.version ∧ s'.inst.version = to_version ∧
      s'.inst.storage_version = s.inst.storage_version := by
  have hwrites : Voting.InstanceWrites env s s' (.rollback_upgrade_from_registry from_version to_version) :=
    Voting.instance_writes (C := C) h
  obtain ⟨-, rfl, hlowered, hkept⟩ := hwrites.versions
  exact ⟨hlowered, hkept⟩

theorem layout_le (hs : VotingOk s) (h : Voting.step C s env call = .ok s') :
    s.inst.storage_version ≤ s'.inst.storage_version := by
  cases hcall : upgradesVoting call with
  | false => exact (voting_sameInst hs h (.inl hcall)).2.2.ge
  | true =>
    cases call with
    | inst call =>
      cases call with
      | apply_upgrade_from_registry => exact (apply_upgrade_raises h).2
      | rollback_upgrade_from_registry => exact (rollback_lowers h).2.2.ge
      | _ => cases hcall
    | _ => cases hcall

/-! ## Runs -/

/-- The other calls leave both versions. -/
theorem versions_kept (hs : VotingOk s) (hrun : Run (Voting.Accepts C) s later s')
    (hquiet : ∀ e ∈ later, upgradesVoting e.2.2 = false) : VotingOk s' ∧ versions s' = versions s := by
  refine Run.invariant_of (P := fun t => VotingOk t ∧ versions t = versions s)
    (C := fun _ call => upgradesVoting call.2 = false) ⟨hs, rfl⟩ (fun t call t' ht hcall h => ?_) hrun hquiet
  obtain ⟨hok, hsame⟩ := ht
  obtain ⟨-, hversion, hlayout⟩ := voting_sameInst hok h (.inl hcall)
  refine ⟨(Voting.step_effect hok.dormant h).votingOk hok, ?_⟩
  rw [← hsame, versions, hversion, hlayout]
  rfl

theorem layout_monotone (hrun : VotingRun C registry guardian log s) :
    ∀ t ∈ Run.states log s, t.inst.storage_version ≤ s.inst.storage_version := by
  refine Run.invariant_log (P := fun log s => ∀ t ∈ Run.states log s, t.inst.storage_version ≤ s.inst.storage_version)
    (fun t ht => ?_) (fun log s call s' hrun ih h => ?_) hrun
  · rw [List.mem_singleton.mp ht]
  · rw [Run.states_cons, List.forall_mem_cons]
    refine ⟨le_rfl, fun t ht => ?_⟩
    exact (ih t ht).trans (layout_le (VotingRun.ok hrun) h)

/-- An upgrade, any other calls, and a rollback. -/
theorem rollback_restores_iff (hrun : VotingRun C registry guardian log s)
    (hupgrade : Voting.Accepts C s
      (env, .inst (.apply_upgrade_from_registry from_version to_version storage_version payload)) s₁)
    (hbetween : Run (Voting.Accepts C) s₁ later s₂) (hquiet : ∀ e ∈ later, upgradesVoting e.2.2 = false)
    (hrollback : Voting.Accepts C s₂ (env', .inst (.rollback_upgrade_from_registry from_version' to_version')) s₃) :
    RollbackLaw s s₁ to_version' s₃ ∧
      ∀ t ∈ Run.states log s, t.inst.storage_version ≤ s₃.inst.storage_version := by
  have hok : VotingOk s₁ := (Voting.step_effect hrun.ok.dormant hupgrade).votingOk hrun.ok
  obtain ⟨-, hkept⟩ := versions_kept hok hbetween hquiet
  obtain ⟨hversion₂, hlayout₂⟩ := Prod.mk.inj hkept
  obtain ⟨hlowered, hversion, hlayout⟩ := rollback_lowers hrollback
  have hraised := apply_upgrade_raises hupgrade
  refine ⟨⟨hversion₂ ▸ hlowered, hversion, hlayout.trans hlayout₂, hraised, ?_⟩, fun t ht => ?_⟩
  · rw [versions, versions, Prod.mk.injEq, hversion, hlayout, hlayout₂]
  · rw [hlayout, hlayout₂]
    exact (layout_monotone hrun t ht).trans hraised.2

end

/-! ## A layout that stays -/

def raiseLayout : Voting.Call := .inst (.apply_upgrade_from_registry 2 3 2 [])
def rollBack : Voting.Call := .inst (.rollback_upgrade_from_registry 3 2)

/-- The contract after its deployment, after an upgrade, and after the rollback of the upgrade. -/
theorem exists_rollback : ∃ s₁ s₃, Voting.Accepts Voting.sampleCrypto (Voting.constructor 0 0)
      (Voting.sampleEnv, raiseLayout) s₁ ∧
    Voting.Accepts Voting.sampleCrypto s₁ (Voting.sampleEnv, rollBack) s₃ ∧ versions s₃ = (2, 2) := by
  exact ⟨_, _, rfl, rfl, rfl⟩

theorem rollback_restores_iff_for_one_upgrade : ∃ s₁ s₃,
    RollbackLaw (Voting.constructor 0 0) s₁ 2 s₃ ∧ versions s₃ = (2, 2) := by
  obtain ⟨s₁, s₃, hupgrade, hrollback, hversions⟩ := exists_rollback
  have hstart : VotingRun Voting.sampleCrypto 0 0 [] (Voting.constructor 0 0) := .start
  exact ⟨s₁, s₃, (rollback_restores_iff hstart hupgrade .start (List.forall_mem_nil _) hrollback).1, hversions⟩

/-- The contract is back in version 2, and its layout is not. -/
theorem rollback_keeps_layout : ∃ log s s₁ s₃, VotingRun Voting.sampleCrypto 0 0 log s ∧
    Voting.Accepts Voting.sampleCrypto s (Voting.sampleEnv, raiseLayout) s₁ ∧
    Voting.Accepts Voting.sampleCrypto s₁ (Voting.sampleEnv, rollBack) s₃ ∧ versions s₃ ≠ versions s := by
  obtain ⟨s₁, s₃, hupgrade, hrollback, hversions⟩ := exists_rollback
  refine ⟨[], Voting.constructor 0 0, s₁, s₃, .start, hupgrade, hrollback, ?_⟩
  rw [hversions]
  decide

end ZkVote.Registry
