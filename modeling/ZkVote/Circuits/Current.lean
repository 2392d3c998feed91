import ZkVote.Circuits.Upgrades

/-!
# The circuit registry: which circuit is current

A circuit becomes current by a setting or by a finalized migration. The migration record says neither its type nor
whether a setting came after it; the log does.
-/

open Lib Lib.Outcome

namespace ZkVote.Circuits

abbrev RegistryLog := List (RegistryState × Env × Call)

/-- The type that the last migration of the DAO was validated for. -/
def validatedFor (dao_id : Nat) : RegistryLog → Option CircuitType
  | [] => none
  | (_, _, .migrate_dao d _ _ circuit_type _) :: log => if d = dao_id then some circuit_type else validatedFor dao_id log
  | _ :: log => validatedFor dao_id log

/-- The migration of the DAO was finalized. -/
def RegistryState.finalized (s : RegistryState) (dao_id : Nat) : Bool :=
  (s.dao_migration dao_id).any fun migration => !migration.active

/-- The circuit that was set last, if it was set after the migration was finalized and nothing was written since. -/
def laterSet (dao_id : Nat) (circuit_type : CircuitType) : RegistryLog → Option Bytes
  | [] => none
  | (s, _, .set_dao_current_circuit d t circuit_id) :: log =>
    if d = dao_id ∧ t = circuit_type then (if s.finalized dao_id then some circuit_id else none)
    else laterSet dao_id circuit_type log
  | (_, _, .finalize_migration d t) :: log =>
    if d = dao_id ∧ t = circuit_type then none else laterSet dao_id circuit_type log
  | (_, _, .migrate_dao d ..) :: log => if d = dao_id then none else laterSet dao_id circuit_type log
  | _ :: log => laterSet dao_id circuit_type log

/-! ## The law -/

/-- What is current for a type is registered under it. -/
def RegisteredCurrent (s : RegistryState) : Prop :=
  ∀ dao_id circuit_type circuit_id, s.dao_current_circuit (dao_id, circuit_type) = some circuit_id →
    s.circuit (circuit_id, circuit_type) ≠ none

/-- What a finalization of the migration of a DAO may do. -/
structure KeepsCurrent (past : RegistryLog) (s s' : RegistryState) (dao_id : Nat) : Prop where
  /-- An active migration changes what is current for the type it was validated for. -/
  validated : (s.dao_migration dao_id).any DaoMigration.active = true → ∀ circuit_type,
    s'.dao_current_circuit (dao_id, circuit_type) ≠ s.dao_current_circuit (dao_id, circuit_type) →
      validatedFor dao_id past = some circuit_type
  /-- What was set later stays. -/
  kept : ∀ circuit_type circuit_id, laterSet dao_id circuit_type past = some circuit_id →
    s'.dao_current_circuit (dao_id, circuit_type) = some circuit_id

/-- After every call. -/
def CurrentKept : RegistryLog → RegistryState → Prop
  | [], s => RegisteredCurrent s
  | (s, _, call) :: past, s' => RegisteredCurrent s' ∧
    ∀ dao_id circuit_type, call = .finalize_migration dao_id circuit_type → KeepsCurrent past s s' dao_id

/-- A finalization of the migration of a DAO under a type. -/
structure FitsMigration (past : RegistryLog) (s : RegistryState) (dao_id : Nat) (circuit_type : CircuitType)
    (migration : DaoMigration) : Prop where
  registered : s.circuit (migration.to_circuit_id, circuit_type) ≠ none
  active : migration.active = true → validatedFor dao_id past = some circuit_type ∨
    s.dao_current_circuit (dao_id, circuit_type) = some migration.to_circuit_id
  later : ∀ circuit_id, laterSet dao_id circuit_type past = some circuit_id → migration.to_circuit_id = circuit_id

def FinalizesWell (m : RegistryMoment) : Prop :=
  ∀ dao_id circuit_type migration, m.call.2 = .finalize_migration dao_id circuit_type →
    m.pre.dao_migration dao_id = some migration → FitsMigration m.past m.pre dao_id circuit_type migration

section
variable {env : Env} {s s' : RegistryState} {call : Env × Call} {log : RegistryLog} {governance : Address}
  {dao_id : Nat} {circuit_type : CircuitType}

/-! ## Steps -/

theorem step_registered (h : Accepts s call s') {key : Bytes × CircuitType} (hkey : s.circuit key ≠ none) :
    s'.circuit key ≠ none := by
  obtain ⟨r, hr⟩ := Option.ne_none_iff_exists'.mp hkey
  by_cases hcall : ∃ id executor, call.2 = .execute_vk_upgrade id executor
  · obtain ⟨id, executor, hcall⟩ := hcall
    obtain ⟨env, call⟩ := call
    cases hcall
    obtain ⟨p, r', hexecuted⟩ := execute_vk_upgrade_executed h
    rw [hexecuted.post]
    simp only [Function.update_apply]
    split
    · simp
    · exact hkey
  · rw [step_circuit h (fun id executor he => hcall ⟨id, executor, he⟩) hr]
    simp

/-- All that an accepted finalization says. -/
structure Finalized (env : Env) (s s' : RegistryState) (dao_id : Nat) (circuit_type : CircuitType)
    (migration : DaoMigration) : Prop where
  signed : env.auths s.governance = true
  found : s.dao_migration dao_id = some migration
  due : migration.deadline ≤ env.timestamp
  post : s' = { s with
    dao_migration := Function.update s.dao_migration dao_id (some { migration with active := false })
    dao_current_circuit :=
      Function.update s.dao_current_circuit (dao_id, circuit_type) (some migration.to_circuit_id) }

theorem finalize_migration_finalized (h : finalize_migration env s dao_id circuit_type = .ok s') :
    ∃ migration, Finalized env s s' dao_id circuit_type migration := by
  simp [finalize_migration, assert_governance] at h
  obtain ⟨hsigned, migration, hfound, hdue, rfl⟩ := h
  exact ⟨migration, hsigned, hfound, hdue, rfl⟩

/-- What a call does to what is current. -/
inductive CurrentStep (s s' : RegistryState) : Env × Call → Prop where
  | set {env : Env} (dao_id : Nat) (circuit_type : CircuitType) (circuit_id : Bytes)
      (registered : s.circuit (circuit_id, circuit_type) ≠ none)
      (written : s'.dao_current_circuit =
        Function.update s.dao_current_circuit (dao_id, circuit_type) (some circuit_id)) :
      CurrentStep s s' (env, .set_dao_current_circuit dao_id circuit_type circuit_id)
  | finalize {env : Env} (dao_id : Nat) (circuit_type : CircuitType) (migration : DaoMigration)
      (finalized : Finalized env s s' dao_id circuit_type migration) :
      CurrentStep s s' (env, .finalize_migration dao_id circuit_type)
  | other {env : Env} {call : Call} (notSet : ∀ d t id, call ≠ .set_dao_current_circuit d t id)
      (notFinalize : ∀ d t, call ≠ .finalize_migration d t)
      (same : s'.dao_current_circuit = s.dao_current_circuit) : CurrentStep s s' (env, call)

theorem step_current (h : Accepts s call s') : CurrentStep s s' call := by
  obtain ⟨env, call⟩ := call
  unfold Accepts step at h
  cases call with
  | set_dao_current_circuit dao_id circuit_type circuit_id =>
    simp [set_dao_current_circuit] at h
    obtain ⟨-, hregistered, rfl⟩ := h
    exact .set dao_id circuit_type circuit_id hregistered rfl
  | finalize_migration dao_id circuit_type =>
    obtain ⟨migration, hfinalized⟩ := finalize_migration_finalized h
    exact .finalize dao_id circuit_type migration hfinalized
  | set_admins =>
    simp [set_admins] at h
    obtain ⟨-, -, rfl⟩ := h
    exact .other (by simp) (by simp) rfl
  | set_vk_upgrade_params =>
    simp [set_vk_upgrade_params] at h
    obtain ⟨-, -, rfl⟩ := h
    exact .other (by simp) (by simp) rfl
  | register_circuit =>
    simp [register_circuit] at h
    obtain ⟨-, -, -, rfl⟩ := h
    exact .other (by simp) (by simp) rfl
  | migrate_dao =>
    simp [migrate_dao] at h
    obtain ⟨-, -, -, -, -, rfl⟩ := h
    exact .other (by simp) (by simp) rfl
  | propose_vk_upgrade =>
    simp [propose_vk_upgrade] at h
    obtain ⟨-, -, -, -, rfl⟩ := h
    exact .other (by simp) (by simp) rfl
  | approve_vk_upgrade =>
    simp [approve_vk_upgrade] at h
    obtain ⟨-, _, -, -, -, rfl⟩ := h
    exact .other (by simp) (by simp) rfl
  | execute_vk_upgrade =>
    obtain ⟨p, r, hexecuted⟩ := execute_vk_upgrade_executed h
    rw [hexecuted.post]
    exact .other (by simp) (by simp) rfl
  | cancel_vk_upgrade =>
    simp [cancel_vk_upgrade] at h
    obtain ⟨-, _, -, -, -, rfl⟩ := h
    exact .other (by simp) (by simp) rfl

/-! ## Runs -/

/-- What was set later is what is current. -/
def LaterSetCurrent (log : RegistryLog) (s : RegistryState) : Prop :=
  ∀ dao_id circuit_type circuit_id, laterSet dao_id circuit_type log = some circuit_id →
    s.dao_current_circuit (dao_id, circuit_type) = some circuit_id

theorem laterSet_other (hset : ∀ d t id, call.2 ≠ .set_dao_current_circuit d t id)
    (hfinalize : ∀ d t, call.2 ≠ .finalize_migration d t) {circuit_id : Bytes}
    (h : laterSet dao_id circuit_type ((s, call) :: log) = some circuit_id) :
    laterSet dao_id circuit_type log = some circuit_id := by
  obtain ⟨env, call⟩ := call
  cases call with
  | set_dao_current_circuit => exact absurd rfl (hset _ _ _)
  | finalize_migration => exact absurd rfl (hfinalize _ _)
  | migrate_dao =>
    unfold laterSet at h
    split at h
    · cases h
    · exact h
  | _ => exact h

theorem LaterSetCurrent.step (h : LaterSetCurrent log s) (hs : Accepts s call s') :
    LaterSetCurrent ((s, call) :: log) s' := by
  intro dao_id circuit_type circuit_id hlater
  cases step_current hs with
  | set d t id registered written =>
    unfold laterSet at hlater
    rw [written, Function.update_apply]
    split at hlater
    · next heq =>
      obtain ⟨rfl, rfl⟩ := heq
      split at hlater
      · rw [if_pos rfl, hlater]
      · cases hlater
    · next hne =>
      rw [if_neg fun heq => hne (by cases heq; exact ⟨rfl, rfl⟩)]
      exact h dao_id circuit_type circuit_id hlater
  | finalize d t migration finalized =>
    unfold laterSet at hlater
    rw [finalized.post]
    simp only [Function.update_apply]
    split at hlater
    · cases hlater
    · next hne =>
      rw [if_neg fun heq => hne (by cases heq; exact ⟨rfl, rfl⟩)]
      exact h dao_id circuit_type circuit_id hlater
  | other notSet notFinalize same =>
    rw [same]
    exact h dao_id circuit_type circuit_id (laterSet_other notSet notFinalize hlater)

theorem RegistryRun.laterSetCurrent (hrun : RegistryRun governance log s) : LaterSetCurrent log s :=
  Run.invariant_log (fun _ _ _ hlater => by cases hlater) (fun _ _ _ _ _ h hs => h.step hs) hrun

theorem registeredCurrent_step (h : RegisteredCurrent s) (hs : Accepts s call s')
    (hcall : ∀ d t, call.2 ≠ .finalize_migration d t) : RegisteredCurrent s' := by
  intro dao_id circuit_type circuit_id hcurrent
  apply step_registered hs
  cases step_current hs with
  | set d t id registered written =>
    rw [written, Function.update_apply] at hcurrent
    split at hcurrent
    · next heq =>
      cases heq
      cases hcurrent
      exact registered
    · exact h dao_id circuit_type circuit_id hcurrent
  | finalize d t => exact absurd rfl (hcall d t)
  | other notSet notFinalize same =>
    rw [same] at hcurrent
    exact h dao_id circuit_type circuit_id hcurrent

theorem Finalized.registeredCurrent_iff {migration : DaoMigration}
    (h : Finalized env s s' dao_id circuit_type migration) (hs : RegisteredCurrent s) :
    RegisteredCurrent s' ↔ s.circuit (migration.to_circuit_id, circuit_type) ≠ none := by
  rw [h.post]
  constructor
  · intro hregistered
    exact hregistered dao_id circuit_type migration.to_circuit_id (Function.update_self ..)
  · intro hregistered d t circuit_id hcurrent
    simp only [Function.update_apply] at hcurrent
    split at hcurrent
    · next heq =>
      cases heq
      cases hcurrent
      exact hregistered
    · exact hs d t circuit_id hcurrent

theorem Finalized.keepsCurrent_iff {migration : DaoMigration}
    (h : Finalized env s s' dao_id circuit_type migration) (hlater : LaterSetCurrent log s) :
    KeepsCurrent log s s' dao_id ↔
      (migration.active = true → validatedFor dao_id log = some circuit_type ∨
        s.dao_current_circuit (dao_id, circuit_type) = some migration.to_circuit_id) ∧
      ∀ circuit_id, laterSet dao_id circuit_type log = some circuit_id → migration.to_circuit_id = circuit_id := by
  have hpost : ∀ t, s'.dao_current_circuit (dao_id, t) =
      if t = circuit_type then some migration.to_circuit_id else s.dao_current_circuit (dao_id, t) := by
    intro t
    rw [h.post]
    simp [Function.update_apply]
  have hactive : (s.dao_migration dao_id).any DaoMigration.active = migration.active := by
    rw [h.found, Option.any_some]
  constructor
  · rintro ⟨hvalidated, hkept⟩
    refine ⟨fun hisActive => ?_, fun circuit_id hset => ?_⟩
    · by_cases hsame : s.dao_current_circuit (dao_id, circuit_type) = some migration.to_circuit_id
      · exact .inr hsame
      · refine .inl (hvalidated (hactive.trans hisActive) circuit_type ?_)
        rw [hpost, if_pos rfl]
        exact Ne.symm hsame
    · have hstays := hkept circuit_type circuit_id hset
      rw [hpost, if_pos rfl] at hstays
      exact Option.some.inj hstays
  · rintro ⟨hfits, hset⟩
    refine ⟨fun hisActive t hchanged => ?_, fun t circuit_id hlaterSet => ?_⟩
    · rw [hpost] at hchanged
      by_cases ht : t = circuit_type
      · subst ht
        rw [if_pos rfl] at hchanged
        exact (hfits (hactive.symm.trans hisActive)).resolve_right fun heq => hchanged heq.symm
      · rw [if_neg ht] at hchanged
        exact absurd rfl hchanged
    · rw [hpost]
      by_cases ht : t = circuit_type
      · subst ht
        rw [if_pos rfl, hset circuit_id hlaterSet]
      · rw [if_neg ht]
        exact hlater dao_id t circuit_id hlaterSet

theorem currentKept_iff (hrun : RegistryRun governance log s) (hkept : CurrentKept log s) (hs : Accepts s call s') :
    CurrentKept ((s, call) :: log) s' ↔ FinalizesWell ⟨log, s, call, s'⟩ := by
  have hregistered : RegisteredCurrent s := by
    cases log with
    | nil => exact hkept
    | cons e log => exact hkept.1
  obtain ⟨env, call⟩ := call
  by_cases hcall : ∃ d t, call = .finalize_migration d t
  · obtain ⟨dao_id, circuit_type, rfl⟩ := hcall
    obtain ⟨migration, hfinalized⟩ := finalize_migration_finalized hs
    change RegisteredCurrent s' ∧ (∀ d t, _ → KeepsCurrent log s s' d) ↔ _
    rw [hfinalized.registeredCurrent_iff hregistered]
    constructor
    · rintro ⟨hto, hkeeps⟩ d t migration' hcall' hfound
      cases hcall'
      obtain rfl := Option.some.inj (hfinalized.found.symm.trans hfound)
      obtain ⟨hactive, hset⟩ := (hfinalized.keepsCurrent_iff hrun.laterSetCurrent).mp (hkeeps _ _ rfl)
      exact ⟨hto, hactive, hset⟩
    · intro hwell
      have hfits := hwell dao_id circuit_type migration rfl hfinalized.found
      refine ⟨hfits.registered, fun d t hcall' => ?_⟩
      cases hcall'
      exact (hfinalized.keepsCurrent_iff hrun.laterSetCurrent).mpr ⟨hfits.active, hfits.later⟩
  · have hnot : ∀ d t, call ≠ .finalize_migration d t := fun d t heq => hcall ⟨d, t, heq⟩
    refine iff_of_true ⟨registeredCurrent_step hregistered hs hnot, fun d t heq => absurd heq (hnot d t)⟩ ?_
    intro d t migration heq
    exact absurd heq (hnot d t)

/-- After every call of every run the law holds if and only if each finalization names a type for which the target
is registered, which is that of the migration while it is active, and does not go over a later setting. -/
theorem current_circuits_kept_iff (hrun : RegistryRun governance log s) :
    (∀ t ∈ Run.prefixes log s, CurrentKept t.1 t.2) ↔ ∀ m ∈ Run.moments log s, FinalizesWell m :=
  Run.forall_prefixes_iff_moments (P := CurrentKept) (fun _ _ _ hcurrent => by cases hcurrent)
    (fun _ _ _ _ hrun hkept hs => currentKept_iff hrun hkept hs) hrun

end

/-! ## A migration and what becomes of it -/

def registerVote (circuit_id : Bytes) : Env × Call :=
  (.signedAt 10, .register_circuit circuit_id .Vote (Voting.sampleVk 7) sampleTranscript 0 6 (some sampleTranscript))

/-- The DAO migrates its vote circuit from 1 to 2. -/
def migrationCalls : List (Env × Call) :=
  [registerVote [1], registerVote [2], (.signedAt 10, .migrate_dao 0 [1] [2] .Vote 20)]

def finalizeAs (circuit_type : CircuitType) : Env × Call := (.signedAt 20, .finalize_migration 0 circuit_type)

theorem current_circuits_kept_iff_for_a_migration : ∃ log s, RegistryRun 0 log s ∧
    ((∀ t ∈ Run.prefixes log s, CurrentKept t.1 t.2) ↔ ∀ m ∈ Run.moments log s, FinalizesWell m) ∧
    s.dao_current_circuit (0, .Vote) = some [2] := by
  obtain ⟨log, s, hrun, htest⟩ := exists_run (g := 0) (migrationCalls ++ [finalizeAs .Vote])
    (fun _ s => s.dao_current_circuit (0, .Vote) == some [2]) (by decide +kernel)
  exact ⟨log, s, hrun, current_circuits_kept_iff hrun, eq_of_beq htest⟩

/-- Finalized as a tally circuit, a vote circuit becomes current that is registered as none; and finalized again, the
migration goes over the circuit that was set after it. -/
theorem migration_goes_astray :
    (∃ log s, RegistryRun 0 log s ∧ s.dao_current_circuit (0, .Tally) = some [2] ∧ s.circuit ([2], .Tally) = none ∧
      ¬ CurrentKept log s) ∧
    ∃ log s s', RegistryRun 0 log s ∧ Accepts s (finalizeAs .Vote) s' ∧
      s.dao_current_circuit (0, .Vote) = some [1] ∧ s'.dao_current_circuit (0, .Vote) = some [2] ∧
      ¬ CurrentKept ((s, finalizeAs .Vote) :: log) s' := by
  constructor
  · obtain ⟨log, s, hrun, htest⟩ := exists_run (g := 0) (migrationCalls ++ [finalizeAs .Tally])
      (fun _ s => decide (s.dao_current_circuit (0, .Tally) = some [2]) && (s.circuit ([2], .Tally)).isNone)
      (by decide +kernel)
    rw [Bool.and_eq_true, decide_eq_true_eq, Option.isNone_iff_eq_none] at htest
    obtain ⟨hcurrent, hnone⟩ := htest
    refine ⟨log, s, hrun, hcurrent, hnone, fun hkept => ?_⟩
    have hregistered : RegisteredCurrent s := by
      cases log with
      | nil => exact hkept
      | cons e log => exact hkept.1
    exact hregistered 0 .Tally [2] hcurrent hnone
  · obtain ⟨log, s, hrun, htest⟩ := exists_run (g := 0)
      (migrationCalls ++ [finalizeAs .Vote, (.signedAt 30, .set_dao_current_circuit 0 .Vote [1])])
      (fun log s => decide (s.dao_current_circuit (0, .Vote) = some [1] ∧ laterSet 0 .Vote log = some [1]) &&
        (next s (finalizeAs .Vote)).any fun (s' : RegistryState) => decide (s'.dao_current_circuit (0, .Vote) = some [2]))
      (by decide +kernel)
    simp only [Bool.and_eq_true, Option.any_eq_true, decide_eq_true_eq] at htest
    obtain ⟨⟨hcurrent, hlater⟩, s', hs, hcurrent'⟩ := htest
    refine ⟨log, s, s', hrun, toOption_eq_some.mp hs, hcurrent, hcurrent', fun hkept => ?_⟩
    have hstays := (hkept.2 0 .Vote rfl).kept .Vote [1] hlater
    rw [hcurrent'] at hstays
    cases hstays

end ZkVote.Circuits
