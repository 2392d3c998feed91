import ZkVote.Circuits.Registry
import ZkVote.Lib.Quorum
import ZkVote.Voting.Steps

/-!
# The circuit registry: who replaced a key, and what the record says of it

A key is replaced by an executed proposal. The log says when that proposal was made
and who has approved it since.
-/

open Lib Lib.Outcome

namespace ZkVote.Circuits

/-- A call, with the log before it and the states around it. -/
abbrev RegistryMoment := Moment RegistryState (Env × Call)

/-! ## Where a proposal comes from -/

/-- The state and the host a proposal was made in, and its approvals since. -/
structure Origin where
  state : RegistryState
  env : Env
  approvers : List Address

def Origin.timelock_ends (o : Origin) : Nat := o.env.timestamp + o.state.min_vk_timelock

def Origin.approve (o : Origin) (approver : Address) : Origin :=
  { o with approvers := o.approvers ++ [approver] }

/-- The last proposal made under an id. -/
def originOf (id : Nat) : List (RegistryState × Env × Call) → Option Origin
  | [] => none
  | (s, env, .propose_vk_upgrade ..) :: log =>
    if next_vk_proposal_id s = id then some ⟨s, env, []⟩ else originOf id log
  | (_, _, .approve_vk_upgrade proposal_id approver) :: log =>
    if proposal_id = id then (originOf id log).map fun o => o.approve approver else originOf id log
  | _ :: log => originOf id log

/-- What the stored proposal says of its origin. -/
structure Traces (p : VkProposal) (o : Origin) : Prop where
  execute_after : p.execute_after = saturatingAdd 64 o.env.timestamp o.state.min_vk_timelock
  required_approvals : p.required_approvals = o.state.vk_quorum
  approvers : p.approvers = o.approvers
  distinct : p.approvers.Nodup

def Traced (log : List (RegistryState × Env × Call)) (s : RegistryState) : Prop :=
  ∀ id p, s.vk_proposal id = some p → ∃ o, originOf id log = some o ∧ Traces p o

/-! ## What a replaced key needs -/

variable (ceremony : Voting.VerificationKey → BytesN 32)

/-- The record describes the key it holds. `ceremony` is the transcript hash of the setup a key comes from. -/
structure Coherent (r : CircuitInfo) : Prop where
  ceremony : r.ceremony_transcript_hash = some (ceremony r.vk)
  signals : r.num_public_signals + 1 = r.vk.ic.length

/-- The timelock of the time it was proposed is over, and enough of today's admins have approved. -/
structure Governed (m : RegistryMoment) (o : Origin) : Prop where
  waited : o.timelock_ends ≤ m.call.1.timestamp
  approved : o.state.vk_quorum ≤ (backers o.approvers (is_admin m.pre)).card

/-- A pending proposal of this key for this circuit, well founded, was executed. -/
def ReplacedBy (m : RegistryMoment) (key : Bytes × CircuitType) (vk : Voting.VerificationKey) : Prop :=
  ∃ id executor p o, m.call.2 = .execute_vk_upgrade id executor ∧ m.pre.vk_proposal id = some p ∧
    p.status = .Pending ∧ (p.circuit_id, p.circuit_type) = key ∧ p.new_vk = vk ∧
    originOf id m.past = some o ∧ Governed m o

def KeysGoverned (m : RegistryMoment) : Prop :=
  ∀ key r, m.pre.circuit key = some r → ∃ r', m.post.circuit key = some r' ∧
    (r'.vk ≠ r.vk → ReplacedBy m key r'.vk) ∧ (Coherent ceremony r → Coherent ceremony r')

/-- The new key comes from the setup of the old one. -/
def SameSetup (vk vk' : Voting.VerificationKey) : Prop :=
  ceremony vk' = ceremony vk ∧ vk'.ic.length = vk.ic.length

/-- What has to hold of an executed proposal and the record it changes. -/
structure Sound (m : RegistryMoment) (o : Origin) (p : VkProposal) (r : CircuitInfo) : Prop where
  clock : p.new_vk ≠ r.vk → o.timelock_ends ≤ max u64Max m.call.1.timestamp
  spare : p.new_vk ≠ r.vk →
    lapsed o.approvers (is_admin m.pre) + p.required_approvals ≤ o.approvers.length
  setup : Coherent ceremony r → SameSetup ceremony r.vk p.new_vk

def SoundUpgrade (m : RegistryMoment) : Prop :=
  ∀ id executor p o r, m.call.2 = .execute_vk_upgrade id executor → m.pre.vk_proposal id = some p →
    originOf id m.past = some o → m.pre.circuit (p.circuit_id, p.circuit_type) = some r →
    Sound ceremony m o p r

section
variable {env : Env} {s s' : RegistryState} {call : Env × Call} {id : Nat} {executor : Address}
  {log : List (RegistryState × Env × Call)} {governance : Address} {p : VkProposal} {r : CircuitInfo}

/-! ## Steps -/

def CircuitInfo.replaced (r : CircuitInfo) (p : VkProposal) (now : Nat) : CircuitInfo :=
  { r with vk := p.new_vk, wasm_hash := p.new_wasm_hash, registered_at := now }

/-- All that an accepted execution says. -/
structure Executed (env : Env) (s s' : RegistryState) (id : Nat) (p : VkProposal) (r : CircuitInfo) : Prop where
  signed : env.auths s.governance = true
  found : s.vk_proposal id = some p
  pending : p.status = .Pending
  due : p.execute_after ≤ env.timestamp
  quorum : p.required_approvals ≤ p.approvers.length
  record : s.circuit (p.circuit_id, p.circuit_type) = some r
  post : s' = { s with
    vk_proposal := Function.update s.vk_proposal id (some { p with status := .Executed })
    circuit :=
      Function.update s.circuit (p.circuit_id, p.circuit_type) (some (r.replaced p env.timestamp)) }

theorem execute_vk_upgrade_executed (h : execute_vk_upgrade env s id executor = .ok s') :
    ∃ p r, Executed env s s' id p r := by
  simp [execute_vk_upgrade, assert_governance] at h
  obtain ⟨hsigned, -, -, p, hfound, hpending, hdue, hquorum, r, hrecord, rfl⟩ := h
  exact ⟨p, r, hsigned, hfound, hpending, hdue, hquorum, hrecord, rfl⟩

/-- Neither a circuit nor a proposal is its business. -/
def Call.plain : Call → Bool
  | .set_admins .. | .set_vk_upgrade_params .. | .migrate_dao .. | .finalize_migration ..
  | .set_dao_current_circuit .. => true
  | _ => false

theorem step_plain {call : Call} (h : step s env call = .ok s') (hcall : call.plain = true) :
    s'.circuit = s.circuit ∧ s'.vk_proposal = s.vk_proposal := by
  unfold step at h
  cases call with
  | set_admins =>
    simp [set_admins] at h
    obtain ⟨-, -, rfl⟩ := h
    exact ⟨rfl, rfl⟩
  | set_vk_upgrade_params =>
    simp [set_vk_upgrade_params] at h
    obtain ⟨-, -, rfl⟩ := h
    exact ⟨rfl, rfl⟩
  | migrate_dao =>
    simp [migrate_dao] at h
    obtain ⟨-, -, -, -, -, rfl⟩ := h
    exact ⟨rfl, rfl⟩
  | finalize_migration =>
    simp [finalize_migration] at h
    obtain ⟨-, _, -, -, rfl⟩ := h
    exact ⟨rfl, rfl⟩
  | set_dao_current_circuit =>
    simp [set_dao_current_circuit] at h
    obtain ⟨-, -, rfl⟩ := h
    exact ⟨rfl, rfl⟩
  | _ => cases hcall

theorem step_circuit (h : Accepts s call s') (hcall : ∀ id executor, call.2 ≠ .execute_vk_upgrade id executor)
    {key : Bytes × CircuitType} (hr : s.circuit key = some r) : s'.circuit key = some r := by
  obtain ⟨env, call⟩ := call
  by_cases hplain : call.plain = true
  · rw [(step_plain h hplain).1, hr]
  unfold Accepts step at h
  cases call with
  | register_circuit circuit_id circuit_type =>
    simp [register_circuit] at h
    obtain ⟨-, -, hnone, rfl⟩ := h
    have hne : key ≠ (circuit_id, circuit_type) := by
      rintro rfl
      rw [hnone] at hr
      cases hr
    simp [hne, hr]
  | propose_vk_upgrade =>
    simp [propose_vk_upgrade] at h
    obtain ⟨-, -, -, -, rfl⟩ := h
    exact hr
  | approve_vk_upgrade =>
    simp [approve_vk_upgrade] at h
    obtain ⟨-, _, -, -, -, rfl⟩ := h
    exact hr
  | execute_vk_upgrade id executor => exact absurd rfl (hcall id executor)
  | cancel_vk_upgrade =>
    simp [cancel_vk_upgrade] at h
    obtain ⟨-, _, -, -, -, rfl⟩ := h
    exact hr
  | _ => exact absurd rfl hplain

/-! ## The log and the stored proposals -/

theorem Traces.approve {o : Origin} {approver : Address} (h : Traces p o) (hnew : approver ∉ p.approvers) :
    Traces { p with approvers := p.approvers ++ [approver] } (o.approve approver) where
  execute_after := h.execute_after
  required_approvals := h.required_approvals
  approvers := by rw [h.approvers, Origin.approve]
  distinct := h.distinct.append (List.nodup_singleton _) (by simpa using hnew)

theorem Traces.of_status {o : Origin} {status : VkProposalStatus} (h : Traces p o) :
    Traces { p with status := status } o := ⟨h.1, h.2, h.3, h.4⟩

theorem Traced.of_same (h : Traced log s) (hproposals : s'.vk_proposal = s.vk_proposal)
    (horigin : ∀ id, originOf id ((s, call) :: log) = originOf id log) : Traced ((s, call) :: log) s' := by
  intro id p hp
  rw [hproposals] at hp
  rw [horigin id]
  exact h id p hp

theorem Traced.of_status (h : Traced log s) (hp : s.vk_proposal id = some p) {status : VkProposalStatus}
    (hproposals : s'.vk_proposal = Function.update s.vk_proposal id (some { p with status := status }))
    (horigin : ∀ id, originOf id ((s, call) :: log) = originOf id log) : Traced ((s, call) :: log) s' := by
  intro id' p' hp'
  rw [hproposals, Function.update_apply] at hp'
  rw [horigin id']
  split at hp'
  · rename_i hid
    cases hp'
    obtain ⟨o, ho, htraces⟩ := h id p hp
    exact ⟨o, hid ▸ ho, htraces.of_status⟩
  · exact h id' p' hp'

theorem originOf_plain {call : Env × Call} (hcall : call.2.plain = true) :
    originOf id ((s, call) :: log) = originOf id log := by
  obtain ⟨env, call⟩ := call
  cases call <;> first | rfl | cases hcall

theorem Traced.step (h : Traced log s) (hs : Accepts s call s') : Traced ((s, call) :: log) s' := by
  obtain ⟨env, call⟩ := call
  by_cases hplain : call.plain = true
  · exact h.of_same (step_plain hs hplain).2 fun _ => originOf_plain hplain
  unfold Accepts Circuits.step at hs
  cases call with
  | register_circuit =>
    simp [register_circuit] at hs
    obtain ⟨-, -, -, rfl⟩ := hs
    exact h.of_same rfl (fun _ => rfl)
  | propose_vk_upgrade =>
    simp [propose_vk_upgrade] at hs
    obtain ⟨-, -, -, -, rfl⟩ := hs
    intro id p hp
    simp only [Function.update_apply] at hp
    unfold originOf
    split at hp
    · rename_i hid
      cases hp
      exact ⟨⟨s, env, []⟩, by simp [hid], rfl, rfl, rfl, List.nodup_nil⟩
    · rename_i hid
      rw [if_neg (Ne.symm hid)]
      exact h id p hp
  | approve_vk_upgrade proposal_id approver =>
    simp [approve_vk_upgrade] at hs
    obtain ⟨-, p, hp, -, hnew, rfl⟩ := hs
    intro id p' hp'
    simp only [Function.update_apply] at hp'
    unfold originOf
    split at hp'
    · rename_i hid
      cases hp'
      obtain ⟨o, ho, htraces⟩ := h proposal_id p hp
      exact ⟨o.approve approver, by simp [hid, ho], htraces.approve hnew⟩
    · rename_i hid
      rw [if_neg (Ne.symm hid)]
      exact h id p' hp'
  | execute_vk_upgrade =>
    obtain ⟨p, r, hexecuted⟩ := execute_vk_upgrade_executed hs
    exact h.of_status hexecuted.found (by rw [hexecuted.post]) (fun _ => rfl)
  | cancel_vk_upgrade =>
    simp [cancel_vk_upgrade] at hs
    obtain ⟨-, p, hp, -, -, rfl⟩ := hs
    exact h.of_status hp rfl (fun _ => rfl)
  | _ => exact absurd rfl hplain

theorem RegistryRun.traced (hrun : RegistryRun governance log s) : Traced log s :=
  Run.invariant_log (fun id p hp => by cases hp) (fun _ _ _ _ _ h hs => h.step hs) hrun

/-! ## An executed proposal -/

variable {ceremony : Voting.VerificationKey → BytesN 32} {o : Origin}

theorem coherent_replaced {now : Nat} (h : Coherent ceremony r) :
    Coherent ceremony (r.replaced p now) ↔ SameSetup ceremony r.vk p.new_vk := by
  constructor
  · intro h'
    have hceremony := h.ceremony.symm.trans h'.ceremony
    have hsignals := h.signals.symm.trans h'.signals
    exact ⟨(Option.some.inj hceremony).symm, hsignals.symm⟩
  · intro hsetup
    exact ⟨h.ceremony.trans (congrArg some hsetup.1.symm), h.signals.trans hsetup.2.symm⟩

/-- A saturated timelock is the only one that ends before its time. -/
theorem waited_iff {now : Nat} (h : Traces p o) (hdue : p.execute_after ≤ now) :
    o.timelock_ends ≤ now ↔ o.timelock_ends ≤ max u64Max now := by
  rw [h.execute_after, saturatingAdd] at hdue
  unfold Origin.timelock_ends u64Max
  omega

theorem approved_iff (h : Traces p o) :
    o.state.vk_quorum ≤ (backers o.approvers (is_admin s)).card ↔
      lapsed o.approvers (is_admin s) + p.required_approvals ≤ o.approvers.length := by
  rw [quorum_iff (h.approvers ▸ h.distinct), h.required_approvals]

theorem Executed.keysGoverned_iff (h : Executed env s s' id p r) (ho : originOf id log = some o)
    (htraces : Traces p o) :
    KeysGoverned ceremony ⟨log, s, (env, .execute_vk_upgrade id executor), s'⟩ ↔
      Sound ceremony ⟨log, s, (env, .execute_vk_upgrade id executor), s'⟩ o p r := by
  have hpost : ∀ key, s'.circuit key =
      if key = (p.circuit_id, p.circuit_type) then some (r.replaced p env.timestamp) else s.circuit key := by
    intro key
    rw [h.post]
    exact Function.update_apply ..
  constructor
  · intro hkeys
    obtain ⟨r', hr', hreplaced, hcoherent⟩ := hkeys _ r h.record
    rw [hpost, if_pos rfl] at hr'
    cases hr'
    have hgoverned : p.new_vk ≠ r.vk → Governed ⟨log, s, (env, .execute_vk_upgrade id executor), s'⟩ o := by
      intro hne
      obtain ⟨id', executor', p', o', hcall, -, -, -, -, ho', hgoverned⟩ := hreplaced hne
      cases hcall
      rwa [← Option.some.inj (ho.symm.trans ho')] at hgoverned
    exact ⟨fun hne => (waited_iff htraces h.due).mp (hgoverned hne).waited,
      fun hne => (approved_iff htraces).mp (hgoverned hne).approved,
      fun hr => (coherent_replaced hr).mp (hcoherent hr)⟩
  · intro hsound key r₀ hr₀
    by_cases hkey : key = (p.circuit_id, p.circuit_type)
    · subst hkey
      obtain rfl := Option.some.inj (h.record.symm.trans hr₀)
      refine ⟨r.replaced p env.timestamp, by rw [hpost, if_pos rfl], fun hne => ?_, fun hr => ?_⟩
      · exact ⟨id, executor, p, o, rfl, h.found, h.pending, rfl, rfl, ho,
          (waited_iff htraces h.due).mpr (hsound.clock hne), (approved_iff htraces).mpr (hsound.spare hne)⟩
      · exact (coherent_replaced hr).mpr (hsound.setup hr)
    · exact ⟨r₀, by rw [hpost, if_neg hkey, hr₀], fun hne => absurd rfl hne, fun hr => hr⟩

theorem keysGoverned_of_step (h : Accepts s call s')
    (hcall : ∀ id executor, call.2 ≠ .execute_vk_upgrade id executor) :
    KeysGoverned ceremony ⟨log, s, call, s'⟩ :=
  fun _ r hr => ⟨r, step_circuit h hcall hr, fun hne => absurd rfl hne, fun hr => hr⟩

theorem keysGoverned_iff_sound (hrun : RegistryRun governance log s) (h : Accepts s call s') :
    KeysGoverned ceremony ⟨log, s, call, s'⟩ ↔ SoundUpgrade ceremony ⟨log, s, call, s'⟩ := by
  by_cases hcall : ∃ id executor, call.2 = .execute_vk_upgrade id executor
  · obtain ⟨id, executor, hcall⟩ := hcall
    obtain ⟨env, call⟩ := call
    cases hcall
    obtain ⟨p, r, hexecuted⟩ := execute_vk_upgrade_executed h
    obtain ⟨o, ho, htraces⟩ := hrun.traced id p hexecuted.found
    rw [hexecuted.keysGoverned_iff ho htraces]
    constructor
    · intro hsound id' executor' p' o' r' hcall hp ho' hr
      cases hcall
      obtain rfl := Option.some.inj (hexecuted.found.symm.trans hp)
      obtain rfl := Option.some.inj (hexecuted.record.symm.trans hr)
      obtain rfl := Option.some.inj (ho.symm.trans ho')
      exact hsound
    · intro hsound
      exact hsound id executor p o r rfl hexecuted.found ho hexecuted.record
  · refine iff_of_true (keysGoverned_of_step h fun id executor he => hcall ⟨id, executor, he⟩) ?_
    intro id executor _ _ _ he
    exact absurd ⟨id, executor, he⟩ hcall

/-- In every run, keys are replaced as they should and the records describe their keys if and only if each executed
proposal has approvals to spare for the admins that were removed, ends its timelock within the clock, and brings a
key of the setup of the old one. -/
theorem keys_governed_iff (hrun : RegistryRun governance log s) :
    (∀ m ∈ Run.moments log s, KeysGoverned ceremony m) ↔
      ∀ m ∈ Run.moments log s, SoundUpgrade ceremony m :=
  Run.forall_moments_iff (fun _ _ _ _ hrun h => keysGoverned_iff_sound hrun h) hrun

end

/-! ## A stale record -/

def sampleTranscript : BytesN 32 := Vector.replicate 32 1

def next (s : RegistryState) (call : Env × Call) : Option RegistryState := (step s call.1 call.2).toOption

theorem exists_run {g : Address} (calls : List (Env × Call))
    (test : List (RegistryState × Env × Call) → RegistryState → Bool)
    (h : (Run.replay next calls [] (constructor g)).any (fun r => test r.1 r.2) = true) :
    ∃ log s, RegistryRun g log s ∧ test log s = true := by
  refine Run.exists_of_replay (fun s call s' h => ?_) h
  exact toOption_eq_some.mp h

/-- A vote circuit with six signals, and a proposal of another key for it that admin 1 has made and approved. -/
def proposedUpgrade (ic_len : Nat) : List (Env × Call) :=
  [(.signedAt 10, .register_circuit [1] .Vote (Voting.sampleVk 7) sampleTranscript 0 6 (some sampleTranscript)),
    (.signedAt 10, .set_admins [1]),
    (.signedAt 10, .propose_vk_upgrade [1] .Vote (Voting.sampleVk ic_len) sampleTranscript none 1),
    (.signedAt 20, .approve_vk_upgrade 1 1)]

def executeUpgrade : Env × Call := (.signedAt 90000, .execute_vk_upgrade 1 3)

def upgradeCalls : List (Env × Call) := proposedUpgrade 7 ++ [executeUpgrade]

theorem keys_governed_iff_for_an_upgrade : ∃ log s, RegistryRun 0 log s ∧
    ((∀ m ∈ Run.moments log s, KeysGoverned (fun _ => sampleTranscript) m) ↔
      ∀ m ∈ Run.moments log s, SoundUpgrade (fun _ => sampleTranscript) m) ∧
    (s.circuit ([1], .Vote)).map CircuitInfo.registered_at = some 90000 := by
  obtain ⟨log, s, hrun, htest⟩ := exists_run (g := 0) upgradeCalls
    (fun _ s => (s.circuit ([1], .Vote)).map CircuitInfo.registered_at == some 90000) (by decide +kernel)
  exact ⟨log, s, hrun, keys_governed_iff hrun, eq_of_beq htest⟩

/-- The new key has seven signals. Before it is executed, the admin who approved it is replaced. -/
def staleCalls : List (Env × Call) := proposedUpgrade 8 ++ [(.signedAt 30, .set_admins [2])]

def executesStale (s : RegistryState) : Bool :=
  decide (s.admins = [2] ∧ s.governance = 0) &&
  (s.vk_proposal 1).any (fun p => decide (p.required_approvals = 1 ∧ p.approvers = [1])) &&
  (s.circuit ([1], .Vote)).any (fun r => decide (r.vk.ic.length = 7)) &&
  (next s executeUpgrade).any fun s' => (s'.circuit ([1], .Vote)).any fun r' =>
    decide (r'.vk.ic.length = 8 ∧ r'.num_public_signals = 6)

/-- No admin of today has approved, and the record says that the key with seven signals has six. -/
theorem upgrade_without_admins : ∃ log s s' p r r', RegistryRun 0 log s ∧ Accepts s executeUpgrade s' ∧
    s.vk_proposal 1 = some p ∧ p.required_approvals = 1 ∧ backers p.approvers (is_admin s) = ∅ ∧
    s.circuit ([1], .Vote) = some r ∧ s'.circuit ([1], .Vote) = some r' ∧
    r'.vk.ic.length = 8 ∧ r'.num_public_signals = 6 ∧
    ∀ ceremony, ¬ KeysGoverned ceremony ⟨log, s, executeUpgrade, s'⟩ := by
  obtain ⟨log, s, hrun, htest⟩ := exists_run (g := 0) staleCalls (fun _ s => executesStale s) (by decide +kernel)
  simp only [executesStale, Bool.and_eq_true, Option.any_eq_true, decide_eq_true_eq] at htest
  obtain ⟨⟨⟨⟨hadmins, hgovernance⟩, p, hp, hrequired, happrovers⟩, r, hr, hold⟩, s', hs, r', hr', hnew, hsignals⟩ := htest
  have hbackers : backers p.approvers (is_admin s) = ∅ := by
    ext a
    simp only [mem_backers, happrovers, is_admin, hadmins, hgovernance, List.mem_singleton, decide_eq_true_eq,
      Finset.notMem_empty, iff_false, not_and]
    intro ha
    subst ha
    decide
  refine ⟨log, s, s', p, r, r', hrun, toOption_eq_some.mp hs, hp, hrequired, hbackers, hr, hr', hnew, hsignals,
    fun ceremony hkeys => ?_⟩
  obtain ⟨r₁, hr₁, hreplaced, -⟩ := hkeys _ r hr
  obtain rfl := Option.some.inj (hr'.symm.trans hr₁)
  obtain ⟨id, executor, p', o, hcall, hp', -, -, -, ho, hgoverned⟩ :=
    hreplaced fun heq => by rw [heq, hold] at hnew; cases hnew
  cases hcall
  obtain rfl := Option.some.inj (hp.symm.trans hp')
  obtain ⟨o', ho', htraces⟩ := hrun.traced 1 p hp
  obtain rfl := Option.some.inj (ho.symm.trans ho')
  have hcard := hgoverned.approved
  rw [← htraces.approvers, hbackers, ← htraces.required_approvals, hrequired] at hcard
  cases hcard

end ZkVote.Circuits
