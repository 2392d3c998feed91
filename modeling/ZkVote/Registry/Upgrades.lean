import ZkVote.Registry.Multisig
import ZkVote.Voting.Steps

/-!
# The DAO registry: upgrades of shared contracts

The registry with the voting contracts that trust it. Any account can make a DAO, and all
DAOs share the contracts. A contract is followed as long as it runs a build of this source.
-/

open Lib Lib.Outcome

namespace ZkVote.Registry

open Voting (VotingState VotingEnv VotingOk Crypto)

structure World where
  registry : DaoRegistry := {}
  voting : Address → Option VotingState := fun _ => none
  code : Address → BytesN 32 := fun _ => Vector.replicate 32 0

/-- The registry, and the code hashes of the builds of this source. -/
structure Network where
  crypto : Crypto
  registry : Address
  builds : BytesN 32 → Bool

inductive WorldCall where
  | deploy (contract guardian : Address) (wasm_hash : BytesN 32)
  | registry (env : VotingEnv) (call : Call)
  | voting (contract : Address) (env : VotingEnv) (call : Voting.Call)

/-- The addresses that have signed. Anyone may deploy a contract. -/
def WorldCall.auths : WorldCall → Address → Bool
  | .deploy .. => fun _ => false
  | .registry env _ => env.auths
  | .voting _ env _ => env.auths

/-! ## Steps -/

/-- The registry answers from its entries. -/
def World.answers (N : Network) (w : World) (env : VotingEnv) : VotingEnv :=
  { env with
    get_admin := fun a d => if a = N.registry then (w.registry.dao d).map DaoInfo.admin else env.get_admin a d
    members_can_propose := fun d => (w.registry.dao d).any DaoInfo.members_can_propose }

/-- The registry signs for the calls it makes. -/
def signedByRegistry (N : Network) (env : VotingEnv) : VotingEnv :=
  { env with auths := fun a => decide (a = N.registry) || env.auths a }

/-- A call to a voting contract, and the code it runs afterwards. -/
def World.onVoting (N : Network) (w : World) (contract : Address) (wasm_hash : BytesN 32) (env : VotingEnv)
    (call : Voting.Call) : Option World :=
  match w.voting contract with
  | none => none
  | some s =>
    if N.builds (w.code contract) = true then
      (Voting.step N.crypto s env call).toOption.map fun s' =>
        { w with
          voting := Function.update w.voting contract (some s')
          code := Function.update w.code contract wasm_hash }
    else none

/-- A voting contract has no such function. Another contract answers as it likes. -/
def World.onOther (w : World) (contract : Address) : Option World :=
  match w.voting contract with
  | none => some w
  | some _ => none

/-- A call for a voting contract. Another contract answers as it likes. -/
def World.onTarget (N : Network) (w : World) (contract : Address) (wasm_hash : BytesN 32) (env : VotingEnv)
    (call : Voting.Call) : Option World :=
  match w.voting contract with
  | none => some w
  | some _ => w.onVoting N contract wasm_hash env call

def invoke (N : Network) (env : VotingEnv) (w : World) : Invocation → Option World
  | .mint_from_registry sbt _ _ => w.onOther sbt
  | .init_tree_from_registry tree _ _ _ => w.onOther tree
  | .register_from_registry tree _ _ _ => w.onOther tree
  | .set_vk_from_registry voting dao_id vk =>
    w.onTarget N voting (w.code voting) (signedByRegistry N env) (.dao (.set_vk_from_registry dao_id vk))
  | .apply_upgrade_from_registry target wasm_hash from_version to_version storage_version migration_payload =>
    w.onTarget N target wasm_hash (signedByRegistry N env)
      (.inst (.apply_upgrade_from_registry from_version to_version storage_version migration_payload))
  | .rollback_upgrade_from_registry target wasm_hash from_version to_version =>
    w.onTarget N target wasm_hash (signedByRegistry N env)
      (.inst (.rollback_upgrade_from_registry from_version to_version))

def invokeAll (N : Network) (env : VotingEnv) : List Invocation → World → Option World
  | [], w => some w
  | call :: calls, w => (invoke N env w call).bind (invokeAll N env calls)

/-- Nobody signs for the registry but itself. -/
def World.next (N : Network) (w : World) : WorldCall → Option World
  | .deploy contract guardian wasm_hash =>
    match w.voting contract with
    | none => some { w with
        voting := Function.update w.voting contract (some (Voting.constructor N.registry guardian))
        code := Function.update w.code contract wasm_hash }
    | some _ => none
  | .registry env call =>
    match step w.registry env.toEnv call with
    | .ok (registry, calls) => invokeAll N (w.answers N env) calls { w with registry := registry }
    | .error _ => none
  | .voting contract env call =>
    if env.auths N.registry = false then
      w.onVoting N contract (w.code contract) (w.answers N env) call
    else none

def WorldRun (N : Network) : List (World × WorldCall) → World → Prop :=
  Run (fun w call w' => w.next N call = some w') {}

/-! ## What DAOs may expect of each other -/

/-- The admin of a DAO, or one of its signers. -/
def Party (r : DaoRegistry) (dao_id : Nat) (a : Address) : Prop :=
  (∃ info, r.dao dao_id = some info ∧ a = info.admin) ∨
    ∃ config, r.multisig_config dao_id = some config ∧ a ∈ config.signers

/-- Only parties of one DAO have signed, and none of another. -/
def SignedOnlyFor (m : Moment World WorldCall) (dao_id other : Nat) : Prop :=
  ∀ a, m.call.auths a = true → Party m.pre.registry dao_id a ∧ ¬ Party m.pre.registry other a

/-- The contract holds entries of the DAO. -/
def Serves (s : VotingState) (dao_id : Nat) : Prop := s.daos dao_id ≠ {}

/-- The contract is there, in the same version, with the same layout and the same code. -/
def SameCode (w w' : World) (contract : Address) : Prop :=
  ∀ s, w.voting contract = some s → ∃ s', w'.voting contract = some s' ∧
    s'.inst.version = s.inst.version ∧ s'.inst.storage_version = s.inst.storage_version ∧
    w'.code contract = w.code contract

def NoInterference (m : Moment World WorldCall) : Prop :=
  ∀ dao_id other contract s, dao_id ≠ other → SignedOnlyFor m dao_id other →
    m.pre.voting contract = some s → Serves s other → SameCode m.pre m.post contract

/-- An executed upgrade, or one rolled back, with its proposal. -/
def Upgrades (m : Moment World WorldCall) (p : ContractUpgradeProposal) : Prop :=
  ∃ env d q executor, m.pre.registry.contract_upgrade (d, q) = some p ∧
    (m.call = .registry env (.execute_contract_upgrade d q executor) ∨
      m.call = .registry env (.rollback_contract_upgrade d q executor))

/-- An upgrade that one DAO has signed alone is of a contract that serves no other. -/
def OwnUpgrade (m : Moment World WorldCall) : Prop :=
  ∀ dao_id other p s, dao_id ≠ other → SignedOnlyFor m dao_id other → Upgrades m p →
    m.pre.voting p.target_contract = some s → ¬ Serves s other

/-! ## Voting contracts -/

section
variable {C : Crypto} {env : VotingEnv} {s s' : VotingState} {call : Voting.Call}

/-- Whether a call is one of the two by which the registry upgrades the contract. -/
def upgradesVoting : Voting.Call → Bool
  | .inst (.apply_upgrade_from_registry ..) | .inst (.rollback_upgrade_from_registry ..) => true
  | _ => false

theorem voting_sameInst (hs : VotingOk s) (h : Voting.step C s env call = .ok s')
    (hcall : upgradesVoting call = false ∨ env.auths s.inst.registry = false) :
    s'.inst.registry = s.inst.registry ∧ s'.inst.version = s.inst.version ∧
      s'.inst.storage_version = s.inst.storage_version := by
  by_cases hinst : ∃ c, call = .inst c
  · obtain ⟨call, rfl⟩ := hinst
    have hwrites := Voting.instance_writes h
    have hversions := hwrites.versions
    cases call with
    | apply_upgrade_from_registry | rollback_upgrade_from_registry =>
      rcases hcall with hcall | hcall
      · cases hcall
      · rw [hversions.1] at hcall
        cases hcall
    | _ => exact ⟨hwrites.registry, hversions⟩
  · have hsame := Voting.step_sameInst hs.dormant h fun c hc => hinst ⟨c, hc⟩
    exact ⟨hsame.registry, hsame.version, hsame.storage_version⟩

/-- An upgrade raises the version and a rollback lowers it. -/
theorem voting_upgraded (h : Voting.step C s env call = .ok s') (hcall : upgradesVoting call = true) :
    s'.inst.registry = s.inst.registry ∧ s'.inst.version ≠ s.inst.version := by
  cases call with
  | inst call =>
    have hwrites := Voting.instance_writes h
    have hversions := hwrites.versions
    cases call with
    | apply_upgrade_from_registry | rollback_upgrade_from_registry =>
      obtain ⟨-, hversion, hmoved, hto, -⟩ := hversions
      exact ⟨hwrites.registry, by omega⟩
    | _ => cases hcall
  | _ => cases hcall

end

/-! ## Calls of the registry -/

/-- The contract that a call of the registry upgrades. -/
def Invocation.upgraded : Invocation → Option Address
  | .apply_upgrade_from_registry target .. => some target
  | .rollback_upgrade_from_registry target .. => some target
  | _ => none

/-- Whether a call has the registry upgrade a contract. -/
def Call.upgrades : Call → Bool
  | .execute_contract_upgrade .. | .rollback_contract_upgrade .. => true
  | _ => false

section
variable {env : Env} {r r' : DaoRegistry} {call : Call} {calls : List Invocation}

theorem step_calls (h : step r env call = .ok (r', calls)) (hcall : call.upgrades = false) :
    ∀ i ∈ calls, i.upgraded = none := by
  cases call with
  | create_and_init_dao_no_reg | create_and_init_dao =>
    obtain ⟨_, -, hrest⟩ := bind_eq_ok.mp h
    cases hrest
    simp [Invocation.upgraded]
  | execute_contract_upgrade | rollback_contract_upgrade => cases hcall
  | create_dao | create_dao_idempotent | create_multisig_proposal | propose_contract_upgrade
  | propose_circuit_upgrade =>
    obtain ⟨-, rfl⟩ := aloneWith_eq_ok.mp h
    simp
  | _ =>
    obtain ⟨-, rfl⟩ := alone_eq_ok.mp h
    simp

/-- An upgrade makes one call, to the target of its proposal. -/
theorem step_upgrade (h : step r env call = .ok (r', calls)) (hcall : call.upgrades = true) :
    ∃ d q executor p i, (call = .execute_contract_upgrade d q executor ∨
        call = .rollback_contract_upgrade d q executor) ∧
      r.contract_upgrade (d, q) = some p ∧ calls = [i] ∧ i.upgraded = some p.target_contract := by
  cases call with
  | execute_contract_upgrade d q executor =>
    simp [step, execute_contract_upgrade, require_dao_admin] at h
    obtain ⟨-, _, -, -, p, hp, -, -, -, -, rfl⟩ := h
    exact ⟨d, q, executor, p, _, .inl rfl, hp, rfl, rfl⟩
  | rollback_contract_upgrade d q executor =>
    simp [step, rollback_contract_upgrade, require_dao_admin] at h
    obtain ⟨-, _, -, -, p, hp, -, -, rfl⟩ := h
    exact ⟨d, q, executor, p, _, .inr rfl, hp, rfl, rfl⟩
  | _ => cases hcall

end

/-! ## Steps of the world -/

/-- Every voting contract is in a reachable state, and trusts the registry. -/
def Sound (N : Network) (w : World) : Prop :=
  ∀ contract s, w.voting contract = some s → VotingOk s ∧ s.inst.registry = N.registry

section
variable {N : Network} {env : VotingEnv} {w w' w'' : World} {contract other : Address} {wasm_hash : BytesN 32}
  {call : Voting.Call} {s : VotingState}

theorem SameCode.refl : SameCode w w contract := fun s hs => ⟨s, hs, rfl, rfl, rfl⟩

theorem SameCode.trans (h : SameCode w w' contract) (h' : SameCode w' w'' contract) : SameCode w w'' contract := by
  intro s hs
  obtain ⟨s', hs', hversion, hstorage, hcode⟩ := h s hs
  obtain ⟨s'', hs'', hversion', hstorage', hcode'⟩ := h' s' hs'
  exact ⟨s'', hs'', hversion'.trans hversion, hstorage'.trans hstorage, hcode'.trans hcode⟩

/-- What a call to a voting contract leaves. -/
structure Answered (N : Network) (w w' : World) (contract : Address) (wasm_hash : BytesN 32) (env : VotingEnv)
    (call : Voting.Call) (s s' : VotingState) : Prop where
  found : w.voting contract = some s
  step : Voting.step N.crypto s env call = .ok s'
  voting : w'.voting = Function.update w.voting contract (some s')
  code : w'.code = Function.update w.code contract wasm_hash

theorem onVoting_answered (h : w.onVoting N contract wasm_hash env call = some w') :
    ∃ s s', Answered N w w' contract wasm_hash env call s s' := by
  unfold World.onVoting at h
  split at h
  · cases h
  · rename_i s hs
    split at h
    · obtain ⟨s', hstep, rfl⟩ := Option.map_eq_some_iff.mp h
      exact ⟨s, s', hs, toOption_eq_some.mp hstep, rfl, rfl⟩
    · cases h

theorem Answered.sound {s' : VotingState} (h : Answered N w w' contract wasm_hash env call s s') (hw : Sound N w) :
    Sound N w' := by
  obtain ⟨hok, hregistry⟩ := hw contract s h.found
  intro v t ht
  rw [h.voting, Function.update_apply] at ht
  split at ht
  · cases ht
    refine ⟨(Voting.step_effect hok.dormant h.step).votingOk hok, ?_⟩
    cases hcall : upgradesVoting call with
    | false => rw [(voting_sameInst hok h.step (.inl hcall)).1, hregistry]
    | true => rw [(voting_upgraded h.step hcall).1, hregistry]
  · exact hw v t ht

theorem Answered.sameCode_other {s' : VotingState} (h : Answered N w w' contract wasm_hash env call s s')
    (hne : other ≠ contract) : SameCode w w' other := by
  intro t ht
  refine ⟨t, ?_, rfl, rfl, ?_⟩
  · rw [h.voting, Function.update_of_ne hne, ht]
  · rw [h.code, Function.update_of_ne hne]

theorem Answered.sameCode {s' : VotingState} (h : Answered N w w' contract (w.code contract) env call s s')
    (hw : Sound N w) (hcall : upgradesVoting call = false ∨ env.auths N.registry = false) :
    SameCode w w' other := by
  by_cases hne : other = contract
  · subst hne
    obtain ⟨hok, hregistry⟩ := hw other s h.found
    intro t ht
    obtain rfl := Option.some.inj (h.found.symm.trans ht)
    obtain ⟨-, hversion, hstorage⟩ := voting_sameInst hok h.step (hregistry ▸ hcall)
    refine ⟨s', ?_, hversion, hstorage, ?_⟩
    · rw [h.voting, Function.update_self]
    · rw [h.code, Function.update_self]
  · exact h.sameCode_other hne

theorem Answered.not_sameCode {s' : VotingState} (h : Answered N w w' contract wasm_hash env call s s')
    (hcall : upgradesVoting call = true) : ¬ SameCode w w' contract := by
  intro hsame
  obtain ⟨t, ht, hversion, -⟩ := hsame s h.found
  rw [h.voting, Function.update_self] at ht
  cases ht
  exact (voting_upgraded h.step hcall).2 hversion

theorem onTarget_cases (h : w.onTarget N contract wasm_hash env call = some w') :
    (w.voting contract = none ∧ w' = w) ∨ ∃ s s', Answered N w w' contract wasm_hash env call s s' := by
  unfold World.onTarget at h
  split at h
  · rename_i hnone
    cases h
    exact .inl ⟨hnone, rfl⟩
  · exact .inr (onVoting_answered h)

theorem onOther_eq (h : w.onOther contract = some w') : w' = w := by
  unfold World.onOther at h
  split at h
  · cases h
    rfl
  · cases h

/-- All that a call of the registry says of the world. -/
structure Invoked (N : Network) (w w' : World) (i : Invocation) : Prop where
  sound : Sound N w → Sound N w'
  others : ∀ v, i.upgraded ≠ some v → Sound N w → SameCode w w' v
  target : ∀ v s, i.upgraded = some v → w.voting v = some s → ¬ SameCode w w' v

theorem Invoked.of_other {i : Invocation} (h : w.onOther contract = some w') (hi : i.upgraded = none) :
    Invoked N w w' i := by
  obtain rfl := onOther_eq h
  refine ⟨id, fun _ _ _ => .refl, fun v s hv => ?_⟩
  rw [hi] at hv
  cases hv

theorem Invoked.of_upgrade {i : Invocation} (h : w.onTarget N contract wasm_hash env call = some w')
    (hi : i.upgraded = some contract) (hcall : upgradesVoting call = true) : Invoked N w w' i := by
  rcases onTarget_cases h with ⟨hnone, rfl⟩ | ⟨s, s', hanswered⟩
  · refine ⟨id, fun _ _ _ => .refl, fun v s hv hs => ?_⟩
    obtain rfl := Option.some.inj (hi.symm.trans hv)
    rw [hnone] at hs
    cases hs
  · refine ⟨hanswered.sound, fun v hv _ => hanswered.sameCode_other ?_, fun v t hv _ => ?_⟩
    · rintro rfl
      exact hv hi
    · obtain rfl := Option.some.inj (hi.symm.trans hv)
      exact hanswered.not_sameCode hcall

theorem invoke_invoked {i : Invocation} (h : invoke N env w i = some w') : Invoked N w w' i := by
  cases i with
  | mint_from_registry | init_tree_from_registry | register_from_registry => exact .of_other h rfl
  | set_vk_from_registry =>
    rcases onTarget_cases h with ⟨-, rfl⟩ | ⟨s, s', hanswered⟩
    · exact ⟨id, fun _ _ _ => .refl, fun _ _ hv => by cases hv⟩
    · exact ⟨hanswered.sound, fun _ _ hw => hanswered.sameCode hw (.inl rfl), fun _ _ hv => by cases hv⟩
  | apply_upgrade_from_registry | rollback_upgrade_from_registry => exact .of_upgrade h rfl rfl

theorem invokeAll_sound {calls : List Invocation} (h : invokeAll N env calls w = some w') (hw : Sound N w) :
    Sound N w' := by
  induction calls generalizing w with
  | nil =>
    cases h
    exact hw
  | cons i calls ih =>
    obtain ⟨w₁, hi, hrest⟩ := Option.bind_eq_some_iff.mp h
    exact ih hrest ((invoke_invoked hi).sound hw)

theorem invokeAll_sameCode {calls : List Invocation} (h : invokeAll N env calls w = some w') (hw : Sound N w)
    (hcalls : ∀ i ∈ calls, i.upgraded ≠ some contract) : SameCode w w' contract := by
  induction calls generalizing w with
  | nil =>
    cases h
    exact .refl
  | cons i calls ih =>
    obtain ⟨w₁, hi, hrest⟩ := Option.bind_eq_some_iff.mp h
    rw [List.forall_mem_cons] at hcalls
    have hinvoked := invoke_invoked hi
    exact (hinvoked.others contract hcalls.1 hw).trans (ih hrest (hinvoked.sound hw) hcalls.2)

/-! ## Runs -/

theorem World.next_sound {call : WorldCall} (h : w.next N call = some w') (hw : Sound N w) : Sound N w' := by
  cases call with
  | deploy contract guardian wasm_hash =>
    unfold World.next at h
    simp only at h
    split at h
    · cases h
      intro v t ht
      simp only [Function.update_apply] at ht
      split at ht
      · cases ht
        exact ⟨Voting.constructor_ok _ _, rfl⟩
      · exact hw v t ht
    · cases h
  | registry env call =>
    unfold World.next at h
    simp only at h
    split at h
    · exact invokeAll_sound h hw
    · cases h
  | voting contract env call =>
    unfold World.next at h
    simp only at h
    split at h
    · obtain ⟨_, _, hanswered⟩ := onVoting_answered h
      exact hanswered.sound hw
    · cases h

theorem WorldRun.sound {log : List (World × WorldCall)} (hrun : WorldRun N log w) : Sound N w :=
  Run.invariant (P := Sound N) (fun _ _ hs => by cases hs) (fun _ _ _ hw h => World.next_sound h hw) hrun

theorem next_sameCode {call : WorldCall} (h : w.next N call = some w') (hw : Sound N w)
    (hcall : ∀ env c, call = .registry env c → c.upgrades = false) : SameCode w w' contract := by
  cases call with
  | deploy contract' guardian wasm_hash =>
    unfold World.next at h
    simp only at h
    split at h
    · rename_i hnone
      cases h
      intro t ht
      have hne : contract ≠ contract' := by
        rintro rfl
        rw [hnone] at ht
        cases ht
      refine ⟨t, ?_, rfl, rfl, Function.update_of_ne hne ..⟩
      exact (Function.update_of_ne hne ..).trans ht
    · cases h
  | registry env call =>
    unfold World.next at h
    simp only at h
    split at h
    · rename_i r calls hstep
      have hnone := step_calls hstep (hcall env call rfl)
      have hsame : SameCode { w with registry := r } w' contract :=
        invokeAll_sameCode h hw fun i hi => by
          rw [hnone i hi]
          simp
      exact hsame
    · cases h
  | voting contract' env call =>
    unfold World.next at h
    simp only at h
    split at h
    · rename_i hauth
      obtain ⟨_, _, hanswered⟩ := onVoting_answered h
      exact hanswered.sameCode hw (.inr hauth)
    · cases h

/-- An upgrade changes the code of the target of its proposal, and of no other contract. -/
theorem next_upgrade {call : Call} (h : w.next N (.registry env call) = some w') (hw : Sound N w)
    (hcall : call.upgrades = true) :
    ∃ d q executor p, (call = .execute_contract_upgrade d q executor ∨
        call = .rollback_contract_upgrade d q executor) ∧ w.registry.contract_upgrade (d, q) = some p ∧
      (∀ v, v ≠ p.target_contract → SameCode w w' v) ∧
      ∀ s, w.voting p.target_contract = some s → ¬ SameCode w w' p.target_contract := by
  unfold World.next at h
  simp only at h
  split at h
  · rename_i r calls hstep
    obtain ⟨d, q, executor, p, i, hform, hp, rfl, hi⟩ := step_upgrade hstep hcall
    obtain ⟨w₁, hinvoke, hrest⟩ := Option.bind_eq_some_iff.mp h
    cases hrest
    have hinvoked := invoke_invoked hinvoke
    refine ⟨d, q, executor, p, hform, hp, fun v hv => hinvoked.others v ?_ hw, fun s hs => hinvoked.target _ s hi hs⟩
    rw [hi]
    exact fun heq => hv (Option.some.inj heq).symm
  · cases h

theorem noInterference_iff {log : List (World × WorldCall)} {call : WorldCall} (hw : Sound N w)
    (h : w.next N call = some w') : NoInterference ⟨log, w, call, w'⟩ ↔ OwnUpgrade ⟨log, w, call, w'⟩ := by
  by_cases hcall : ∃ env c, call = .registry env c ∧ c.upgrades = true
  · obtain ⟨env, c, rfl, hc⟩ := hcall
    obtain ⟨d, q, executor, p, hform, hp, hothers, htarget⟩ := next_upgrade h hw hc
    constructor
    · intro hfree A B p' s hne hsigned hupgrades hs hserves
      obtain ⟨env', d', q', executor', hp', hform'⟩ := hupgrades
      have hkey : (d', q') = (d, q) := by
        rcases hform with rfl | rfl <;> rcases hform' with hform' | hform' <;> cases hform' <;> rfl
      rw [hkey, hp] at hp'
      cases hp'
      exact htarget s hs (hfree A B _ s hne hsigned hs hserves)
    · intro hown A B v s hne hsigned hs hserves
      by_cases hv : v = p.target_contract
      · subst hv
        refine absurd hserves (hown A B p s hne hsigned ⟨env, d, q, executor, hp, ?_⟩ hs)
        rcases hform with rfl | rfl
        · exact .inl rfl
        · exact .inr rfl
      · exact hothers v hv
  · refine iff_of_true (fun A B v s _ _ _ _ => next_sameCode h hw fun env c hc => ?_) ?_
    · exact Bool.eq_false_iff.mpr fun hup => hcall ⟨env, c, hc, hup⟩
    · intro A B p s _ _ hupgrades
      obtain ⟨env', d, q, executor, -, hform | hform⟩ := hupgrades
      · exact absurd ⟨env', _, hform, rfl⟩ hcall
      · exact absurd ⟨env', _, hform, rfl⟩ hcall

/-- In every run, no call that one DAO has signed alone changes the version or the code of a contract that serves
another, if and only if no such call executes or rolls back an upgrade of one. -/
theorem no_interference_iff {log : List (World × WorldCall)} (hrun : WorldRun N log w) :
    (∀ m ∈ Run.moments log w, NoInterference m) ↔ ∀ m ∈ Run.moments log w, OwnUpgrade m :=
  Run.forall_moments_iff (fun _ _ _ _ hrun h => noInterference_iff (WorldRun.sound hrun) h) hrun

end

/-! ## A DAO that upgrades the contract of another -/

def sampleNetwork : Network where
  crypto := Voting.sampleCrypto
  registry := 50
  builds := fun _ => true

/-- A call that one account has signed. -/
def signedBy (account timestamp : Nat) : VotingEnv :=
  { Voting.sampleEnv with timestamp := timestamp, auths := fun a => decide (a = account) }

theorem World.exists_run {N : Network} (calls : List WorldCall) (test : List (World × WorldCall) → World → Bool)
    (h : (Run.replay (World.next N) calls [] {}).any (fun r => test r.1 r.2) = true) :
    ∃ log w, WorldRun N log w ∧ test log w = true := by
  refine Run.exists_of_replay (fun w call w' hs => ?_) h
  exact hs

/-- Contract 100 serves DAO 1, of account 1. Account 2 makes DAO 2 and proposes an upgrade of the contract. -/
def foreignProposal : List WorldCall :=
  [.deploy 100 7 (Vector.replicate 32 0),
    .registry (signedBy 1 10) (.create_and_init_dao_no_reg [] 1 true true none 60 61 100 18 "BN254" (Voting.sampleVk 7)),
    .registry (signedBy 2 20) (.create_dao [] 2 true true none),
    .registry (signedBy 2 30) (.propose_contract_upgrade 2 100 (Vector.replicate 32 1) (Vector.replicate 32 0)
      2 3 1 [] 86430 172830 2)]

def executeForeign : WorldCall := .registry (signedBy 2 86430) (.execute_contract_upgrade 2 1 2)

theorem no_interference_iff_for_two_daos : ∃ log w, WorldRun sampleNetwork log w ∧
    ((∀ m ∈ Run.moments log w, NoInterference m) ↔ ∀ m ∈ Run.moments log w, OwnUpgrade m) ∧
    (w.registry.contract_upgrade (2, 1)).isSome = true := by
  obtain ⟨log, w, hrun, htest⟩ := World.exists_run (N := sampleNetwork) foreignProposal
    (fun _ w => (w.registry.contract_upgrade (2, 1)).isSome) (by decide +kernel)
  exact ⟨log, w, hrun, no_interference_iff hrun, htest⟩

def otherUpgrades (w : World) : Bool :=
  (w.registry.dao 1).any (fun info => decide (info.admin = 1)) &&
  (w.registry.dao 2).any (fun info => decide (info.admin = 2)) &&
  (w.registry.multisig_config 1).isNone &&
  (w.voting 100).any (fun s => decide (s.inst.version = 2 ∧ (s.daos 1).keys.vk_version ≠ none)) &&
  (w.next sampleNetwork executeForeign).any fun w' => (w'.voting 100).any fun s' => decide (s'.inst.version = 3)

/-- Account 1, who alone administers DAO 1, has signed nothing, and its contract runs another version. -/
theorem foreign_upgrade : ∃ log w w' s s', WorldRun sampleNetwork log w ∧
    w.next sampleNetwork executeForeign = some w' ∧ w.voting 100 = some s ∧ Serves s 1 ∧
    s.inst.version = 2 ∧ w'.voting 100 = some s' ∧ s'.inst.version = 3 ∧
    ¬ NoInterference ⟨log, w, executeForeign, w'⟩ := by
  obtain ⟨log, w, hrun, htest⟩ := World.exists_run (N := sampleNetwork) foreignProposal (fun _ w => otherUpgrades w)
    (by decide +kernel)
  simp only [otherUpgrades, Bool.and_eq_true, Option.any_eq_true, decide_eq_true_eq, Option.isNone_iff_eq_none] at htest
  obtain ⟨⟨⟨⟨⟨info₁, hdao₁, hadmin₁⟩, info₂, hdao₂, hadmin₂⟩, hnone⟩, s, hs, hversion, hkey⟩, w', hnext, s', hs',
    hversion'⟩ := htest
  have hserves : Serves s 1 := by
    intro hempty
    rw [hempty] at hkey
    exact hkey rfl
  refine ⟨log, w, w', s, s', hrun, hnext, hs, hserves, hversion, hs', hversion', fun hfree => ?_⟩
  have hsigned : SignedOnlyFor ⟨log, w, executeForeign, w'⟩ 2 1 := by
    intro a ha
    obtain rfl : a = 2 := of_decide_eq_true ha
    refine ⟨.inl ⟨info₂, hdao₂, hadmin₂.symm⟩, ?_⟩
    rintro (⟨info, hinfo, hadmin⟩ | ⟨config, hconfig, -⟩)
    · obtain rfl := Option.some.inj (hdao₁.symm.trans hinfo)
      rw [hadmin₁] at hadmin
      cases hadmin
    · rw [hnone] at hconfig
      cases hconfig
  obtain ⟨t, ht, hsame, -⟩ := hfree 2 1 100 s (by decide) hsigned hs hserves s hs
  obtain rfl := Option.some.inj (hs'.symm.trans ht)
  omega

end ZkVote.Registry
