import ZkVote.Tree.Cooldown
import ZkVote.Tree.Progress

/-!
# The membership tree: commit and reveal

A commitment hash that is pending keeps nobody from registering the commitment: no
registration looks at what others have committed.
-/

open Lib Lib.Outcome

namespace ZkVote.Tree

/-- The member has committed the hash, and has not revealed since. -/
def Committed (dao_id : Nat) (member : Address) (commitment_hash : BytesN 32)
    (log : List (MembershipTree × TreeEnv × Call)) : Prop :=
  ∃ after e before, log = after ++ e :: before ∧ e.2.2 = .commit_registration dao_id commitment_hash member ∧
    ∀ x ∈ after, ∀ commitment salt, x.2.2 ≠ .reveal_registration dao_id commitment salt member

/-- From now on no other member can register the commitment. -/
def Reserved (H : Hashes) (t : MembershipTree) (now : Env) (dao_id : Nat) (owner : Address) (commitment : U256) : Prop :=
  ∀ env call member t', now.timestamp ≤ env.timestamp → now.sequence ≤ env.sequence → member ≠ owner →
    call.registers = some (dao_id, commitment, member) → step H t env call ≠ .ok t'

/-- Every leaf of the tree is taken. -/
def TreeFilled (d : DaoTree) : Prop :=
  ∃ depth, d.tree_depth = some depth ∧ d.next_leaf_index = some (2 ^ depth)

section
variable {H : Hashes} {registry member owner : Address} {dao_id : Nat} {d d' : DaoTree} {t t' : MembershipTree}
  {log : List (MembershipTree × TreeEnv × Call)} {call : Call} {env : TreeEnv} {commitment : U256} {m : Members}

/-! ## The tree of a committed member -/

theorem DaoStep.tree_depth_ne_none (hstep : DaoStep H call dao_id d d') (h : d.tree_depth ≠ none) :
    d'.tree_depth ≠ none := by
  cases hstep with
  | keep same =>
    rw [same.tree_depth]
    exact h
  | init m hi => exact absurd hi.before.tree_depth h
  | register m commitment member room k hcall hremoves hr =>
    rw [hr.after.tree_depth]
    simp
  | remove m member index hlt k hcall hregisters hr =>
    rw [hr.after.tree_depth]
    simp

theorem commit_registration_ok {commitment_hash : BytesN 32}
    (h : commit_registration env t dao_id commitment_hash member = .ok t') :
    (t'.daos dao_id).tree_depth ≠ none := by
  simp only [commit_registration, assert_tree_initialized, bind_eq_ok, require_eq_ok, pure_eq_ok] at h
  obtain ⟨_, -, _, -, _, hdepth, _, -, _, -, rfl⟩ := h
  rw [MembershipTree.set_dao_daos, Function.update_self]
  exact hdepth

theorem Committed.represents {commitment_hash : BytesN 32} (hrun : TreeRun H registry log t)
    (h : Committed dao_id member commitment_hash log) : ∃ m, Represents H (t.daos dao_id) m := by
  have hok := hrun.ok
  obtain ⟨after, ⟨t₀, env, call⟩, before, rfl, hcall, -⟩ := h
  simp only at hcall
  subst hcall
  obtain ⟨t₁, hr, hs, hafter⟩ := hrun.cut
  refine (hok.daos dao_id).represents ?_
  exact TreeOk.onward (P := fun d => d.tree_depth ≠ none) (TreeRun.ok (.call hr hs)) (commit_registration_ok hs)
    (fun _ _ _ hstep h => hstep.tree_depth_ne_none h) hafter

/-! ## Commitments in use -/

/-- A commitment in use has been registered. -/
def UsesRegistered (d : DaoTree) (regs : List (U256 × Option Nat)) : Prop :=
  ∀ c, d.commitment_used c = true ∨ d.leaf_index c ≠ none → c ∈ regs.map Prod.fst

theorem DaoStep.usesRegistered (hstep : DaoStep H call dao_id (t.daos dao_id) (t'.daos dao_id))
    (h : UsesRegistered (t.daos dao_id) (registrations dao_id log)) :
    UsesRegistered (t'.daos dao_id) (registrations dao_id ((t, env, call) :: log)) := by
  cases hstep with
  | keep same hregisters hremoves =>
    unfold UsesRegistered
    rw [registrations_cons_of_ne hregisters, same.commitment_used, same.leaf_index]
    exact h
  | init m hi hregisters hremoves =>
    unfold UsesRegistered
    rw [registrations_cons_of_ne hregisters, hi.commitment_used, hi.leaf_index]
    exact h
  | register m commitment member room k hcall hremoves hr =>
    intro c hc
    rw [registrations_cons_of_registers hcall, List.map_cons, List.mem_cons]
    by_cases heq : c = commitment
    · exact .inl heq
    · rw [hr.commitment_used, hr.leaf_index, Function.update_of_ne heq, Function.update_of_ne heq] at hc
      exact .inr (h c hc)
  | remove m member index hlt k hcall hregisters hr =>
    unfold UsesRegistered
    rw [registrations_cons_of_ne hregisters, hr.commitment_used, hr.leaf_index]
    exact h

theorem TreeRun.usesRegistered (hrun : TreeRun H registry log t) (dao_id : Nat) :
    UsesRegistered (t.daos dao_id) (registrations dao_id log) := by
  refine Run.invariant_log (P := fun log t => UsesRegistered (t.daos dao_id) (registrations dao_id log)) ?_
    (fun log t call t' hr h hs => ((step_ok (TreeRun.ok hr) hs).daos dao_id).usesRegistered h) hrun
  rintro c (hused | hindexed)
  · cases hused
  · exact absurd rfl hindexed

/-! ## Newcomers -/

theorem exists_above {α : Type} (o : Option α) (address : α → Address) : ∃ n, ∀ x, o = some x → address x < n := by
  cases o with
  | none => exact ⟨0, by simp⟩
  | some x => exact ⟨address x + 1, by simp⟩

/-- A call does nothing to the leaf of an address it does not name. -/
theorem operation_eq_none_above (dao_id : Nat) (call : Call) :
    ∃ n, ∀ a, n ≤ a → call.operation dao_id a = none := by
  obtain ⟨n₁, h₁⟩ := exists_above call.registers fun x => x.2.2
  obtain ⟨n₂, h₂⟩ := exists_above call.removes Prod.snd
  obtain ⟨n₃, h₃⟩ := exists_above call.reinstates Prod.snd
  refine ⟨max n₁ (max n₂ n₃), fun a ha => ?_⟩
  rw [max_le_iff, max_le_iff] at ha
  refine operation_eq_none (fun c hcall => ?_) (fun hcall => ?_) (fun hcall => ?_)
  · exact absurd (h₁ _ hcall) (not_lt.mpr ha.1)
  · exact absurd (h₂ _ hcall) (not_lt.mpr ha.2.1)
  · exact absurd (h₃ _ hcall) (not_lt.mpr ha.2.2)

theorem lastOperation_eq_none_above (dao_id : Nat) (log : List (MembershipTree × TreeEnv × Call)) :
    ∃ n, ∀ a, n ≤ a → lastOperation dao_id a log = none := by
  induction log with
  | nil => exact ⟨0, fun _ _ => rfl⟩
  | cons e log ih =>
    obtain ⟨n, hn⟩ := ih
    obtain ⟨k, hk⟩ := operation_eq_none_above dao_id e.2.2
    refine ⟨max n k, fun a ha => ?_⟩
    rw [max_le_iff] at ha
    unfold lastOperation
    rw [List.findSome?_cons, hk a ha.2]
    exact hn a ha.1

theorem timer_eq_none (h : lastOperation dao_id member log = none) : timer dao_id member log = none := by
  induction log with
  | nil => rfl
  | cons e log ih =>
    unfold lastOperation at h
    rw [List.findSome?_cons] at h
    split at h
    · cases h
    · rename_i hop
      unfold timer
      rw [hop]
      exact ih h

theorem exists_newcomer (hrun : TreeRun H registry log t) (dao_id : Nat) (owner : Address) :
    ∃ member, member ≠ owner ∧ (t.daos dao_id).member_leaf_index member = none ∧
      (t.daos dao_id).last_registration_at member = none := by
  obtain ⟨n, hn⟩ := lastOperation_eq_none_above dao_id log
  have hlast := hn (max n (owner + 1)) (le_max_left _ _)
  have hstate := hrun.leafState dao_id (max n (owner + 1))
  rw [hlast] at hstate
  refine ⟨max n (owner + 1), ?_, hstate, ?_⟩
  · exact ((Nat.lt_succ_self owner).trans_le (le_max_right _ _)).ne'
  · rw [hrun.timer, timer_eq_none hlast]

/-! ## Priority -/

/-- A ledger at which every check of the other contracts passes. -/
def openEnv (now : Env) : TreeEnv := { sampleEnv with timestamp := now.timestamp, sequence := now.sequence }

/-- A new member gets any commitment that is not in use. -/
theorem register_from_registry_progress (hrun : TreeRun H registry log t) (hd : Represents H (t.daos dao_id) m)
    (hroom : m.size < 2 ^ m.depth) (hunused : (t.daos dao_id).commitment_used commitment = false)
    (hunindexed : (t.daos dao_id).leaf_index commitment = none)
    (hnew : (t.daos dao_id).member_leaf_index member = none)
    (htimer : (t.daos dao_id).last_registration_at member = none) (now : Env) :
    ∃ t', step H t (openEnv now) (.register_from_registry dao_id commitment member) = .ok t' := by
  obtain ⟨t', ht'⟩ : ∃ t', register_leaf H (openEnv now) t dao_id commitment member = .ok t' :=
    register_leaf_progress hrun.ok.cache hd hroom hunused hunindexed hnew (fun _ => rfl) (hrun.counter_below hd)
  have hinit : assert_tree_initialized (t.daos dao_id) = .ok () := require_of (by simp [hd.tree_depth])
  have hcooldown : enforce_registration_cooldown (openEnv now) (t.daos dao_id) member = .ok () := by
    simp [enforce_registration_cooldown, htimer]
  refine ⟨t', ?_⟩
  unfold step register_from_registry
  simp only [hinit, hcooldown, ok_bind, ht']
  rfl

/-- In every reachable state, a member that has committed to a commitment and not revealed it keeps the others from
registering it, if and only if the commitment has been registered already or the tree is full. -/
theorem commit_reserves_iff (hrun : TreeRun H registry log t) (now : Env) (dao_id : Nat) (owner : Address)
    (commitment : U256) :
    ((∃ salt, Committed dao_id owner (hash_registration H commitment salt) log) →
      Reserved H t now dao_id owner commitment) ↔
    ((∃ salt, Committed dao_id owner (hash_registration H commitment salt) log) →
      commitment ∈ (registrations dao_id log).map Prod.fst ∨ TreeFilled (t.daos dao_id)) := by
  refine imp_congr_right ?_
  rintro ⟨salt, hcommitted⟩
  obtain ⟨m, hm⟩ := hcommitted.represents hrun
  constructor
  · intro hreserved
    by_contra hfree
    rw [not_or] at hfree
    have hroom : m.size < 2 ^ m.depth := by
      refine lt_of_le_of_ne m.size_le fun heq => hfree.2 ⟨m.depth, hm.tree_depth, ?_⟩
      rw [hm.next_leaf_index, heq]
    have hunused := mt (hrun.usesRegistered dao_id commitment) hfree.1
    rw [not_or, Bool.not_eq_true, not_not] at hunused
    obtain ⟨member, hne, hnew, htimer⟩ := exists_newcomer hrun dao_id owner
    obtain ⟨t', ht'⟩ := register_from_registry_progress hrun hm hroom hunused.1 hunused.2 hnew htimer now
    exact hreserved _ _ member t' le_rfl le_rfl hne rfl ht'
  · rintro htaken env call member t' - - - hcall h
    obtain ⟨m', room, k, hr⟩ := ((step_ok hrun.ok h).daos dao_id).registered hcall
    rcases htaken with hregistered | ⟨depth, hdepth, hfull⟩
    · obtain ⟨p, hp, rfl⟩ := List.mem_map.mp hregistered
      have hused := ((hrun.remembered dao_id).indexed p hp).2
      rw [hr.unused] at hused
      cases hused
    · rw [hr.before.tree_depth, Option.some.injEq] at hdepth
      rw [hr.before.next_leaf_index, Option.some.injEq, ← hdepth] at hfull
      exact absurd hfull room.ne

end

def sampleSalt : BytesN 32 := Vector.replicate 32 0

theorem commit_reserves_iff_for_a_tree : ∃ log t, TreeRun sampleHashes 0 log t ∧
    (((∃ salt, Committed 0 1 (hash_registration sampleHashes 7 salt) log) →
      Reserved sampleHashes t sampleEnv.toEnv 0 1 7) ↔
    ((∃ salt, Committed 0 1 (hash_registration sampleHashes 7 salt) log) →
      7 ∈ (registrations 0 log).map Prod.fst ∨ TreeFilled (t.daos 0))) ∧
    (t.daos 0).pending_registration 1 ≠ none := by
  obtain ⟨log, t, hrun, htest⟩ := exists_run (H := sampleHashes) (r := 0)
    [.init_tree 0 1 "BN254" 0, .commit_registration 0 (hash_registration sampleHashes 7 sampleSalt) 1]
    (fun _ t => decide ((t.daos 0).pending_registration 1 ≠ none)) (by decide +kernel)
  exact ⟨log, t, hrun, commit_reserves_iff hrun sampleEnv.toEnv 0 1 7, of_decide_eq_true htest⟩

/-- Member 1 has committed to the commitment 7, and member 2 registers it. -/
theorem committed_commitment_is_taken : ∃ log t, TreeRun sampleHashes 0 log t ∧
    Committed 0 1 (hash_registration sampleHashes 7 sampleSalt) log ∧
    ¬ Reserved sampleHashes t sampleEnv.toEnv 0 1 7 := by
  obtain ⟨log, t, hrun, htest⟩ := exists_run (H := sampleHashes) (r := 0) [.init_tree 0 1 "BN254" 0]
    (fun _ t => (step sampleHashes t sampleEnv
      (.commit_registration 0 (hash_registration sampleHashes 7 sampleSalt) 1)).toOption.any
        fun t' : MembershipTree => (step sampleHashes t' sampleEnv (.register_with_caller 0 7 2)).isOk)
    (by decide +kernel)
  obtain ⟨t', hcommit, hregister⟩ := (Option.any_eq_true _ _).mp htest
  obtain ⟨t'', ht''⟩ := isOk_iff.mp hregister
  refine ⟨(t, sampleEnv, .commit_registration 0 (hash_registration sampleHashes 7 sampleSalt) 1) :: log, t',
    .call hrun (toOption_eq_some.mp hcommit), ⟨[], _, log, rfl, rfl, by simp⟩, fun hreserved => ?_⟩
  exact hreserved sampleEnv (.register_with_caller 0 7 2) 2 t'' le_rfl le_rfl (by decide) rfl ht''

end ZkVote.Tree
