import ZkVote.Tree.Reinstatement

/-!
# The membership tree: the registration cooldown

A registration starts a timer for its member, and a reinstatement clears it. No member
registers twice without a reinstatement in between.
-/

open Lib Lib.Outcome

namespace ZkVote.Tree

/-- The time of the last registration, unless a reinstatement has cleared it. -/
def timer (dao_id : Nat) (member : Address) : List (MembershipTree × TreeEnv × Call) → Option Nat
  | [] => none
  | (_, env, call) :: log =>
    match call.operation dao_id member with
    | some (.registered _) => some env.timestamp
    | some .reinstated => none
    | _ => timer dao_id member log

section
variable {H : Hashes} {registry member : Address} {dao_id : Nat} {d d' : DaoTree} {t t' : MembershipTree}
  {log : List (MembershipTree × TreeEnv × Call)} {call : Call} {env : TreeEnv}

theorem Aside.timer_of_none (haside : Aside H env call dao_id d d')
    (hregisters : ∀ c, call.registers ≠ some (dao_id, c, member))
    (hreinstates : call.reinstates ≠ some (dao_id, member)) :
    d'.last_registration_at member = d.last_registration_at member := by
  by_cases hr : ∃ c a, call.registers = some (dao_id, c, a)
  · obtain ⟨c, a, hcall⟩ := hr
    have hne : member ≠ a := by
      rintro rfl
      exact hregisters c hcall
    rw [(haside.registered c a hcall).2, Function.update_of_ne hne]
  · by_cases hs : ∃ a, call.reinstates = some (dao_id, a)
    · obtain ⟨a, hcall⟩ := hs
      have hne : member ≠ a := by
        rintro rfl
        exact hreinstates hcall
      rw [(haside.reinstated a hcall).2.2, Function.update_of_ne hne]
    · rw [(haside.quiet (fun c a h => hr ⟨c, a, h⟩) (not_exists.mp hs)).2]

theorem Aside.timer (haside : Aside H env call dao_id (t.daos dao_id) (t'.daos dao_id))
    (h : (t.daos dao_id).last_registration_at member = timer dao_id member log) :
    (t'.daos dao_id).last_registration_at member = timer dao_id member ((t, env, call) :: log) := by
  unfold Tree.timer
  split
  · rename_i c hop
    rw [(haside.registered c member (registers_of_operation hop)).2, Function.update_self]
  · rename_i hop
    rw [(haside.reinstated member (reinstates_of_operation hop)).2.2, Function.update_self]
  · rename_i hregistered hreinstated
    rw [← h]
    refine haside.timer_of_none (fun c hcall => ?_) fun hcall => ?_
    · exact hregistered c (operation_of_registers hcall)
    · exact hreinstated (operation_of_reinstates hcall)

theorem TreeRun.timer (hrun : TreeRun H registry log t) (dao_id : Nat) (member : Address) :
    (t.daos dao_id).last_registration_at member = timer dao_id member log := by
  refine Run.invariant_log
    (P := fun log t => (t.daos dao_id).last_registration_at member = Tree.timer dao_id member log)
    rfl (fun log t call t' hr h hs => ?_) hrun
  exact (step_aside hs dao_id).timer h

/-- A member that registers has not registered before, or has been reinstated since. -/
theorem registers_after_reinstatement (hrun : TreeRun H registry log t) {c : U256}
    (h : step H t env call = .ok t') (hcall : call.registers = some (dao_id, c, member)) :
    lastOperation dao_id member log = none ∨ lastOperation dao_id member log = some .reinstated := by
  have hstate := hrun.leafState dao_id member
  obtain ⟨m, room, k, hr⟩ := ((step_ok (TreeRun.ok hrun) h).daos dao_id).registered hcall
  unfold LeafState at hstate
  split at hstate
  · exact .inl ‹_›
  · obtain ⟨i, hi, -⟩ := hstate
    rw [hr.newcomer] at hi
    cases hi
  · obtain ⟨i, hi, -⟩ := hstate
    rw [hr.newcomer] at hi
    cases hi
  · exact .inr ‹_›

theorem cooldown_iff {last : Nat} (h : d.last_registration_at member = some last) :
    enforce_registration_cooldown env d member = .ok () ↔
      saturatingAdd 64 last MIN_REGISTRATION_INTERVAL_SECS ≤ env.timestamp := by
  unfold enforce_registration_cooldown
  rw [h]
  simp

/-- In every run, between two registrations of a member in a DAO the member has been reinstated; and in the state
reached the cooldown lets a member register if and only if 3600 seconds have passed since its last registration, or
a reinstatement has come after that. -/
theorem registrations_apart (hrun : TreeRun H registry log t) (dao_id : Nat) (member : Address) :
    (∀ after later mid earlier before c₁ c₂, log = after ++ later :: (mid ++ earlier :: before) →
      earlier.2.2.registers = some (dao_id, c₁, member) → later.2.2.registers = some (dao_id, c₂, member) →
        ∃ e ∈ mid, e.2.2.reinstates = some (dao_id, member)) ∧
    ∀ env, enforce_registration_cooldown env (t.daos dao_id) member = .ok () ↔
      ∀ last, timer dao_id member log = some last →
        saturatingAdd 64 last MIN_REGISTRATION_INTERVAL_SECS ≤ env.timestamp := by
  constructor
  · intro after later mid earlier before c₁ c₂ hlog hearlier hlater
    rw [hlog] at hrun
    obtain ⟨t₁, hr, hs, -⟩ := hrun.cut
    have hlast := registers_after_reinstatement hr hs hlater
    rw [lastOperation_append, lastOperation_cons_of_some (operation_of_registers hearlier)] at hlast
    cases hmid : lastOperation dao_id member mid with
    | none =>
      rw [hmid, Option.none_or] at hlast
      rcases hlast with h | h <;> cases h
    | some op =>
      rw [hmid, Option.some_or] at hlast
      rcases hlast with h | h
      · cases h
      · cases h
        obtain ⟨newer, e, older, rfl, he, -⟩ := List.findSome?_eq_some_iff.mp hmid
        exact ⟨e, by simp, reinstates_of_operation he⟩
  · intro env
    have htimer := hrun.timer dao_id member
    cases hlast : timer dao_id member log with
    | none =>
      rw [hlast] at htimer
      simp [enforce_registration_cooldown, htimer]
    | some last =>
      rw [hlast] at htimer
      rw [cooldown_iff htimer]
      simp

end

theorem registrations_apart_for_a_member : ∃ log t, TreeRun sampleHashes 0 log t ∧ timer 0 1 log = some 0 ∧
    (∀ after later mid earlier before c₁ c₂, log = after ++ later :: (mid ++ earlier :: before) →
      earlier.2.2.registers = some (0, c₁, 1) → later.2.2.registers = some (0, c₂, 1) →
        ∃ e ∈ mid, e.2.2.reinstates = some (0, 1)) ∧
    ∀ env, enforce_registration_cooldown env (t.daos 0) 1 = .ok () ↔
      ∀ last, timer 0 1 log = some last → saturatingAdd 64 last MIN_REGISTRATION_INTERVAL_SECS ≤ env.timestamp := by
  obtain ⟨log, t, hrun, htest⟩ := exists_run (H := sampleHashes) (r := 0)
    [.init_tree 0 1 "BN254" 0, .register_from_registry 0 7 1]
    (fun log _ => decide (timer 0 1 log = some 0)) (by decide +kernel)
  exact ⟨log, t, hrun, of_decide_eq_true htest, registrations_apart hrun 0 1⟩

/-- A removal and a reinstatement later, the member registers again in the same second. -/
theorem registered_twice_at_once : ∃ log t later mid earlier before, TreeRun sampleHashes 0 log t ∧
    log = later :: (mid ++ earlier :: before) ∧ earlier.2.2.registers = some (0, 7, 1) ∧
    later.2.2.registers = some (0, 8, 1) ∧
    later.2.1.timestamp < earlier.2.1.timestamp + MIN_REGISTRATION_INTERVAL_SECS := by
  obtain ⟨log, t, hrun, htest⟩ := exists_run (H := sampleHashes) (r := 0)
    [.init_tree 0 1 "BN254" 0, .register_from_registry 0 7 1, .remove_member 0 1 0, .reinstate_member 0 1 0,
      .register_from_registry 0 8 1]
    (fun log _ => log.head?.any fun later : MembershipTree × TreeEnv × Call =>
      (log.drop 3).head?.any fun earlier : MembershipTree × TreeEnv × Call =>
        decide (earlier.2.2.registers = some (0, 7, 1) ∧ later.2.2.registers = some (0, 8, 1) ∧
          later.2.1.timestamp < earlier.2.1.timestamp + MIN_REGISTRATION_INTERVAL_SECS)) (by decide +kernel)
  obtain ⟨later, hlater, htest⟩ := (Option.any_eq_true _ _).mp htest
  obtain ⟨earlier, hearlier, htimes⟩ := (Option.any_eq_true _ _).mp htest
  obtain ⟨mid, rfl⟩ := List.head?_eq_some_iff.mp hlater
  obtain ⟨before, hdrop⟩ := List.head?_eq_some_iff.mp hearlier
  refine ⟨_, t, later, mid.take 2, earlier, before, hrun, ?_, of_decide_eq_true htimes⟩
  rw [← hdrop, List.drop_succ_cons, List.take_append_drop]

end ZkVote.Tree
