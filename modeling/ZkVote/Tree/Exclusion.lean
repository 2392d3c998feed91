import ZkVote.Tree.Reinstatement

/-!
# The membership tree: exclusion

`verify_exclusion` asks for a `RevokedAt` entry first. No call writes one.
-/

open Lib Lib.Outcome

namespace ZkVote.Tree

/-- The commitment was registered, and since then its member has been removed and not reinstated. -/
def Excluded (dao_id : Nat) (commitment : U256) (log : List (MembershipTree × TreeEnv × Call)) : Prop :=
  ∃ after e before member, log = after ++ e :: before ∧
    e.2.2.registers = some (dao_id, commitment, member) ∧ lastOperation dao_id member after = some .removed

section
variable {H : Hashes} {registry member : Address} {dao_id : Nat} {t t' : MembershipTree} {commitment : U256}
  {log : List (MembershipTree × TreeEnv × Call)} {call : Call} {env : TreeEnv}

theorem TreeRun.revoked_at (hrun : TreeRun H registry log t) (dao_id : Nat) :
    (t.daos dao_id).revoked_at = fun _ => none := by
  refine Run.invariant_log (P := fun _ t => (t.daos dao_id).revoked_at = fun _ => none) rfl
    (fun log t call t' hr h hs => ?_) hrun
  rw [(step_aside hs dao_id).revoked_at, h]

theorem verify_exclusion_eq (hrun : TreeRun H registry log t) :
    verify_exclusion t dao_id commitment = false := by
  simp [verify_exclusion, hrun.revoked_at dao_id]

/-! ## Removals follow registrations -/

/-- The leaf that a removal clears was registered last. -/
theorem remove_after_registration (hrun : TreeRun H registry log t) (h : step H t env call = .ok t')
    (hcall : call.removes = some (dao_id, member)) :
    ∃ c, lastOperation dao_id member log = some (.registered c) := by
  have hstate := hrun.leafState dao_id member
  obtain ⟨m, index, hlt, k, hr⟩ := ((step_ok (TreeRun.ok hrun) h).daos dao_id).removed hcall
  have hvalue : (t.daos dao_id).leaf_value index = some (m.leaf index) := by
    rw [hr.before.leaf_value, if_pos hlt]
  unfold LeafState at hstate
  split at hstate
  · rw [hr.member_at] at hstate
    cases hstate
  · rename_i c hlast
    exact ⟨c, hlast⟩
  · obtain ⟨i, hi, hzero⟩ := hstate
    rw [hr.member_at, Option.some.injEq] at hi
    rw [← hi, hvalue, Option.some.injEq] at hzero
    exact absurd hzero hr.leaf_ne_zero
  · rw [hr.member_at] at hstate
    cases hstate

theorem TreeRun.excluded_of_removed (hrun : TreeRun H registry log t)
    (h : lastOperation dao_id member log = some .removed) :
    ∃ c after e before, log = after ++ e :: before ∧ e.2.2.registers = some (dao_id, c, member) ∧
      lastOperation dao_id member after = some .removed := by
  induction hrun with
  | start => cases h
  | @call log t t' call hr hs ih =>
    obtain ⟨env, call⟩ := call
    cases hop : call.operation dao_id member with
    | none =>
      rw [lastOperation_cons_of_none hop] at h
      obtain ⟨c, after, e, before, hlog, hcall, hremoved⟩ := ih h
      exact ⟨c, (t, env, call) :: after, e, before, by rw [hlog]; rfl, hcall,
        (lastOperation_cons_of_none hop).trans hremoved⟩
    | some op =>
      rw [lastOperation_cons_of_some hop, Option.some.injEq] at h
      subst h
      obtain ⟨c, hlast⟩ := remove_after_registration hr hs (removes_of_operation hop)
      obtain ⟨after, e, before, hlog, he, -⟩ := List.findSome?_eq_some_iff.mp hlast
      exact ⟨c, (t, env, call) :: after, e, before, by rw [hlog]; rfl, registers_of_operation he,
        lastOperation_cons_of_some hop⟩

/-- In every reachable state, the commitments that `verify_exclusion` affirms are exactly the excluded ones, if and
only if every member that was removed has been reinstated. -/
theorem exclusion_iff (hrun : TreeRun H registry log t) (dao_id : Nat) :
    (∀ c, verify_exclusion t dao_id c = true ↔ Excluded dao_id c log) ↔
      ∀ member, lastOperation dao_id member log ≠ some .removed := by
  constructor
  · intro hexact member hremoved
    obtain ⟨c, after, e, before, hlog, hcall, hafter⟩ := hrun.excluded_of_removed hremoved
    have htrue := (hexact c).mpr ⟨after, e, before, member, hlog, hcall, hafter⟩
    rw [verify_exclusion_eq hrun] at htrue
    cases htrue
  · intro hnone c
    rw [verify_exclusion_eq hrun]
    refine iff_of_false Bool.false_ne_true ?_
    rintro ⟨after, e, before, member, hlog, -, hafter⟩
    refine hnone member ?_
    rw [hlog, lastOperation_append, hafter, Option.some_or]

end

theorem exclusion_iff_for_a_member : ∃ log t, TreeRun sampleHashes 0 log t ∧
    ((∀ c, verify_exclusion t 0 c = true ↔ Excluded 0 c log) ↔
      ∀ member, lastOperation 0 member log ≠ some .removed) ∧ (t.daos 0).leaf_value 0 = some 7 := by
  obtain ⟨log, t, hrun, htest⟩ := exists_run (H := sampleHashes) (r := 0)
    [.init_tree 0 1 "BN254" 0, .register_from_registry 0 7 1]
    (fun _ t => decide ((t.daos 0).leaf_value 0 = some 7)) (by decide +kernel)
  exact ⟨log, t, hrun, exclusion_iff hrun 0, of_decide_eq_true htest⟩

/-- The member with the commitment 7 has been removed, and its exclusion is denied. -/
theorem exclusion_denied : ∃ log t, TreeRun sampleHashes 0 log t ∧ Excluded 0 7 log ∧
    verify_exclusion t 0 7 = false := by
  obtain ⟨log, t, hrun, htest⟩ := exists_run (H := sampleHashes) (r := 0)
    [.init_tree 0 1 "BN254" 0, .register_from_registry 0 7 1, .remove_member 0 1 0]
    (fun log t => decide ((log.drop 1).head?.bind (fun e => e.2.2.registers) = some (0, 7, 1) ∧
      lastOperation 0 1 (log.take 1) = some .removed ∧ verify_exclusion t 0 7 = false)) (by decide +kernel)
  obtain ⟨hregistered, hremoved, hfalse⟩ := of_decide_eq_true htest
  obtain ⟨e, he, hcall⟩ := Option.bind_eq_some_iff.mp hregistered
  obtain ⟨before, hdrop⟩ := List.head?_eq_some_iff.mp he
  refine ⟨log, t, hrun, ⟨log.take 1, e, before, 1, ?_, hcall, hremoved⟩, hfalse⟩
  rw [← hdrop, List.take_append_drop]

end ZkVote.Tree
