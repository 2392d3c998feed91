import ZkVote.Tree.Asides
import ZkVote.Tree.Revocation

/-!
# The membership tree: removal and reinstatement

A removed slot is recognised by its zero leaf. The map from members to leaves keeps the
slot until the member is reinstated, which forgets the slot and writes no leaf.
-/

open Lib Lib.Outcome

namespace ZkVote.Tree

inductive LeafOperation where
  | registered (commitment : U256)
  | removed
  | reinstated
  deriving DecidableEq

/-- What a call does to the leaf of a member. -/
def Call.operation (dao_id : Nat) (member : Address) (call : Call) : Option LeafOperation :=
  match call.registers with
  | some (d, commitment, a) => if d = dao_id ∧ a = member then some (.registered commitment) else none
  | none =>
    if call.removes = some (dao_id, member) then some .removed
    else if call.reinstates = some (dao_id, member) then some .reinstated
    else none

def lastOperation (dao_id : Nat) (member : Address) (log : List (MembershipTree × TreeEnv × Call)) :
    Option LeafOperation :=
  log.findSome? fun e => e.2.2.operation dao_id member

/-- What the maps hold for a member after its last operation. -/
def LeafState (d : DaoTree) (member : Address) : Option LeafOperation → Prop
  | none => d.member_leaf_index member = none
  | some (.registered commitment) =>
    ∃ i, d.member_leaf_index member = some i ∧ d.leaf_value i = some commitment
  | some .removed => ∃ i, d.member_leaf_index member = some i ∧ d.leaf_value i = some zero_value
  | some .reinstated => d.member_leaf_index member = none

/-- No two members have one leaf, and the leaf of a member is stored. -/
structure MembersApart (d : DaoTree) : Prop where
  distinct : ∀ a b i, d.member_leaf_index a = some i → d.member_leaf_index b = some i → a = b
  stored : ∀ a i, d.member_leaf_index a = some i → d.leaf_value i ≠ none

section
variable {H : Hashes} {registry member : Address} {dao_id : Nat} {d d' : DaoTree} {t t' : MembershipTree}
  {log : List (MembershipTree × TreeEnv × Call)} {call : Call} {env : TreeEnv} {last : Option LeafOperation}
  {commitment : U256}

/-! ## Operations -/

theorem operation_of_registers {c : U256} (h : call.registers = some (dao_id, c, member)) :
    call.operation dao_id member = some (.registered c) := by
  unfold Call.operation
  rw [h]
  simp

theorem operation_of_removes (h : call.removes = some (dao_id, member)) :
    call.operation dao_id member = some .removed := by
  cases call <;> simp_all [Call.operation, Call.registers, Call.removes]

theorem operation_of_reinstates (h : call.reinstates = some (dao_id, member)) :
    call.operation dao_id member = some .reinstated := by
  cases call <;> simp_all [Call.operation, Call.registers, Call.removes, Call.reinstates]

theorem operation_eq_none (hregisters : ∀ c, call.registers ≠ some (dao_id, c, member))
    (hremoves : call.removes ≠ some (dao_id, member)) (hreinstates : call.reinstates ≠ some (dao_id, member)) :
    call.operation dao_id member = none := by
  unfold Call.operation
  split
  · rename_i d c a hcall
    refine if_neg ?_
    rintro ⟨rfl, rfl⟩
    exact hregisters c hcall
  · rw [if_neg hremoves, if_neg hreinstates]

theorem registers_of_operation (h : call.operation dao_id member = some (.registered commitment)) :
    call.registers = some (dao_id, commitment, member) := by
  unfold Call.operation at h
  split at h
  · rename_i d c a hcall
    split at h
    · rename_i heq
      cases h
      rw [hcall, heq.1, heq.2]
    · cases h
  · split at h
    · cases h
    · split at h <;> cases h

theorem removes_of_operation (h : call.operation dao_id member = some .removed) :
    call.removes = some (dao_id, member) := by
  unfold Call.operation at h
  split at h
  · split at h <;> cases h
  · split at h
    · assumption
    · split at h <;> cases h

theorem reinstates_of_operation (h : call.operation dao_id member = some .reinstated) :
    call.reinstates = some (dao_id, member) := by
  unfold Call.operation at h
  split at h
  · split at h <;> cases h
  · split at h
    · cases h
    · split at h
      · assumption
      · cases h

theorem lastOperation_cons_of_some {op : LeafOperation} (h : call.operation dao_id member = some op) :
    lastOperation dao_id member ((t, env, call) :: log) = some op := by
  unfold lastOperation
  rw [List.findSome?_cons, h]

theorem lastOperation_cons_of_none (h : call.operation dao_id member = none) :
    lastOperation dao_id member ((t, env, call) :: log) = lastOperation dao_id member log := by
  unfold lastOperation
  rw [List.findSome?_cons, h]

theorem lastOperation_append (after : List (MembershipTree × TreeEnv × Call)) :
    lastOperation dao_id member (after ++ log) =
      (lastOperation dao_id member after).or (lastOperation dao_id member log) := by
  unfold lastOperation
  rw [List.findSome?_append]

/-! ## The leaves of the members -/

/-- The next leaf is not stored, so no member has it. -/
theorem MembersApart.next_free {m : Members} (h : MembersApart d) (hd : Represents H d m) (a : Address) :
    d.member_leaf_index a ≠ some m.size := by
  refine fun ha => h.stored a m.size ha ?_
  rw [hd.leaf_value, if_neg (lt_irrefl m.size)]

theorem MembersApart.register {m : Members} {room : m.size < 2 ^ m.depth} {k : Nat} (h : MembersApart d)
    (hr : Registered H d d' m commitment member room k) : MembersApart d' := by
  have hfree := h.next_free hr.before
  refine ⟨fun a b i ha hb => ?_, fun a i ha => ?_⟩
  · rw [hr.member_leaf_index, Function.update_apply] at ha hb
    split at ha <;> split at hb
    · simp [*]
    · cases ha
      exact absurd hb (hfree b)
    · cases hb
      exact absurd ha (hfree a)
    · exact h.distinct a b i ha hb
  · rw [hr.member_leaf_index, Function.update_apply] at ha
    rw [hr.leaf_value, Function.update_apply]
    split
    · simp
    · rename_i hne
      split at ha
      · cases ha
        exact absurd rfl hne
      · exact h.stored a i ha

theorem DaoStep.membersApart (hstep : DaoStep H call dao_id d d') (h : MembersApart d) : MembersApart d' := by
  cases hstep with
  | keep same =>
    have hold : ∀ a i, d'.member_leaf_index a = some i → d.member_leaf_index a = some i := fun a i hi => by
      rcases same.member_leaf_index a with heq | hnone
      · rwa [heq] at hi
      · rw [hnone] at hi
        cases hi
    refine ⟨fun a b i ha hb => h.distinct a b i (hold a i ha) (hold b i hb), fun a i ha => ?_⟩
    rw [same.leaf_value]
    exact h.stored a i (hold a i ha)
  | init m hi =>
    have hnone : ∀ a, d'.member_leaf_index a = none := fun a => by
      rw [hi.member_leaf_index, hi.before.member_leaf_index]
    refine ⟨fun a b i ha => ?_, fun a i ha => ?_⟩
    · rw [hnone] at ha
      cases ha
    · rw [hnone] at ha
      cases ha
  | register m commitment member room k hcall hremoves hr => exact h.register hr
  | remove m member index hlt k hcall hregisters hr =>
    refine ⟨?_, fun a i ha => ?_⟩
    · rw [hr.member_leaf_index]
      exact h.distinct
    · rw [hr.member_leaf_index] at ha
      rw [hr.leaf_value, Function.update_apply]
      split
      · simp
      · exact h.stored a i ha

theorem LeafState.of_same (h : LeafState d member last)
    (hmember : d'.member_leaf_index member = d.member_leaf_index member)
    (hleaf : ∀ i, d.member_leaf_index member = some i → d'.leaf_value i = d.leaf_value i) :
    LeafState d' member last := by
  unfold LeafState at h ⊢
  split at h
  · rwa [hmember]
  · obtain ⟨i, hi, hvalue⟩ := h
    exact ⟨i, hmember.trans hi, (hleaf i hi).trans hvalue⟩
  · obtain ⟨i, hi, hvalue⟩ := h
    exact ⟨i, hmember.trans hi, (hleaf i hi).trans hvalue⟩
  · rwa [hmember]

theorem LeafState.keep (h : LeafState (t.daos dao_id) member (lastOperation dao_id member log))
    (haside : Aside H env call dao_id (t.daos dao_id) (t'.daos dao_id))
    (same : SameTree (t.daos dao_id) (t'.daos dao_id))
    (hregisters : ∀ c a, call.registers ≠ some (dao_id, c, a)) (hremoves : ∀ a, call.removes ≠ some (dao_id, a)) :
    LeafState (t'.daos dao_id) member (lastOperation dao_id member ((t, env, call) :: log)) := by
  have hleaf : ∀ i, (t.daos dao_id).member_leaf_index member = some i →
      (t'.daos dao_id).leaf_value i = (t.daos dao_id).leaf_value i := fun i _ => by rw [same.leaf_value]
  by_cases hreinstates : call.reinstates = some (dao_id, member)
  · rw [lastOperation_cons_of_some (operation_of_reinstates hreinstates)]
    obtain ⟨-, hmembers, -⟩ := haside.reinstated member hreinstates
    rw [LeafState, hmembers, Function.update_self]
  · rw [lastOperation_cons_of_none
      (operation_eq_none (fun c => hregisters c member) (hremoves member) hreinstates)]
    refine h.of_same ?_ hleaf
    by_cases hother : ∃ a, call.reinstates = some (dao_id, a)
    · obtain ⟨a, ha⟩ := hother
      have hne : member ≠ a := by
        rintro rfl
        exact hreinstates ha
      obtain ⟨-, hmembers, -⟩ := haside.reinstated a ha
      rw [hmembers, Function.update_of_ne hne]
    · rw [(haside.quiet hregisters (not_exists.mp hother)).1]

theorem LeafState.register {m : Members} {a : Address} {room : m.size < 2 ^ m.depth} {k : Nat}
    (h : LeafState (t.daos dao_id) member (lastOperation dao_id member log))
    (hr : Registered H (t.daos dao_id) (t'.daos dao_id) m commitment a room k)
    (hcall : call.registers = some (dao_id, commitment, a)) (hapart : MembersApart (t.daos dao_id)) :
    LeafState (t'.daos dao_id) member (lastOperation dao_id member ((t, env, call) :: log)) := by
  by_cases ha : a = member
  · rw [ha] at hcall
    rw [lastOperation_cons_of_some (operation_of_registers hcall)]
    refine ⟨m.size, ?_, ?_⟩
    · rw [hr.member_leaf_index, ha, Function.update_self]
    · rw [hr.leaf_value, Function.update_self]
  · have hnone : call.operation dao_id member = none := by
      unfold Call.operation
      rw [hcall]
      simp [ha]
    rw [lastOperation_cons_of_none hnone]
    refine h.of_same ?_ fun i hindex => ?_
    · rw [hr.member_leaf_index, Function.update_of_ne (Ne.symm ha)]
    · have hne : i ≠ m.size := by
        rintro rfl
        exact hapart.next_free hr.before member hindex
      rw [hr.leaf_value, Function.update_of_ne hne]

theorem LeafState.remove {m : Members} {a : Address} {index k : Nat} {hlt : index < m.size}
    (h : LeafState (t.daos dao_id) member (lastOperation dao_id member log))
    (hr : Removed H (t.daos dao_id) (t'.daos dao_id) m a index hlt k) (hcall : call.removes = some (dao_id, a))
    (hregisters : ∀ c a, call.registers ≠ some (dao_id, c, a)) (hapart : MembersApart (t.daos dao_id)) :
    LeafState (t'.daos dao_id) member (lastOperation dao_id member ((t, env, call) :: log)) := by
  by_cases ha : a = member
  · rw [ha] at hcall
    rw [lastOperation_cons_of_some (operation_of_removes hcall)]
    refine ⟨index, ?_, ?_⟩
    · rw [hr.member_leaf_index, ← ha, hr.member_at]
    · rw [hr.leaf_value, Function.update_self]
  · have hremoves : call.removes ≠ some (dao_id, member) := by
      rw [hcall]
      simp [ha]
    have hreinstates : call.reinstates ≠ some (dao_id, member) := by
      cases call <;> simp_all [Call.removes, Call.reinstates]
    rw [lastOperation_cons_of_none (operation_eq_none (fun c => hregisters c member) hremoves hreinstates)]
    refine h.of_same (by rw [hr.member_leaf_index]) fun i hindex => ?_
    have hne : i ≠ index := by
      rintro rfl
      exact ha (hapart.distinct a member i hr.member_at hindex)
    rw [hr.leaf_value, Function.update_of_ne hne]

theorem LeafState.step (h : LeafState (t.daos dao_id) member (lastOperation dao_id member log))
    (hstep : DaoStep H call dao_id (t.daos dao_id) (t'.daos dao_id))
    (haside : Aside H env call dao_id (t.daos dao_id) (t'.daos dao_id)) (hapart : MembersApart (t.daos dao_id)) :
    LeafState (t'.daos dao_id) member (lastOperation dao_id member ((t, env, call) :: log)) := by
  cases hstep with
  | keep same hregisters hremoves => exact h.keep haside same hregisters hremoves
  | init m hi hregisters hremoves =>
    have hnone : (t.daos dao_id).member_leaf_index = fun _ => none := hi.before.member_leaf_index
    have hreinstates : call.reinstates ≠ some (dao_id, member) := fun hcall => by
      obtain ⟨⟨i, hindex, -⟩, -⟩ := haside.reinstated member hcall
      rw [hnone] at hindex
      cases hindex
    rw [lastOperation_cons_of_none
      (operation_eq_none (fun c => hregisters c member) (hremoves member) hreinstates)]
    refine h.of_same (by rw [hi.member_leaf_index]) fun i hindex => ?_
    rw [hnone] at hindex
    cases hindex
  | register m commitment a room k hcall hremoves hr => exact h.register hr hcall hapart
  | remove m a index hlt k hcall hregisters hr => exact h.remove hr hcall hregisters hapart

theorem TreeRun.membersApart (hrun : TreeRun H registry log t) (dao_id : Nat) : MembersApart (t.daos dao_id) := by
  refine Run.invariant_log (P := fun _ t => MembersApart (t.daos dao_id)) ⟨?_, ?_⟩
    (fun log t call t' hr h hs => ((step_ok (TreeRun.ok hr) hs).daos dao_id).membersApart h) hrun
  · rintro a b i ⟨⟩
  · rintro a i ⟨⟩

theorem TreeRun.leafState (hrun : TreeRun H registry log t) (dao_id : Nat) (member : Address) :
    LeafState (t.daos dao_id) member (lastOperation dao_id member log) := by
  refine Run.invariant_log (P := fun log t => LeafState (t.daos dao_id) member (lastOperation dao_id member log))
    ?_ (fun log t call t' hr h hs => ?_) hrun
  · unfold lastOperation LeafState
    rfl
  · exact h.step ((step_ok (TreeRun.ok hr) hs).daos dao_id) (step_aside hs dao_id) (TreeRun.membersApart hr dao_id)

/-! ## Reinstatement -/

theorem mem_registrations {c : U256} {e : MembershipTree × TreeEnv × Call} (he : e ∈ log)
    (hcall : e.2.2.registers = some (dao_id, c, member)) : ∃ i, (c, i) ∈ registrations dao_id log := by
  unfold registrations
  refine ⟨(e.1.daos dao_id).next_leaf_index, List.mem_filterMap.mpr ⟨e, he, ?_⟩⟩
  simp [hcall]

/-- In every run, a member whose last registration is not one of the commitment 0 is reinstated only after its
removal. The reinstatement restores nothing: the leaf stays zero, every commitment of the member stays used, and
only its slot and its cooldown are forgotten. -/
theorem reinstatement_clears (hrun : TreeRun H registry log t) {admin : Address}
    (h : step H t env (.reinstate_member dao_id member admin) = .ok t') :
    (lastOperation dao_id member log ≠ some (.registered zero_value) →
      lastOperation dao_id member log = some .removed) ∧
    (t'.daos dao_id).leaf_value = (t.daos dao_id).leaf_value ∧
    (∃ i, (t.daos dao_id).member_leaf_index member = some i ∧ (t'.daos dao_id).leaf_value i = some zero_value) ∧
    (∀ e ∈ log, ∀ c, e.2.2.registers = some (dao_id, c, member) → (t'.daos dao_id).commitment_used c = true) ∧
    (t'.daos dao_id).member_leaf_index member = none ∧
    ∀ env', enforce_registration_cooldown env' (t'.daos dao_id) member = .ok () := by
  have haside := step_aside h dao_id
  obtain ⟨⟨i, hindex, hvalue⟩, hmembers, htimers⟩ := haside.reinstated member rfl
  have hstate := hrun.leafState dao_id member
  have hrun' : TreeRun H registry ((t, env, .reinstate_member dao_id member admin) :: log) t' := .call hrun h
  have same : (t'.daos dao_id).leaf_value = (t.daos dao_id).leaf_value := by
    simp only [step, reinstate_member, bind_eq_ok, pure_eq_ok] at h
    obtain ⟨_, -, _, -, _, -, _, -, rfl⟩ := h
    rw [MembershipTree.set_dao_daos, Function.update_self]
  refine ⟨fun hne => ?_, same, ⟨i, hindex, by rw [same, hvalue]⟩, fun e he c hcall => ?_, ?_, fun env' => ?_⟩
  · cases hlast : lastOperation dao_id member log with
    | none =>
      rw [hlast, LeafState, hindex] at hstate
      cases hstate
    | some op =>
      rw [hlast] at hstate hne
      cases op with
      | registered commitment =>
        obtain ⟨j, hj, hcommitment⟩ := hstate
        rw [hindex, Option.some.injEq] at hj
        rw [← hj, hvalue, Option.some.injEq] at hcommitment
        exact absurd (by rw [hcommitment]) hne
      | removed => rfl
      | reinstated =>
        rw [LeafState, hindex] at hstate
        cases hstate
  · obtain ⟨k, hk⟩ := mem_registrations (List.mem_cons_of_mem (t, env, .reinstate_member dao_id member admin) he) hcall
    exact ((TreeRun.remembered hrun' dao_id).indexed _ hk).2
  · rw [hmembers, Function.update_self]
  · unfold enforce_registration_cooldown
    rw [htimers, Function.update_self]

end

theorem reinstatement_clears_after_a_removal : ∃ log t t', TreeRun sampleHashes 0 log t ∧
    step sampleHashes t sampleEnv (.reinstate_member 0 1 0) = .ok t' ∧
    (lastOperation 0 1 log ≠ some (.registered zero_value) → lastOperation 0 1 log = some .removed) ∧
    (t'.daos 0).leaf_value = (t.daos 0).leaf_value ∧
    (∃ i, (t.daos 0).member_leaf_index 1 = some i ∧ (t'.daos 0).leaf_value i = some zero_value) ∧
    (∀ e ∈ log, ∀ c, e.2.2.registers = some (0, c, 1) → (t'.daos 0).commitment_used c = true) ∧
    (t'.daos 0).member_leaf_index 1 = none ∧
    ∀ env', enforce_registration_cooldown env' (t'.daos 0) 1 = .ok () := by
  obtain ⟨log, t, hrun, htest⟩ := exists_run (H := sampleHashes) (r := 0)
    [.init_tree 0 1 "BN254" 0, .register_from_registry 0 7 1, .remove_member 0 1 0]
    (fun _ t => (step sampleHashes t sampleEnv (.reinstate_member 0 1 0)).isOk) (by decide +kernel)
  obtain ⟨t', ht'⟩ := isOk_iff.mp htest
  exact ⟨log, t, t', hrun, ht', reinstatement_clears hrun ht'⟩

/-- A reinstated member has a zero leaf, and a member registered with the commitment 0 is reinstated at once. -/
theorem reinstated_leaf_stays_zero :
    (∃ log t t', TreeRun sampleHashes 0 log t ∧ lastOperation 0 1 log = some .removed ∧
      (∃ e ∈ log, e.2.2.registers = some (0, 7, 1)) ∧
      step sampleHashes t sampleEnv (.reinstate_member 0 1 0) = .ok t' ∧
      (t'.daos 0).leaf_value 0 = some zero_value ∧ (t'.daos 0).member_leaf_index 1 = none) ∧
    ∃ log t t', TreeRun sampleHashes 0 log t ∧ lastOperation 0 1 log = some (.registered 0) ∧
      step sampleHashes t sampleEnv (.reinstate_member 0 1 0) = .ok t' := by
  constructor
  · obtain ⟨log, t, hrun, htest⟩ := exists_run (H := sampleHashes) (r := 0)
      [.init_tree 0 1 "BN254" 0, .register_from_registry 0 7 1, .remove_member 0 1 0]
      (fun log t => decide (lastOperation 0 1 log = some .removed ∧
        log.any (fun e => decide (e.2.2.registers = some (0, 7, 1)))) &&
        (step sampleHashes t sampleEnv (.reinstate_member 0 1 0)).toOption.any fun t' : MembershipTree =>
          decide ((t'.daos 0).leaf_value 0 = some zero_value ∧ (t'.daos 0).member_leaf_index 1 = none))
      (by decide +kernel)
    rw [Bool.and_eq_true] at htest
    obtain ⟨hlast, hregistered⟩ := of_decide_eq_true htest.1
    obtain ⟨e, he, hcall⟩ := List.any_eq_true.mp hregistered
    obtain ⟨t', ht', hleaf⟩ := (Option.any_eq_true _ _).mp htest.2
    exact ⟨log, t, t', hrun, hlast, ⟨e, he, of_decide_eq_true hcall⟩, toOption_eq_some.mp ht',
      of_decide_eq_true hleaf⟩
  · obtain ⟨log, t, hrun, htest⟩ := exists_run (H := sampleHashes) (r := 0)
      [.init_tree 0 1 "BN254" 0, .register_from_registry 0 0 1]
      (fun log t => decide (lastOperation 0 1 log = some (.registered 0)) &&
        (step sampleHashes t sampleEnv (.reinstate_member 0 1 0)).isOk) (by decide +kernel)
    rw [Bool.and_eq_true] at htest
    obtain ⟨t', ht'⟩ := isOk_iff.mp htest.2
    exact ⟨log, t, t', hrun, of_decide_eq_true htest.1, ht'⟩

end ZkVote.Tree
