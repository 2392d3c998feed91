import ZkVote.Tree.Steps

/-!
# The membership tree: the entries beside the tree

What one call does to the entries of a DAO that its Merkle tree does not need: the cap on
the history, the post-quantum roots, the cooldowns and the map from members to leaves.
-/

open Lib Lib.Outcome

namespace ZkVote.Tree

/-- The DAO a call names. -/
def Call.dao_id : Call → Option Nat
  | .set_voting_contract _ _ => none
  | .init_zeros_cache => none
  | .set_max_roots dao_id _ _ => some dao_id
  | .init_tree dao_id _ _ _ => some dao_id
  | .init_tree_from_registry dao_id _ _ => some dao_id
  | .register_from_registry dao_id _ _ => some dao_id
  | .register_with_caller dao_id _ _ => some dao_id
  | .self_register dao_id _ _ => some dao_id
  | .commit_registration dao_id _ _ => some dao_id
  | .reveal_registration dao_id _ _ _ => some dao_id
  | .advance_epoch dao_id _ => some dao_id
  | .remove_member dao_id _ _ => some dao_id
  | .reinstate_member dao_id _ _ => some dao_id
  | .store_pq_commitment dao_id _ _ _ => some dao_id
  | .migrate_roots_to_pq dao_id _ => some dao_id

/-- The cap a call sets. -/
def Call.caps : Call → Option (Nat × Nat)
  | .set_max_roots dao_id new_max _ => some (dao_id, new_max)
  | _ => none

/-- The member a call reinstates. -/
def Call.reinstates : Call → Option (Nat × Address)
  | .reinstate_member dao_id member _ => some (dao_id, member)
  | _ => none

/-- The DAO whose roots a call migrates. -/
def Call.migrates : Call → Option Nat
  | .migrate_roots_to_pq dao_id _ => some dao_id
  | _ => none

/-- What the migration loop leaves: the roots gathered, the next index and the index map. -/
def migrated (H : Hashes) (dao_id : Nat) (d : DaoTree) (roots : List U256) :
    List U256 × Nat × (U256 → Option Nat) :=
  roots.foldl (fun acc root => migrate_root (pq_root_of H dao_id root) acc)
    ([], d.sha3_next_root_idx.getD 0, d.sha3_root_index)

/-- What an accepted call does to the entries of a DAO beside its tree. -/
structure Aside (H : Hashes) (env : TreeEnv) (call : Call) (dao_id : Nat) (d d' : DaoTree) : Prop where
  revoked_at : d'.revoked_at = d.revoked_at
  max_roots : (∀ n, call.caps ≠ some (dao_id, n)) → d'.max_roots = d.max_roots
  capped : ∀ n, call.caps = some (dao_id, n) → MIN_MAX_ROOTS ≤ n ∧ d' = { d with max_roots := some n }
  sha3 : call.migrates ≠ some dao_id → d'.sha3_roots = d.sha3_roots ∧ d'.sha3_root_index = d.sha3_root_index
  migrated : call.migrates = some dao_id → ∃ roots, d.roots = some roots ∧
    d'.sha3_roots = some (migrated H dao_id d roots).1 ∧ d'.sha3_root_index = (migrated H dao_id d roots).2.2
  registered : ∀ c a, call.registers = some (dao_id, c, a) →
    enforce_registration_cooldown env d a = .ok () ∧
      d'.last_registration_at = Function.update d.last_registration_at a (some env.timestamp)
  reinstated : ∀ a, call.reinstates = some (dao_id, a) →
    (∃ i, d.member_leaf_index a = some i ∧ d.leaf_value i = some zero_value) ∧
      d'.member_leaf_index = Function.update d.member_leaf_index a none ∧
      d'.last_registration_at = Function.update d.last_registration_at a none
  quiet : (∀ c a, call.registers ≠ some (dao_id, c, a)) → (∀ a, call.reinstates ≠ some (dao_id, a)) →
    d'.member_leaf_index = d.member_leaf_index ∧ d'.last_registration_at = d.last_registration_at

/-- Nothing beside the tree has changed, but for the members and their cooldowns. -/
structure SameBeside (d d' : DaoTree) : Prop where
  revoked_at : d'.revoked_at = d.revoked_at
  max_roots : d'.max_roots = d.max_roots
  sha3_roots : d'.sha3_roots = d.sha3_roots
  sha3_root_index : d'.sha3_root_index = d.sha3_root_index

@[refl] theorem SameBeside.refl (d : DaoTree) : SameBeside d d := ⟨rfl, rfl, rfl, rfl⟩

section
variable {H : Hashes} {env : TreeEnv} {t t' : MembershipTree} {dao_id : Nat} {d d' : DaoTree} {call : Call}

/-! ## A registration and a removal -/

theorem insert_leaf_aside {leaf : U256} {index depth : Nat} {r : MembershipTree × DaoTree}
    (h : insert_leaf H env t dao_id d leaf index depth = .ok r) :
    r.1.daos = t.daos ∧ ∃ filled nodes roots next ri, r.2 = { d with
      filled_subtrees := filled, node_hash := nodes, roots := roots, next_root_index := next,
      root_index := ri } := by
  simp only [insert_leaf, bind_eq_ok, pure_eq_ok] at h
  obtain ⟨field, -, filled, -, st, -, published, hpublish, rfl⟩ := h
  obtain ⟨-, roots, ri, heq⟩ := publish_root_ok hpublish
  exact ⟨rfl, some st.filled, st.nodes, roots, _, ri, heq⟩

theorem update_leaf_aside {leaf_index : Nat} {new_value : U256} {r : MembershipTree × DaoTree × Nat}
    (h : update_leaf H env t dao_id d leaf_index new_value = .ok r) :
    r.1.daos = t.daos ∧ ∃ leaves filled nodes roots next ri, r.2.1 = { d with
      leaf_value := leaves, filled_subtrees := filled, node_hash := nodes, roots := roots,
      next_root_index := next, root_index := ri } := by
  simp only [update_leaf, bind_eq_ok, pure_eq_ok] at h
  obtain ⟨field, -, depth, -, filled, -, st, -, published, hpublish, rfl⟩ := h
  obtain ⟨-, roots, ri, heq⟩ := publish_root_ok hpublish
  exact ⟨rfl, _, some st.filled, st.nodes, roots, _, ri, heq⟩

theorem register_leaf_aside {commitment : U256} {member : Address}
    (h : register_leaf H env t dao_id commitment member = .ok t') :
    TouchesOnly t t' dao_id ∧ SameBeside (t.daos dao_id) (t'.daos dao_id) ∧
      (t'.daos dao_id).last_registration_at =
        Function.update (t.daos dao_id).last_registration_at member (some env.timestamp) := by
  simp only [register_leaf, reserve_commitment, bind_eq_ok, pure_eq_ok] at h
  obtain ⟨_, ⟨_, -, rfl⟩, _, -, depth, -, index, -, _, -, inserted, hinsert, next, -, rfl⟩ := h
  obtain ⟨hdaos, filled, nodes, roots, nri, ri, heq⟩ := insert_leaf_aside hinsert
  refine ⟨TouchesOnly.set_dao hdaos, ?_⟩
  rw [MembershipTree.set_dao_daos, Function.update_self, heq]
  exact ⟨⟨rfl, rfl, rfl, rfl⟩, rfl⟩

theorem remove_member_aside {member admin : Address}
    (h : remove_member H env t dao_id member admin = .ok t') :
    TouchesOnly t t' dao_id ∧ SameBeside (t.daos dao_id) (t'.daos dao_id) ∧
      (t'.daos dao_id).member_leaf_index = (t.daos dao_id).member_leaf_index ∧
      (t'.daos dao_id).last_registration_at = (t.daos dao_id).last_registration_at := by
  simp only [remove_member, bind_eq_ok, pure_eq_ok] at h
  obtain ⟨_, -, index, -, x, -, _, -, updated, hupdate, _, -, rfl⟩ := h
  obtain ⟨hdaos, leaves, filled, nodes, roots, nri, ri, heq⟩ := update_leaf_aside hupdate
  refine ⟨TouchesOnly.set_dao hdaos, ?_⟩
  rw [MembershipTree.set_dao_daos, Function.update_self, heq]
  exact ⟨⟨rfl, rfl, rfl, rfl⟩, rfl, rfl⟩

theorem init_storage_aside {depth : Nat} {field : Symbol}
    (h : init_storage H env t dao_id depth field = .ok t') :
    TouchesOnly t t' dao_id ∧ SameBeside (t.daos dao_id) (t'.daos dao_id) ∧
      (t'.daos dao_id).member_leaf_index = (t.daos dao_id).member_leaf_index ∧
      (t'.daos dao_id).last_registration_at = (t.daos dao_id).last_registration_at := by
  simp only [init_storage, init_epoch_zero, bind_eq_ok, pure_eq_ok] at h
  obtain ⟨_, -, _, -, _, -, filled, -, root, -, rfl⟩ := h
  refine ⟨TouchesOnly.set_dao rfl, ?_⟩
  rw [MembershipTree.set_dao_daos, Function.update_self]
  exact ⟨⟨rfl, rfl, rfl, rfl⟩, rfl, rfl⟩

/-! ## Any call -/

theorem Call.dao_id_of_caps {n : Nat} (h : call.caps = some (dao_id, n)) : call.dao_id = some dao_id := by
  cases call <;> simp_all [Call.caps, Call.dao_id]

theorem Call.dao_id_of_reinstates {a : Address} (h : call.reinstates = some (dao_id, a)) :
    call.dao_id = some dao_id := by
  cases call <;> simp_all [Call.reinstates, Call.dao_id]

theorem Call.dao_id_of_migrates (h : call.migrates = some dao_id) : call.dao_id = some dao_id := by
  cases call <;> simp_all [Call.migrates, Call.dao_id]

theorem Call.dao_id_of_registers {c : U256} {a : Address} (h : call.registers = some (dao_id, c, a)) :
    call.dao_id = some dao_id := by
  cases call <;> simp_all [Call.registers, Call.dao_id]

/-- A DAO that the call does not name, or does nothing beside the tree of. -/
theorem Aside.of_same (hcaps : ∀ n, call.caps ≠ some (dao_id, n)) (hmigrates : call.migrates ≠ some dao_id)
    (hregisters : ∀ c a, call.registers ≠ some (dao_id, c, a))
    (hreinstates : ∀ a, call.reinstates ≠ some (dao_id, a)) (same : SameBeside d d')
    (hmembers : d'.member_leaf_index = d.member_leaf_index)
    (htimers : d'.last_registration_at = d.last_registration_at) : Aside H env call dao_id d d' where
  revoked_at := same.revoked_at
  max_roots := fun _ => same.max_roots
  capped := fun n h => absurd h (hcaps n)
  sha3 := fun _ => ⟨same.sha3_roots, same.sha3_root_index⟩
  migrated := fun h => absurd h hmigrates
  registered := fun c a h => absurd h (hregisters c a)
  reinstated := fun a h => absurd h (hreinstates a)
  quiet := fun _ _ => ⟨hmembers, htimers⟩

theorem Aside.of_touches (hcall : call.dao_id = some dao_id) (htouch : TouchesOnly t t' dao_id)
    (h : Aside H env call dao_id (t.daos dao_id) (t'.daos dao_id)) (other : Nat) :
    Aside H env call other (t.daos other) (t'.daos other) := by
  by_cases ho : other = dao_id
  · rw [ho]
    exact h
  · have hne : call.dao_id ≠ some other := by
      rw [hcall]
      exact fun heq => ho (Option.some.inj heq).symm
    rw [htouch other ho]
    exact .of_same (fun n h => hne (Call.dao_id_of_caps h)) (fun h => hne (Call.dao_id_of_migrates h))
      (fun c a h => hne (Call.dao_id_of_registers h)) (fun a h => hne (Call.dao_id_of_reinstates h))
      (.refl _) rfl rfl

theorem Aside.of_registers {commitment : U256} {member : Address}
    (hcall : call.registers = some (dao_id, commitment, member))
    (hcooldown : enforce_registration_cooldown env d member = .ok ()) (same : SameBeside d d')
    (htimers : d'.last_registration_at = Function.update d.last_registration_at member (some env.timestamp)) :
    Aside H env call dao_id d d' where
  revoked_at := same.revoked_at
  max_roots := fun _ => same.max_roots
  capped := fun n h => by cases call <;> simp_all [Call.registers, Call.caps]
  sha3 := fun _ => ⟨same.sha3_roots, same.sha3_root_index⟩
  migrated := fun h => by cases call <;> simp_all [Call.registers, Call.migrates]
  registered := fun c a h => by
    rw [hcall, Option.some.injEq, Prod.mk.injEq, Prod.mk.injEq] at h
    obtain ⟨-, -, rfl⟩ := h
    exact ⟨hcooldown, htimers⟩
  reinstated := fun a h => by cases call <;> simp_all [Call.registers, Call.reinstates]
  quiet := fun h => absurd hcall (h commitment member)

theorem register_aside {commitment : U256} {member : Address}
    (hcall : call.registers = some (dao_id, commitment, member))
    (hcooldown : enforce_registration_cooldown env (t.daos dao_id) member = .ok ())
    (h : register_leaf H env t dao_id commitment member = .ok t') (other : Nat) :
    Aside H env call other (t.daos other) (t'.daos other) := by
  obtain ⟨htouch, same, htimers⟩ := register_leaf_aside h
  exact .of_touches (Call.dao_id_of_registers hcall) htouch (.of_registers hcall hcooldown same htimers) other

theorem reveal_aside {commitment : U256} {salt : BytesN 32} {caller : Address}
    (h : reveal_registration H env t dao_id commitment salt caller = .ok t') (other : Nat) :
    Aside H env (.reveal_registration dao_id commitment salt caller) other (t.daos other) (t'.daos other) := by
  simp only [reveal_registration, register_with_caller_internal, bind_eq_ok] at h
  obtain ⟨_, -, pending, -, _, -, _, -, _, -, _, -, _, hcooldown, _, -, h⟩ := h
  obtain ⟨htouch, same, htimers⟩ := register_leaf_aside h
  rw [MembershipTree.set_dao_daos, Function.update_self] at hcooldown same htimers
  have htouch' : TouchesOnly t t' dao_id := fun other hne => by
    rw [htouch other hne, MembershipTree.set_dao_daos, Function.update_of_ne hne]
  refine .of_touches rfl htouch' (.of_registers rfl ?_ ?_ htimers) other
  · exact hcooldown
  · exact ⟨same.revoked_at, same.max_roots, same.sha3_roots, same.sha3_root_index⟩

theorem step_aside (h : step H t env call = .ok t') (dao_id : Nat) :
    Aside H env call dao_id (t.daos dao_id) (t'.daos dao_id) := by
  cases call with
  | set_voting_contract voting_contract registry =>
    simp only [step, set_voting_contract, bind_eq_ok, pure_eq_ok] at h
    obtain ⟨_, -, _, -, rfl⟩ := h
    exact .of_same (by simp [Call.caps]) (by simp [Call.migrates]) (by simp [Call.registers])
      (by simp [Call.reinstates]) (.refl _) rfl rfl
  | set_max_roots d new_max admin =>
    simp only [step, set_max_roots, bind_eq_ok, require_eq_ok, pure_eq_ok] at h
    obtain ⟨_, -, _, hrange, rfl⟩ := h
    refine .of_touches rfl (TouchesOnly.set_dao rfl) ?_ dao_id
    rw [MembershipTree.set_dao_daos, Function.update_self]
    refine ⟨rfl, fun hcaps => absurd rfl (hcaps new_max), fun n hn => ?_, fun _ => ⟨rfl, rfl⟩,
      by simp [Call.migrates], by simp [Call.registers], by simp [Call.reinstates], fun _ _ => ⟨rfl, rfl⟩⟩
    cases hn
    exact ⟨by omega, rfl⟩
  | init_tree d depth field admin =>
    simp only [step, init_tree, bind_eq_ok] at h
    obtain ⟨_, -, h⟩ := h
    obtain ⟨htouch, same, hmembers, htimers⟩ := init_storage_aside h
    exact .of_touches rfl htouch (.of_same (by simp [Call.caps]) (by simp [Call.migrates])
      (by simp [Call.registers]) (by simp [Call.reinstates]) same hmembers htimers) dao_id
  | init_tree_from_registry d depth field =>
    simp only [step, init_tree_from_registry, bind_eq_ok] at h
    obtain ⟨_, -, h⟩ := h
    obtain ⟨htouch, same, hmembers, htimers⟩ := init_storage_aside h
    exact .of_touches rfl htouch (.of_same (by simp [Call.caps]) (by simp [Call.migrates])
      (by simp [Call.registers]) (by simp [Call.reinstates]) same hmembers htimers) dao_id
  | init_zeros_cache =>
    cases h
    exact .of_same (by simp [Call.caps]) (by simp [Call.migrates]) (by simp [Call.registers])
      (by simp [Call.reinstates]) (.refl _) rfl rfl
  | register_from_registry d commitment member =>
    simp only [step, register_from_registry, bind_eq_ok] at h
    obtain ⟨_, -, _, -, _, hcooldown, h⟩ := h
    exact register_aside rfl hcooldown h dao_id
  | register_with_caller d commitment caller =>
    simp only [step, register_with_caller, register_with_caller_internal, bind_eq_ok] at h
    obtain ⟨_, -, _, -, _, hcooldown, _, -, h⟩ := h
    exact register_aside rfl hcooldown h dao_id
  | self_register d commitment member =>
    simp only [step, self_register, bind_eq_ok] at h
    obtain ⟨_, -, _, -, _, -, _, hcooldown, _, -, h⟩ := h
    exact register_aside rfl hcooldown h dao_id
  | commit_registration d commitment_hash caller =>
    simp only [step, commit_registration, bind_eq_ok, pure_eq_ok] at h
    obtain ⟨_, -, _, -, _, -, _, -, _, -, rfl⟩ := h
    refine .of_touches rfl (TouchesOnly.set_dao rfl) ?_ dao_id
    rw [MembershipTree.set_dao_daos, Function.update_self]
    exact .of_same (by simp [Call.caps]) (by simp [Call.migrates]) (by simp [Call.registers])
      (by simp [Call.reinstates]) ⟨rfl, rfl, rfl, rfl⟩ rfl rfl
  | reveal_registration d commitment salt caller => exact reveal_aside h dao_id
  | advance_epoch d admin =>
    simp only [step, advance_epoch, bind_eq_ok, pure_eq_ok] at h
    obtain ⟨_, -, _, -, _, -, rfl⟩ := h
    refine .of_touches rfl (TouchesOnly.set_dao rfl) ?_ dao_id
    rw [MembershipTree.set_dao_daos, Function.update_self]
    exact .of_same (by simp [Call.caps]) (by simp [Call.migrates]) (by simp [Call.registers])
      (by simp [Call.reinstates]) ⟨rfl, rfl, rfl, rfl⟩ rfl rfl
  | remove_member d member admin =>
    obtain ⟨htouch, same, hmembers, htimers⟩ := remove_member_aside h
    exact .of_touches rfl htouch (.of_same (by simp [Call.caps]) (by simp [Call.migrates])
      (by simp [Call.registers]) (by simp [Call.reinstates]) same hmembers htimers) dao_id
  | reinstate_member d member admin =>
    simp only [step, reinstate_member, bind_eq_ok, orPanic_eq_ok, require_eq_ok, pure_eq_ok] at h
    obtain ⟨_, -, index, hindex, value, hvalue, _, rfl, rfl⟩ := h
    refine .of_touches rfl (TouchesOnly.set_dao rfl) ?_ dao_id
    rw [MembershipTree.set_dao_daos, Function.update_self]
    refine ⟨rfl, fun _ => rfl, by simp [Call.caps], fun _ => ⟨rfl, rfl⟩, by simp [Call.migrates],
      by simp [Call.registers], fun a ha => ?_, fun _ h => absurd rfl (h member)⟩
    cases ha
    exact ⟨⟨index, hindex, hvalue⟩, rfl, rfl⟩
  | store_pq_commitment d proposal_id member pq_commitment =>
    simp only [step, store_pq_commitment, bind_eq_ok, pure_eq_ok] at h
    obtain ⟨_, -, _, -, _, -, rfl⟩ := h
    exact .of_same (by simp [Call.caps]) (by simp [Call.migrates]) (by simp [Call.registers])
      (by simp [Call.reinstates]) (.refl _) rfl rfl
  | migrate_roots_to_pq d admin =>
    simp only [step, migrate_roots_to_pq, bind_eq_ok, orPanic_eq_ok, pure_eq_ok] at h
    obtain ⟨_, -, roots, hroots, rfl⟩ := h
    refine .of_touches rfl (TouchesOnly.set_dao rfl) ?_ dao_id
    rw [MembershipTree.set_dao_daos, Function.update_self]
    exact ⟨rfl, fun _ => rfl, by simp [Call.caps], fun h => absurd rfl h, fun _ => ⟨roots, hroots, rfl, rfl⟩,
      by simp [Call.registers], by simp [Call.reinstates], fun _ _ => ⟨rfl, rfl⟩⟩

end

end ZkVote.Tree
