import ZkVote.Tree.History

/-!
# The membership tree: evictions

A root loses its index when a full history pushes it out. The tree asks the
voting contract first, if it knows one.
-/

open Lib Lib.Outcome

namespace ZkVote.Tree

/-- One more root pushes out the oldest. -/
def Full (d : DaoTree) (oldest : U256) : Prop :=
  ∃ rest, d.roots = some (oldest :: rest) ∧ get_max_roots d < rest.length + 2

/-- The call pushes the root out of the history of a DAO, and does not publish it again. -/
def Evicts (H : Hashes) (t : MembershipTree) (call : Call) (dao_id : Nat) (root : U256) : Prop :=
  Full (t.daos dao_id) root ∧ ∃ index value, call.writes t = some (dao_id, index, value) ∧
    rootAfter H (t.daos dao_id) index value ≠ root

/-- The call publishes the root, which has index `k`, under another index. -/
def Reindexes (H : Hashes) (t : MembershipTree) (call : Call) (dao_id : Nat) (root : U256) (k : Nat) : Prop :=
  (t.daos dao_id).next_root_index.getD 0 ≠ k ∧ ∃ index value, call.writes t = some (dao_id, index, value) ∧
    rootAfter H (t.daos dao_id) index value = root

section
variable {H : Hashes} {env : TreeEnv} {t t' : MembershipTree} {dao_id : Nat} {d d' : DaoTree}
  {call : Call} {oldest root : U256} {k : Nat}

/-! ## The index -/

theorem full_iff {rest : List U256} (hroots : d.roots = some (oldest :: rest)) {r : U256} :
    Full d r ↔ r = oldest ∧ get_max_roots d < rest.length + 2 := by
  constructor
  · rintro ⟨rest', hroots', hmax⟩
    rw [hroots, Option.some.injEq, List.cons.injEq] at hroots'
    obtain ⟨rfl, rfl⟩ := hroots'
    exact ⟨rfl, hmax⟩
  · rintro ⟨rfl, hmax⟩
    exact ⟨rest, hroots, hmax⟩

theorem writes_ne (hregisters : ∀ c a, call.registers ≠ some (dao_id, c, a))
    (hremoves : ∀ a, call.removes ≠ some (dao_id, a)) (index : Nat) (value : U256) :
    call.writes t ≠ some (dao_id, index, value) := by
  intro hwrites
  unfold Call.writes at hwrites
  split at hwrites
  · rename_i d c a hcall
    simp only [Option.map_eq_some_iff, Prod.mk.injEq] at hwrites
    obtain ⟨_, _, rfl, _⟩ := hwrites
    exact hregisters c a hcall
  · split at hwrites
    · rename_i d a hcall
      simp only [Option.map_eq_some_iff, Prod.mk.injEq] at hwrites
      obtain ⟨_, _, rfl, _⟩ := hwrites
      exact hremoves a hcall
    · cases hwrites

theorem Registered.writes {m : Members} {commitment : U256} {member : Address} {room : m.size < 2 ^ m.depth}
    (hr : Registered H (t.daos dao_id) d' m commitment member room k)
    (hcall : call.registers = some (dao_id, commitment, member)) :
    call.writes t = some (dao_id, m.size, commitment) := by
  simp [Call.writes, hcall, hr.before.next_leaf_index]

theorem Removed.writes {m : Members} {member : Address} {index : Nat} {hlt : index < m.size}
    (hr : Removed H (t.daos dao_id) d' m member index hlt k) (hcall : call.removes = some (dao_id, member)) :
    call.writes t = some (dao_id, index, zero_value) := by
  have hnone : call.registers = none := by
    cases call <;> simp_all [Call.registers, Call.removes]
  simp [Call.writes, hcall, hnone, hr.member_at]

theorem Published.index_iff (hp : Published d d' root k) {old : U256} {rest : List U256}
    (hroots : d.roots = some (old :: rest)) {r : U256} (hr : d.root_index r ≠ none) :
    d'.root_index r ≠ none ↔ ¬ (Full d r ∧ root ≠ r) := by
  rw [full_iff hroots]
  rcases hp.cons hroots with ⟨hmax, -, hindex⟩ | ⟨hmax, -, hindex⟩
  · rw [hindex]
    by_cases hnew : r = root
    · simp [hnew]
    · by_cases hold : r = old
      · have hne : root ≠ old := fun heq => hnew (hold.trans heq.symm)
        simp [hold, hmax, hne, hne.symm]
      · simp [hnew, hold, hr]
  · rw [hindex]
    by_cases hnew : r = root <;> simp [hnew, hmax, hr]

theorem step_index_iff (hok : TreeOk H t) (h : step H t env call = .ok t')
    (hr : (t.daos dao_id).root_index root ≠ none) :
    (t'.daos dao_id).root_index root ≠ none ↔ ¬ Evicts H t call dao_id root := by
  unfold Evicts
  cases (step_ok hok h).daos dao_id with
  | keep same hregisters hremoves =>
    rw [same.root_index]
    refine iff_of_true hr ?_
    rintro ⟨-, index, value, hwrites, -⟩
    exact writes_ne hregisters hremoves index value hwrites
  | init m hi =>
    rw [hi.before.root_index] at hr
    exact absurd rfl hr
  | register m commitment member room k hcall hremoves hreg =>
    obtain ⟨old, rest, hroots⟩ := hreg.before.roots_cons
    rw [hreg.published.index_iff hroots hr, hreg.writes hcall]
    simp [hreg.before.rootAfter_append room]
  | remove m member index hlt k hcall hregisters hrem =>
    obtain ⟨old, rest, hroots⟩ := hrem.before.roots_cons
    rw [hrem.published.index_iff hroots hr, hrem.writes hcall]
    simp [hrem.before.rootAfter_clear hlt]

theorem Published.index_eq_iff (hp : Published d d' root k) {old : U256} {rest : List U256}
    (hroots : d.roots = some (old :: rest)) {r : U256} {j : Nat} (hr : d.root_index r = some j) :
    d'.root_index r = some j ↔ ¬ (Full d r ∧ root ≠ r) ∧ ¬ (d.next_root_index.getD 0 ≠ j ∧ root = r) := by
  rw [full_iff hroots, ← hp.index_eq]
  rcases hp.cons hroots with ⟨hmax, -, hindex⟩ | ⟨hmax, -, hindex⟩
  · rw [hindex]
    by_cases hnew : r = root
    · simp [hnew]
    · have hne : root ≠ r := fun heq => hnew heq.symm
      by_cases hold : r = old
      · simp [hold, hmax, hold ▸ hne, (hold ▸ hnew : old ≠ root)]
      · simp [hnew, hold, hr, hne]
  · rw [hindex]
    by_cases hnew : r = root
    · simp [hnew, hmax]
    · have hne : root ≠ r := fun heq => hnew heq.symm
      simp [hnew, hne, hmax, hr]

theorem step_index_eq_iff (hok : TreeOk H t) (h : step H t env call = .ok t')
    (hr : (t.daos dao_id).root_index root = some k) :
    (t'.daos dao_id).root_index root = some k ↔
      ¬ Evicts H t call dao_id root ∧ ¬ Reindexes H t call dao_id root k := by
  unfold Evicts Reindexes
  cases (step_ok hok h).daos dao_id with
  | keep same hregisters hremoves =>
    rw [same.root_index]
    refine iff_of_true hr ⟨?_, ?_⟩
    · rintro ⟨-, index, value, hwrites, -⟩
      exact writes_ne hregisters hremoves index value hwrites
    · rintro ⟨-, index, value, hwrites, -⟩
      exact writes_ne hregisters hremoves index value hwrites
  | init m hi =>
    rw [hi.before.root_index] at hr
    cases hr
  | register m commitment member room j hcall hremoves hreg =>
    obtain ⟨old, rest, hroots⟩ := hreg.before.roots_cons
    rw [hreg.published.index_eq_iff hroots hr, hreg.writes hcall]
    simp [hreg.before.rootAfter_append room]
  | remove m member index hlt j hcall hregisters hrem =>
    obtain ⟨old, rest, hroots⟩ := hrem.before.roots_cons
    rw [hrem.published.index_eq_iff hroots hr, hrem.writes hcall]
    simp [hrem.before.rootAfter_clear hlt]

/-! ## The pin -/

theorem publish_root_unpinned {r : DaoTree × Nat} (h : publish_root env t dao_id d root = .ok r)
    (hfull : Full d oldest) (hvoting : t.voting ≠ none) : env.root_pin dao_id oldest = false := by
  obtain ⟨rest, hroots, hmax⟩ := hfull
  simp only [publish_root, bind_eq_ok, orPanic_eq_ok, hroots, Option.some.injEq, exists_eq_left'] at h
  obtain ⟨kept, hkept, -⟩ := h
  unfold cap_roots at hkept
  have hlong : get_max_roots d < (oldest :: rest ++ [root]).length := by
    rw [List.length_append]
    exact hmax
  rw [if_pos hlong] at hkept
  obtain ⟨_, hpin, -⟩ := bind_eq_ok.mp hkept
  simp only [check_oldest_root, List.cons_append, List.head?_cons, check_root_eviction_safety] at hpin
  split at hpin
  · rename_i hnone
    exact absurd hnone hvoting
  · exact require_eq_ok.mp hpin

theorem insert_leaf_unpinned {leaf : U256} {index depth : Nat} {r : MembershipTree × DaoTree}
    (h : insert_leaf H env t dao_id d leaf index depth = .ok r) (hfull : Full d oldest)
    (hvoting : t.voting ≠ none) : env.root_pin dao_id oldest = false := by
  simp only [insert_leaf, bind_eq_ok] at h
  obtain ⟨field, -, filled, -, st, -, published, hpublish, -⟩ := h
  exact publish_root_unpinned hpublish hfull hvoting

theorem update_leaf_unpinned {leaf_index : Nat} {new_value : U256} {r : MembershipTree × DaoTree × Nat}
    (h : update_leaf H env t dao_id d leaf_index new_value = .ok r) (hfull : Full d oldest)
    (hvoting : t.voting ≠ none) : env.root_pin dao_id oldest = false := by
  simp only [update_leaf, bind_eq_ok] at h
  obtain ⟨field, -, depth, -, filled, -, st, -, published, hpublish, -⟩ := h
  exact publish_root_unpinned hpublish hfull hvoting

theorem register_leaf_unpinned {commitment : U256} {member : Address}
    (h : register_leaf H env t dao_id commitment member = .ok t') (hfull : Full (t.daos dao_id) oldest)
    (hvoting : t.voting ≠ none) : env.root_pin dao_id oldest = false := by
  simp only [register_leaf, reserve_commitment, bind_eq_ok, pure_eq_ok] at h
  obtain ⟨_, ⟨_, -, rfl⟩, _, -, depth, -, index, -, _, -, inserted, hinsert, -⟩ := h
  exact insert_leaf_unpinned hinsert hfull hvoting

theorem reveal_registration_unpinned {commitment : U256} {salt : BytesN 32} {caller : Address}
    (h : reveal_registration H env t dao_id commitment salt caller = .ok t')
    (hfull : Full (t.daos dao_id) oldest) (hvoting : t.voting ≠ none) : env.root_pin dao_id oldest = false := by
  simp only [reveal_registration, register_with_caller_internal, bind_eq_ok] at h
  obtain ⟨_, -, pending, -, _, -, _, -, _, -, _, -, _, -, _, -, h⟩ := h
  refine register_leaf_unpinned h ?_ hvoting
  rw [MembershipTree.set_dao_daos, Function.update_self]
  exact hfull

theorem remove_member_unpinned {member admin : Address}
    (h : remove_member H env t dao_id member admin = .ok t') (hfull : Full (t.daos dao_id) oldest)
    (hvoting : t.voting ≠ none) : env.root_pin dao_id oldest = false := by
  simp only [remove_member, bind_eq_ok] at h
  obtain ⟨_, -, index, -, x, -, _, -, updated, hupdate, -⟩ := h
  exact update_leaf_unpinned hupdate hfull hvoting

/-- An accepted call does not evict a root that the voting contract has pinned. -/
theorem step_unpinned (h : step H t env call = .ok t') (hvoting : t.voting ≠ none)
    (hevicts : Evicts H t call dao_id root) : env.root_pin dao_id root = false := by
  obtain ⟨hfull, index, value, hwrites, -⟩ := hevicts
  have hdao : call.registers.map Prod.fst = some dao_id ∨ call.removes.map Prod.fst = some dao_id := by
    unfold Call.writes at hwrites
    split at hwrites
    · rename_i hcall
      obtain ⟨_, _, heq⟩ := Option.map_eq_some_iff.mp hwrites
      exact .inl (by simp [hcall, (Prod.mk.inj heq).1])
    · split at hwrites
      · rename_i hcall
        obtain ⟨_, _, heq⟩ := Option.map_eq_some_iff.mp hwrites
        exact .inr (by simp [hcall, (Prod.mk.inj heq).1])
      · cases hwrites
  cases call with
  | register_from_registry d commitment member =>
    obtain rfl : d = dao_id := by simpa [Call.registers, Call.removes] using hdao
    simp only [step, register_from_registry, bind_eq_ok] at h
    obtain ⟨_, -, _, -, _, -, h⟩ := h
    exact register_leaf_unpinned h hfull hvoting
  | register_with_caller d commitment caller =>
    obtain rfl : d = dao_id := by simpa [Call.registers, Call.removes] using hdao
    simp only [step, register_with_caller, register_with_caller_internal, bind_eq_ok] at h
    obtain ⟨_, -, _, -, _, -, _, -, h⟩ := h
    exact register_leaf_unpinned h hfull hvoting
  | self_register d commitment member =>
    obtain rfl : d = dao_id := by simpa [Call.registers, Call.removes] using hdao
    simp only [step, self_register, bind_eq_ok] at h
    obtain ⟨_, -, _, -, _, -, _, -, _, -, h⟩ := h
    exact register_leaf_unpinned h hfull hvoting
  | reveal_registration d commitment salt caller =>
    obtain rfl : d = dao_id := by simpa [Call.registers, Call.removes] using hdao
    exact reveal_registration_unpinned h hfull hvoting
  | remove_member d member admin =>
    obtain rfl : d = dao_id := by simpa [Call.registers, Call.removes] using hdao
    exact remove_member_unpinned h hfull hvoting
  | _ => simp [Call.registers, Call.removes] at hdao

/-! ## The voting contract -/

theorem insert_leaf_voting {leaf : U256} {index depth : Nat} {r : MembershipTree × DaoTree}
    (h : insert_leaf H env t dao_id d leaf index depth = .ok r) : r.1.voting = t.voting := by
  simp only [insert_leaf, bind_eq_ok, pure_eq_ok] at h
  obtain ⟨field, -, filled, -, st, -, published, -, rfl⟩ := h
  rfl

theorem update_leaf_voting {leaf_index : Nat} {new_value : U256} {r : MembershipTree × DaoTree × Nat}
    (h : update_leaf H env t dao_id d leaf_index new_value = .ok r) : r.1.voting = t.voting := by
  simp only [update_leaf, bind_eq_ok, pure_eq_ok] at h
  obtain ⟨field, -, depth, -, filled, -, st, -, published, -, rfl⟩ := h
  rfl

theorem init_storage_voting {depth : Nat} {field : Symbol}
    (h : init_storage H env t dao_id depth field = .ok t') : t'.voting = t.voting := by
  simp only [init_storage, bind_eq_ok, pure_eq_ok] at h
  obtain ⟨_, -, _, -, _, -, filled, -, root, -, rfl⟩ := h
  rfl

theorem register_leaf_voting {commitment : U256} {member : Address}
    (h : register_leaf H env t dao_id commitment member = .ok t') : t'.voting = t.voting := by
  simp only [register_leaf, bind_eq_ok, pure_eq_ok] at h
  obtain ⟨reserved, -, _, -, depth, -, index, -, _, -, inserted, hinsert, next_leaf_index, -, rfl⟩ := h
  exact insert_leaf_voting hinsert

theorem register_with_caller_internal_voting {commitment : U256} {caller : Address} {auth_required : Bool}
    (h : register_with_caller_internal H env t dao_id commitment caller auth_required = .ok t') :
    t'.voting = t.voting := by
  simp only [register_with_caller_internal, bind_eq_ok] at h
  obtain ⟨_, -, _, -, _, -, _, -, h⟩ := h
  exact register_leaf_voting h

theorem step_voting (h : step H t env call = .ok t') (hcall : ∀ a b, call ≠ .set_voting_contract a b) :
    t'.voting = t.voting := by
  cases call with
  | set_voting_contract voting_contract registry => exact absurd rfl (hcall voting_contract registry)
  | set_max_roots =>
    simp only [step, set_max_roots, bind_eq_ok, pure_eq_ok] at h
    obtain ⟨_, -, _, -, rfl⟩ := h
    rfl
  | init_tree =>
    simp only [step, init_tree, bind_eq_ok] at h
    obtain ⟨_, -, h⟩ := h
    exact init_storage_voting h
  | init_tree_from_registry =>
    simp only [step, init_tree_from_registry, bind_eq_ok] at h
    obtain ⟨_, -, h⟩ := h
    exact init_storage_voting h
  | init_zeros_cache =>
    cases h
    rfl
  | register_from_registry =>
    simp only [step, register_from_registry, bind_eq_ok] at h
    obtain ⟨_, -, _, -, _, -, h⟩ := h
    exact register_leaf_voting h
  | register_with_caller => exact register_with_caller_internal_voting h
  | self_register =>
    simp only [step, self_register, bind_eq_ok] at h
    obtain ⟨_, -, _, -, _, -, _, -, _, -, h⟩ := h
    exact register_leaf_voting h
  | commit_registration =>
    simp only [step, commit_registration, bind_eq_ok, pure_eq_ok] at h
    obtain ⟨_, -, _, -, _, -, _, -, _, -, rfl⟩ := h
    rfl
  | reveal_registration =>
    simp only [step, reveal_registration, bind_eq_ok] at h
    obtain ⟨_, -, pending, -, _, -, _, -, h⟩ := h
    have hvoting := register_with_caller_internal_voting h
    exact hvoting
  | advance_epoch =>
    simp only [step, advance_epoch, bind_eq_ok, pure_eq_ok] at h
    obtain ⟨_, -, _, -, _, -, rfl⟩ := h
    rfl
  | remove_member =>
    simp only [step, remove_member, bind_eq_ok, pure_eq_ok] at h
    obtain ⟨_, -, index, -, x, -, _, -, updated, hupdate, _, -, rfl⟩ := h
    exact update_leaf_voting hupdate
  | reinstate_member =>
    simp only [step, reinstate_member, bind_eq_ok, pure_eq_ok] at h
    obtain ⟨_, -, index, -, x, -, _, -, rfl⟩ := h
    rfl
  | store_pq_commitment =>
    simp only [step, store_pq_commitment, bind_eq_ok, pure_eq_ok] at h
    obtain ⟨_, -, _, -, _, -, rfl⟩ := h
    rfl
  | migrate_roots_to_pq =>
    simp only [step, migrate_roots_to_pq, bind_eq_ok, pure_eq_ok] at h
    obtain ⟨_, -, roots, -, rfl⟩ := h
    rfl

end

end ZkVote.Tree
