import ZkVote.Tree.History

/-!
# The membership tree: revocation

A removal moves the floor `MinValidRootIdx` to the root it publishes. Every root
from there on is a root over a vector in which the removed leaf is zero.
-/

open Lib Lib.Outcome

namespace ZkVote.Tree

/-! ## Registrations of a run -/

/-- The commitment and the leaf index of every registration in a DAO, the last one first. -/
def registrations (dao_id : Nat) (log : List (MembershipTree × TreeEnv × Call)) : List (U256 × Option Nat) :=
  log.filterMap fun e =>
    match e.2.2.registers with
    | some (d, commitment, _) =>
      if d = dao_id then some (commitment, (e.1.daos dao_id).next_leaf_index) else none
    | none => none

section
variable {H : Hashes} {dao_id : Nat} {log : List (MembershipTree × TreeEnv × Call)}
  {t t' : MembershipTree} {env : TreeEnv} {call : Call}

theorem registrations_cons_of_registers {c : U256} {a : Address}
    (h : call.registers = some (dao_id, c, a)) :
    registrations dao_id ((t, env, call) :: log) =
      (c, (t.daos dao_id).next_leaf_index) :: registrations dao_id log := by
  simp [registrations, h]

theorem registrations_cons_of_ne (h : ∀ c a, call.registers ≠ some (dao_id, c, a)) :
    registrations dao_id ((t, env, call) :: log) = registrations dao_id log := by
  unfold registrations
  rw [List.filterMap_cons]
  split
  · rfl
  · rename_i x hx
    simp only at hx
    split at hx
    · rename_i d c a hr
      split at hx
      · rename_i hd
        exact absurd (hd ▸ hr) (h c a)
      · cases hx
    · cases hx

/-- What the maps of a DAO remember of its registrations. -/
structure Remembered (d : DaoTree) (regs : List (U256 × Option Nat)) : Prop where
  indexed : ∀ p ∈ regs, d.leaf_index p.1 = p.2 ∧ d.commitment_used p.1 = true
  in_use : ∀ p ∈ regs, ∃ i size, p.2 = some i ∧ d.next_leaf_index = some size ∧ i < size
  commitments : (regs.map Prod.fst).Nodup
  indices : (regs.map Prod.snd).Nodup
  occupant : ∀ i x, d.leaf_value i = some x → x = zero_value ∨ d.leaf_index x = some i

/-- A registration is new to the maps, and takes the next leaf. -/
theorem Remembered.register {d d' : DaoTree} {m : Members} {commitment : U256} {member : Address} {k : Nat}
    {room : m.size < 2 ^ m.depth} {regs : List (U256 × Option Nat)} (h : Remembered d regs)
    (hr : Registered H d d' m commitment member room k) :
    Remembered d' ((commitment, d.next_leaf_index) :: regs) := by
  have hnew : ∀ p ∈ regs, p.1 ≠ commitment := fun p hp heq => by
    have hused := (h.indexed p hp).2
    rw [heq, hr.unused] at hused
    cases hused
  have hlt : ∀ p ∈ regs, ∃ i, p.2 = some i ∧ i < m.size := fun p hp => by
    obtain ⟨i, size, hi, hsize, hlt⟩ := h.in_use p hp
    rw [hr.before.next_leaf_index, Option.some.injEq] at hsize
    exact ⟨i, hi, hsize ▸ hlt⟩
  refine ⟨?_, ?_, ?_, ?_, ?_⟩
  · intro p hp
    rw [hr.leaf_index, hr.commitment_used]
    rcases List.mem_cons.mp hp with rfl | hp
    · simp [hr.before.next_leaf_index]
    · rw [Function.update_of_ne (hnew p hp), Function.update_of_ne (hnew p hp)]
      exact h.indexed p hp
  · intro p hp
    rcases List.mem_cons.mp hp with rfl | hp
    · exact ⟨m.size, m.size + 1, hr.before.next_leaf_index, hr.after.next_leaf_index, by omega⟩
    · obtain ⟨i, hi, hlt⟩ := hlt p hp
      exact ⟨i, m.size + 1, hi, hr.after.next_leaf_index, by omega⟩
  · rw [List.map_cons, List.nodup_cons]
    refine ⟨fun hmem => ?_, h.commitments⟩
    obtain ⟨p, hp, heq⟩ := List.mem_map.mp hmem
    exact hnew p hp heq
  · rw [List.map_cons, List.nodup_cons]
    refine ⟨fun hmem => ?_, h.indices⟩
    obtain ⟨p, hp, heq⟩ := List.mem_map.mp hmem
    obtain ⟨i, hi, hlt⟩ := hlt p hp
    rw [heq, hr.before.next_leaf_index, Option.some.injEq] at hi
    omega
  · intro i x hx
    rw [hr.leaf_value, Function.update_apply] at hx
    split at hx
    · rename_i hi
      cases hx
      exact .inr (by rw [hr.leaf_index, Function.update_self, hi])
    · rcases h.occupant i x hx with h0 | hidx
      · exact .inl h0
      · refine .inr ?_
        have hne : x ≠ commitment := by
          rintro rfl
          rw [hr.unindexed] at hidx
          cases hidx
        rw [hr.leaf_index, Function.update_of_ne hne, hidx]

theorem DaoStep.remembered
    (hstep : DaoStep H call dao_id (t.daos dao_id) (t'.daos dao_id))
    (h : Remembered (t.daos dao_id) (registrations dao_id log)) :
    Remembered (t'.daos dao_id) (registrations dao_id ((t, env, call) :: log)) := by
  cases hstep with
  | keep same hregisters hremoves =>
    rw [registrations_cons_of_ne hregisters]
    refine ⟨fun p hp => ?_, fun p hp => ?_, h.commitments, h.indices, fun i x hx => ?_⟩
    · rw [same.leaf_index, same.commitment_used]
      exact h.indexed p hp
    · rw [same.next_leaf_index]
      exact h.in_use p hp
    · rw [same.leaf_index]
      rw [same.leaf_value] at hx
      exact h.occupant i x hx
  | init m hi hregisters hremoves =>
    rw [registrations_cons_of_ne hregisters]
    have hnone : registrations dao_id log = [] := by
      rw [List.eq_nil_iff_forall_not_mem]
      intro p hp
      have hused := (h.indexed p hp).2
      rw [hi.before.commitment_used] at hused
      cases hused
    rw [hnone]
    refine ⟨by simp, by simp, by simp, by simp, fun i x hx => ?_⟩
    rw [hi.after.leaf_value, hi.size_eq, if_neg (Nat.not_lt_zero i)] at hx
    cases hx
  | register m commitment member room k hcall hremoves hr =>
    rw [registrations_cons_of_registers hcall]
    exact h.register hr
  | remove m member index hlt k hcall hregisters hr =>
    rw [registrations_cons_of_ne hregisters]
    refine ⟨fun p hp => ?_, fun p hp => ?_, h.commitments, h.indices, fun i x hx => ?_⟩
    · rw [hr.leaf_index, hr.commitment_used]
      exact h.indexed p hp
    · rw [hr.after.next_leaf_index, Members.clear_size, ← hr.before.next_leaf_index]
      exact h.in_use p hp
    · rw [hr.leaf_value, Function.update_apply] at hx
      rw [hr.leaf_index]
      split at hx
      · cases hx
        exact .inl rfl
      · exact h.occupant i x hx

theorem TreeRun.remembered {registry : Address} (hrun : TreeRun H registry log t) (dao_id : Nat) :
    Remembered (t.daos dao_id) (registrations dao_id log) := by
  refine Run.invariant_log (P := fun log t => Remembered (t.daos dao_id) (registrations dao_id log))
    ?_ (fun log t call t' hr h hs => ?_) hrun
  · refine ⟨by simp [registrations], by simp [registrations], by simp [registrations],
      by simp [registrations], fun i x hx => ?_⟩
    cases hx
  · exact ((step_ok (TreeRun.ok hr) hs).daos dao_id).remembered h

/-! ## Indices -/

/-- Every index handed out is below the next one, once a leaf has been registered. -/
def IndexBelow (d : DaoTree) : Prop :=
  ∀ size, d.next_leaf_index = some size → ∃ n, d.next_root_index = some n ∧
    ∀ r k, d.root_index r = some k → k < n ∨ (k = 0 ∧ size = 0)

theorem keptIndex_of_some {max k : Nat} {roots : List U256} {index : U256 → Option Nat} {r : U256}
    (h : keptIndex max roots index r = some k) : index r = some k := by
  unfold keptIndex at h
  by_cases hmax : max < roots.length
  · rw [if_pos hmax] at h
    cases roots with
    | nil => exact h
    | cons oldest rest =>
      simp only [List.head?_cons, Function.update_apply] at h
      split at h
      · cases h
      · exact h
  · rwa [if_neg hmax] at h

theorem Published.index_cases {d d' : DaoTree} {root r : U256} {k k' : Nat} (hp : Published d d' root k)
    (hr : d'.root_index r = some k') : (r = root ∧ k' = k) ∨ d.root_index r = some k' := by
  obtain ⟨roots, hroots, hkept, hindex⟩ := hp.roots
  rw [hindex, Function.update_apply] at hr
  split at hr
  · rename_i heq
    cases hr
    exact .inl ⟨heq, rfl⟩
  · exact .inr (keptIndex_of_some hr)

theorem Published.indexBelow {d d' : DaoTree} {root : U256} {k size : Nat} (hp : Published d d' root k)
    (hsize : d.next_leaf_index = some size) (h : IndexBelow d) : IndexBelow d' := by
  obtain ⟨n, hn, hbelow⟩ := h size hsize
  have hk : k = n := by rw [hp.index_eq, hn, Option.getD_some]
  refine fun _ _ => ⟨k + 1, hp.next_root_index, fun r k' hr => .inl ?_⟩
  rcases hp.index_cases hr with ⟨_, rfl⟩ | hr
  · omega
  · rcases hbelow r k' hr with hlt | ⟨rfl, _⟩ <;> omega

theorem DaoStep.indexBelow (hstep : DaoStep H call dao_id (t.daos dao_id) (t'.daos dao_id))
    (h : IndexBelow (t.daos dao_id)) : IndexBelow (t'.daos dao_id) := by
  cases hstep with
  | keep same =>
    unfold IndexBelow
    rw [same.next_leaf_index, same.next_root_index, same.root_index]
    exact h
  | init m hi =>
    intro size hsize
    rw [hi.after.next_leaf_index, hi.size_eq] at hsize
    refine ⟨0, hi.next_root_index, fun r k hr => .inr ?_⟩
    rw [hi.root_index, Function.update_apply] at hr
    split at hr
    · cases hr
      exact ⟨rfl, (Option.some.inj hsize).symm⟩
    · cases hr
  | register m commitment member room k hcall hremoves hr =>
    exact hr.published.indexBelow hr.before.next_leaf_index h
  | remove m member index hlt k hcall hregisters hr =>
    exact hr.published.indexBelow hr.before.next_leaf_index h

theorem TreeRun.indexBelow {registry : Address} (hrun : TreeRun H registry log t) (dao_id : Nat) :
    IndexBelow (t.daos dao_id) := by
  refine Run.invariant_log (P := fun _ t => IndexBelow (t.daos dao_id)) ?_
    (fun log t call t' hr h hs => ((step_ok (TreeRun.ok hr) hs).daos dao_id).indexBelow h) hrun
  rintro size ⟨⟩

/-! ## After a removal -/

/-- Leaf `i` is zero, and was in every root with an index of at least `k₀`. -/
structure Cleared (H : Hashes) (d : DaoTree) (i k₀ : Nat) : Prop where
  current : ∃ m, Represents H d m ∧ i < m.size ∧ m.leaf i = zero_value ∧
    ∀ r k, d.root_index r = some k → k₀ ≤ k →
      ∃ leaves : Nat → U256, leaves i = zero_value ∧ merkleRoot H m.field m.depth leaves = r
  floor : ∃ k, d.min_valid_root_idx = some k ∧ k₀ ≤ k
  next : ∃ n, d.next_root_index = some n ∧ k₀ < n

theorem Removed.cleared {d d' : DaoTree} {m : Members} {member : Address} {i k : Nat} {hlt : i < m.size}
    (hr : Removed H d d' m member i hlt k) (hbelow : IndexBelow d) : Cleared H d' i k := by
  obtain ⟨n, hn, hold⟩ := hbelow m.size hr.before.next_leaf_index
  have hk : k = n := by rw [hr.published.index_eq, hn, Option.getD_some]
  have hzero : (m.clear i hlt).leaf i = zero_value := by simp
  refine ⟨⟨m.clear i hlt, hr.after, hlt, hzero, fun r k' hrk hle => ?_⟩, ⟨k, hr.min_valid_root_idx, le_rfl⟩,
    ⟨k + 1, hr.published.next_root_index, by omega⟩⟩
  rcases hr.published.index_cases hrk with ⟨rfl, _⟩ | hrk
  · exact ⟨_, hzero, rfl⟩
  · rcases hold r k' hrk with hlt' | ⟨_, h0⟩ <;> omega

theorem DaoStep.cleared {d d' : DaoTree} {i k₀ : Nat} (hstep : DaoStep H call dao_id d d')
    (h : Cleared H d i k₀) : Cleared H d' i k₀ := by
  obtain ⟨⟨m, hm, hi, hzero, hroots⟩, ⟨floor, hfloor, hle⟩, ⟨n, hn, hlt⟩⟩ := h
  cases hstep with
  | keep same =>
    refine ⟨⟨m, hm.of_same same, hi, hzero, ?_⟩, ⟨floor, ?_, hle⟩, ⟨n, ?_, hlt⟩⟩
    · rw [same.root_index]
      exact hroots
    · rw [same.min_valid_root_idx, hfloor]
    · rw [same.next_root_index, hn]
  | init m' hinit =>
    have hdepth := hm.tree_depth
    rw [hinit.before.tree_depth] at hdepth
    cases hdepth
  | register m' commitment member room k hcall hremoves hr =>
    obtain rfl : m' = m := hr.before.unique hm
    have hk : k = n := by rw [hr.published.index_eq, hn, Option.getD_some]
    have hleaf : (m'.append commitment room).leaf i = zero_value := by
      rw [Members.append_leaf, Function.update_of_ne (by omega), hzero]
    refine ⟨⟨_, hr.after, by rw [Members.append_size]; omega, hleaf, fun r k' hrk hle' => ?_⟩,
      ⟨floor, by rw [hr.min_valid_root_idx, hfloor], hle⟩,
      ⟨k + 1, hr.published.next_root_index, by omega⟩⟩
    rcases hr.published.index_cases hrk with ⟨rfl, _⟩ | hrk
    · exact ⟨_, hleaf, rfl⟩
    · exact hroots r k' hrk hle'
  | remove m' member index hlt' k hcall hregisters hr =>
    obtain rfl : m' = m := hr.before.unique hm
    have hk : k = n := by rw [hr.published.index_eq, hn, Option.getD_some]
    have hleaf : (m'.clear index hlt').leaf i = zero_value := by
      rw [Members.clear_leaf, Function.update_apply]
      split
      · rfl
      · exact hzero
    refine ⟨⟨_, hr.after, hi, hleaf, fun r k' hrk hle' => ?_⟩,
      ⟨k, hr.min_valid_root_idx, by omega⟩,
      ⟨k + 1, hr.published.next_root_index, by omega⟩⟩
    rcases hr.published.index_cases hrk with ⟨rfl, _⟩ | hrk
    · exact ⟨_, hleaf, rfl⟩
    · exact hroots r k' hrk hle'

/-- After a removal of leaf `i`, in whatever state a run goes on to. -/
theorem TreeRun.cleared {registry : Address} {after before : List (MembershipTree × TreeEnv × Call)}
    {t₀ : MembershipTree} {member admin : Address} {i : Nat} (hrun : TreeRun H registry log t)
    (hlog : log = after ++ (t₀, env, .remove_member dao_id member admin) :: before)
    (hi : (t₀.daos dao_id).member_leaf_index member = some i) : ∃ k₀, Cleared H (t.daos dao_id) i k₀ := by
  subst hlog
  obtain ⟨t₁, hr, hs, hafter⟩ := hrun.cut
  obtain ⟨m, index, hlt, k, hrem⟩ := ((step_ok (TreeRun.ok hr) hs).daos dao_id).removed rfl
  rw [hrem.member_at, Option.some.injEq] at hi
  subst hi
  exact ⟨k, TreeOk.onward (P := fun d => Cleared H d index k) (TreeRun.ok (.call hr hs))
    (hrem.cleared (TreeRun.indexBelow hr dao_id)) (fun _ _ _ hstep h => hstep.cleared h) hafter⟩

/-- With injective hashes a root fixes its leaves. -/
theorem merkleRoot_injective (hinj : ∀ field a b a' b', H.poseidon field a b = H.poseidon field a' b' →
      a = a' ∧ b = b') {field : Symbol} {depth i : Nat} {leaves leaves' : Nat → U256} (hi : i < 2 ^ depth)
    (h : merkleRoot H field depth leaves = merkleRoot H field depth leaves') : leaves i = leaves' i := by
  have hnode : Merkle.node (fun a b => hash_pair H a b field) (fun j => hash_leaf H (leaves j) field) depth 0 =
      Merkle.node (fun a b => hash_pair H a b field) (fun j => hash_leaf H (leaves' j) field) depth 0 := h
  have hleaf := Merkle.leaf_eq_of_node_eq (fun a b a' b' => hinj field a b a' b') hnode (Nat.div_eq_of_lt hi)
  exact (hinj field _ _ _ _ hleaf).2

end

/-- Revocation is final. After leaf `i` of a removed member was zeroed, whether or not the member has been
reinstated since, every root that is accepted is a root over leaves of which leaf `i` is zero, and over no
others. No leaf index is given out twice, no commitment is registered twice, and none is stored twice. -/
theorem revocation_is_final (H : Hashes)
    (hinj : ∀ field a b a' b', H.poseidon field a b = H.poseidon field a' b' → a = a' ∧ b = b')
    {registry : Address} {log : List (MembershipTree × TreeEnv × Call)} {t : MembershipTree}
    (hrun : TreeRun H registry log t) (dao_id : Nat) :
    (∀ after before t₀ env member admin i,
      log = after ++ (t₀, env, .remove_member dao_id member admin) :: before →
      (t₀.daos dao_id).member_leaf_index member = some i →
      ∀ root earliest, root_eligibility t dao_id root earliest = 0 →
        ∃ field depth, (t.daos dao_id).poseidon_field = some field ∧
          (t.daos dao_id).tree_depth = some depth ∧ i < 2 ^ depth ∧
          (∃ leaves, merkleRoot H field depth leaves = root) ∧
          ∀ leaves, merkleRoot H field depth leaves = root → leaves i = zero_value) ∧
    (((registrations dao_id log).map Prod.snd).Nodup ∧
      ∀ p ∈ registrations dao_id log, p.2 ≠ none ∧ (t.daos dao_id).leaf_index p.1 = p.2) ∧
    (((registrations dao_id log).map Prod.fst).Nodup ∧
      ∀ i j x, x ≠ zero_value → (t.daos dao_id).leaf_value i = some x →
        (t.daos dao_id).leaf_value j = some x → i = j) := by
  have hreg := hrun.remembered dao_id
  refine ⟨?_, ⟨hreg.indices, fun p hp => ⟨?_, (hreg.indexed p hp).1⟩⟩, hreg.commitments, ?_⟩
  · intro after before t₀ env member admin i hlog hi root earliest hroot
    obtain ⟨k₀, ⟨m, hm, hlt, -, hroots⟩, ⟨floor, hfloor, hle⟩, -⟩ := hrun.cleared hlog hi
    obtain ⟨k, hk, -, hmin⟩ := root_eligibility_eq_zero.mp hroot
    rw [min_root, hfloor, Option.getD_some] at hmin
    obtain ⟨leaves, hzero, hleaves⟩ := hroots root k hk (by omega)
    have hbound : i < 2 ^ m.depth := hlt.trans_le m.size_le
    refine ⟨m.field, m.depth, hm.poseidon_field, hm.tree_depth, hbound, ⟨leaves, hleaves⟩,
      fun leaves' hleaves' => ?_⟩
    rw [← hzero]
    exact merkleRoot_injective hinj hbound (hleaves'.trans hleaves.symm)
  · obtain ⟨i, size, hi, _⟩ := hreg.in_use p hp
    rw [hi]
    simp
  · intro i j x hx hxi hxj
    have hi := (hreg.occupant i x hxi).resolve_left hx
    have hj := (hreg.occupant j x hxj).resolve_left hx
    rw [hi, Option.some.injEq] at hj
    exact hj

theorem sampleHashes_injective : ∀ field a b a' b',
    sampleHashes.poseidon field a b = sampleHashes.poseidon field a' b' → a = a' ∧ b = b' :=
  fun _ _ _ _ _ h => Nat.pair_eq_pair.mp h

theorem revocation_is_final_after_a_removal : ∃ log t, TreeRun sampleHashes 0 log t ∧
    (∀ after before t₀ env member admin i,
      log = after ++ (t₀, env, .remove_member 0 member admin) :: before →
      (t₀.daos 0).member_leaf_index member = some i →
      ∀ root earliest, root_eligibility t 0 root earliest = 0 →
        ∃ field depth, (t.daos 0).poseidon_field = some field ∧
          (t.daos 0).tree_depth = some depth ∧ i < 2 ^ depth ∧
          (∃ leaves, merkleRoot sampleHashes field depth leaves = root) ∧
          ∀ leaves, merkleRoot sampleHashes field depth leaves = root → leaves i = zero_value) ∧
    (((registrations 0 log).map Prod.snd).Nodup ∧
      ∀ p ∈ registrations 0 log, p.2 ≠ none ∧ (t.daos 0).leaf_index p.1 = p.2) ∧
    (((registrations 0 log).map Prod.fst).Nodup ∧
      ∀ i j x, x ≠ zero_value → (t.daos 0).leaf_value i = some x →
        (t.daos 0).leaf_value j = some x → i = j) := by
  obtain ⟨log, t, hrun, -⟩ := exists_run (H := sampleHashes) (r := 0)
    [.init_tree 0 2 "BN254" 0, .register_from_registry 0 7 1, .remove_member 0 1 0]
    (fun _ _ => true) (by decide +kernel)
  exact ⟨log, t, hrun, revocation_is_final sampleHashes sampleHashes_injective hrun 0⟩

end ZkVote.Tree
