import ZkVote.Tree.Steps

/-!
# The membership tree: roots and paths

In every state of every run the current root is the root over the stored
leaves, and the path of every leaf folds to it.
-/

open Lib Lib.Outcome

namespace ZkVote.Tree

section
variable {H : Hashes} {t : MembershipTree} {dao_id : Nat} {d : DaoTree} {m : Members}

/-- The vector is the padded vector of the stored leaves. -/
theorem Represents.leaf_eq (hd : Represents H d m) : m.leaf = leafVector d m.size := by
  funext i
  unfold leafVector
  split
  · rename_i h
    rw [hd.leaf_value, if_pos h, Option.getD_some]
  · rename_i h
    exact m.padded i (by omega)

theorem Represents.unique {m' : Members} (hd : Represents H d m) (hd' : Represents H d m') : m = m' := by
  have hdepth : m.depth = m'.depth := Option.some.inj (hd.tree_depth.symm.trans hd'.tree_depth)
  have hfield : m.field = m'.field := Option.some.inj (hd.poseidon_field.symm.trans hd'.poseidon_field)
  have hsize : m.size = m'.size := Option.some.inj (hd.next_leaf_index.symm.trans hd'.next_leaf_index)
  have hleaf : m.leaf = m'.leaf := by rw [hd.leaf_eq, hd'.leaf_eq, hsize]
  cases m
  cases m'
  simp_all

theorem Represents.current_root (hd : Represents H (t.daos dao_id) m) :
    current_root t dao_id = .ok (m.root H) := by
  obtain ⟨roots, hroots⟩ := hd.roots
  simp [Tree.current_root, hroots, orPanic]

/-! ## Paths -/

/-- The state of the walk up from leaf `i` on its arrival at a level. -/
structure Walked (H : Hashes) (m : Members) (i level : Nat) (w : Walk) : Prop where
  index_eq : w.index = i / 2 ^ level
  lengths : w.path_elements.length = w.path_indices.length
  path_eq : w.path_elements.zip w.path_indices =
    Merkle.path (fun a b => hash_pair H a b m.field) (fun j => hash_leaf H (m.leaf j) m.field) i level
  cache_ok : CacheOk H w.cache

/-- Every position of the tree is stored as it should be. -/
theorem Represents.storedAt (hd : Represents H d m) {level i : Nat} (hlevel : level < m.depth) :
    StoredAt H m.field m.size m.leaf (fun j => if j < m.size then d.leaf_value j else none) d.node_hash
      level i where
  leaf_eq := fun _ => by
    rw [hd.leaf_value]
    split <;> rfl
  node_eq := fun h0 => by
    rw [hd.node_hash]
    exact if_congr ⟨fun h => h.2.2, fun h => ⟨by omega, by omega, h⟩⟩ rfl rfl
  zero_eq := fun hle =>
    Merkle.node_eq_uniform_of_le (fun j hj => by rw [m.padded j hj]) hle

theorem path_level_spec (hd : Represents H d m) {i level : Nat} {w : Walk} (hlevel : level < m.depth)
    (hw : Walked H m i level w) :
    ∃ w', path_level H m.field d m.size level w = .ok w' ∧ Walked H m i (level + 1) w' := by
  have hle : level ≤ MAX_TREE_DEPTH := by have := m.depth_le; omega
  have hsib : (if w.index % 2 = 0 then w.index + 1 else w.index - 1) = Merkle.sibling (i / 2 ^ level) := by
    rw [hw.index_eq]
    rfl
  obtain ⟨c, hstored, hc⟩ := (hd.storedAt hlevel).stored_hash_spec (i := Merkle.sibling (i / 2 ^ level))
    hw.cache_ok (fun _ => zero_at_level_spec hw.cache_ok m.field_valid hle)
  have hside : (if w.index % 2 = 0 then 0 else 1) = i / 2 ^ level % 2 := by
    rw [hw.index_eq]
    split <;> omega
  refine ⟨{ index := w.index / 2
            path_elements := w.path_elements ++ [merkleNode H m.field m.leaf level (Merkle.sibling (i / 2 ^ level))]
            path_indices := w.path_indices ++ [i / 2 ^ level % 2]
            cache := c }, ?_, ?_, ?_, ?_, hc⟩
  · simp only [path_level, hsib, hstored, ok_bind, hside]
    rfl
  · rw [Merkle.div_two_pow_succ, ← hw.index_eq]
  · simp [hw.lengths]
  · rw [List.zip_append hw.lengths, hw.path_eq, Merkle.path_succ]
    rfl

theorem walk_levels_spec (hd : Represents H d m) {i n : Nat} {w : Walk} (hn : n ≤ m.depth)
    (hw : Walked H m i 0 w) :
    ∃ w', walk_levels (path_level H m.field d m.size) n w = .ok w' ∧ Walked H m i n w' := by
  induction n with
  | zero => exact ⟨w, rfl, hw⟩
  | succ n ih =>
    obtain ⟨w₁, h₁, hw₁⟩ := ih (by omega)
    obtain ⟨w₂, h₂, hw₂⟩ := path_level_spec hd (by omega) hw₁
    exact ⟨w₂, by rw [walk_levels, h₁, ok_bind, h₂], hw₂⟩

/-- The path of a stored leaf exists, and is that of the tree over the vector. -/
theorem Represents.get_merkle_path_eq (hc : CacheOk H t.cache) (hd : Represents H (t.daos dao_id) m) {i : Nat}
    (hi : i < m.size) : ∃ elements indices, Tree.get_merkle_path H t dao_id i = .ok (elements, indices) ∧
      elements.length = indices.length ∧ elements.zip indices =
        Merkle.path (fun a b => hash_pair H a b m.field) (fun j => hash_leaf H (m.leaf j) m.field) i m.depth := by
  have hstart : Walked H m i 0 { index := i, cache := t.cache } := ⟨by simp, rfl, rfl, hc⟩
  obtain ⟨w, hwalk, hw⟩ := walk_levels_spec hd le_rfl hstart
  refine ⟨w.path_elements, w.path_indices, ?_, hw.lengths, hw.path_eq⟩
  simp [Tree.get_merkle_path, dao_field, hd.poseidon_field, hd.tree_depth, hd.next_leaf_index, orPanic, require, hi,
    hwalk]

theorem Represents.get_merkle_path (hc : CacheOk H t.cache) (hd : Represents H (t.daos dao_id) m) {i : Nat}
    (hi : i < m.size) : ∃ elements indices, get_merkle_path H t dao_id i = .ok (elements, indices) ∧
      foldPath H m.field (m.leaf i) elements indices = m.root H := by
  obtain ⟨elements, indices, hpath, -, hzip⟩ := hd.get_merkle_path_eq hc hi
  refine ⟨elements, indices, hpath, ?_⟩
  have hlt : i < 2 ^ m.depth := hi.trans_le m.size_le
  have hclimb := Merkle.climb_path (fun a b => hash_pair H a b m.field)
    (fun j => hash_leaf H (m.leaf j) m.field) i m.depth
  rw [foldPath, hzip, hclimb, Nat.div_eq_of_lt hlt]
  rfl

end

/-- In every reachable state, for every DAO whose tree is initialised with any accepted depth: the current
root is the Merkle root of the zero-padded leaf vector, and every path folds to it. -/
theorem current_root_is_merkle_root (H : Hashes) {registry : Address}
    {log : List (MembershipTree × TreeEnv × Call)} {t : MembershipTree} (hrun : TreeRun H registry log t)
    {dao_id depth : Nat} (hdepth : (t.daos dao_id).tree_depth = some depth) :
    ∃ field size, (t.daos dao_id).poseidon_field = some field ∧
      (t.daos dao_id).next_leaf_index = some size ∧
      current_root t dao_id = .ok (merkleRoot H field depth (leafVector (t.daos dao_id) size)) ∧
      ∀ i < size, ∃ leaf elements indices, (t.daos dao_id).leaf_value i = some leaf ∧
        get_merkle_path H t dao_id i = .ok (elements, indices) ∧
        current_root t dao_id = .ok (foldPath H field leaf elements indices) := by
  obtain ⟨m, hm⟩ := (hrun.ok.daos dao_id).represents (by rw [hdepth]; simp)
  rw [hm.tree_depth, Option.some.injEq] at hdepth
  subst hdepth
  refine ⟨m.field, m.size, hm.poseidon_field, hm.next_leaf_index, ?_, fun i hi => ?_⟩
  · rw [hm.current_root, ← hm.leaf_eq]
    rfl
  · obtain ⟨elements, indices, hpath, hfold⟩ := hm.get_merkle_path hrun.ok.cache hi
    refine ⟨m.leaf i, elements, indices, ?_, hpath, ?_⟩
    · rw [hm.leaf_value, if_pos hi]
    · rw [hm.current_root, hfold]

theorem current_root_after_a_removal : ∃ t : MembershipTree, (t.daos 0).tree_depth = some 2 ∧
    ∃ field size, (t.daos 0).poseidon_field = some field ∧
      (t.daos 0).next_leaf_index = some size ∧
      current_root t 0 = .ok (merkleRoot sampleHashes field 2 (leafVector (t.daos 0) size)) ∧
      ∀ i < size, ∃ leaf elements indices, (t.daos 0).leaf_value i = some leaf ∧
        get_merkle_path sampleHashes t 0 i = .ok (elements, indices) ∧
        current_root t 0 = .ok (foldPath sampleHashes field leaf elements indices) := by
  obtain ⟨_, t, hrun, htest⟩ := exists_run (H := sampleHashes) (r := 0)
    [.init_tree 0 2 "BN254" 0, .register_from_registry 0 7 1, .register_from_registry 0 8 2,
      .remove_member 0 1 0]
    (fun _ t => decide ((t.daos 0).tree_depth = some 2)) (by decide +kernel)
  have hdepth : (t.daos 0).tree_depth = some 2 := of_decide_eq_true htest
  exact ⟨t, hdepth, current_root_is_merkle_root sampleHashes hrun hdepth⟩

end ZkVote.Tree
