import Mathlib.Data.Finset.Card
import Mathlib.Data.Finset.Range
import ZkVote.Tree.Revocation

/-!
# The membership tree: when a registration goes through

The loops over the levels never fail in a reachable state, and the counter of the root
indices never runs out: a leaf is registered once and removed at most once.
-/

open Lib Lib.Outcome

namespace ZkVote.Tree

section
variable {H : Hashes} {field : Symbol} {depth size level : Nat} {leaves : Nat → U256}
  {raw : Nat → Option U256} {stored : Nat × Nat → Option U256} {st : PathState}

/-! ## The loops -/

theorem vec_set_spec {v : List U256} {i : Nat} (x : U256) (h : i < v.length) :
    vec_set v i x = .ok (v.set i x) := by
  simp [vec_set, trapUnless, h, pure, Except.pure]

theorem first_leaf_level_progress (hb : Beside H field depth 0 0 leaves raw stored)
    (ha : Arrived H field depth 0 leaves stored level st) (hlevel : level < depth) :
    ∃ st', first_leaf_level H field level st = .ok st' := by
  have hle : level ≤ MAX_TREE_DEPTH := hlevel.le.trans hb.depth_le
  obtain ⟨c, hz, -⟩ := zero_at_level_spec ha.cache_ok hb.field_valid hle
  unfold first_leaf_level
  rw [hz]
  exact ⟨_, rfl⟩

theorem insert_level_progress (hb : Beside H field depth size size leaves raw stored)
    (ha : Arrived H field depth size leaves stored level st) (hlevel : level < depth) :
    ∃ st', insert_level H field raw level st = .ok st' := by
  have hle : level ≤ MAX_TREE_DEPTH := hlevel.le.trans hb.depth_le
  have hlength : level < st.filled.length := by
    rw [ha.filled_length]
    exact hlevel
  obtain ⟨c, hz, -⟩ := zero_at_level_spec ha.cache_ok hb.field_valid hle
  unfold insert_level
  split
  · rw [vec_set_spec _ hlength, hz]
    exact ⟨_, rfl⟩
  · rename_i hodd
    rw [ha.index_eq] at hodd ⊢
    have hs := hb.storedAt ha hlevel (Merkle.sibling_ne _)
    have hsib : Merkle.sibling (size / 2 ^ level) = size / 2 ^ level - 1 := if_neg hodd
    rw [hsib] at hs
    have hstored := left_sibling_stored hodd
    have hleft : ∀ fallback, ∃ c, stored_hash H field raw st.nodes st.cache level (size / 2 ^ level - 1) fallback =
        .ok (merkleNode H field leaves level (size / 2 ^ level - 1), c) ∧ CacheOk H c := fun fallback =>
      hs.stored_hash_spec ha.cache_ok (fun hle => absurd hle hstored)
    choose c hleft using hleft
    simp only [(hleft _).1, ok_bind, vec_set_spec _ hlength]
    exact ⟨_, rfl⟩

/-- The loop goes to the end, if no level stops it. -/
theorem for_levels_progress {body : Nat → PathState → Outcome TreeError PathState} {P : Nat → PathState → Prop}
    (hstep : ∀ l st st', l < depth → P l st → body l st = .ok st' → P (l + 1) st')
    (hbody : ∀ l st, l < depth → P l st → ∃ st', body l st = .ok st') {n : Nat} (hn : n ≤ depth) (h0 : P 0 st) :
    ∃ st', for_levels body n st = .ok st' := by
  induction n with
  | zero => exact ⟨st, rfl⟩
  | succ n ih =>
    obtain ⟨st₁, h₁⟩ := ih (by omega)
    obtain ⟨st₂, h₂⟩ := hbody n st₁ (by omega) (for_levels_ok hstep (by omega) h0 h₁)
    unfold for_levels
    rw [h₁]
    exact ⟨st₂, h₂⟩

end

section
variable {H : Hashes} {env : TreeEnv} {t t' : MembershipTree} {dao_id : Nat} {d d' : DaoTree} {m : Members}
  {x root commitment : U256} {member : Address} {call : Call} {registry : Address}
  {log : List (MembershipTree × TreeEnv × Call)}

/-! ## A registration -/

theorem insert_path_progress (hc : CacheOk H t.cache) (hd : Represents H d m) (h : m.size < 2 ^ m.depth)
    {filled : List U256} (hlength : filled.length = m.depth) :
    ∃ st, insert_path H m.field d.leaf_value m.size m.depth
      { hash := hash_leaf H x m.field, index := m.size, filled := filled
        nodes := d.node_hash, cache := t.cache } = .ok st := by
  have hb := hd.beside_append x h
  have hx : x = (m.append x h).leaf m.size := by simp
  unfold insert_path
  split
  · rename_i h0
    have hset := vec_set_spec (hash_leaf H x m.field) (hlength ▸ m.depth_pos : 0 < filled.length)
    have hlength' : (filled.set 0 (hash_leaf H x m.field)).length = m.depth := by simpa using hlength
    rw [h0] at hb hx ⊢
    simp only [hset, ok_bind]
    exact for_levels_progress (fun l st st' hl hP hbody => first_leaf_level_ok hb hP hl hbody)
      (fun l st hl hP => first_leaf_level_progress hb hP hl) le_rfl (Arrived.start hlength' hc hx)
  · exact for_levels_progress (fun l st st' hl hP hbody => insert_level_ok hb hP hl hbody)
      (fun l st hl hP => insert_level_progress hb hP hl) le_rfl (Arrived.start hlength hc hx)

theorem publish_root_progress {roots : List U256} (hroots : d.roots = some roots)
    (hpin : ∀ r, env.root_pin dao_id r = false) (hnext : d.next_root_index.getD 0 + 1 < 2 ^ 32) :
    ∃ r, publish_root env t dao_id d root = .ok r := by
  have hcheck : check_oldest_root env t dao_id (roots ++ [root]) = .ok () := by
    unfold check_oldest_root check_root_eviction_safety
    split
    · split
      · rfl
      · exact require_of (hpin _)
    · rfl
  have hcap : ∃ r, cap_roots env t dao_id d (roots ++ [root]) = .ok r ∧ r.1.next_root_index = d.next_root_index := by
    unfold cap_roots
    split
    · rw [hcheck]
      refine ⟨_, rfl, ?_⟩
      unfold evict_oldest_root
      split <;> rfl
    · exact ⟨_, rfl, rfl⟩
  obtain ⟨⟨d₁, kept⟩, hkept, hsame⟩ := hcap
  have hindex : checkedAdd 32 (d₁.next_root_index.getD 0) 1 = some (d₁.next_root_index.getD 0 + 1) := by
    rw [show d₁.next_root_index = d.next_root_index from hsame]
    simpa using hnext
  unfold publish_root
  rw [hroots]
  simp only [orPanic, ok_bind, hkept, hindex, expect]
  exact ⟨_, rfl⟩

theorem insert_leaf_progress (hc : CacheOk H t.cache) (hd : Represents H d m) (hroom : m.size < 2 ^ m.depth)
    (hpin : ∀ r, env.root_pin dao_id r = false) (hnext : d.next_root_index.getD 0 + 1 < 2 ^ 32) :
    ∃ r, insert_leaf H env t dao_id d x m.size m.depth = .ok r := by
  obtain ⟨filled, hfilled, hlength⟩ := hd.filled
  obtain ⟨roots, hroots⟩ := hd.roots
  obtain ⟨st, hpath⟩ := insert_path_progress (x := x) hc hd hroom hlength
  have hfield : dao_field d = .ok m.field := by simp [dao_field, hd.poseidon_field]
  have hsubtrees : orPanic d.filled_subtrees TreeError.TreeNotInitialized = .ok filled := by simp [hfilled]
  obtain ⟨r, hpublish⟩ : ∃ r, publish_root env { t with cache := st.cache } dao_id
      { d with filled_subtrees := some st.filled, node_hash := st.nodes } st.hash = .ok r :=
    publish_root_progress hroots hpin hnext
  unfold insert_leaf
  simp only [hfield, hsubtrees, ok_bind, hpath, hpublish]
  exact ⟨_, rfl⟩

theorem register_leaf_progress (hc : CacheOk H t.cache) (hd : Represents H (t.daos dao_id) m)
    (hroom : m.size < 2 ^ m.depth) (hunused : (t.daos dao_id).commitment_used commitment = false)
    (hunindexed : (t.daos dao_id).leaf_index commitment = none)
    (hnew : (t.daos dao_id).member_leaf_index member = none) (hpin : ∀ r, env.root_pin dao_id r = false)
    (hnext : (t.daos dao_id).next_root_index.getD 0 + 1 < 2 ^ 32) :
    ∃ t', register_leaf H env t dao_id commitment member = .ok t' := by
  have hsmall : m.size + 1 < 2 ^ 32 := by
    have hpow : 2 ^ m.depth ≤ 2 ^ MAX_TREE_DEPTH := Nat.pow_le_pow_right (by decide) m.depth_le
    have hmax : 2 ^ MAX_TREE_DEPTH + 1 < 2 ^ 32 := by decide
    omega
  have hsize : checkedAdd 32 m.size 1 = some (m.size + 1) := if_pos hsmall
  have hd₁ : Represents H { t.daos dao_id with
      commitment_used := Function.update (t.daos dao_id).commitment_used commitment true } m :=
    ⟨hd.tree_depth, hd.poseidon_field, hd.next_leaf_index, hd.leaf_value, hd.node_hash, hd.filled, hd.roots⟩
  obtain ⟨r, hr⟩ := insert_leaf_progress (x := commitment) hc hd₁ hroom hpin hnext
  have hfresh : ¬ ((t.daos dao_id).commitment_used commitment = true ∨
      ((t.daos dao_id).leaf_index commitment).isSome = true) := by
    simp [hunused, hunindexed]
  have hdepth : orPanic (t.daos dao_id).tree_depth TreeError.TreeNotInitialized = .ok m.depth := by simp [hd.tree_depth]
  have hindex : orPanic (t.daos dao_id).next_leaf_index TreeError.TreeNotInitialized = .ok m.size := by
    simp [hd.next_leaf_index]
  unfold register_leaf reserve_commitment
  simp only [require_of hfresh, ok_bind, pure, Except.pure, require_of hnew, hdepth, hindex, require_of hroom, hr,
    hsize]
  exact ⟨_, rfl⟩

/-! ## The counter of the root indices -/

/-- The number of leaves that are not zero. -/
def liveLeaves (m : Members) : Nat := ((Finset.range m.size).filter fun i => m.leaf i ≠ zero_value).card

theorem liveLeaves_append (h : m.size < 2 ^ m.depth) : liveLeaves (m.append x h) ≤ liveLeaves m + 1 := by
  unfold liveLeaves
  rw [Members.append_size, Members.append_leaf, Finset.range_add_one]
  refine (Finset.card_le_card ?_).trans (Finset.card_insert_le m.size _)
  intro i hi
  rw [Finset.mem_filter, Finset.mem_insert] at hi
  rw [Finset.mem_insert, Finset.mem_filter]
  by_cases heq : i = m.size
  · exact .inl heq
  · refine .inr ⟨hi.1.resolve_left heq, ?_⟩
    rw [Function.update_of_ne heq] at hi
    exact hi.2

theorem liveLeaves_clear {index : Nat} (h : index < m.size) (hne : m.leaf index ≠ zero_value) :
    liveLeaves (m.clear index h) + 1 = liveLeaves m := by
  have hmem : index ∈ (Finset.range m.size).filter fun i => m.leaf i ≠ zero_value := by
    rw [Finset.mem_filter, Finset.mem_range]
    exact ⟨h, hne⟩
  have herase : (Finset.range (m.clear index h).size).filter (fun i => (m.clear index h).leaf i ≠ zero_value) =
      ((Finset.range m.size).filter fun i => m.leaf i ≠ zero_value).erase index := by
    ext i
    rw [Members.clear_size, Members.clear_leaf, Finset.mem_erase, Finset.mem_filter, Finset.mem_filter,
      Function.update_apply]
    split
    · rename_i heq
      simp [heq]
    · rename_i hi
      simp [hi]
  unfold liveLeaves
  rw [herase]
  exact Finset.card_erase_add_one hmem

/-- Each root but the empty one came with a leaf, or with the removal of one. -/
def CounterBelow (H : Hashes) (d : DaoTree) : Prop :=
  d.tree_depth = none ∨ ∃ m, Represents H d m ∧ d.next_root_index.getD 0 + liveLeaves m ≤ 2 * m.size

theorem CounterBelow.of_represents (h : CounterBelow H d) (hd : Represents H d m) :
    d.next_root_index.getD 0 + liveLeaves m ≤ 2 * m.size := by
  rcases h with hnone | ⟨m', hm', hle⟩
  · rw [hd.tree_depth] at hnone
    cases hnone
  · obtain rfl : m' = m := hm'.unique hd
    exact hle

theorem DaoStep.counterBelow (hstep : DaoStep H call dao_id d d') (h : CounterBelow H d) : CounterBelow H d' := by
  cases hstep with
  | keep same =>
    rcases h with hnone | ⟨m, hm, hle⟩
    · exact .inl (same.tree_depth.trans hnone)
    · refine .inr ⟨m, hm.of_same same, ?_⟩
      rw [same.next_root_index]
      exact hle
  | init m hi =>
    refine .inr ⟨m, hi.after, ?_⟩
    simp [hi.next_root_index, liveLeaves, hi.size_eq]
  | register m commitment member room k hcall hremoves hr =>
    have hle := h.of_represents hr.before
    have hlive := liveLeaves_append (x := commitment) room
    refine .inr ⟨_, hr.after, ?_⟩
    rw [hr.published.next_root_index, hr.published.index_eq, Option.getD_some, Members.append_size]
    omega
  | remove m member index hlt k hcall hregisters hr =>
    have hle := h.of_represents hr.before
    have hlive := liveLeaves_clear hlt hr.leaf_ne_zero
    refine .inr ⟨_, hr.after, ?_⟩
    rw [hr.published.next_root_index, hr.published.index_eq, Option.getD_some, Members.clear_size]
    omega

/-- The counter never runs out. -/
theorem TreeRun.counter_below (hrun : TreeRun H registry log t) (hd : Represents H (t.daos dao_id) m) :
    (t.daos dao_id).next_root_index.getD 0 + 1 < 2 ^ 32 := by
  have hbelow : CounterBelow H (t.daos dao_id) :=
    Run.invariant_log (P := fun _ t => CounterBelow H (t.daos dao_id)) (.inl rfl)
      (fun _ _ _ _ hr h hs => ((step_ok (TreeRun.ok hr) hs).daos dao_id).counterBelow h) hrun
  have hle := hbelow.of_represents hd
  have hsize := m.size_le
  have hpow : 2 ^ m.depth ≤ 2 ^ MAX_TREE_DEPTH := Nat.pow_le_pow_right (by decide) m.depth_le
  have hmax : 2 * 2 ^ MAX_TREE_DEPTH + 1 < 2 ^ 32 := by decide
  omega

end

end ZkVote.Tree
