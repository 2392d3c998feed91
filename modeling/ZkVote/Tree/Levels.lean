import ZkVote.Tree.Spec

/-!
# The membership tree: the loops over the levels

Each of the three loops that write a leaf leaves the true nodes of the new
vector on the path of that leaf, whatever the cached subtrees held.
-/

open Lib Lib.Outcome

namespace ZkVote.Tree

/-! ## Zero hashes -/

/-- The hash of the node at a level over zero leaves. -/
def zeroNode (H : Hashes) (field : Symbol) : Nat → U256 :=
  Merkle.uniform (fun a b => hash_pair H a b field) (hash_leaf H zero_value field)

/-- A cache holds the zero hashes of its field or nothing. -/
structure CacheOk (H : Hashes) (c : ZerosCache) : Prop where
  zeros : ∀ zs, c.zeros = some zs → zs = zero_hashes H "BN254" MAX_TREE_DEPTH
  z_bls : ∀ zs, c.z_bls = some zs → zs = zero_hashes H "BLS12_381" MAX_TREE_DEPTH

section
variable {H : Hashes} {field : Symbol}

@[simp] theorem zero_hashes_length (n : Nat) : (zero_hashes H field n).length = n + 1 := by
  induction n with
  | zero => rfl
  | succ n ih => simp [zero_hashes, ih]

theorem zero_hashes_getElem? {n l : Nat} (h : l ≤ n) :
    (zero_hashes H field n)[l]? = some (zeroNode H field l) := by
  induction n generalizing l with
  | zero =>
    have : l = 0 := by omega
    subst this
    rfl
  | succ n ih =>
    have hlast : (zero_hashes H field n).getLastD zero_value = zeroNode H field n := by
      rw [List.getLastD_eq_getLast?, List.getLast?_eq_getElem?, zero_hashes_length, Nat.add_sub_cancel,
        ih le_rfl, Option.getD_some]
    rcases Nat.lt_or_ge l (n + 1) with hl | hl
    · rw [zero_hashes, List.getElem?_append_left (by simpa using hl)]
      exact ih (by omega)
    · have : l = n + 1 := by omega
      subst this
      rw [zero_hashes, List.getElem?_append_right (by simp), zero_hashes_length, hlast]
      simp [zeroNode, Merkle.uniform]

theorem CacheOk.ensure {c : ZerosCache} (hc : CacheOk H c) :
    CacheOk H (ensure_zeros_cache H c) ∧
      (ensure_zeros_cache H c).zeros = some (zero_hashes H "BN254" MAX_TREE_DEPTH) := by
  unfold ensure_zeros_cache
  split
  · rename_i zs hz
    exact ⟨hc, by rw [hz, hc.zeros zs hz]⟩
  · exact ⟨⟨fun zs hz => (Option.some.inj hz).symm, hc.z_bls⟩, rfl⟩

theorem CacheOk.ensure_bls {c : ZerosCache} (hc : CacheOk H c) :
    CacheOk H (ensure_zeros_cache_bls H c) ∧
      (ensure_zeros_cache_bls H c).z_bls = some (zero_hashes H "BLS12_381" MAX_TREE_DEPTH) := by
  unfold ensure_zeros_cache_bls
  split
  · rename_i zs hz
    exact ⟨hc, by rw [hz, hc.z_bls zs hz]⟩
  · exact ⟨⟨hc.zeros, fun zs hz => (Option.some.inj hz).symm⟩, rfl⟩

/-- Within the maximal depth the lookup succeeds with the zero node. -/
theorem zero_at_level_spec {c : ZerosCache} {l : Nat} (hc : CacheOk H c)
    (hf : field = "BN254" ∨ field = "BLS12_381") (hl : l ≤ MAX_TREE_DEPTH) :
    ∃ c', zero_at_level_for_field H c l field = .ok (zeroNode H field l, c') ∧ CacheOk H c' := by
  unfold zero_at_level_for_field
  rcases hf with rfl | rfl
  · refine ⟨ensure_zeros_cache H c, ?_, hc.ensure.1⟩
    rw [if_neg (by decide), zero_at_level, hc.ensure.2]
    simp [orPanic, zero_hashes_getElem? hl, pure, Except.pure]
  · refine ⟨ensure_zeros_cache_bls H c, ?_, hc.ensure_bls.1⟩
    rw [if_pos rfl, zero_at_level_bls, hc.ensure_bls.2]
    simp [orPanic, zero_hashes_getElem? hl, pure, Except.pure]

theorem zero_at_level_ok {c c' : ZerosCache} {l : Nat} {z : U256} (hc : CacheOk H c)
    (hf : field = "BN254" ∨ field = "BLS12_381") (hl : l ≤ MAX_TREE_DEPTH)
    (h : zero_at_level_for_field H c l field = .ok (z, c')) : z = zeroNode H field l ∧ CacheOk H c' := by
  obtain ⟨c'', h', hc''⟩ := zero_at_level_spec hc hf hl
  rw [h', Except.ok.injEq, Prod.mk.injEq] at h
  exact ⟨h.1.symm, h.2 ▸ hc''⟩

end

/-! ## What is stored at a position -/

section
variable {H : Hashes} {field : Symbol} {size level i : Nat} {leaves : Nat → U256}
  {raw : Nat → Option U256} {nodes : Nat × Nat → Option U256}

/-- The entry of a position is the true hash there, and is missing past the last leaf only. -/
structure StoredAt (H : Hashes) (field : Symbol) (size : Nat) (leaves : Nat → U256)
    (raw : Nat → Option U256) (nodes : Nat × Nat → Option U256) (level i : Nat) : Prop where
  leaf_eq : level = 0 → raw i = if i < size then some (leaves i) else none
  node_eq : level ≠ 0 →
    nodes (level, i) = if i * 2 ^ level < size then some (merkleNode H field leaves level i) else none
  zero_eq : size ≤ i * 2 ^ level → merkleNode H field leaves level i = zeroNode H field level

/-- Reading it yields that hash, from the storage or from `fallback`. -/
theorem StoredAt.stored_hash_spec (hs : StoredAt H field size leaves raw nodes level i) {c : ZerosCache}
    {fallback : Outcome TreeError (U256 × ZerosCache)} (hc : CacheOk H c)
    (hfallback : size ≤ i * 2 ^ level → ∃ c', fallback = .ok (zeroNode H field level, c') ∧ CacheOk H c') :
    ∃ c', stored_hash H field raw nodes c level i fallback = .ok (merkleNode H field leaves level i, c') ∧
      CacheOk H c' := by
  have hmissing : size ≤ i * 2 ^ level →
      ∃ c', fallback = .ok (merkleNode H field leaves level i, c') ∧ CacheOk H c' := fun hle => by
    rw [hs.zero_eq hle]
    exact hfallback hle
  unfold stored_hash
  split
  · rename_i h0
    subst h0
    rw [hs.leaf_eq rfl]
    by_cases hlt : i < size
    · rw [if_pos hlt]
      exact ⟨c, rfl, hc⟩
    · rw [if_neg hlt]
      exact hmissing (by omega)
  · rename_i h0
    rw [hs.node_eq h0]
    by_cases hlt : i * 2 ^ level < size
    · rw [if_pos hlt]
      exact ⟨c, rfl, hc⟩
    · rw [if_neg hlt]
      exact hmissing (by omega)

theorem StoredAt.stored_hash_ok (hs : StoredAt H field size leaves raw nodes level i) {c c' : ZerosCache}
    {fallback : Outcome TreeError (U256 × ZerosCache)} {x : U256} (hc : CacheOk H c)
    (hfallback : size ≤ i * 2 ^ level → ∃ c', fallback = .ok (zeroNode H field level, c') ∧ CacheOk H c')
    (h : stored_hash H field raw nodes c level i fallback = .ok (x, c')) :
    x = merkleNode H field leaves level i ∧ CacheOk H c' := by
  obtain ⟨c'', h', hc''⟩ := hs.stored_hash_spec hc hfallback
  rw [h', Except.ok.injEq, Prod.mk.injEq] at h
  exact ⟨h.1.symm, h.2 ▸ hc''⟩

end

/-! ## The path of a leaf

`leaves` is the vector after the write, `index` the leaf written, and `raw` and
`stored` what the storage holds beside its path.
-/

/-- The stored nodes and leaves beside the path of `index` are those of `leaves`. -/
structure Beside (H : Hashes) (field : Symbol) (depth index size : Nat) (leaves : Nat → U256)
    (raw : Nat → Option U256) (stored : Nat × Nat → Option U256) : Prop where
  field_valid : field = "BN254" ∨ field = "BLS12_381"
  depth_le : depth ≤ MAX_TREE_DEPTH
  raw_eq : ∀ i, i ≠ index → raw i = if i < size then some (leaves i) else none
  padded : ∀ i, i ≠ index → size ≤ i → leaves i = zero_value
  stored_eq : ∀ l i, 1 ≤ l → l ≤ depth → i ≠ index / 2 ^ l →
    stored (l, i) = if i * 2 ^ l < size then some (merkleNode H field leaves l i) else none

/-- The state of the loop on its arrival at a level. -/
structure Arrived (H : Hashes) (field : Symbol) (depth index : Nat) (leaves : Nat → U256)
    (stored : Nat × Nat → Option U256) (level : Nat) (st : PathState) : Prop where
  hash_eq : st.hash = merkleNode H field leaves level (index / 2 ^ level)
  index_eq : st.index = index / 2 ^ level
  filled_length : st.filled.length = depth
  cache_ok : CacheOk H st.cache
  nodes_eq : ∀ l i, st.nodes (l, i) =
    if 1 ≤ l ∧ l ≤ level ∧ i = index / 2 ^ l then some (merkleNode H field leaves l i) else stored (l, i)

section
variable {H : Hashes} {field : Symbol} {depth index size level : Nat} {leaves : Nat → U256}
  {raw : Nat → Option U256} {stored : Nat × Nat → Option U256} {st st' : PathState}

theorem Arrived.start {filled : List U256} {c : ZerosCache} {x : U256} (hfilled : filled.length = depth)
    (hc : CacheOk H c) (hx : x = leaves index) :
    Arrived H field depth index leaves stored 0
      { hash := hash_leaf H x field, index := index, filled := filled, nodes := stored, cache := c } where
  hash_eq := by simp [merkleNode, Merkle.node, hx]
  index_eq := by simp
  filled_length := hfilled
  cache_ok := hc
  nodes_eq := fun l i => (if_neg (by omega)).symm

theorem Arrived.ascend {filled : List U256} {c : ZerosCache} {x : U256}
    (ha : Arrived H field depth index leaves stored level st) (hfilled : filled.length = depth)
    (hc : CacheOk H c) (hx : x = merkleNode H field leaves (level + 1) (index / 2 ^ level / 2)) :
    Arrived H field depth index leaves stored (level + 1)
      (PathState.ascend { st with filled := filled, cache := c } level x) where
  hash_eq := by
    rw [Merkle.div_two_pow_succ]
    exact hx
  index_eq := by
    rw [Merkle.div_two_pow_succ]
    exact congrArg (· / 2) ha.index_eq
  filled_length := hfilled
  cache_ok := hc
  nodes_eq := fun l i => by
    have hparent : st.index / 2 = index / 2 ^ (level + 1) := by
      rw [Merkle.div_two_pow_succ, ha.index_eq]
    simp only [PathState.ascend, Function.update_apply, Prod.mk.injEq, hparent]
    split
    · rename_i hli
      obtain ⟨rfl, rfl⟩ := hli
      rw [if_pos ⟨by omega, le_rfl, rfl⟩, hx, Merkle.div_two_pow_succ]
    · rename_i hli
      rw [ha.nodes_eq l i]
      refine if_congr ⟨fun h => ⟨h.1, by omega, h.2.2⟩, fun h => ⟨h.1, ?_, h.2.2⟩⟩ rfl rfl
      by_contra hlt
      have : l = level + 1 := by omega
      subst this
      exact hli ⟨rfl, h.2.2⟩

/-- Every position beside the path is stored as it should be. -/
theorem Beside.storedAt (hb : Beside H field depth index size leaves raw stored)
    (ha : Arrived H field depth index leaves stored level st) (hlevel : level < depth) {i : Nat}
    (hi : i ≠ index / 2 ^ level) : StoredAt H field size leaves raw st.nodes level i where
  leaf_eq := by
    rintro rfl
    exact hb.raw_eq i (by simpa using hi)
  node_eq := fun h0 => by
    rw [ha.nodes_eq, if_neg fun h => hi h.2.2]
    exact hb.stored_eq level i (by omega) (by omega) hi
  zero_eq := fun hle => by
    refine Merkle.node_eq_uniform fun j hj => ?_
    have hne : j ≠ index := by
      rintro rfl
      exact hi hj.symm
    rw [hb.padded j hne (hle.trans (hj ▸ Nat.div_mul_le_self j (2 ^ level)))]

theorem vec_set_ok {v v' : List U256} {i : Nat} {x : U256} (h : vec_set v i x = .ok v') :
    v'.length = v.length := by
  simp only [vec_set, bind_eq_ok, trapUnless_eq_ok, pure_eq_ok] at h
  obtain ⟨_, _, rfl⟩ := h
  exact List.length_set

/-! ## The three loops -/

theorem first_leaf_level_ok (hb : Beside H field depth 0 0 leaves raw stored)
    (ha : Arrived H field depth 0 leaves stored level st) (hlevel : level < depth)
    (h : first_leaf_level H field level st = .ok st') :
    Arrived H field depth 0 leaves stored (level + 1) st' := by
  simp only [first_leaf_level, bind_eq_ok, pure_eq_ok] at h
  obtain ⟨⟨z, c⟩, hz, rfl⟩ := h
  obtain ⟨rfl, hc⟩ := zero_at_level_ok ha.cache_ok hb.field_valid (by have := hb.depth_le; omega) hz
  have hs := hb.storedAt ha hlevel (Merkle.sibling_ne _)
  refine ha.ascend ha.filled_length hc ?_
  rw [ha.hash_eq, ← hs.zero_eq (Nat.zero_le _)]
  exact (Merkle.node_succ_of_even (by simp)).symm

/-- The left sibling of a new leaf's node covers leaves before the new one. -/
theorem left_sibling_stored (hodd : ¬ size / 2 ^ level % 2 = 0) :
    ¬ size ≤ (size / 2 ^ level - 1) * 2 ^ level := by
  have hcovers : size / 2 ^ level * 2 ^ level ≤ size := Nat.div_mul_le_self _ _
  have hpos : 0 < size / 2 ^ level := Nat.pos_of_ne_zero fun h0 => hodd (by rw [h0])
  have hlt : (size / 2 ^ level - 1) * 2 ^ level < size / 2 ^ level * 2 ^ level :=
    Nat.mul_lt_mul_of_pos_right (Nat.sub_lt hpos Nat.one_pos) (by positivity)
  omega

theorem insert_level_ok (hb : Beside H field depth size size leaves raw stored)
    (ha : Arrived H field depth size leaves stored level st) (hlevel : level < depth)
    (h : insert_level H field raw level st = .ok st') :
    Arrived H field depth size leaves stored (level + 1) st' := by
  have hs := hb.storedAt ha hlevel (Merkle.sibling_ne _)
  unfold insert_level at h
  split at h
  · rename_i heven
    simp only [bind_eq_ok, pure_eq_ok] at h
    obtain ⟨filled, hfilled, ⟨z, c⟩, hz, rfl⟩ := h
    obtain ⟨rfl, hc⟩ := zero_at_level_ok ha.cache_ok hb.field_valid (by have := hb.depth_le; omega) hz
    refine ha.ascend ((vec_set_ok hfilled).trans ha.filled_length) hc ?_
    rw [ha.index_eq] at heven
    have hpast : size ≤ Merkle.sibling (size / 2 ^ level) * 2 ^ level := by
      rw [Merkle.sibling, if_pos heven]
      exact (Nat.lt_mul_of_div_lt (Nat.lt_succ_self _) (by positivity)).le
    rw [ha.hash_eq, ← hs.zero_eq hpast]
    exact (Merkle.node_succ_of_even heven).symm
  · rename_i hodd
    simp only [bind_eq_ok, pure_eq_ok] at h
    obtain ⟨⟨left, c⟩, hleft, filled, hfilled, rfl⟩ := h
    rw [ha.index_eq] at hodd hleft
    have hsib : Merkle.sibling (size / 2 ^ level) = size / 2 ^ level - 1 := if_neg hodd
    rw [hsib] at hs
    -- so the fallback is never read
    have hstored := left_sibling_stored hodd
    obtain ⟨rfl, hc⟩ := hs.stored_hash_ok ha.cache_ok (fun hle => absurd hle hstored) hleft
    refine ha.ascend ((vec_set_ok hfilled).trans ha.filled_length) hc ?_
    rw [ha.hash_eq, ← hsib]
    exact (Merkle.node_succ_of_odd hodd).symm

theorem update_level_ok (hb : Beside H field depth index size leaves raw stored)
    (ha : Arrived H field depth index leaves stored level st) (hlevel : level < depth)
    (h : update_level H field raw level st = .ok st') :
    Arrived H field depth index leaves stored (level + 1) st' := by
  have hs := hb.storedAt ha hlevel (Merkle.sibling_ne _)
  have hzero := zero_at_level_spec ha.cache_ok hb.field_valid (by have := hb.depth_le; omega : level ≤ _)
  have hidx := ha.index_eq
  unfold update_level at h
  by_cases heven : st.index % 2 = 0
  · have hsib : Merkle.sibling (index / 2 ^ level) = st.index + 1 := by
      rw [← hidx]
      exact if_pos heven
    rw [hsib] at hs
    simp only [if_pos heven, bind_eq_ok, pure_eq_ok] at h
    obtain ⟨filled, hfilled, ⟨sib, c⟩, hstored, rfl⟩ := h
    obtain ⟨rfl, hc⟩ := hs.stored_hash_ok ha.cache_ok (fun _ => hzero) hstored
    refine ha.ascend ((vec_set_ok hfilled).trans ha.filled_length) hc ?_
    rw [ha.hash_eq, ← hsib]
    exact (Merkle.node_succ_of_even (hidx ▸ heven)).symm
  · have hsib : Merkle.sibling (index / 2 ^ level) = st.index - 1 := by
      rw [← hidx]
      exact if_neg heven
    rw [hsib] at hs
    simp only [if_neg heven, bind_eq_ok, pure_eq_ok, ok_bind] at h
    obtain ⟨⟨sib, c⟩, hstored, rfl⟩ := h
    obtain ⟨rfl, hc⟩ := hs.stored_hash_ok ha.cache_ok (fun _ => hzero) hstored
    refine ha.ascend ha.filled_length hc ?_
    rw [ha.hash_eq, ← hsib]
    exact (Merkle.node_succ_of_odd (hidx ▸ heven)).symm

/-- A loop whose body moves up one level arrives at the top. -/
theorem for_levels_ok {body : Nat → PathState → Outcome TreeError PathState} {P : Nat → PathState → Prop}
    (hbody : ∀ l st st', l < depth → P l st → body l st = .ok st' → P (l + 1) st')
    {n : Nat} (hn : n ≤ depth) (h0 : P 0 st) (h : for_levels body n st = .ok st') : P n st' := by
  induction n generalizing st' with
  | zero =>
    cases h
    exact h0
  | succ n ih =>
    simp only [for_levels, bind_eq_ok] at h
    obtain ⟨st₁, h₁, h₂⟩ := h
    exact hbody n st₁ st' (by omega) (ih (by omega) h₁) h₂

end
end ZkVote.Tree
