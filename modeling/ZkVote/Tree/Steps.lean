import ZkVote.Tree.Levels

/-!
# The membership tree: what one call does

A call initialises a DAO, registers a member, removes one, or leaves the tree
of every DAO as it was.
-/

open Lib Lib.Outcome

namespace ZkVote.Tree

/-- The member a call registers: the DAO, the commitment and the member. -/
def Call.registers : Call → Option (Nat × U256 × Address)
  | .register_from_registry dao_id commitment member => some (dao_id, commitment, member)
  | .register_with_caller dao_id commitment caller => some (dao_id, commitment, caller)
  | .self_register dao_id commitment member => some (dao_id, commitment, member)
  | .reveal_registration dao_id commitment _ caller => some (dao_id, commitment, caller)
  | _ => none

/-- The member a call removes. -/
def Call.removes : Call → Option (Nat × Address)
  | .remove_member dao_id member _ => some (dao_id, member)
  | _ => none

/-! ## Storage and vector -/

/-- The storage of a DAO before `init_tree`. -/
structure Uninitialised (d : DaoTree) : Prop where
  tree_depth : d.tree_depth = none
  leaf_value : d.leaf_value = fun _ => none
  leaf_index : d.leaf_index = fun _ => none
  member_leaf_index : d.member_leaf_index = fun _ => none
  node_hash : d.node_hash = fun _ => none
  roots : d.roots = none
  root_index : d.root_index = fun _ => none
  min_valid_root_idx : d.min_valid_root_idx = none
  commitment_used : d.commitment_used = fun _ => false

/-- The storage of a DAO holds the vector, its nodes and its root. -/
structure Represents (H : Hashes) (d : DaoTree) (m : Members) : Prop where
  tree_depth : d.tree_depth = some m.depth
  poseidon_field : d.poseidon_field = some m.field
  next_leaf_index : d.next_leaf_index = some m.size
  leaf_value : ∀ i, d.leaf_value i = if i < m.size then some (m.leaf i) else none
  node_hash : ∀ l i, d.node_hash (l, i) =
    if 1 ≤ l ∧ l ≤ m.depth ∧ i * 2 ^ l < m.size then some (merkleNode H m.field m.leaf l i) else none
  filled : ∃ filled, d.filled_subtrees = some filled ∧ filled.length = m.depth
  roots : ∃ roots, d.roots = some (roots ++ [m.root H])

def DaoOk (H : Hashes) (d : DaoTree) : Prop := Uninitialised d ∨ ∃ m, Represents H d m

/-- Nothing of the tree has changed; a member may have been forgotten. -/
structure SameTree (d d' : DaoTree) : Prop where
  tree_depth : d'.tree_depth = d.tree_depth
  poseidon_field : d'.poseidon_field = d.poseidon_field
  next_leaf_index : d'.next_leaf_index = d.next_leaf_index
  leaf_value : d'.leaf_value = d.leaf_value
  leaf_index : d'.leaf_index = d.leaf_index
  node_hash : d'.node_hash = d.node_hash
  filled_subtrees : d'.filled_subtrees = d.filled_subtrees
  roots : d'.roots = d.roots
  root_index : d'.root_index = d.root_index
  next_root_index : d'.next_root_index = d.next_root_index
  min_valid_root_idx : d'.min_valid_root_idx = d.min_valid_root_idx
  commitment_used : d'.commitment_used = d.commitment_used
  member_leaf_index : ∀ a, d'.member_leaf_index a = d.member_leaf_index a ∨ d'.member_leaf_index a = none

@[refl] theorem SameTree.refl (d : DaoTree) : SameTree d d :=
  ⟨rfl, rfl, rfl, rfl, rfl, rfl, rfl, rfl, rfl, rfl, rfl, rfl, fun _ => .inl rfl⟩

/-! ## The root history -/

/-- The history after the new root was added: without its oldest root if that is one too many. -/
def keptRoots (max : Nat) (roots : List U256) : List U256 :=
  if max < roots.length then roots.tail else roots

/-- The index map after the same. -/
def keptIndex (max : Nat) (roots : List U256) (index : U256 → Option Nat) : U256 → Option Nat :=
  if max < roots.length then
    match roots.head? with
    | some oldest => Function.update index oldest none
    | none => index
  else index

/-- A root was published under the next index. -/
structure Published (d d' : DaoTree) (root : U256) (k : Nat) : Prop where
  index_eq : k = d.next_root_index.getD 0
  next_root_index : d'.next_root_index = some (k + 1)
  roots : ∃ roots, d.roots = some roots ∧
    d'.roots = some (keptRoots (get_max_roots d) (roots ++ [root])) ∧
    d'.root_index =
      Function.update (keptIndex (get_max_roots d) (roots ++ [root]) d.root_index) root (some k)

theorem cap_roots_ok {env : TreeEnv} {t : MembershipTree} {dao_id : Nat} {d d' : DaoTree}
    {roots kept : List U256} (hne : roots ≠ [])
    (h : cap_roots env t dao_id d roots = .ok (d', kept)) :
    kept = keptRoots (get_max_roots d) roots ∧
      d' = { d with root_index := keptIndex (get_max_roots d) roots d.root_index } := by
  obtain ⟨oldest, rest, rfl⟩ := List.exists_cons_of_ne_nil hne
  unfold cap_roots at h
  split at h
  · rename_i hmax
    simp only [bind_eq_ok, pure_eq_ok, evict_oldest_root, Prod.mk.injEq] at h
    obtain ⟨_, _, rfl, rfl⟩ := h
    rw [keptRoots, if_pos hmax, keptIndex, if_pos hmax]
    exact ⟨rfl, rfl⟩
  · rename_i hmax
    rw [pure_eq_ok, Prod.mk.injEq] at h
    obtain ⟨rfl, rfl⟩ := h
    rw [keptRoots, if_neg hmax, keptIndex, if_neg hmax]
    exact ⟨rfl, rfl⟩

theorem publish_root_ok {env : TreeEnv} {t : MembershipTree} {dao_id : Nat} {d d' : DaoTree} {root : U256}
    {k : Nat} (h : publish_root env t dao_id d root = .ok (d', k)) :
    Published d d' root k ∧
      ∃ roots index, d' = { d with roots := roots, next_root_index := some (k + 1), root_index := index } := by
  simp only [publish_root, bind_eq_ok, orPanic_eq_ok, expect_eq_ok, checkedAdd_eq_some, pure_eq_ok,
    Prod.exists, Prod.mk.injEq] at h
  obtain ⟨roots, hroots, d₁, kept, hkept, _, ⟨_, rfl⟩, rfl, rfl⟩ := h
  obtain ⟨rfl, rfl⟩ := cap_roots_ok (by simp) hkept
  exact ⟨⟨rfl, rfl, roots, hroots, rfl, rfl⟩, _, _, rfl⟩

theorem keptRoots_getLast (max : Nat) {roots : List U256} (root : U256) (h : roots ≠ []) :
    ∃ rest, keptRoots max (roots ++ [root]) = rest ++ [root] := by
  unfold keptRoots
  split
  · exact ⟨roots.tail, List.tail_append_of_ne_nil h⟩
  · exact ⟨roots, rfl⟩

/-! ## Writing a leaf -/

section
variable {H : Hashes} {env : TreeEnv} {t t' : MembershipTree} {dao_id : Nat} {d d' : DaoTree} {m : Members}

/-- After the last level the stored nodes are those of the new vector, of `size'` leaves. -/
theorem Arrived.stored_nodes {field : Symbol} {depth index size size' : Nat} {leaves : Nat → U256}
    {raw : Nat → Option U256} {stored : Nat × Nat → Option U256} {st : PathState}
    (hb : Beside H field depth index size leaves raw stored)
    (ha : Arrived H field depth index leaves stored depth st)
    (hout : ∀ l i, ¬ (1 ≤ l ∧ l ≤ depth) → stored (l, i) = none) (hlt : index < size')
    (hle : size ≤ size') (honly : ∀ j, size ≤ j → j < size' → j = index) (l i : Nat) :
    st.nodes (l, i) =
      if 1 ≤ l ∧ l ≤ depth ∧ i * 2 ^ l < size' then some (merkleNode H field leaves l i) else none := by
  rw [ha.nodes_eq]
  by_cases hl : 1 ≤ l ∧ l ≤ depth
  · by_cases hi : i = index / 2 ^ l
    · have hcover : i * 2 ^ l < size' := by
        rw [hi]
        exact (Nat.div_mul_le_self _ _).trans_lt hlt
      rw [if_pos ⟨hl.1, hl.2, hi⟩, if_pos ⟨hl.1, hl.2, hcover⟩]
    · have hsame : i * 2 ^ l < size' ↔ i * 2 ^ l < size := by
        refine ⟨fun h => ?_, fun h => h.trans_le hle⟩
        by_contra hge
        have heq : i * 2 ^ l = index := honly _ (by omega) h
        exact hi (by rw [← heq, Nat.mul_div_cancel _ (by positivity)])
      rw [if_neg fun h => hi h.2.2, hb.stored_eq l i hl.1 hl.2 hi]
      exact if_congr (by rw [hsame]; tauto) rfl rfl
  · rw [if_neg fun h => hl ⟨h.1, h.2.1⟩, if_neg fun h => hl ⟨h.1, h.2.1⟩, hout l i hl]

theorem Represents.stored_none (hd : Represents H d m) (l i : Nat) (h : ¬ (1 ≤ l ∧ l ≤ m.depth)) :
    d.node_hash (l, i) = none := by
  rw [hd.node_hash, if_neg fun hl => h ⟨hl.1, hl.2.1⟩]

theorem Represents.beside_append (hd : Represents H d m) (x : U256) (h : m.size < 2 ^ m.depth) :
    Beside H m.field m.depth m.size m.size (m.append x h).leaf d.leaf_value d.node_hash where
  field_valid := m.field_valid
  depth_le := m.depth_le
  raw_eq := fun i hi => by
    rw [hd.leaf_value, Members.append_leaf, Function.update_of_ne hi]
  padded := fun i hi hle => by
    rw [Members.append_leaf, Function.update_of_ne hi]
    exact m.padded i hle
  stored_eq := fun l i h₁ h₂ hi => by
    rw [hd.node_hash]
    have hsame : merkleNode H m.field (m.append x h).leaf l i = merkleNode H m.field m.leaf l i :=
      Merkle.node_congr fun j hj => by
        have hne : j ≠ m.size := by
          rintro rfl
          exact hi hj.symm
        rw [Members.append_leaf, Function.update_of_ne hne]
    rw [hsame]
    exact if_congr ⟨fun hl => hl.2.2, fun hl => ⟨h₁, h₂, hl⟩⟩ rfl rfl

theorem Represents.beside_clear (hd : Represents H d m) {index : Nat} (h : index < m.size) :
    Beside H m.field m.depth index m.size (m.clear index h).leaf
      (Function.update d.leaf_value index (some zero_value)) d.node_hash where
  field_valid := m.field_valid
  depth_le := m.depth_le
  raw_eq := fun i hi => by
    rw [Function.update_of_ne hi, hd.leaf_value, Members.clear_leaf, Function.update_of_ne hi]
  padded := fun i hi hle => by
    rw [Members.clear_leaf, Function.update_of_ne hi]
    exact m.padded i hle
  stored_eq := fun l i h₁ h₂ hi => by
    rw [hd.node_hash]
    have hsame : merkleNode H m.field (m.clear index h).leaf l i = merkleNode H m.field m.leaf l i :=
      Merkle.node_congr fun j hj => by
        have hne : j ≠ index := by
          rintro rfl
          exact hi hj.symm
        rw [Members.clear_leaf, Function.update_of_ne hne]
    rw [hsame]
    exact if_congr ⟨fun hl => hl.2.2, fun hl => ⟨h₁, h₂, hl⟩⟩ rfl rfl

/-- What the two writers of a leaf leave in the nodes and the cached subtrees. -/
structure Rewritten (H : Hashes) (t t' : MembershipTree) (d d' : DaoTree) (m m' : Members) (k : Nat) :
    Prop where
  cache : CacheOk H t'.cache
  tree_eq : t' = { t with cache := t'.cache }
  published : Published d d' (m'.root H) k
  filled : ∃ filled, d'.filled_subtrees = some filled ∧ filled.length = m.depth
  node_hash : ∀ l i, d'.node_hash (l, i) =
    if 1 ≤ l ∧ l ≤ m.depth ∧ i * 2 ^ l < m'.size then some (merkleNode H m.field m'.leaf l i) else none

theorem insert_leaf_ok (hc : CacheOk H t.cache) (hd : Represents H d m) {x : U256}
    (hroom : m.size < 2 ^ m.depth)
    (h : insert_leaf H env t dao_id d x m.size m.depth = .ok (t', d')) :
    ∃ k, Rewritten H t t' d d' m (m.append x hroom) k ∧
      ∃ filled nodes roots next index, d' = { d with
        filled_subtrees := filled, node_hash := nodes, roots := roots
        next_root_index := next, root_index := index } := by
  have hb := hd.beside_append x hroom
  obtain ⟨filled, hfilled, hlength⟩ := hd.filled
  simp only [insert_leaf, dao_field, bind_eq_ok, orPanic_eq_ok, pure_eq_ok, Prod.exists,
    Prod.mk.injEq] at h
  obtain ⟨field, hfield, filled', hfilled', st, hloop, d₁, k, hpub, rfl, rfl⟩ := h
  rw [hd.poseidon_field, Option.some.injEq] at hfield
  rw [hfilled, Option.some.injEq] at hfilled'
  subst hfield hfilled'
  have ha : Arrived H m.field m.depth m.size (m.append x hroom).leaf d.node_hash m.depth st := by
    have hx : x = (m.append x hroom).leaf m.size := by simp
    unfold insert_path at hloop
    split at hloop
    · rename_i h0
      simp only [bind_eq_ok] at hloop
      obtain ⟨filled', hset, hloop⟩ := hloop
      have hlen : filled'.length = m.depth := (vec_set_ok hset).trans hlength
      rw [h0] at hb hloop hx ⊢
      exact for_levels_ok (fun l st st' hl hP hbody => first_leaf_level_ok hb hP hl hbody) le_rfl
        (Arrived.start hlen hc hx) hloop
    · exact for_levels_ok (fun l st st' hl hP hbody => insert_level_ok hb hP hl hbody) le_rfl
        (Arrived.start hlength hc hx) hloop
  have hroot : st.hash = (m.append x hroom).root H := by
    rw [ha.hash_eq, Nat.div_eq_of_lt hroom]
    rfl
  obtain ⟨hpub, roots, index, hd'⟩ := publish_root_ok hpub
  rw [hroot] at hpub
  refine ⟨k, ⟨ha.cache_ok, rfl, ⟨hpub.index_eq, hpub.next_root_index, hpub.roots⟩, ?_, ?_⟩,
    _, _, _, _, _, hd'⟩
  · rw [hd']
    exact ⟨st.filled, rfl, ha.filled_length⟩
  · intro l i
    rw [hd']
    exact ha.stored_nodes hb hd.stored_none (Nat.lt_succ_self _) (Nat.le_succ _)
      (fun j h₁ h₂ => by omega) l i

theorem update_leaf_ok (hc : CacheOk H t.cache) (hd : Represents H d m) {index k : Nat}
    (hlt : index < m.size)
    (h : update_leaf H env t dao_id d index zero_value = .ok (t', d', k)) :
    Rewritten H t t' d d' m (m.clear index hlt) k ∧
      ∃ filled nodes roots next ri, d' = { d with
        leaf_value := Function.update d.leaf_value index (some zero_value)
        filled_subtrees := filled, node_hash := nodes, roots := roots
        next_root_index := next, root_index := ri } := by
  have hb := hd.beside_clear hlt
  obtain ⟨filled, hfilled, hlength⟩ := hd.filled
  simp only [update_leaf, dao_field, bind_eq_ok, orPanic_eq_ok, pure_eq_ok, Prod.exists,
    Prod.mk.injEq] at h
  obtain ⟨field, hfield, depth, hdepth, filled', hfilled', st, hloop, d₁, k', hpub, rfl, rfl, rfl⟩ := h
  rw [hd.poseidon_field, Option.some.injEq] at hfield
  rw [hd.tree_depth, Option.some.injEq] at hdepth
  rw [hfilled, Option.some.injEq] at hfilled'
  subst hfield hdepth hfilled'
  have hx : zero_value = (m.clear index hlt).leaf index := by simp
  have ha : Arrived H m.field m.depth index (m.clear index hlt).leaf d.node_hash m.depth st :=
    for_levels_ok (fun l st st' hl hP hbody => update_level_ok hb hP hl hbody) le_rfl
      (Arrived.start hlength hc hx) hloop
  have hroot : st.hash = (m.clear index hlt).root H := by
    rw [ha.hash_eq, Nat.div_eq_of_lt (hlt.trans_le m.size_le)]
    rfl
  obtain ⟨hpub, roots, ri, hd'⟩ := publish_root_ok hpub
  rw [hroot] at hpub
  refine ⟨⟨ha.cache_ok, rfl, ⟨hpub.index_eq, hpub.next_root_index, hpub.roots⟩, ?_, ?_⟩,
    _, _, _, _, _, hd'⟩
  · rw [hd']
    exact ⟨st.filled, rfl, ha.filled_length⟩
  · intro l i
    rw [hd']
    exact ha.stored_nodes hb hd.stored_none hlt le_rfl (fun j h₁ h₂ => by omega) l i

end

/-! ## Registration, removal, initialisation -/

structure Registered (H : Hashes) (d d' : DaoTree) (m : Members) (commitment : U256) (member : Address)
    (room : m.size < 2 ^ m.depth) (k : Nat) : Prop where
  before : Represents H d m
  after : Represents H d' (m.append commitment room)
  published : Published d d' ((m.append commitment room).root H) k
  unused : d.commitment_used commitment = false
  unindexed : d.leaf_index commitment = none
  newcomer : d.member_leaf_index member = none
  leaf_value : d'.leaf_value = Function.update d.leaf_value m.size (some commitment)
  leaf_index : d'.leaf_index = Function.update d.leaf_index commitment (some m.size)
  member_leaf_index : d'.member_leaf_index = Function.update d.member_leaf_index member (some m.size)
  commitment_used : d'.commitment_used = Function.update d.commitment_used commitment true
  min_valid_root_idx : d'.min_valid_root_idx = d.min_valid_root_idx

structure Removed (H : Hashes) (d d' : DaoTree) (m : Members) (member : Address) (index : Nat)
    (hlt : index < m.size) (k : Nat) : Prop where
  before : Represents H d m
  after : Represents H d' (m.clear index hlt)
  published : Published d d' ((m.clear index hlt).root H) k
  member_at : d.member_leaf_index member = some index
  leaf_ne_zero : m.leaf index ≠ zero_value
  leaf_value : d'.leaf_value = Function.update d.leaf_value index (some zero_value)
  leaf_index : d'.leaf_index = d.leaf_index
  member_leaf_index : d'.member_leaf_index = d.member_leaf_index
  commitment_used : d'.commitment_used = d.commitment_used
  min_valid_root_idx : d'.min_valid_root_idx = some k

structure Initialised (H : Hashes) (d d' : DaoTree) (m : Members) : Prop where
  before : Uninitialised d
  after : Represents H d' m
  size_eq : m.size = 0
  roots : d'.roots = some [m.root H]
  root_index : d'.root_index = Function.update (fun _ => none) (m.root H) (some 0)
  next_root_index : d'.next_root_index = some 0
  leaf_index : d'.leaf_index = d.leaf_index
  member_leaf_index : d'.member_leaf_index = d.member_leaf_index
  commitment_used : d'.commitment_used = d.commitment_used
  min_valid_root_idx : d'.min_valid_root_idx = d.min_valid_root_idx

/-- What a call does to the tree of a DAO. -/
inductive DaoStep (H : Hashes) (call : Call) (dao_id : Nat) (d d' : DaoTree) : Prop where
  | keep (same : SameTree d d') (hregisters : ∀ c a, call.registers ≠ some (dao_id, c, a))
      (hremoves : ∀ a, call.removes ≠ some (dao_id, a))
  | init (m : Members) (h : Initialised H d d' m) (hregisters : ∀ c a, call.registers ≠ some (dao_id, c, a))
      (hremoves : ∀ a, call.removes ≠ some (dao_id, a))
  | register (m : Members) (commitment : U256) (member : Address) (room : m.size < 2 ^ m.depth) (k : Nat)
      (hcall : call.registers = some (dao_id, commitment, member))
      (hremoves : ∀ a, call.removes ≠ some (dao_id, a))
      (h : Registered H d d' m commitment member room k)
  | remove (m : Members) (member : Address) (index : Nat) (hlt : index < m.size) (k : Nat)
      (hcall : call.removes = some (dao_id, member))
      (hregisters : ∀ c a, call.registers ≠ some (dao_id, c, a))
      (h : Removed H d d' m member index hlt k)

section
variable {H : Hashes} {env : TreeEnv} {t t' : MembershipTree} {dao_id : Nat}

/-- A step of one DAO, and of the caches it goes through. -/
structure TreeStep (H : Hashes) (call : Call) (t t' : MembershipTree) : Prop where
  cache : CacheOk H t'.cache
  daos : ∀ dao_id, DaoStep H call dao_id (t.daos dao_id) (t'.daos dao_id)

structure TreeOk (H : Hashes) (t : MembershipTree) : Prop where
  cache : CacheOk H t.cache
  daos : ∀ dao_id, DaoOk H (t.daos dao_id)

theorem Published.roots_eq {d d' : DaoTree} {root : U256} {k : Nat} {m : Members} (hd : Represents H d m)
    (h : Published d d' root k) : ∃ roots, d'.roots = some (roots ++ [root]) := by
  obtain ⟨roots, hroots, hkept, _⟩ := h.roots
  obtain ⟨old, hold⟩ := hd.roots
  have hne : roots ≠ [] := by
    rintro rfl
    rw [hroots, Option.some.injEq] at hold
    simp at hold
  obtain ⟨rest, hrest⟩ := keptRoots_getLast (get_max_roots d) root hne
  exact ⟨rest, by rw [hkept, hrest]⟩

theorem DaoOk.represents {d : DaoTree} (h : DaoOk H d) (hdepth : d.tree_depth ≠ none) :
    ∃ m, Represents H d m := by
  rcases h with h | h
  · exact absurd h.tree_depth hdepth
  · exact h

/-- Only one DAO is written. -/
def TouchesOnly (t t' : MembershipTree) (dao_id : Nat) : Prop :=
  ∀ other, other ≠ dao_id → t'.daos other = t.daos other

theorem TouchesOnly.set_dao {d : DaoTree} (h : t'.daos = t.daos) :
    TouchesOnly t (t'.set_dao dao_id d) dao_id := fun other hne => by
  rw [MembershipTree.set_dao_daos, Function.update_of_ne hne, h]

theorem register_leaf_ok {commitment : U256} {member : Address} (hc : CacheOk H t.cache)
    (hd : DaoOk H (t.daos dao_id))
    (h : register_leaf H env t dao_id commitment member = .ok t') :
    CacheOk H t'.cache ∧ TouchesOnly t t' dao_id ∧
      ∃ m room k, Registered H (t.daos dao_id) (t'.daos dao_id) m commitment member room k := by
  simp only [register_leaf, reserve_commitment, bind_eq_ok, require_eq_ok, orPanic_eq_ok, pure_eq_ok,
    checkedAdd_eq_some, Prod.exists] at h
  obtain ⟨d₁, ⟨_, hfresh, rfl⟩, _, hnew, depth, hdepth, index, hindex, _, hroom, t₁, d₂, hins, next,
    ⟨_, rfl⟩, rfl⟩ := h
  simp only at hdepth hindex hnew
  obtain ⟨m, hm⟩ := hd.represents (by rw [hdepth]; simp)
  rw [hm.tree_depth, Option.some.injEq] at hdepth
  rw [hm.next_leaf_index, Option.some.injEq] at hindex
  subst hdepth hindex
  have hm₁ : Represents H { t.daos dao_id with
      commitment_used := Function.update (t.daos dao_id).commitment_used commitment true } m :=
    ⟨hm.tree_depth, hm.poseidon_field, hm.next_leaf_index, hm.leaf_value, hm.node_hash, hm.filled, hm.roots⟩
  obtain ⟨k, hw, filled, nodes, roots, nri, ri, rfl⟩ := insert_leaf_ok hc hm₁ hroom hins
  have hpub : Published (t.daos dao_id) _ ((m.append commitment hroom).root H) k :=
    ⟨hw.published.index_eq, hw.published.next_root_index, hw.published.roots⟩
  have hroots := hpub.roots_eq hm
  refine ⟨hw.cache, TouchesOnly.set_dao (by rw [hw.tree_eq]), m, hroom, k, ?_⟩
  rw [MembershipTree.set_dao_daos, Function.update_self]
  refine ⟨hm, ?_, ⟨hpub.index_eq, hpub.next_root_index, hpub.roots⟩, ?_, ?_, hnew, rfl, rfl, rfl, rfl, rfl⟩
  · refine ⟨hm.tree_depth, hm.poseidon_field, rfl, fun i => ?_, hw.node_hash, hw.filled,
      hroots⟩
    simp only [Function.update_apply, Members.append_size, Members.append_leaf]
    split
    · rename_i hi
      rw [if_pos (by omega)]
    · rename_i hi
      rw [hm.leaf_value]
      exact if_congr (by omega) rfl rfl
  · simpa using fun hu => hfresh (.inl hu)
  · simpa using fun hu => hfresh (.inr hu)

theorem remove_member_ok {member admin : Address} (hc : CacheOk H t.cache)
    (hd : DaoOk H (t.daos dao_id))
    (h : remove_member H env t dao_id member admin = .ok t') :
    CacheOk H t'.cache ∧ TouchesOnly t t' dao_id ∧
      ∃ m index hlt k, Removed H (t.daos dao_id) (t'.daos dao_id) m member index hlt k := by
  simp only [remove_member, bind_eq_ok, require_eq_ok, orPanic_eq_ok, pure_eq_ok, trapUnless_eq_ok,
    Prod.exists] at h
  obtain ⟨_, _, index, hindex, x, hx, _, hne, t₁, d₁, k, hupd, _, _, rfl⟩ := h
  obtain ⟨m, hm⟩ : ∃ m, Represents H (t.daos dao_id) m := by
    rcases hd with hd | hd
    · rw [hd.leaf_value] at hx
      cases hx
    · exact hd
  rw [hm.leaf_value] at hx
  split at hx
  case isFalse => cases hx
  rename_i hlt
  cases hx
  obtain ⟨hw, filled, nodes, roots, nri, ri, rfl⟩ := update_leaf_ok hc hm hlt hupd
  have hpub : Published (t.daos dao_id) _ ((m.clear index hlt).root H) k :=
    ⟨hw.published.index_eq, hw.published.next_root_index, hw.published.roots⟩
  have hroots := hpub.roots_eq hm
  refine ⟨hw.cache, TouchesOnly.set_dao (by rw [hw.tree_eq]), m, index, hlt, k, ?_⟩
  rw [MembershipTree.set_dao_daos, Function.update_self]
  refine ⟨hm, ?_, ⟨hpub.index_eq, hpub.next_root_index, hpub.roots⟩, hindex, hne, rfl, rfl, rfl, rfl, rfl⟩
  refine ⟨hm.tree_depth, hm.poseidon_field, hm.next_leaf_index, fun i => ?_, hw.node_hash, hw.filled,
    hroots⟩
  simp only [Function.update_apply, Members.clear_size, Members.clear_leaf]
  split
  · rename_i hi
    rw [if_pos (by omega)]
  · exact hm.leaf_value i

theorem empty_subtrees_ok {field : Symbol} {c c' : ZerosCache} {n : Nat} {filled : List U256}
    (hc : CacheOk H c) (hf : field = "BN254" ∨ field = "BLS12_381") (hn : n ≤ MAX_TREE_DEPTH)
    (h : empty_subtrees H field c n = .ok (filled, c')) : filled.length = n ∧ CacheOk H c' := by
  induction n generalizing filled c' with
  | zero =>
    cases h
    exact ⟨rfl, hc⟩
  | succ n ih =>
    simp only [empty_subtrees, bind_eq_ok, pure_eq_ok, Prod.exists, Prod.mk.injEq] at h
    obtain ⟨filled₁, c₁, h₁, z, c₂, h₂, rfl, rfl⟩ := h
    obtain ⟨hlength, hc₁⟩ := ih (by omega) h₁
    obtain ⟨_, hc₂⟩ := zero_at_level_ok hc₁ hf (by omega) h₂
    exact ⟨by simp [hlength], hc₂⟩

theorem init_storage_ok {depth : Nat} {field : Symbol} (hc : CacheOk H t.cache)
    (hd : DaoOk H (t.daos dao_id)) (h : init_storage H env t dao_id depth field = .ok t') :
    CacheOk H t'.cache ∧ TouchesOnly t t' dao_id ∧
      ∃ m, Initialised H (t.daos dao_id) (t'.daos dao_id) m := by
  simp only [init_storage, assert_valid_field, init_epoch_zero, bind_eq_ok, require_eq_ok, pure_eq_ok,
    Prod.exists] at h
  obtain ⟨_, hdepth, _, hf, _, hnone, filled, c₁, hfilled, z, c₂, hz, rfl⟩ := h
  have hun : Uninitialised (t.daos dao_id) := by
    rcases hd with hd | ⟨m, hm⟩
    · exact hd
    · rw [hm.tree_depth] at hnone
      cases hnone
  have hle : depth ≤ MAX_TREE_DEPTH := by omega
  obtain ⟨hlength, hc₁⟩ := empty_subtrees_ok hc hf hle hfilled
  obtain ⟨rfl, hc₂⟩ := zero_at_level_ok hc₁ hf hle hz
  have hroot : zeroNode H field depth = (Members.empty depth field (by omega) hle hf).root H :=
    (Merkle.node_eq_uniform fun _ _ => rfl).symm
  refine ⟨hc₂, TouchesOnly.set_dao rfl, Members.empty depth field (by omega) hle hf, ?_⟩
  rw [MembershipTree.set_dao_daos, Function.update_self]
  refine ⟨hun, ?_, rfl, by rw [hroot], ?_, rfl, rfl, rfl, rfl, rfl⟩
  · refine ⟨rfl, rfl, rfl, fun i => ?_, fun l i => ?_, ⟨filled, rfl, hlength⟩, ⟨[], by rw [hroot]; rfl⟩⟩
    · simp [hun.leaf_value, Members.empty]
    · simp [hun.node_hash, Members.empty]
  · rw [hun.root_index, hroot]

/-! ## One step -/

theorem DaoStep.of_touches {call : Call} (h : TouchesOnly t t' dao_id)
    (hregisters : ∀ d c a, call.registers = some (d, c, a) → d = dao_id)
    (hremoves : ∀ d a, call.removes = some (d, a) → d = dao_id)
    (hstep : DaoStep H call dao_id (t.daos dao_id) (t'.daos dao_id)) (other : Nat) :
    DaoStep H call other (t.daos other) (t'.daos other) := by
  by_cases ho : other = dao_id
  · rw [ho]
    exact hstep
  · refine .keep ?_ (fun c a hr => ho (hregisters _ _ _ hr)) (fun a hr => ho (hremoves _ _ hr))
    rw [h other ho]

theorem DaoStep.of_same {call : Call} {d : DaoTree} (hregisters : call.registers = none)
    (hremoves : call.removes = none) (hsame : SameTree (t.daos dao_id) d) (other : Nat) :
    DaoStep H call other (t.daos other) ((t.set_dao dao_id d).daos other) := by
  refine DaoStep.of_touches (TouchesOnly.set_dao rfl) (by simp [hregisters]) (by simp [hremoves]) ?_ other
  refine .keep ?_ (by simp [hregisters]) (by simp [hremoves])
  rw [MembershipTree.set_dao_daos, Function.update_self]
  exact hsame

theorem DaoStep.of_eq {call : Call} (hregisters : call.registers = none)
    (hremoves : call.removes = none) (h : t'.daos = t.daos) (other : Nat) :
    DaoStep H call other (t.daos other) (t'.daos other) :=
  .keep (by rw [h]) (by simp [hregisters]) (by simp [hremoves])

theorem register_step {call : Call} {commitment : U256} {member : Address} (hok : TreeOk H t)
    (hcall : call.registers = some (dao_id, commitment, member)) (hremoves : call.removes = none)
    (h : register_leaf H env t dao_id commitment member = .ok t') : TreeStep H call t t' := by
  obtain ⟨hc, htouch, m, room, k, hreg⟩ := register_leaf_ok hok.cache (hok.daos dao_id) h
  refine ⟨hc, DaoStep.of_touches htouch ?_ (by simp [hremoves]) ?_⟩
  · rw [hcall]
    rintro d c a ⟨⟩
    rfl
  · exact .register m commitment member room k hcall (by simp [hremoves]) hreg

theorem init_step {call : Call} {depth : Nat} {field : Symbol} (hok : TreeOk H t)
    (hregisters : call.registers = none) (hremoves : call.removes = none)
    (h : init_storage H env t dao_id depth field = .ok t') : TreeStep H call t t' := by
  obtain ⟨hc, htouch, m, hinit⟩ := init_storage_ok hok.cache (hok.daos dao_id) h
  exact ⟨hc, DaoStep.of_touches htouch (by simp [hregisters]) (by simp [hremoves])
    (.init m hinit (by simp [hregisters]) (by simp [hremoves]))⟩

theorem Represents.of_same {d d' : DaoTree} {m : Members} (h : SameTree d d') (hd : Represents H d m) :
    Represents H d' m where
  tree_depth := h.tree_depth ▸ hd.tree_depth
  poseidon_field := h.poseidon_field ▸ hd.poseidon_field
  next_leaf_index := h.next_leaf_index ▸ hd.next_leaf_index
  leaf_value := h.leaf_value ▸ hd.leaf_value
  node_hash := h.node_hash ▸ hd.node_hash
  filled := h.filled_subtrees ▸ hd.filled
  roots := h.roots ▸ hd.roots

theorem Uninitialised.of_same {d d' : DaoTree} (h : SameTree d d') (hd : Uninitialised d) :
    Uninitialised d' where
  tree_depth := h.tree_depth ▸ hd.tree_depth
  leaf_value := h.leaf_value ▸ hd.leaf_value
  leaf_index := h.leaf_index ▸ hd.leaf_index
  member_leaf_index := by
    funext a
    rcases h.member_leaf_index a with ha | ha
    · rw [ha, hd.member_leaf_index]
    · exact ha
  node_hash := h.node_hash ▸ hd.node_hash
  roots := h.roots ▸ hd.roots
  root_index := h.root_index ▸ hd.root_index
  min_valid_root_idx := h.min_valid_root_idx ▸ hd.min_valid_root_idx
  commitment_used := h.commitment_used ▸ hd.commitment_used

theorem DaoOk.of_same {d d' : DaoTree} (h : SameTree d d') (hd : DaoOk H d) : DaoOk H d' := by
  rcases hd with hd | ⟨m, hm⟩
  · exact .inl (hd.of_same h)
  · exact .inr ⟨m, hm.of_same h⟩

theorem TreeOk.set_dao {d : DaoTree} (hok : TreeOk H t) (hsame : SameTree (t.daos dao_id) d) :
    TreeOk H (t.set_dao dao_id d) where
  cache := hok.cache
  daos := fun other => by
    rw [MembershipTree.set_dao_daos, Function.update_apply]
    split
    · exact (hok.daos dao_id).of_same hsame
    · exact hok.daos other

/-- Registration looks at the tree and at the cap on its roots, whatever else has been written. -/
theorem Registered.of_same {d d₁ d' : DaoTree} {m : Members} {commitment : U256} {member : Address}
    {room : m.size < 2 ^ m.depth} {k : Nat} (h : Registered H d₁ d' m commitment member room k)
    (hsame : SameTree d d₁) (hback : SameTree d₁ d)
    (hmembers : d₁.member_leaf_index = d.member_leaf_index) (hmax : get_max_roots d₁ = get_max_roots d) :
    Registered H d d' m commitment member room k where
  before := h.before.of_same hback
  after := h.after
  published := by
    obtain ⟨roots, hroots, hkept, hindex⟩ := h.published.roots
    refine ⟨hsame.next_root_index ▸ h.published.index_eq, h.published.next_root_index, roots, ?_, ?_, ?_⟩
    · rw [← hsame.roots, hroots]
    · rw [← hmax, hkept]
    · rw [← hmax, ← hsame.root_index, hindex]
  unused := hsame.commitment_used ▸ h.unused
  unindexed := hsame.leaf_index ▸ h.unindexed
  newcomer := hmembers ▸ h.newcomer
  leaf_value := hsame.leaf_value ▸ h.leaf_value
  leaf_index := hsame.leaf_index ▸ h.leaf_index
  member_leaf_index := hmembers ▸ h.member_leaf_index
  commitment_used := hsame.commitment_used ▸ h.commitment_used
  min_valid_root_idx := hsame.min_valid_root_idx ▸ h.min_valid_root_idx

theorem reveal_step {commitment : U256} {salt : BytesN 32} {caller : Address} (hok : TreeOk H t)
    (h : reveal_registration H env t dao_id commitment salt caller = .ok t') :
    TreeStep H (.reveal_registration dao_id commitment salt caller) t t' := by
  simp only [reveal_registration, register_with_caller_internal, bind_eq_ok, orPanic_eq_ok] at h
  obtain ⟨_, _, pending, _, _, _, _, _, _, _, _, _, _, _, _, _, h⟩ := h
  have hsame : ∀ p c, SameTree (t.daos dao_id)
      { t.daos dao_id with pending_registration := p, commitment_salt_hash := c } := fun _ _ =>
    ⟨rfl, rfl, rfl, rfl, rfl, rfl, rfl, rfl, rfl, rfl, rfl, rfl, fun _ => .inl rfl⟩
  have hok₁ := hok.set_dao (hsame (Function.update (t.daos dao_id).pending_registration caller none)
    (Function.update (t.daos dao_id).commitment_salt_hash pending.commitment_hash false))
  obtain ⟨hc, htouch, m, room, k, hreg⟩ := register_leaf_ok hok₁.cache (hok₁.daos dao_id) h
  rw [MembershipTree.set_dao_daos, Function.update_self] at hreg
  have htouch' : TouchesOnly t t' dao_id := fun other hne => by
    rw [htouch other hne, MembershipTree.set_dao_daos, Function.update_of_ne hne]
  refine ⟨hc, DaoStep.of_touches htouch' ?_ (by simp [Call.removes]) ?_⟩
  · rintro d c a ⟨⟩
    rfl
  · exact .register m commitment caller room k rfl (by simp [Call.removes])
      (hreg.of_same (hsame _ _)
        ⟨rfl, rfl, rfl, rfl, rfl, rfl, rfl, rfl, rfl, rfl, rfl, rfl, fun _ => .inl rfl⟩ rfl rfl)

/-- Every accepted call makes a step of the tree of every DAO. -/
theorem step_ok {call : Call} (hok : TreeOk H t) (h : step H t env call = .ok t') :
    TreeStep H call t t' := by
  cases call with
  | set_voting_contract voting_contract registry =>
    simp only [step, set_voting_contract, bind_eq_ok, pure_eq_ok] at h
    obtain ⟨_, _, _, _, rfl⟩ := h
    exact ⟨hok.cache, DaoStep.of_eq rfl rfl rfl⟩
  | set_max_roots dao_id new_max admin =>
    simp only [step, set_max_roots, bind_eq_ok, pure_eq_ok] at h
    obtain ⟨_, _, _, _, rfl⟩ := h
    exact ⟨hok.cache, DaoStep.of_same rfl rfl
      ⟨rfl, rfl, rfl, rfl, rfl, rfl, rfl, rfl, rfl, rfl, rfl, rfl, fun _ => .inl rfl⟩⟩
  | init_tree dao_id depth field admin =>
    simp only [step, init_tree, bind_eq_ok] at h
    obtain ⟨_, _, h⟩ := h
    exact init_step hok rfl rfl h
  | init_tree_from_registry dao_id depth field =>
    simp only [step, init_tree_from_registry, bind_eq_ok] at h
    obtain ⟨_, _, h⟩ := h
    exact init_step hok rfl rfl h
  | init_zeros_cache =>
    cases h
    exact ⟨hok.cache.ensure.1, DaoStep.of_eq rfl rfl rfl⟩
  | register_from_registry dao_id commitment member =>
    simp only [step, register_from_registry, bind_eq_ok] at h
    obtain ⟨_, _, _, _, _, _, h⟩ := h
    exact register_step hok rfl rfl h
  | register_with_caller dao_id commitment caller =>
    simp only [step, register_with_caller, register_with_caller_internal, bind_eq_ok] at h
    obtain ⟨_, _, _, _, _, _, _, _, h⟩ := h
    exact register_step hok rfl rfl h
  | self_register dao_id commitment member =>
    simp only [step, self_register, bind_eq_ok] at h
    obtain ⟨_, _, _, _, _, _, _, _, _, _, h⟩ := h
    exact register_step hok rfl rfl h
  | commit_registration dao_id commitment_hash caller =>
    simp only [step, commit_registration, bind_eq_ok, pure_eq_ok] at h
    obtain ⟨_, _, _, _, _, _, _, _, _, _, rfl⟩ := h
    exact ⟨hok.cache, DaoStep.of_same rfl rfl
      ⟨rfl, rfl, rfl, rfl, rfl, rfl, rfl, rfl, rfl, rfl, rfl, rfl, fun _ => .inl rfl⟩⟩
  | reveal_registration dao_id commitment salt caller => exact reveal_step hok h
  | advance_epoch dao_id admin =>
    simp only [step, advance_epoch, bind_eq_ok, pure_eq_ok] at h
    obtain ⟨_, _, _, _, _, _, rfl⟩ := h
    exact ⟨hok.cache, DaoStep.of_same rfl rfl
      ⟨rfl, rfl, rfl, rfl, rfl, rfl, rfl, rfl, rfl, rfl, rfl, rfl, fun _ => .inl rfl⟩⟩
  | remove_member dao_id member admin =>
    obtain ⟨hc, htouch, m, index, hlt, k, hrem⟩ := remove_member_ok hok.cache (hok.daos dao_id) h
    refine ⟨hc, DaoStep.of_touches htouch (by simp [Call.registers]) ?_ ?_⟩
    · rintro d a ⟨⟩
      rfl
    · exact .remove m member index hlt k rfl (by simp [Call.registers]) hrem
  | reinstate_member dao_id member admin =>
    simp only [step, reinstate_member, bind_eq_ok, pure_eq_ok] at h
    obtain ⟨_, _, _, _, _, _, _, _, rfl⟩ := h
    refine ⟨hok.cache, DaoStep.of_same rfl rfl
      ⟨rfl, rfl, rfl, rfl, rfl, rfl, rfl, rfl, rfl, rfl, rfl, rfl, fun a => ?_⟩⟩
    by_cases ha : a = member
    · exact .inr (by rw [ha]; exact Function.update_self _ _ _)
    · exact .inl (Function.update_of_ne ha _ _)
  | store_pq_commitment dao_id proposal_id member pq_commitment =>
    simp only [step, store_pq_commitment, bind_eq_ok, pure_eq_ok] at h
    obtain ⟨_, _, _, _, _, _, rfl⟩ := h
    exact ⟨hok.cache, DaoStep.of_eq rfl rfl rfl⟩
  | migrate_roots_to_pq dao_id admin =>
    simp only [step, migrate_roots_to_pq, bind_eq_ok, pure_eq_ok] at h
    obtain ⟨_, _, _, _, rfl⟩ := h
    exact ⟨hok.cache, DaoStep.of_same rfl rfl
      ⟨rfl, rfl, rfl, rfl, rfl, rfl, rfl, rfl, rfl, rfl, rfl, rfl, fun _ => .inl rfl⟩⟩

theorem DaoStep.daoOk {call : Call} {d d' : DaoTree} (h : DaoStep H call dao_id d d') (hd : DaoOk H d) :
    DaoOk H d' := by
  cases h with
  | keep same => exact hd.of_same same
  | init m h => exact .inr ⟨m, h.after⟩
  | register m commitment member room k hcall hremoves h => exact .inr ⟨_, h.after⟩
  | remove m member index hlt k hcall hregisters h => exact .inr ⟨_, h.after⟩

theorem DaoStep.registered {call : Call} {d d' : DaoTree} {commitment : U256} {member : Address}
    (h : DaoStep H call dao_id d d') (hcall : call.registers = some (dao_id, commitment, member)) :
    ∃ m room k, Registered H d d' m commitment member room k := by
  cases h with
  | keep same hregisters hremoves => exact absurd hcall (hregisters commitment member)
  | init m hi hregisters hremoves => exact absurd hcall (hregisters commitment member)
  | remove m a index hlt k hremoves hregisters hr => exact absurd hcall (hregisters commitment member)
  | register m c a room k hregisters hremoves hr =>
    rw [hcall, Option.some.injEq, Prod.mk.injEq, Prod.mk.injEq] at hregisters
    obtain ⟨-, rfl, rfl⟩ := hregisters
    exact ⟨m, room, k, hr⟩

theorem DaoStep.removed {call : Call} {d d' : DaoTree} {member : Address}
    (h : DaoStep H call dao_id d d') (hcall : call.removes = some (dao_id, member)) :
    ∃ m index hlt k, Removed H d d' m member index hlt k := by
  cases h with
  | keep same hregisters hremoves => exact absurd hcall (hremoves member)
  | init m hi hregisters hremoves => exact absurd hcall (hremoves member)
  | register m c a room k hregisters hremoves hr => exact absurd hcall (hremoves member)
  | remove m a index hlt k hremoves hregisters hr =>
    rw [hcall, Option.some.injEq, Prod.mk.injEq] at hremoves
    obtain ⟨-, rfl⟩ := hremoves
    exact ⟨m, index, hlt, k, hr⟩

theorem constructor_ok (registry : Address) : TreeOk H (constructor H registry) where
  cache :=
    have hempty : CacheOk H {} := ⟨by simp, by simp⟩
    hempty.ensure.1
  daos := fun _ => .inl ⟨rfl, rfl, rfl, rfl, rfl, rfl, rfl, rfl, rfl⟩

theorem TreeOk.step {call : Call} (hok : TreeOk H t) (h : step H t env call = .ok t') : TreeOk H t' :=
  let hs := step_ok hok h
  ⟨hs.cache, fun dao_id => (hs.daos dao_id).daoOk (hok.daos dao_id)⟩

theorem TreeRun.ok {registry : Address} {log : List (MembershipTree × TreeEnv × Call)}
    (h : TreeRun H registry log t) : TreeOk H t :=
  Run.invariant (constructor_ok registry) (fun _ _ _ hok hstep => hok.step hstep) h

/-- What every step keeps holds in whatever state a run goes on to. -/
theorem TreeOk.onward {P : DaoTree → Prop} {log : List (MembershipTree × TreeEnv × Call)} (hok : TreeOk H t)
    (hP : P (t.daos dao_id)) (hstep : ∀ call d d', DaoStep H call dao_id d d' → P d → P d')
    (hrun : Run (Accepts H) t log t') : P (t'.daos dao_id) := by
  refine (Run.invariant (P := fun t => TreeOk H t ∧ P (t.daos dao_id)) ⟨hok, hP⟩ (fun t call t' h hs => ?_) hrun).2
  exact ⟨h.1.step hs, hstep call.2 _ _ ((step_ok h.1 hs).daos dao_id) h.2⟩

end
end ZkVote.Tree
