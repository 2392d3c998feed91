import ZkVote.Templates.Vote
import ZkVote.Tree.Revocation

/-!
# The inclusion template and the membership tree

What the contract hashes on chain, `MerkleTreeInclusionProof` hashes again with a path that its prover chose.
-/

open Lib Lib.Outcome

namespace ZkVote.Tree

/-! ## The trees of a run -/

/-- A tree that a DAO has had at some point of a run. -/
def Stood (H : Hashes) (dao_id : Nat) (log : List (MembershipTree × TreeEnv × Call)) (t : MembershipTree)
    (m : Members) : Prop := ∃ t' ∈ Run.states log t, Represents H (t'.daos dao_id) m

/-- Every root that is known is of such a tree, and its leaves have been registered. -/
structure Traced (H : Hashes) (dao_id : Nat) (log : List (MembershipTree × TreeEnv × Call)) (t : MembershipTree) :
    Prop where
  indexed : ∀ r k, (t.daos dao_id).root_index r = some k → ∃ m, Stood H dao_id log t m ∧ m.root H = r
  shape : ∀ m, Stood H dao_id log t m →
    (t.daos dao_id).tree_depth = some m.depth ∧ (t.daos dao_id).poseidon_field = some m.field
  leaves : ∀ m, Stood H dao_id log t m → ∀ i, m.leaf i = zero_value ∨
    m.leaf i ∈ (registrations dao_id log).map Prod.fst

section
variable {H : Hashes} {dao_id : Nat} {log : List (MembershipTree × TreeEnv × Call)} {t t' : MembershipTree}
  {env : TreeEnv} {call : Call} {m : Members}

theorem stood_cons : Stood H dao_id ((t, env, call) :: log) t' m ↔
    Represents H (t'.daos dao_id) m ∨ Stood H dao_id log t m := by
  unfold Stood
  rw [Run.states_cons, List.exists_mem_cons_iff]

theorem Represents.stood (h : Represents H (t.daos dao_id) m) : Stood H dao_id log t m :=
  ⟨t, List.mem_cons_self .., h⟩

theorem Represents.before {d d' : DaoTree} (h : Represents H d' m) (same : SameTree d d') : Represents H d m where
  tree_depth := same.tree_depth ▸ h.tree_depth
  poseidon_field := same.poseidon_field ▸ h.poseidon_field
  next_leaf_index := same.next_leaf_index ▸ h.next_leaf_index
  leaf_value := same.leaf_value ▸ h.leaf_value
  node_hash := same.node_hash ▸ h.node_hash
  filled := same.filled_subtrees ▸ h.filled
  roots := same.roots ▸ h.roots

/-- A new tree of the same depth whose root is published. -/
theorem Traced.next (h : Traced H dao_id log t) {m₁ : Members} {k : Nat} (hbefore : Represents H (t.daos dao_id) m)
    (hafter : Represents H (t'.daos dao_id) m₁) (hp : Published (t.daos dao_id) (t'.daos dao_id) (m₁.root H) k)
    (hdepth : m₁.depth = m.depth) (hfield : m₁.field = m.field)
    (hleaves : ∀ i, m₁.leaf i = zero_value ∨
      m₁.leaf i ∈ (registrations dao_id ((t, env, call) :: log)).map Prod.fst)
    (hregistered : (registrations dao_id log).map Prod.fst ⊆
      (registrations dao_id ((t, env, call) :: log)).map Prod.fst) :
    Traced H dao_id ((t, env, call) :: log) t' := by
  refine ⟨fun r k' hr => ?_, fun m' hm' => ?_, fun m' hm' i => ?_⟩
  · rcases hp.index_cases hr with ⟨rfl, -⟩ | hold
    · exact ⟨m₁, stood_cons.mpr (.inl hafter), rfl⟩
    · obtain ⟨m', hm', hroot⟩ := h.indexed r k' hold
      exact ⟨m', stood_cons.mpr (.inr hm'), hroot⟩
  · rcases stood_cons.mp hm' with hnow | hm'
    · exact ⟨hnow.tree_depth, hnow.poseidon_field⟩
    · obtain ⟨hd, hf⟩ := h.shape m' hm'
      rw [hbefore.tree_depth] at hd
      rw [hbefore.poseidon_field] at hf
      rw [hafter.tree_depth, hafter.poseidon_field, hdepth, hfield]
      exact ⟨hd, hf⟩
  · rcases stood_cons.mp hm' with hnow | hm'
    · rw [hnow.unique hafter]
      exact hleaves i
    · exact (h.leaves m' hm' i).imp id fun hmem => hregistered hmem

theorem DaoStep.traced (hstep : DaoStep H call dao_id (t.daos dao_id) (t'.daos dao_id)) (h : Traced H dao_id log t) :
    Traced H dao_id ((t, env, call) :: log) t' := by
  cases hstep with
  | keep same hregisters hremoves =>
    have hback : ∀ m, Stood H dao_id ((t, env, call) :: log) t' m → Stood H dao_id log t m := fun m hm =>
      (stood_cons.mp hm).elim (fun hnow => (hnow.before same).stood) id
    refine ⟨fun r k hr => ?_, fun m hm => ?_, fun m hm i => ?_⟩
    · rw [same.root_index] at hr
      obtain ⟨m, hm, hroot⟩ := h.indexed r k hr
      exact ⟨m, stood_cons.mpr (.inr hm), hroot⟩
    · rw [same.tree_depth, same.poseidon_field]
      exact h.shape m (hback m hm)
    · rw [registrations_cons_of_ne hregisters]
      exact h.leaves m (hback m hm) i
  | init m hi hregisters hremoves =>
    have hnone : ∀ m', ¬ Stood H dao_id log t m' := fun m' hm' => by
      have hdepth := (h.shape m' hm').1
      rw [hi.before.tree_depth] at hdepth
      cases hdepth
    have honly : ∀ m', Stood H dao_id ((t, env, call) :: log) t' m' → m' = m := fun m' hm' =>
      (stood_cons.mp hm').elim (fun hnow => hnow.unique hi.after) fun hold => absurd hold (hnone m')
    refine ⟨fun r k hr => ⟨m, stood_cons.mpr (.inl hi.after), ?_⟩, fun m' hm' => ?_, fun m' hm' i => .inl ?_⟩
    · rw [hi.root_index, Function.update_apply] at hr
      split at hr
      · rename_i heq
        exact heq.symm
      · cases hr
    · rw [honly m' hm']
      exact ⟨hi.after.tree_depth, hi.after.poseidon_field⟩
    · rw [honly m' hm']
      exact m.padded i (by rw [hi.size_eq]; exact Nat.zero_le i)
  | register m commitment member room k hcall hremoves hr =>
    have hregistrations : registrations dao_id ((t, env, call) :: log) = _ := registrations_cons_of_registers hcall
    refine h.next hr.before hr.after hr.published rfl rfl (fun i => ?_) ?_
    · rw [hregistrations, Members.append_leaf, Function.update_apply]
      split
      · exact .inr (List.mem_cons_self ..)
      · exact (h.leaves m hr.before.stood i).imp id fun hmem => List.mem_cons_of_mem _ hmem
    · rw [hregistrations]
      exact List.subset_cons_self ..
  | remove m member index hlt k hcall hregisters hr =>
    have hregistrations : registrations dao_id ((t, env, call) :: log) = _ := registrations_cons_of_ne hregisters
    refine h.next hr.before hr.after hr.published rfl rfl (fun i => ?_) ?_
    · rw [hregistrations, Members.clear_leaf, Function.update_apply]
      split
      · exact .inl rfl
      · exact h.leaves m hr.before.stood i
    · rw [hregistrations]
      exact List.Subset.refl _

theorem TreeRun.traced {registry : Address} (hrun : TreeRun H registry log t) (dao_id : Nat) :
    Traced H dao_id log t := by
  refine Run.invariant_log (P := fun log t => Traced H dao_id log t) ?_
    (fun log t call t' hr h hs => ((step_ok (TreeRun.ok hr) hs).daos dao_id).traced h) hrun
  have hnone : ∀ m, ¬ Stood H dao_id [] (constructor H registry) m := by
    rintro m ⟨t', ht', hm⟩
    have hdepth := hm.tree_depth
    rw [List.mem_singleton.mp ht'] at hdepth
    cases hdepth
  exact ⟨fun r k hr => (by cases hr), fun m hm => absurd hm (hnone m), fun m hm => absurd hm (hnone m)⟩

end

/-! ## What is hashed -/

/-- The pairs hashed for a tree. -/
def treePairs (H : Hashes) (m : Members) : Set (U256 × U256) :=
  Merkle.pairs (fun a b => hash_pair H a b m.field) (fun j => hash_leaf H (m.leaf j) m.field) m.depth ∪
    Set.range fun j => (1, m.leaf j)

/-- The pairs hashed for a path that a prover chose. -/
def pathPairs (H : Hashes) (field : Symbol) (leaf : U256) (path : List (U256 × Nat)) : Set (U256 × U256) :=
  insert (1, leaf) {p | p ∈ Merkle.climbed (fun a b => hash_pair H a b field) (hash_leaf H leaf field) path}

/-- No two of the pairs hashed in a set have the same hash. -/
def CollisionFree (H : Hashes) (field : Symbol) (pairs : Set (U256 × U256)) : Prop :=
  pairs.InjOn fun p => H.poseidon field p.1 p.2

end ZkVote.Tree

namespace ZkVote.Templates

open ZkVote.Tree
open ZkVote.Prover (Fr SCALAR_MODULUS)

section
variable {H : Hashes} {lib : Circomlib} {field : Symbol} {dao_id levels : Nat} {m : Members}
  {log : List (MembershipTree × TreeEnv × Call)} {t : MembershipTree}

/-- A path to the root of a tree starts at one of its leaves. -/
theorem MerkleTreeInclusionProof.leaf (hagrees : Agrees lib (H.poseidon m.field)) {x root : Fr} {path : List (Fr × Fr)}
    (h : MerkleTreeInclusionProof lib m.depth x path root) (hroot : m.root H = root.val)
    {pairs : Set (U256 × U256)} (hfree : CollisionFree H m.field pairs) (htree : treePairs H m ⊆ pairs)
    (hpath : pathPairs H m.field x.val (path.map siblingOf) ⊆ pairs) : ∃ i, m.leaf i = x.val := by
  have hlength : (path.map siblingOf).length = m.depth := by rw [List.length_map, h.length]
  have hclimb : Merkle.climb (fun a b => hash_pair H a b m.field) (hash_leaf H x.val m.field) (path.map siblingOf) =
      Merkle.node (fun a b => hash_pair H a b m.field) (fun j => hash_leaf H (m.leaf j) m.field)
        (path.map siblingOf).length 0 := by
    rw [hlength]
    exact (h.climb hagrees).trans hroot.symm
  obtain ⟨j, -, hj⟩ := Merkle.exists_leaf_of_climb hfree (fun p hp => hpath (.inr hp))
    (by rw [hlength]; exact fun p hp => htree (.inl hp)) hclimb
  have hpair : ((1 : U256), m.leaf j) = (1, x.val) := hfree (htree (.inr ⟨j, rfl⟩)) (hpath (.inl rfl)) hj
  exact ⟨j, congrArg Prod.snd hpair⟩

/-- What is found under the root of a tree that the DAO has had is one of its leaves, zero or registered. -/
theorem MerkleTreeInclusionProof.registered (hagrees : Agrees lib (H.poseidon field))
    (htraced : Traced H dao_id log t) (hdepth : (t.daos dao_id).tree_depth = some levels)
    (hfield : (t.daos dao_id).poseidon_field = some field) (hm : Stood H dao_id log t m) {x root : Fr}
    {path : List (Fr × Fr)} (h : MerkleTreeInclusionProof lib levels x path root) (hroot : m.root H = root.val)
    {pairs : Set (U256 × U256)} (hfree : CollisionFree H field pairs) (htree : treePairs H m ⊆ pairs)
    (hpath : pathPairs H field x.val (path.map siblingOf) ⊆ pairs) :
    ∃ i, m.leaf i = x.val ∧ (x = 0 ∨ x.val ∈ (registrations dao_id log).map Prod.fst) := by
  obtain ⟨hd, hf⟩ := htraced.shape m hm
  rw [hdepth, Option.some.injEq] at hd
  rw [hfield, Option.some.injEq] at hf
  subst hd hf
  obtain ⟨i, hi⟩ := h.leaf hagrees hroot hfree htree hpath
  refine ⟨i, hi, (htraced.leaves m hm i).imp (fun hzero => ?_) fun hmem => hi ▸ hmem⟩
  rw [hi] at hzero
  exact (ZMod.val_eq_zero x).mp hzero

/-- The contract's path of a stored leaf is one that the template accepts. -/
theorem included_of_represents (hagrees : Agrees lib (H.poseidon m.field)) (hc : CacheOk H t.cache)
    (hd : Represents H (t.daos dao_id) m) {i : Nat} (hi : i < m.size) {x : Fr} (hx : m.leaf i = x.val) :
    ∃ elements indices, get_merkle_path H t dao_id i = .ok (elements, indices) ∧
      MerkleTreeInclusionProof lib m.depth x ((elements.zip indices).map stepOf) (m.root H : Nat) := by
  obtain ⟨elements, indices, hpath, hlength, hzip⟩ := hd.get_merkle_path_eq hc hi
  refine ⟨elements, indices, hpath, ?_, ?_, ?_⟩
  · rw [List.length_map, hzip, Merkle.path, List.length_map, List.length_range]
  · rw [hzip]
    exact binary_path i m.depth
  · have htag : (lib.Poseidon [LEAF_DOMAIN, x]).val = hash_leaf H (m.leaf i) m.field := by
      rw [hx]
      exact (hash_one hagrees x).symm
    have hroot := @foldl_path _ _ hagrees (fun j => hash_leaf H (m.leaf j) m.field) (fun j => hagrees.lt _ _) _ i htag
      m.depth
    rw [Nat.div_eq_of_lt (hi.trans_le m.size_le)] at hroot
    rw [hzip, ← ZMod.natCast_zmod_val (List.foldl _ _ _)]
    exact congrArg Nat.cast hroot.symm

/-- In every reachable state, the template of the DAO's depth accepts every stored leaf under the current root, with
the contract's own path. Under a root that the contract knows it accepts nothing, whatever the path, that was not a
leaf of the tree under that root, unless two of the pairs hashed have the same hash. -/
theorem inclusion_of_leaves (hagrees : Agrees lib (H.poseidon field)) {registry : Address}
    (hrun : TreeRun H registry log t) (hdepth : (t.daos dao_id).tree_depth = some levels)
    (hfield : (t.daos dao_id).poseidon_field = some field) :
    (∀ i (x : Fr), (t.daos dao_id).leaf_value i = some x.val → ∃ elements indices root,
      get_merkle_path H t dao_id i = .ok (elements, indices) ∧ current_root t dao_id = .ok root ∧
        MerkleTreeInclusionProof lib levels x ((elements.zip indices).map stepOf) (root : Nat)) ∧
    ∀ (root x : Fr) path, (∃ k, (t.daos dao_id).root_index root.val = some k) →
      MerkleTreeInclusionProof lib levels x path root → ∃ m, Stood H dao_id log t m ∧ m.root H = root.val ∧
        (CollisionFree H field (treePairs H m ∪ pathPairs H field x.val (path.map siblingOf)) →
          ∃ i, m.leaf i = x.val ∧ (x = 0 ∨ x.val ∈ (registrations dao_id log).map Prod.fst)) := by
  have htraced := hrun.traced dao_id
  constructor
  · intro i x hx
    obtain ⟨m, hm⟩ := (hrun.ok.daos dao_id).represents (by rw [hdepth]; simp)
    rw [hm.tree_depth, Option.some.injEq] at hdepth
    rw [hm.poseidon_field, Option.some.injEq] at hfield
    subst hdepth hfield
    rw [hm.leaf_value] at hx
    split at hx
    · rename_i hi
      obtain ⟨elements, indices, hpath, hincluded⟩ :=
        included_of_represents hagrees hrun.ok.cache hm hi (Option.some.inj hx)
      exact ⟨elements, indices, m.root H, hpath, hm.current_root, hincluded⟩
    · cases hx
  · rintro root x path ⟨k, hk⟩ hincluded
    obtain ⟨m, hm, hroot⟩ := htraced.indexed _ k hk
    exact ⟨m, hm, hroot, fun hfree => hincluded.registered hagrees htraced hdepth hfield hm hroot hfree
      Set.subset_union_left Set.subset_union_right⟩

/-- Hashes of the contracts that go with `sampleLib`. -/
def sampleHashes : Hashes where
  sha256 := Tree.sampleHashes.sha256
  poseidon := fun _ => samplePair

def sampleMember (commitment : U256) : List Tree.Call :=
  [.init_tree 0 1 "BN254" 0, .register_from_registry 0 commitment 1]

theorem inclusion_of_leaves_for_a_member : ∃ log t, TreeRun sampleHashes 0 log t ∧
    (t.daos 0).leaf_value 0 = some (11 : Fr).val ∧
    (∀ i (x : Fr), (t.daos 0).leaf_value i = some x.val → ∃ elements indices root,
      get_merkle_path sampleHashes t 0 i = .ok (elements, indices) ∧ current_root t 0 = .ok root ∧
        MerkleTreeInclusionProof sampleLib 1 x ((elements.zip indices).map stepOf) (root : Nat)) ∧
    ∀ (root x : Fr) path, (∃ k, (t.daos 0).root_index root.val = some k) →
      MerkleTreeInclusionProof sampleLib 1 x path root → ∃ m, Stood sampleHashes 0 log t m ∧
        m.root sampleHashes = root.val ∧
        (CollisionFree sampleHashes "BN254"
          (treePairs sampleHashes m ∪ pathPairs sampleHashes "BN254" x.val (path.map siblingOf)) →
          ∃ i, m.leaf i = x.val ∧ (x = 0 ∨ x.val ∈ (registrations 0 log).map Prod.fst)) := by
  obtain ⟨log, t, hrun, htest⟩ := exists_run (H := sampleHashes) (r := 0) (sampleMember 11)
    (fun _ t => decide ((t.daos 0).tree_depth = some 1 ∧ (t.daos 0).poseidon_field = some "BN254" ∧
      (t.daos 0).leaf_value 0 = some 11)) (by decide)
  obtain ⟨hdepth, hfield, hleaf⟩ := of_decide_eq_true htest
  exact ⟨log, t, hrun, hleaf, inclusion_of_leaves sampleLib_agrees hrun hdepth hfield⟩

/-! ## Trees below a leaf -/

/-- The leaf that stands for a whole tree over the commitments of the voters, `k` levels high. -/
def nested (H : Hashes) (lib : Circomlib) (field : Symbol) (k : Nat) (voters : Nat → Voter) : U256 :=
  Merkle.node (H.poseidon field) (fun j => hash_leaf H ((voters j).commitment lib).val field) k 0

/-- The tag keeps leaves apart from nodes for one depth only. Under a key for more levels than the DAO's tree has,
one registered commitment can stand for a tree of its own, and every voter in that tree passes for a member. -/
theorem nested_voters (hagrees : Agrees lib (H.poseidon field)) {registry : Address}
    (hrun : TreeRun H registry log t) (hdepth : (t.daos dao_id).tree_depth = some levels)
    (hfield : (t.daos dao_id).poseidon_field = some field) {k i : Nat} {voters : Nat → Voter}
    (hleaf : (t.daos dao_id).leaf_value i = some (nested H lib field k voters)) (j : Nat) (hj : j < 2 ^ k) :
    ∃ path root, current_root t dao_id = .ok root ∧ ∀ daoId proposalId,
      VoteCommit lib (k + 1 + levels) (root : Nat) (lib.Poseidon [(voters j).secret, daoId, proposalId]) daoId
        proposalId { voters j with path := path } := by
  obtain ⟨m, hm⟩ := (hrun.ok.daos dao_id).represents (by rw [hdepth]; simp)
  rw [hm.tree_depth, Option.some.injEq] at hdepth
  rw [hm.poseidon_field, Option.some.injEq] at hfield
  subst hdepth hfield
  rw [hm.leaf_value] at hleaf
  split at hleaf
  swap
  · cases hleaf
  rename_i hi
  rw [Option.some.injEq] at hleaf
  let below := (Merkle.path (H.poseidon m.field)
    (fun j => hash_leaf H ((voters j).commitment lib).val m.field) j k).map stepOf
  let above := (Merkle.path (H.poseidon m.field) (fun j => hash_leaf H (m.leaf j) m.field) i m.depth).map stepOf
  -- the path leads up to the nested root, past the tag as a left sibling, and on through the DAO's tree
  refine ⟨below ++ stepOf (1, 1) :: above, m.root H, hm.current_root, fun daoId proposalId => ⟨⟨?_, ?_, ?_⟩, rfl⟩⟩
  · simp only [below, above, List.length_append, List.length_cons, List.length_map, Merkle.path, List.length_range]
    omega
  · intro step hstep
    rcases List.mem_append.mp hstep with hstep | hstep
    · exact binary_path j k step hstep
    · rcases List.mem_cons.mp hstep with rfl | hstep
      · simp [stepOf]
      · exact binary_path i m.depth step hstep
  · have hbelow : (below.foldl (nextHash lib) (lib.Poseidon [LEAF_DOMAIN, (voters j).commitment lib])).val =
        m.leaf i := by
      have hbelow := @foldl_path _ _ hagrees (fun j => hash_leaf H ((voters j).commitment lib).val m.field)
        (fun j => hagrees.lt _ _) _ j (hash_one hagrees ((voters j).commitment lib)).symm k
      rw [Nat.div_eq_of_lt hj] at hbelow
      exact hbelow.trans hleaf.symm
    have htag : (nextHash lib (below.foldl (nextHash lib) (lib.Poseidon [LEAF_DOMAIN, (voters j).commitment lib]))
        (stepOf (1, 1))).val = hash_leaf H (m.leaf i) m.field := by
      rw [nextHash_val hagrees _ (.inr (by simp [stepOf])), hbelow,
        @siblingOf_stepOf (1, 1) (by decide) (.inr rfl)]
      rfl
    have habove := @foldl_path _ _ hagrees (fun j => hash_leaf H (m.leaf j) m.field) (fun j => hagrees.lt _ _) _ i
      htag m.depth
    rw [Nat.div_eq_of_lt (hi.trans_le m.size_le)] at habove
    rw [List.foldl_append, List.foldl_cons, ← ZMod.natCast_zmod_val (List.foldl _ _ _)]
    exact congrArg Nat.cast habove.symm

/-- Two voters. -/
def sampleVoters (j : Nat) : Voter := ⟨(if j = 0 then 5 else 8 : Nat), (6 : Nat), (7 : Nat), []⟩

/-- Both pass for members in a tree with one registration. -/
theorem nested_voters_for_two : ∃ log t, TreeRun sampleHashes 0 log t ∧ (registrations 0 log).length = 1 ∧
    ∀ j < 2 ^ 1, ∃ path root, current_root t 0 = .ok root ∧ ∀ daoId proposalId,
      VoteCommit sampleLib (1 + 1 + 1) (root : Nat) (sampleLib.Poseidon [(sampleVoters j).secret, daoId, proposalId])
        daoId proposalId { sampleVoters j with path := path } := by
  have hleaf : nested sampleHashes sampleLib "BN254" 1 sampleVoters = 23 := by decide
  obtain ⟨log, t, hrun, htest⟩ := exists_run (H := sampleHashes) (r := 0) (sampleMember 23)
    (fun log t => decide ((t.daos 0).tree_depth = some 1 ∧ (t.daos 0).poseidon_field = some "BN254" ∧
      (t.daos 0).leaf_value 0 = some 23 ∧ (registrations 0 log).length = 1)) (by decide)
  obtain ⟨hdepth, hfield, hvalue, hlength⟩ := of_decide_eq_true htest
  exact ⟨log, t, hrun, hlength, nested_voters sampleLib_agrees hrun hdepth hfield (hleaf ▸ hvalue)⟩

end

end ZkVote.Templates
