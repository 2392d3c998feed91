import ZkVote.Lib.BigInt
import ZkVote.Lib.Runs
import ZkVote.Tree.Roots

/-!
# The client's Merkle paths

`frontend/src/lib/merkletree.ts` rebuilds the tree from its leaves, level by
level, to find the path of one of them. The contract reads the same path from
the nodes it keeps.
-/

open Lib

namespace ZkVote.Frontend

def TREE_DEPTH : Nat := 18

def LEAF_DOMAIN : Int := 1

/-- A string, or `undefined`. -/
abbrev Text := Option String

/-- `xs[i]`. -/
def elementAt (xs : List Text) (i : Nat) : Text := xs[i]?.join

/-- `BigInt(x)`; `none` where it throws. -/
def toBigInt (x : Text) : Option Int := x.bind readBigInt

section
variable (poseidon : Int → Int → U256)

/-- `poseidon.F.toString(poseidon([a, b]))`. -/
def poseidonText (a b : Int) : Text := some (Nat.repr (poseidon a b))

def pushZero (zeros : List Text) (i : Nat) : Option (List Text) := do
  let prev ← toBigInt (elementAt zeros i)
  return zeros ++ [poseidonText poseidon prev prev]

/-- What `zeroCache` holds after the call, which is what the call returns. -/
def getZeroHashes (zeroCache : Option (List Text)) : Option (List Text) :=
  match zeroCache with
  | some zeros => some zeros
  | none => (List.range TREE_DEPTH).foldlM (pushZero poseidon) [poseidonText poseidon LEAF_DOMAIN 0]

def hashLeaf (commitment : String) : Option Text := do
  let leaf ← readBigInt commitment
  return poseidonText poseidon LEAF_DOMAIN leaf

def hashPair (left right : Text) : Option Text := do
  let left ← toBigInt left
  let right ← toBigInt right
  return poseidonText poseidon left right

/-- The nodes over the nodes of a level, two by two. -/
def nextLevel (zero : Text) : List Text → Option (List Text)
  | [] => some []
  | [left] => do
    let hash ← hashPair poseidon left zero
    return [hash]
  | left :: right :: rest => do
    let hash ← hashPair poseidon left right
    let hashes ← nextLevel zero rest
    return hash :: hashes

/-- The variables of the loop. -/
structure Climb where
  pathElements : List Text
  pathIndices : List Nat
  currentLevel : List Text
  currentIndex : Nat

def climbLevel (zeros : List Text) (st : Climb) (level : Nat) : Option Climb := do
  let isLeft := st.currentIndex % 2 = 0
  let sibling :=
    if isLeft then
      if st.currentIndex + 1 < st.currentLevel.length then elementAt st.currentLevel (st.currentIndex + 1)
      else elementAt zeros level
    else elementAt st.currentLevel (st.currentIndex - 1)
  let next ← nextLevel poseidon (elementAt zeros level) st.currentLevel
  let padding := List.replicate ((st.currentLevel.length + 1) / 2 - next.length) (elementAt zeros (level + 1))
  return { pathElements := st.pathElements ++ [sibling]
           pathIndices := st.pathIndices ++ [if isLeft then 0 else 1]
           currentLevel := next ++ padding
           currentIndex := st.currentIndex / 2 }

structure MerklePath where
  pathElements : List Text
  pathIndices : List Nat

/-- The path, or `none` where the promise is rejected. -/
def computeMerklePath (zeroCache : Option (List Text)) (leafIndex _totalLeaves : Nat) (leaves : List String) :
    Option MerklePath := do
  let zeros ← getZeroHashes poseidon zeroCache
  let currentLevel ← leaves.mapM (hashLeaf poseidon)
  let st ← (List.range TREE_DEPTH).foldlM (climbLevel poseidon zeros) ⟨[], [], currentLevel, leafIndex⟩
  return ⟨st.pathElements, st.pathIndices⟩

end

/-! ## Texts -/

/-- A number in decimal. -/
def decimal (n : U256) : Text := some (Nat.repr n)

@[simp] theorem toBigInt_decimal (n : U256) : toBigInt (decimal n) = some (n : Int) := readBigInt_repr n

theorem elementAt_map {f : Nat → Text} {k i : Nat} (h : i < k) : elementAt ((List.range k).map f) i = f i := by
  unfold elementAt
  rw [List.getElem?_map, List.getElem?_range h]
  rfl

section
variable {H : Hashes} {poseidon : Int → Int → U256} {m : Tree.Members}
  (hposeidon : ∀ a b : U256, poseidon a b = H.poseidon "BN254" a b)

include hposeidon

theorem poseidonText_eq (a b : U256) : poseidonText poseidon a b = decimal (Tree.hash_pair H a b "BN254") :=
  congrArg decimal (hposeidon a b)

theorem hashPair_decimal (a b : U256) :
    hashPair poseidon (decimal a) (decimal b) = some (decimal (Tree.hash_pair H a b "BN254")) := by
  unfold hashPair
  rw [toBigInt_decimal, toBigInt_decimal, ← poseidonText_eq hposeidon]
  rfl

/-- The zero hashes of the levels. -/
def zeroTexts (H : Hashes) : List Text := (List.range (TREE_DEPTH + 1)).map fun l => decimal (Tree.zeroNode H "BN254" l)

theorem pushZero_eq {zeros : List Text} {n : Nat}
    (hzeros : zeros = (List.range (n + 1)).map fun l => decimal (Tree.zeroNode H "BN254" l)) :
    pushZero poseidon zeros n = some ((List.range (n + 2)).map fun l => decimal (Tree.zeroNode H "BN254" l)) := by
  have hlast : elementAt zeros n = decimal (Tree.zeroNode H "BN254" n) := by
    rw [hzeros, elementAt_map (Nat.lt_succ_self n)]
  have hnext : poseidonText poseidon (Tree.zeroNode H "BN254" n) (Tree.zeroNode H "BN254" n) =
      decimal (Tree.zeroNode H "BN254" (n + 1)) := poseidonText_eq hposeidon _ _
  unfold pushZero
  rw [hlast, toBigInt_decimal, List.range_succ, List.map_append, ← hzeros]
  exact congrArg (fun x => some (zeros ++ [x])) hnext

theorem getZeroHashes_none : getZeroHashes poseidon none = some (zeroTexts H) := by
  obtain ⟨zeros, hrun, hzeros⟩ := @foldlM_range_rule _ [poseidonText poseidon LEAF_DOMAIN 0] TREE_DEPTH
    (pushZero poseidon)
    (fun n zeros => zeros = (List.range (n + 1)).map fun l => decimal (Tree.zeroNode H "BN254" l))
    (congrArg (fun x => [x]) (poseidonText_eq hposeidon 1 0))
    fun n zeros _ hzeros => ⟨_, pushZero_eq hposeidon hzeros, rfl⟩
  unfold getZeroHashes
  rw [hrun, hzeros]
  rfl

theorem getZeroHashes_iterate (calls : Nat) :
    getZeroHashes poseidon ((getZeroHashes poseidon)^[calls] none) = some (zeroTexts H) := by
  induction calls with
  | zero => exact getZeroHashes_none hposeidon
  | succ calls ih =>
    rw [Function.iterate_succ_apply', ih]
    rfl

theorem mapM_hashLeaf {leaves : List String} {leaf : Nat → U256}
    (hleaves : ∀ i text, leaves[i]? = some text → readBigInt text = some (leaf i : Int)) :
    leaves.mapM (hashLeaf poseidon) =
      some ((List.range leaves.length).map fun i => decimal (Tree.hash_leaf H (leaf i) "BN254")) := by
  induction leaves generalizing leaf with
  | nil => rfl
  | cons text leaves ih =>
    have hhead : hashLeaf poseidon text = some (decimal (Tree.hash_leaf H (leaf 0) "BN254")) := by
      unfold hashLeaf
      rw [hleaves 0 text rfl]
      exact congrArg some (poseidonText_eq hposeidon 1 (leaf 0))
    have htail := ih fun i text hi => hleaves (i + 1) text hi
    rw [List.mapM_cons, hhead, htail, List.length_cons, List.range_succ_eq_map, List.map_cons, List.map_map]
    rfl

/-! ## Levels -/

/-- A row of texts from an even place on becomes the row of the hashes of its pairs, where there is a zero behind
the last. -/
theorem nextLevel_map {f g : Nat → U256} {zero : Text}
    (hpair : ∀ j, g j = Tree.hash_pair H (f (2 * j)) (f (2 * j + 1)) "BN254")
    {start k : Nat} (hzero : decimal (f (2 * start + k)) = zero) :
    nextLevel poseidon zero ((List.range' (2 * start) k).map fun j => decimal (f j)) =
      some ((List.range' start ((k + 1) / 2)).map fun j => decimal (g j)) := by
  induction k using Nat.twoStepInduction generalizing start with
  | zero => rfl
  | one =>
    have hhash := hashPair_decimal hposeidon (f (2 * start)) (f (2 * start + 1))
    rw [hzero, ← hpair] at hhash
    simp only [List.range'_one, List.map_cons, List.map_nil, nextLevel, hhash]
    rfl
  | more k ih _ =>
    have hhash := hashPair_decimal hposeidon (f (2 * start)) (f (2 * start + 1))
    rw [← hpair] at hhash
    have hzero' : decimal (f (2 * (start + 1) + k)) = zero := by
      rw [← hzero]
      congr 2
      omega
    have hrest := ih hzero'
    have hhalf : (k + 2 + 1) / 2 = (k + 1) / 2 + 1 := by omega
    rw [hhalf, List.range'_succ, List.range'_succ, List.range'_succ, List.map_cons, List.map_cons, List.map_cons]
    simp only [nextLevel, hhash]
    rw [show 2 * start + 1 + 1 = 2 * (start + 1) by omega, hrest]
    rfl

/-! ## The climb -/

/-- How many nodes are over `size` leaves at a level. -/
def rowLength (size : Nat) : Nat → Nat
  | 0 => size
  | level + 1 => (rowLength size level + 1) / 2

omit hposeidon in
theorem le_rowLength (size level : Nat) : size ≤ rowLength size level * 2 ^ level := by
  induction level with
  | zero => simp [rowLength]
  | succ level ih =>
    have hhalf : rowLength size level ≤ (rowLength size level + 1) / 2 * 2 := by omega
    calc size ≤ rowLength size level * 2 ^ level := ih
      _ ≤ rowLength size (level + 1) * 2 * 2 ^ level := Nat.mul_le_mul_right _ hhalf
      _ = rowLength size (level + 1) * 2 ^ (level + 1) := by ring

omit hposeidon in
theorem div_lt_rowLength {size i : Nat} (hi : i < size) (level : Nat) : i / 2 ^ level < rowLength size level := by
  induction level with
  | zero => simpa [rowLength] using hi
  | succ level ih =>
    rw [Merkle.div_two_pow_succ]
    unfold rowLength
    omega

/-- The nodes of a level, in decimal. -/
def row (H : Hashes) (m : Tree.Members) (level : Nat) : List Text :=
  (List.range (rowLength m.size level)).map fun j => decimal (Tree.merkleNode H "BN254" m.leaf level j)

/-- The siblings and the sides of the path below a level. -/
def pathBelow (H : Hashes) (m : Tree.Members) (i level : Nat) : List (U256 × Nat) :=
  Merkle.path (fun a b => Tree.hash_pair H a b "BN254") (fun j => Tree.hash_leaf H (m.leaf j) "BN254") i level

/-- The loop on its arrival at a level. -/
structure Climbed (H : Hashes) (m : Tree.Members) (i level : Nat) (st : Climb) : Prop where
  pathElements : st.pathElements = (pathBelow H m i level).map fun s => decimal s.1
  pathIndices : st.pathIndices = (pathBelow H m i level).map Prod.snd
  currentLevel : st.currentLevel = row H m level
  currentIndex : st.currentIndex = i / 2 ^ level

omit hposeidon in
theorem elementAt_zeroTexts {level : Nat} (h : level ≤ TREE_DEPTH) :
    elementAt (zeroTexts H) level = decimal (Tree.zeroNode H "BN254" level) :=
  elementAt_map (Nat.lt_succ_of_le h)

omit hposeidon in
/-- There is nothing but zeros behind a row. -/
theorem node_behind_row {level j : Nat} (h : rowLength m.size level ≤ j) :
    Tree.merkleNode H "BN254" m.leaf level j = Tree.zeroNode H "BN254" level := by
  refine Merkle.node_eq_uniform_of_le (fun k hk => by rw [m.padded k hk]) ?_
  exact (le_rowLength m.size level).trans (Nat.mul_le_mul_right _ h)

omit hposeidon in
theorem sibling_eq {level i : Nat} {st : Climb} (hlevel : level ≤ TREE_DEPTH) (hi : i < m.size)
    (h : Climbed H m i level st) :
    (if st.currentIndex % 2 = 0 then
        if st.currentIndex + 1 < st.currentLevel.length then elementAt st.currentLevel (st.currentIndex + 1)
        else elementAt (zeroTexts H) level
      else elementAt st.currentLevel (st.currentIndex - 1)) =
      decimal (Tree.merkleNode H "BN254" m.leaf level (Merkle.sibling (i / 2 ^ level))) := by
  have hlength : st.currentLevel.length = rowLength m.size level := by
    rw [h.currentLevel]
    simp [row]
  have hrow : ∀ j < rowLength m.size level,
      elementAt st.currentLevel j = decimal (Tree.merkleNode H "BN254" m.leaf level j) := by
    intro j hj
    rw [h.currentLevel]
    exact elementAt_map hj
  have hindex := div_lt_rowLength hi level
  rw [hlength, h.currentIndex]
  revert hindex
  generalize i / 2 ^ level = j
  intro hindex
  unfold Merkle.sibling
  by_cases heven : j % 2 = 0
  · rw [if_pos heven, if_pos heven]
    by_cases hright : j + 1 < rowLength m.size level
    · rw [if_pos hright, hrow _ hright]
    · rw [if_neg hright, elementAt_zeroTexts hlevel, node_behind_row (Nat.le_of_not_lt hright)]
  · rw [if_neg heven, if_neg heven, hrow _ (by omega)]

theorem nextLevel_row {level : Nat} (hlevel : level ≤ TREE_DEPTH) :
    nextLevel poseidon (elementAt (zeroTexts H) level) (row H m level) = some (row H m (level + 1)) := by
  have hzero : decimal (Tree.merkleNode H "BN254" m.leaf level (2 * 0 + rowLength m.size level)) =
      elementAt (zeroTexts H) level := by
    rw [elementAt_zeroTexts hlevel, node_behind_row (by omega)]
  have hnext := @nextLevel_map H poseidon hposeidon (Tree.merkleNode H "BN254" m.leaf level)
    (Tree.merkleNode H "BN254" m.leaf (level + 1)) _ (fun j => rfl) 0 _ hzero
  rw [← List.range_eq_range', ← List.range_eq_range'] at hnext
  exact hnext

theorem climbLevel_eq {level i : Nat} {st : Climb} (hlevel : level < TREE_DEPTH) (hi : i < m.size)
    (h : Climbed H m i level st) :
    ∃ st', climbLevel poseidon (zeroTexts H) st level = some st' ∧ Climbed H m i (level + 1) st' := by
  have hsibling := sibling_eq (Nat.le_of_lt hlevel) hi h
  have hnext := nextLevel_row (m := m) hposeidon (Nat.le_of_lt hlevel)
  have hlength : (row H m (level + 1)).length = (st.currentLevel.length + 1) / 2 := by
    rw [h.currentLevel]
    simp [row, rowLength]
  unfold climbLevel
  simp only [hsibling]
  rw [← h.currentLevel] at hnext
  rw [hnext]
  refine ⟨_, rfl, ?_, ?_, ?_, ?_⟩
  · rw [h.pathElements]
    unfold pathBelow
    rw [Merkle.path_succ, List.map_append]
    rfl
  · rw [h.pathIndices, h.currentIndex]
    unfold pathBelow
    rw [Merkle.path_succ, List.map_append]
    have hside : (if i / 2 ^ level % 2 = 0 then 0 else 1) = i / 2 ^ level % 2 := by split <;> omega
    rw [hside]
    rfl
  · rw [← hlength, Nat.sub_self]
    exact List.append_nil _
  · rw [h.currentIndex, Merkle.div_two_pow_succ]

theorem computeMerklePath_eq {leaves : List String} {i : Nat} (hsize : leaves.length = m.size) (hi : i < m.size)
    (hleaves : ∀ j text, leaves[j]? = some text → readBigInt text = some (m.leaf j : Int)) (calls totalLeaves : Nat) :
    computeMerklePath poseidon ((getZeroHashes poseidon)^[calls] none) i totalLeaves leaves =
      some ⟨(pathBelow H m i TREE_DEPTH).map fun s => decimal s.1, (pathBelow H m i TREE_DEPTH).map Prod.snd⟩ := by
  have hrow := mapM_hashLeaf hposeidon hleaves
  have hstart : Climbed H m i 0 ⟨[], [], row H m 0, i⟩ := ⟨rfl, rfl, rfl, by rw [Nat.pow_zero, Nat.div_one]⟩
  obtain ⟨st, hrun, hst⟩ := foldlM_range_rule _ _ (Climbed H m i) hstart fun level st hlevel h =>
    climbLevel_eq hposeidon hlevel hi h
  unfold computeMerklePath
  rw [getZeroHashes_iterate hposeidon, hrow, hsize]
  change ((List.range TREE_DEPTH).foldlM (climbLevel poseidon (zeroTexts H)) ⟨[], [], row H m 0, i⟩ >>= _) = _
  rw [hrun, ← hst.pathElements, ← hst.pathIndices]
  rfl

end

/-! ## The client and the chain -/

/-- The texts are the leaves that the DAO stores. -/
structure LeafTexts (d : Tree.DaoTree) (leaves : List String) : Prop where
  next_leaf_index : d.next_leaf_index = some leaves.length
  leaf_value : ∀ i text, leaves[i]? = some text →
    ∃ leaf : U256, d.leaf_value i = some leaf ∧ readBigInt text = some (leaf : Int)

/-- In every reachable state of a tree of the client's depth, whatever calls the client has made before: its path of a
leaf is the one the contract gives, and folds to the current root. -/
theorem client_path_is_stored (H : Hashes) {poseidon : Int → Int → U256}
    (hposeidon : ∀ a b : U256, poseidon a b = H.poseidon "BN254" a b) {registry : Address}
    {log : List (Tree.MembershipTree × Tree.TreeEnv × Tree.Call)} {t : Tree.MembershipTree}
    (hrun : Tree.TreeRun H registry log t) {dao_id : Nat} (hdepth : (t.daos dao_id).tree_depth = some 18)
    (hfield : (t.daos dao_id).poseidon_field = some "BN254") {leaves : List String}
    (hleaves : LeafTexts (t.daos dao_id) leaves) {i : Nat} (hi : i < leaves.length) (calls totalLeaves : Nat) :
    ∃ leaf elements indices, (t.daos dao_id).leaf_value i = some leaf ∧
      Tree.get_merkle_path H t dao_id i = .ok (elements, indices) ∧
      computeMerklePath poseidon ((getZeroHashes poseidon)^[calls] none) i totalLeaves leaves =
        some ⟨elements.map decimal, indices⟩ ∧
      Tree.current_root t dao_id = .ok (Tree.foldPath H "BN254" leaf elements indices) := by
  obtain ⟨m, hm⟩ := (hrun.ok.daos dao_id).represents (by rw [hdepth]; simp)
  have hdepth' : m.depth = TREE_DEPTH := Option.some.inj (hm.tree_depth.symm.trans hdepth)
  have hfield' : m.field = "BN254" := Option.some.inj (hm.poseidon_field.symm.trans hfield)
  have hsize : leaves.length = m.size := Option.some.inj (hleaves.next_leaf_index.symm.trans hm.next_leaf_index)
  rw [hsize] at hi
  have htexts : ∀ j text, leaves[j]? = some text → readBigInt text = some (m.leaf j : Int) := by
    intro j text htext
    obtain ⟨leaf, hleaf, hread⟩ := hleaves.leaf_value j text htext
    have hj : j < m.size := hsize ▸ (List.getElem?_eq_some_iff.mp htext).1
    rw [hm.leaf_value, if_pos hj, Option.some.injEq] at hleaf
    rwa [hleaf]
  obtain ⟨elements, indices, hpath, hlength, hzip⟩ := hm.get_merkle_path_eq hrun.ok.cache hi
  obtain ⟨elements', indices', hpath', hfold⟩ := hm.get_merkle_path hrun.ok.cache hi
  rw [hpath, Except.ok.injEq, Prod.mk.injEq] at hpath'
  obtain ⟨rfl, rfl⟩ := hpath'
  have hbelow : pathBelow H m i TREE_DEPTH = elements.zip indices := by
    rw [hzip, hdepth', hfield']
    rfl
  refine ⟨m.leaf i, elements, indices, ?_, hpath, ?_, ?_⟩
  · rw [hm.leaf_value, if_pos hi]
  · rw [computeMerklePath_eq hposeidon hsize hi htexts calls totalLeaves, hbelow]
    have helements : (elements.zip indices).map Prod.fst = elements := List.map_fst_zip (by omega)
    have hindices : (elements.zip indices).map Prod.snd = indices := List.map_snd_zip (by omega)
    have hdecimal : ((elements.zip indices).map Prod.fst).map decimal =
        (elements.zip indices).map fun s => decimal s.1 := List.map_map
    rw [helements] at hdecimal
    rw [hindices, ← hdecimal]
  · rw [hm.current_root, ← hfold, hfield']

/-- Three members, the second of them removed. -/
theorem client_path_is_stored_after_a_removal : ∃ t : Tree.MembershipTree,
    ∃ leaf elements indices, (t.daos 0).leaf_value 2 = some leaf ∧
      Tree.get_merkle_path Tree.sampleHashes t 0 2 = .ok (elements, indices) ∧
      computeMerklePath (fun a b => Tree.sampleHashes.poseidon "BN254" a.toNat b.toNat) none 2 3 ["7", "0", "0x9"] =
        some ⟨elements.map decimal, indices⟩ ∧
      Tree.current_root t 0 = .ok (Tree.foldPath Tree.sampleHashes "BN254" leaf elements indices) := by
  obtain ⟨_, t, hrun, htest⟩ := Tree.exists_run (H := Tree.sampleHashes) (r := 0)
    [.init_tree 0 18 "BN254" 0, .register_from_registry 0 7 1, .register_from_registry 0 8 2,
      .register_from_registry 0 9 3, .remove_member 0 2 0]
    (fun _ t => decide ((t.daos 0).tree_depth = some 18 ∧ (t.daos 0).poseidon_field = some "BN254" ∧
      (t.daos 0).next_leaf_index = some 3 ∧ (t.daos 0).leaf_value 0 = some 7 ∧ (t.daos 0).leaf_value 1 = some 0 ∧
      (t.daos 0).leaf_value 2 = some 9)) (by decide +kernel)
  obtain ⟨hdepth, hfield, hnext, h₀, h₁, h₂⟩ := of_decide_eq_true htest
  have hleaves : LeafTexts (t.daos 0) ["7", "0", "0x9"] := by
    refine ⟨hnext, fun i text htext => ?_⟩
    match i, htext with
    | 0, rfl => exact ⟨7, h₀, by decide +kernel⟩
    | 1, rfl => exact ⟨0, h₁, by decide +kernel⟩
    | 2, rfl => exact ⟨9, h₂, by decide +kernel⟩
  exact ⟨t, client_path_is_stored Tree.sampleHashes (fun _ _ => rfl) hrun hdepth hfield hleaves (by decide) 0 3⟩

end ZkVote.Frontend
