import ZkVote.Lib.Merkle
import ZkVote.Prover.Field

/-!
# The ballot circuits

`circuits/merkle_tree.circom`, `circuits/vote_template.circom`, `circuits/vote_commit.circom`: a template is what
its constraints say of its signals. The hash and the comparators are circomlib's.
-/

open Lib
open ZkVote.Prover (Fr SCALAR_MODULUS)

namespace ZkVote.Templates

/-- What the templates include: a hash, and comparators as what they ask of two inputs and the output. -/
structure Circomlib where
  Poseidon : List Fr → Fr
  LessThan : Nat → Fr → Fr → Fr → Prop
  LessEqThan : Nat → Fr → Fr → Fr → Prop
  GreaterThan : Nat → Fr → Fr → Fr → Prop
  GreaterEqThan : Nat → Fr → Fr → Fr → Prop

/-- The comparator of so many bits, on inputs that have no more. -/
def Compares (comparator : Nat → Fr → Fr → Fr → Prop) (holds : Nat → Nat → Bool) : Prop :=
  ∀ n a b out, n ≤ 252 → a.val < 2 ^ n → b.val < 2 ^ n →
    (comparator n a b out ↔ out = if holds a.val b.val then 1 else 0)

structure Circomlib.Exact (lib : Circomlib) : Prop where
  less : Compares lib.LessThan fun a b => a < b
  less_eq : Compares lib.LessEqThan fun a b => a ≤ b
  greater : Compares lib.GreaterThan fun a b => b < a
  greater_eq : Compares lib.GreaterEqThan fun a b => b ≤ a

/-! ## `MerkleTreeInclusionProof` -/

def LEAF_DOMAIN : Fr := 1

def Selector (in0 in1 s : Fr) : Fr × Fr := ((in1 - in0) * s + in0, (in0 - in1) * s + in1)

/-- One pass of the loop, over an entry of `pathElements` and one of `pathIndices`. -/
def nextHash (lib : Circomlib) (currentHash : Fr) (step : Fr × Fr) : Fr :=
  let out := Selector currentHash step.1 step.2
  lib.Poseidon [out.1, out.2]

structure MerkleTreeInclusionProof (lib : Circomlib) (levels : Nat) (leaf : Fr) (path : List (Fr × Fr))
    (root : Fr) : Prop where
  length : path.length = levels
  binary : ∀ step ∈ path, step.2 * (step.2 - 1) = 0
  root_eq : root = path.foldl (nextHash lib) (lib.Poseidon [LEAF_DOMAIN, leaf])

/-! ## `Vote` and `VoteCommit` -/

def DOMAIN_TAG : Fr := 19666041591797403834655481403982443037438503980743793537655983658411276515161

/-- The private inputs. -/
structure Voter where
  secret : Fr
  salt : Fr
  blindingFactor : Fr
  path : List (Fr × Fr)

def Voter.commitment (lib : Circomlib) (voter : Voter) : Fr :=
  lib.Poseidon [DOMAIN_TAG, voter.secret, voter.salt, voter.blindingFactor]

structure VoteCommit (lib : Circomlib) (levels : Nat) (root nullifier daoId proposalId : Fr) (voter : Voter) :
    Prop where
  included : MerkleTreeInclusionProof lib levels (voter.commitment lib) voter.path root
  nullifier_eq : nullifier = lib.Poseidon [voter.secret, daoId, proposalId]

structure Vote (lib : Circomlib) (levels : Nat) (root nullifier daoId proposalId voteChoice numCandidates : Fr)
    (voter : Voter) : Prop where
  included : MerkleTreeInclusionProof lib levels (voter.commitment lib) voter.path root
  nullifier_eq : nullifier = lib.Poseidon [voter.secret, daoId, proposalId]
  validChoice : lib.LessThan 32 voteChoice numCandidates 1

/-- The choice is all that the commit phase leaves out. -/
theorem Vote.commit {lib : Circomlib} {levels : Nat}
    {root nullifier daoId proposalId voteChoice numCandidates : Fr} {voter : Voter}
    (h : Vote lib levels root nullifier daoId proposalId voteChoice numCandidates voter) :
    VoteCommit lib levels root nullifier daoId proposalId voter := ⟨h.included, h.nullifier_eq⟩

/-! ## Paths -/

theorem mul_sub_one_eq_zero {s : Fr} : s * (s - 1) = 0 ↔ s = 0 ∨ s = 1 := by
  rw [mul_eq_zero, sub_eq_zero]

/-- The entry as the sibling and the side of a path in the tree. -/
def siblingOf (step : Fr × Fr) : Nat × Nat := (step.1.val, if step.2 = 0 then 0 else 1)

/-- An entry of a path in the tree as one of the template. -/
def stepOf (entry : Nat × Nat) : Fr × Fr := (entry.1, entry.2)

/-- A hash of two numbers that gives field elements, and of field elements what the template gives. -/
structure Agrees (lib : Circomlib) (hash : Nat → Nat → Nat) : Prop where
  eq : ∀ a b : Fr, hash a.val b.val = (lib.Poseidon [a, b]).val
  lt : ∀ a b, hash a b < SCALAR_MODULUS

section
variable {lib : Circomlib} {hash : Nat → Nat → Nat} {levels : Nat} {leaf root : Fr} {path : List (Fr × Fr)}

theorem nextHash_val (hagrees : Agrees lib hash) (x : Fr) {step : Fr × Fr} (hbinary : step.2 = 0 ∨ step.2 = 1) :
    (nextHash lib x step).val =
      if (siblingOf step).2 = 0 then hash x.val (siblingOf step).1 else hash (siblingOf step).1 x.val := by
  obtain ⟨sib, side⟩ := step
  rcases hbinary with hside | hside <;> simp only at hside <;> subst hside
  · simpa [nextHash, Selector, siblingOf] using (hagrees.eq x sib).symm
  · simpa [nextHash, Selector, siblingOf] using (hagrees.eq sib x).symm

/-- The template climbs from the tagged leaf. -/
theorem foldl_nextHash_val (hagrees : Agrees lib hash) (x : Fr)
    (hbinary : ∀ step ∈ path, step.2 * (step.2 - 1) = 0) :
    (path.foldl (nextHash lib) x).val = Merkle.climb hash x.val (path.map siblingOf) := by
  induction path generalizing x with
  | nil => rfl
  | cons step path ih =>
    rw [List.forall_mem_cons] at hbinary
    rw [List.foldl_cons, ih _ hbinary.2, nextHash_val hagrees x (mul_sub_one_eq_zero.mp hbinary.1)]
    rfl

theorem hash_one (hagrees : Agrees lib hash) (x : Fr) : hash 1 x.val = (lib.Poseidon [LEAF_DOMAIN, x]).val := by
  have hone : LEAF_DOMAIN.val = 1 := rfl
  rw [← hagrees.eq, hone]

theorem MerkleTreeInclusionProof.climb (hagrees : Agrees lib hash)
    (h : MerkleTreeInclusionProof lib levels leaf path root) :
    Merkle.climb hash (hash 1 leaf.val) (path.map siblingOf) = root.val := by
  rw [h.root_eq, foldl_nextHash_val hagrees _ h.binary, hash_one hagrees]

/-! ## Paths of a tree -/

theorem node_lt (hagrees : Agrees lib hash) {leaves : Nat → Nat} (hleaves : ∀ j, leaves j < SCALAR_MODULUS)
    (l i : Nat) : Merkle.node hash leaves l i < SCALAR_MODULUS := by
  cases l with
  | zero => exact hleaves i
  | succ l => exact hagrees.lt _ _

theorem binary_path {leaves : Nat → Nat} (i depth : Nat) :
    ∀ step ∈ (Merkle.path hash leaves i depth).map stepOf, step.2 * (step.2 - 1) = 0 := by
  intro step hstep
  obtain ⟨entry, hentry, rfl⟩ := List.mem_map.mp hstep
  obtain ⟨l, -, rfl⟩ := List.mem_map.mp hentry
  rcases Nat.mod_two_eq_zero_or_one (i / 2 ^ l) with h | h <;> simp [stepOf, h]

theorem siblingOf_stepOf {entry : Nat × Nat} (hlt : entry.1 < SCALAR_MODULUS) (hside : entry.2 = 0 ∨ entry.2 = 1) :
    siblingOf (stepOf entry) = entry := by
  obtain ⟨sib, side⟩ := entry
  rcases hside with rfl | rfl
  · simp [siblingOf, stepOf, ZMod.val_natCast_of_lt hlt]
  · simp [siblingOf, stepOf, ZMod.val_natCast_of_lt hlt]

/-- The path of a tree's leaf leads the template to the root. -/
theorem foldl_path (hagrees : Agrees lib hash) {leaves : Nat → Nat} (hleaves : ∀ j, leaves j < SCALAR_MODULUS) {x : Fr}
    {i : Nat} (hx : x.val = leaves i) (depth : Nat) :
    (((Merkle.path hash leaves i depth).map stepOf).foldl (nextHash lib) x).val =
      Merkle.node hash leaves depth (i / 2 ^ depth) := by
  have hsame : ((Merkle.path hash leaves i depth).map stepOf).map siblingOf = Merkle.path hash leaves i depth := by
    rw [List.map_map]
    refine (List.map_congr_left fun entry hentry => ?_).trans (List.map_id _)
    obtain ⟨l, -, rfl⟩ := List.mem_map.mp hentry
    exact siblingOf_stepOf (node_lt hagrees hleaves _ _) (Nat.mod_two_eq_zero_or_one _)
  rw [foldl_nextHash_val hagrees x (binary_path i depth), hsame, hx, Merkle.climb_path]

end

/-! ## A library to compute with -/

/-- Lists, and a hash for each that is that of no other. -/
def sampleTable : List (List Nat × Nat) :=
  [([DOMAIN_TAG.val, 5, 6, 7], 11), ([DOMAIN_TAG.val, 8, 6, 7], 21), ([1, 11], 12), ([1, 21], 22), ([1, 0], 13),
    ([12, 13], 14), ([13, 13], 15), ([5, 0, 1], 16), ([12, 12], 18), ([13, 12], 19), ([12, 22], 23), ([1, 23], 24),
    ([24, 13], 25), ([5, 6], 17), ([1, 17], 26), ([12, 26], 27), ([13, 26], 28), ([26, 12], 29), ([26, 13], 30),
    ([26, 26], 31)]

def sampleHash (l : List Nat) : Nat := ((sampleTable.find? fun entry => entry.1 = l).map Prod.snd).getD 20

def sampleLib : Circomlib where
  Poseidon := fun l => (sampleHash (l.map ZMod.val) : Nat)
  LessThan := fun _ a b out => out = if a.val < b.val then 1 else 0
  LessEqThan := fun _ a b out => out = if a.val ≤ b.val then 1 else 0
  GreaterThan := fun _ a b out => out = if b.val < a.val then 1 else 0
  GreaterEqThan := fun _ a b out => out = if b.val ≤ a.val then 1 else 0

/-- What the contracts hash with, to go with it. -/
def samplePair (a b : Nat) : Nat := sampleHash [a % SCALAR_MODULUS, b % SCALAR_MODULUS]

theorem sampleLib_exact : sampleLib.Exact := by
  constructor <;> intro n a b out _ _ _ <;> simp [sampleLib]

theorem sampleHash_lt (l : List Nat) : sampleHash l < SCALAR_MODULUS := by
  have hsmall : ∀ n ∈ sampleTable.map Prod.snd, n < 32 := by decide
  have hlt : sampleHash l < 32 := by
    unfold sampleHash
    cases hentry : sampleTable.find? fun entry => entry.1 = l with
    | none => decide
    | some entry => exact hsmall entry.2 (List.mem_map_of_mem (List.mem_of_find?_eq_some hentry))
  exact hlt.trans (by decide)

theorem sampleLib_agrees : Agrees sampleLib samplePair where
  eq a b := by
    rw [samplePair, Nat.mod_eq_of_lt a.val_lt, Nat.mod_eq_of_lt b.val_lt]
    exact (ZMod.val_natCast_of_lt (sampleHash_lt _)).symm
  lt _ _ := sampleHash_lt _

end ZkVote.Templates
