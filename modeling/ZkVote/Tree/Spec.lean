import ZkVote.Lib.Merkle
import ZkVote.Lib.Runs
import ZkVote.Tree.Contract
import Mathlib.Data.Nat.Pairing

/-!
# The membership tree: what it is for

A vector of leaves, zero past the last one, under one root. The calls of the
contract add a leaf at the end or clear one.
-/

open Lib Lib.Outcome

namespace ZkVote.Tree

/-- The root of the tree of the given depth over a vector of raw leaves. -/
def merkleNode (H : Hashes) (field : Symbol) (leaves : Nat → U256) : Nat → Nat → U256 :=
  Merkle.node (fun a b => hash_pair H a b field) fun i => hash_leaf H (leaves i) field

def merkleRoot (H : Hashes) (field : Symbol) (depth : Nat) (leaves : Nat → U256) : U256 :=
  merkleNode H field leaves depth 0

/-- The root that a path of siblings and sides folds a raw leaf to. -/
def foldPath (H : Hashes) (field : Symbol) (leaf : U256) (elements : List U256) (indices : List Nat) : U256 :=
  Merkle.climb (fun a b => hash_pair H a b field) (hash_leaf H leaf field) (elements.zip indices)

/-- The leaves a DAO stores, padded with zero leaves from `size` on. -/
def leafVector (d : DaoTree) (size : Nat) (i : Nat) : U256 :=
  if i < size then (d.leaf_value i).getD zero_value else zero_value

/-- A vector of at most `2 ^ depth` leaves. -/
structure Members where
  depth : Nat
  field : Symbol
  size : Nat
  leaf : Nat → U256
  depth_pos : 0 < depth
  depth_le : depth ≤ MAX_TREE_DEPTH
  field_valid : field = "BN254" ∨ field = "BLS12_381"
  size_le : size ≤ 2 ^ depth
  padded : ∀ i, size ≤ i → leaf i = zero_value

namespace Members

def root (H : Hashes) (m : Members) : U256 := merkleRoot H m.field m.depth m.leaf

def empty (depth : Nat) (field : Symbol) (depth_pos : 0 < depth) (depth_le : depth ≤ MAX_TREE_DEPTH)
    (field_valid : field = "BN254" ∨ field = "BLS12_381") : Members where
  depth := depth
  field := field
  size := 0
  leaf := fun _ => zero_value
  depth_pos := depth_pos
  depth_le := depth_le
  field_valid := field_valid
  size_le := Nat.zero_le _
  padded := fun _ _ => rfl

def append (m : Members) (x : U256) (h : m.size < 2 ^ m.depth) : Members :=
  { m with
    size := m.size + 1
    leaf := Function.update m.leaf m.size x
    size_le := h
    padded := fun i hi => by
      rw [Function.update_of_ne (by omega)]
      exact m.padded i (by omega) }

def clear (m : Members) (i : Nat) (h : i < m.size) : Members :=
  { m with
    leaf := Function.update m.leaf i zero_value
    padded := fun j hj => by
      rw [Function.update_of_ne (by omega)]
      exact m.padded j hj }

section
variable (m : Members) (x : U256) (i : Nat) (h : m.size < 2 ^ m.depth) (hi : i < m.size)

@[simp] theorem append_depth : (m.append x h).depth = m.depth := rfl
@[simp] theorem append_field : (m.append x h).field = m.field := rfl
@[simp] theorem append_size : (m.append x h).size = m.size + 1 := rfl
@[simp] theorem append_leaf : (m.append x h).leaf = Function.update m.leaf m.size x := rfl
@[simp] theorem clear_depth : (m.clear i hi).depth = m.depth := rfl
@[simp] theorem clear_field : (m.clear i hi).field = m.field := rfl
@[simp] theorem clear_size : (m.clear i hi).size = m.size := rfl
@[simp] theorem clear_leaf : (m.clear i hi).leaf = Function.update m.leaf i zero_value := rfl
end

end Members

/-! ## Runs -/

/-- An accepted call. -/
def Accepts (H : Hashes) (t : MembershipTree) (call : TreeEnv × Call) (t' : MembershipTree) : Prop :=
  step H t call.1 call.2 = .ok t'

/-- A run from the deployment of the contract. -/
def TreeRun (H : Hashes) (registry : Address) :
    List (MembershipTree × TreeEnv × Call) → MembershipTree → Prop :=
  Run (Accepts H) (constructor H registry)

/-! ## A sample deployment -/

/-- Hashes that can be evaluated: the last 32 bytes, and an injective pairing. -/
def sampleHashes : Hashes where
  sha256 := fun bytes => Vector.ofFn fun i => bytes.getD (bytes.length - 32 + i) 0
  poseidon := fun _ left right => Nat.pair left right

/-- A call that everyone has signed, in a world that agrees to it. -/
def sampleEnv : TreeEnv where
  timestamp := 0
  sequence := 0
  auths := fun _ => true
  has := fun _ _ => true
  get_admin := fun _ => some 0
  is_membership_open := fun _ => true
  revoke := fun _ _ _ => true
  root_pin := fun _ _ => false

def next (H : Hashes) (t : MembershipTree) (call : TreeEnv × Call) : Option MembershipTree :=
  (step H t call.1 call.2).toOption

theorem exists_run {H : Hashes} {r : Address} (calls : List Call)
    (test : List (MembershipTree × TreeEnv × Call) → MembershipTree → Bool)
    (h : (Run.replay (next H) (calls.map fun c => (sampleEnv, c)) [] (constructor H r)).any
      (fun e => test e.1 e.2) = true) :
    ∃ log t, TreeRun H r log t ∧ test log t = true := by
  refine Run.exists_of_replay (fun t call t' h => ?_) h
  exact toOption_eq_some.mp h

/-- A tree of two leaves with one member in DAO 0. -/
def sampleTree : MembershipTree :=
  ((Run.replay (next sampleHashes)
    [(sampleEnv, .init_tree 0 1 "BN254" 0), (sampleEnv, .register_from_registry 0 7 1)] []
    (constructor sampleHashes 0)).map Prod.snd).getD (constructor sampleHashes 0)

def sampleRoot : U256 := merkleRoot sampleHashes "BN254" 1 fun i => if i = 0 then 7 else zero_value

example : current_root sampleTree 0 = .ok sampleRoot := by decide +kernel

end ZkVote.Tree
