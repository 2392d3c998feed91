import Mathlib.Data.List.Induction
import Mathlib.Data.Set.Function
import Mathlib.Logic.Function.Basic
import Mathlib.Tactic.Common
import Mathlib.Tactic.Ring

/-!
# Binary hash trees

The node at level `l` and index `i` covers the leaves from `i * 2 ^ l` to
`(i + 1) * 2 ^ l`. Level 0 holds the leaves.
-/

namespace Lib.Merkle

variable {α : Type} (hash : α → α → α)

def node (leaf : Nat → α) : Nat → Nat → α
  | 0, i => leaf i
  | l + 1, i => hash (node leaf l (2 * i)) (node leaf l (2 * i + 1))

/-- The node over equal leaves, all `z`. -/
def uniform (z : α) : Nat → α
  | 0 => z
  | l + 1 => hash (uniform z l) (uniform z l)

/-! ## Positions -/

/-- The other child of the same parent. -/
def sibling (i : Nat) : Nat := if i % 2 = 0 then i + 1 else i - 1

theorem div_two_pow_succ (j l : Nat) : j / 2 ^ (l + 1) = j / 2 ^ l / 2 := by
  rw [pow_succ, Nat.div_div_eq_div_mul]

theorem sibling_ne (i : Nat) : sibling i ≠ i := by
  unfold sibling
  split <;> omega

/-! ## Leaves under a node -/

variable {hash}
variable {leaf leaf' : Nat → α} {z : α}

/-- A node depends on the leaves it covers only. -/
theorem node_congr {l i : Nat} (h : ∀ j, j / 2 ^ l = i → leaf j = leaf' j) :
    node hash leaf l i = node hash leaf' l i := by
  induction l generalizing i with
  | zero => exact h i (by simp)
  | succ l ih =>
    have hleft : node hash leaf l (2 * i) = node hash leaf' l (2 * i) :=
      ih fun j hj => h j (by rw [div_two_pow_succ]; omega)
    have hright : node hash leaf l (2 * i + 1) = node hash leaf' l (2 * i + 1) :=
      ih fun j hj => h j (by rw [div_two_pow_succ]; omega)
    rw [node, node, hleft, hright]

theorem node_eq_uniform {l i : Nat} (h : ∀ j, j / 2 ^ l = i → leaf j = z) :
    node hash leaf l i = uniform hash z l := by
  induction l generalizing i with
  | zero => exact h i (by simp)
  | succ l ih =>
    have hleft : node hash leaf l (2 * i) = uniform hash z l :=
      ih fun j hj => h j (by rw [div_two_pow_succ]; omega)
    have hright : node hash leaf l (2 * i + 1) = uniform hash z l :=
      ih fun j hj => h j (by rw [div_two_pow_succ]; omega)
    rw [node, uniform, hleft, hright]

/-- A node past the last leaf that differs from `z`. -/
theorem node_eq_uniform_of_le {n l i : Nat} (hpad : ∀ j, n ≤ j → leaf j = z) (h : n ≤ i * 2 ^ l) :
    node hash leaf l i = uniform hash z l := by
  refine node_eq_uniform fun j hj => hpad j (h.trans ?_)
  rw [← hj]
  exact Nat.div_mul_le_self j (2 ^ l)

/-- A node is the hash of a child and its sibling, in their order. -/
theorem node_succ_of_even {l i : Nat} (h : i % 2 = 0) :
    node hash leaf (l + 1) (i / 2) = hash (node hash leaf l i) (node hash leaf l (sibling i)) := by
  have h₁ : 2 * (i / 2) = i := by omega
  have h₂ : sibling i = i + 1 := if_pos h
  rw [node, h₁, h₂]

theorem node_succ_of_odd {l i : Nat} (h : i % 2 ≠ 0) :
    node hash leaf (l + 1) (i / 2) = hash (node hash leaf l (sibling i)) (node hash leaf l i) := by
  have h₁ : 2 * (i / 2) = i - 1 := by omega
  have h₂ : i - 1 + 1 = i := by omega
  have h₃ : sibling i = i - 1 := if_neg h
  rw [node, h₁, h₂, h₃]

/-! ## Paths -/

/-- Folds a path of siblings and sides, from the bottom up. Side 0: the path is on the left. -/
def climb (hash : α → α → α) (x : α) : List (α × Nat) → α
  | [] => x
  | (sib, side) :: path => climb hash (if side = 0 then hash x sib else hash sib x) path

theorem climb_append (x : α) (p q : List (α × Nat)) :
    climb hash x (p ++ q) = climb hash (climb hash x p) q := by
  induction p generalizing x with
  | nil => rfl
  | cons s p ih => exact ih _

/-- The siblings and sides on the way up from leaf `i`, below level `depth`. -/
def path (hash : α → α → α) (leaf : Nat → α) (i depth : Nat) : List (α × Nat) :=
  (List.range depth).map fun l =>
    (node hash leaf l (sibling (i / 2 ^ l)), i / 2 ^ l % 2)

theorem path_succ (i depth : Nat) : path hash leaf i (depth + 1) =
    path hash leaf i depth ++ [(node hash leaf depth (sibling (i / 2 ^ depth)), i / 2 ^ depth % 2)] := by
  simp [path, List.range_succ]

variable (hash leaf) in
theorem climb_path (i depth : Nat) :
    climb hash (leaf i) (path hash leaf i depth) = node hash leaf depth (i / 2 ^ depth) := by
  induction depth with
  | zero => simp [path, climb, node]
  | succ l ih =>
    rw [path_succ, climb_append, ih, div_two_pow_succ]
    rcases Nat.mod_two_eq_zero_or_one (i / 2 ^ l) with h | h
    · rw [node_succ_of_even h]
      simp [climb, h]
    · rw [node_succ_of_odd (by omega)]
      simp [climb, h]

/-! ## Injective hashes -/

/-- With an injective hash the node determines every leaf under it. -/
theorem leaf_eq_of_node_eq (hinj : ∀ a b a' b', hash a b = hash a' b' → a = a' ∧ b = b') {l i j : Nat}
    (h : node hash leaf l i = node hash leaf' l i) (hj : j / 2 ^ l = i) : leaf j = leaf' j := by
  induction l generalizing i with
  | zero =>
    have : j = i := by simpa using hj
    exact this ▸ h
  | succ l ih =>
    obtain ⟨hleft, hright⟩ := hinj _ _ _ _ h
    rw [div_two_pow_succ] at hj
    rcases Nat.mod_two_eq_zero_or_one (j / 2 ^ l) with hm | hm
    · exact ih hleft (by omega)
    · exact ih hright (by omega)

/-! ## Paths that anyone may choose -/

/-- What a path hashes at one level. -/
def pair (side : Nat) (x sib : α) : α × α := if side = 0 then (x, sib) else (sib, x)

/-- The pairs that a path hashes on the way up. -/
def climbed (hash : α → α → α) (x : α) : List (α × Nat) → List (α × α)
  | [] => []
  | (sib, side) :: path => pair side x sib :: climbed hash (if side = 0 then hash x sib else hash sib x) path

theorem climbed_append (x : α) (p q : List (α × Nat)) :
    climbed hash x (p ++ q) = climbed hash x p ++ climbed hash (climb hash x p) q := by
  induction p generalizing x with
  | nil => rfl
  | cons s p ih => exact congrArg _ (ih _)

/-- The pairs that a tree hashes below level `depth`. -/
def pairs (hash : α → α → α) (leaf : Nat → α) (depth : Nat) : Set (α × α) :=
  {p | ∃ l < depth, ∃ i, p = (node hash leaf l (2 * i), node hash leaf l (2 * i + 1))}

/-- Where no two of the pairs hash to the same, a path that ends at a node started at a leaf under it. -/
theorem exists_leaf_of_climb {S : Set (α × α)} (hinj : S.InjOn fun p => hash p.1 p.2) {x : α}
    {path : List (α × Nat)} {i : Nat} (hpath : ∀ p ∈ climbed hash x path, p ∈ S)
    (hpairs : pairs hash leaf path.length ⊆ S)
    (h : climb hash x path = node hash leaf path.length i) : ∃ j, j / 2 ^ path.length = i ∧ leaf j = x := by
  induction path using List.reverseRecOn generalizing i with
  | nil => exact ⟨i, by simp, h.symm⟩
  | append_singleton path s ih =>
    obtain ⟨sib, side⟩ := s
    rw [climbed_append, List.forall_mem_append] at hpath
    rw [List.length_append, List.length_singleton] at hpairs h ⊢
    have hlower : pairs hash leaf path.length ⊆ S := by
      rintro _ ⟨l, hl, k, rfl⟩
      exact hpairs ⟨l, by omega, k, rfl⟩
    have htop : pair side (climb hash x path) sib =
        (node hash leaf path.length (2 * i), node hash leaf path.length (2 * i + 1)) := by
      refine hinj (hpath.2 _ (by simp [climbed])) (hpairs ⟨path.length, by omega, i, rfl⟩) ?_
      rw [climb_append, node] at h
      refine Eq.trans ?_ h
      simp only [pair, climb]
      split <;> rfl
    unfold pair at htop
    split at htop
    · obtain ⟨j, hj, hleaf⟩ := ih hpath.1 hlower (congrArg Prod.fst htop)
      exact ⟨j, by rw [div_two_pow_succ, hj]; omega, hleaf⟩
    · obtain ⟨j, hj, hleaf⟩ := ih hpath.1 hlower (congrArg Prod.snd htop)
      exact ⟨j, by rw [div_two_pow_succ, hj]; omega, hleaf⟩

end Lib.Merkle
