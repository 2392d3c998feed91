import Mathlib.FieldTheory.Finite.Basic
import Mathlib.LinearAlgebra.Matrix.NonsingularInverse

/-!
# Hades permutations

A round adds constants to a state, applies a map to every element of it or to the first one only, and mixes
the state with one matrix. The faster form of a run of such rounds has a matrix of its own in each of them.
-/

namespace Lib.Hades

open Matrix

variable {K : Type} [Field K] {n : Nat}

abbrev State (K : Type) (n : Nat) := Fin (n + 1) → K

abbrev Mixing (K : Type) (n : Nat) := Matrix (Fin (n + 1)) (Fin (n + 1)) K

/-- The map on every element, or on the first one. -/
def substitute {K : Type} (σ : K → K) (isFull : Bool) (x : State K n) : State K n :=
  if isFull then fun i => σ (x i) else Function.update x 0 (σ (x 0))

/-- The rounds one after the other, each with its constants. -/
def permute (σ : K → K) (M : Mixing K n) : List (Bool × State K n) → State K n → State K n
  | [], x => x
  | (isFull, k) :: rounds, x => permute σ M rounds (M *ᵥ substitute σ isFull (x + k))

/-- A round of the faster form: the map, then constants, then a matrix of its own. -/
structure Layer (K : Type) (n : Nat) where
  isFull : Bool
  constants : State K n
  mixing : Mixing K n

def Layer.apply (σ : K → K) (l : Layer K n) (x : State K n) : State K n :=
  l.mixing *ᵥ (substitute σ l.isFull x + l.constants)

/-- The rounds that layers stand for when the constants `k` come before them: each layer's constants, mixed,
are the next round's. One more full round is at the end. -/
def rounds (M : Mixing K n) (k : State K n) : List (Layer K n) → List (Bool × State K n)
  | [] => [(true, k)]
  | l :: layers => (l.isFull, k) :: rounds M (M *ᵥ l.constants) layers

/-! ## Matrices that leave the first element alone -/

/-- The matrix on all elements but the first. -/
def widen (E : Matrix (Fin n) (Fin n) K) : Mixing K n :=
  Matrix.of (Fin.cons (Fin.cons 1 0) fun i => Fin.cons 0 (E i))

/-- The rows and columns after the first. -/
def tail (M : Mixing K n) : Matrix (Fin n) (Fin n) K := M.submatrix Fin.succ Fin.succ

section
variable (E : Matrix (Fin n) (Fin n) K) (i j : Fin n)

@[simp] theorem widen_zero_zero : widen E 0 0 = 1 := rfl
@[simp] theorem widen_zero_succ : widen E 0 j.succ = 0 := rfl
@[simp] theorem widen_succ_zero : widen E i.succ 0 = 0 := rfl
@[simp] theorem widen_succ_succ : widen E i.succ j.succ = E i j := rfl
end

omit [Field K] in
@[simp] theorem tail_apply (M : Mixing K n) (i j : Fin n) : tail M i j = M i.succ j.succ := rfl

theorem widen_one : widen (1 : Matrix (Fin n) (Fin n) K) = 1 := by
  ext i j
  cases i using Fin.cases with
  | zero => cases j using Fin.cases <;> simp [(Fin.succ_ne_zero _).symm]
  | succ i => cases j using Fin.cases <;> simp [Matrix.one_apply]

theorem widen_mulVec_zero (E : Matrix (Fin n) (Fin n) K) (x : State K n) : (widen E *ᵥ x) 0 = x 0 := by
  simp [mulVec, dotProduct, Fin.sum_univ_succ]

theorem widen_mulVec_succ (E : Matrix (Fin n) (Fin n) K) (x : State K n) (i : Fin n) :
    (widen E *ᵥ x) i.succ = ∑ j, E i j * x j.succ := by
  simp [mulVec, dotProduct, Fin.sum_univ_succ]

/-- Such a matrix passes the map on the first element. -/
theorem widen_substitute (σ : K → K) (E : Matrix (Fin n) (Fin n) K) (x : State K n) :
    widen E *ᵥ substitute σ false x = substitute σ false (widen E *ᵥ x) := by
  have hsub : ∀ y : State K n, substitute σ false y = Function.update y 0 (σ (y 0)) := fun y => rfl
  funext i
  cases i using Fin.cases with
  | zero => rw [widen_mulVec_zero, hsub, hsub, Function.update_self, Function.update_self, widen_mulVec_zero]
  | succ i =>
    rw [widen_mulVec_succ, hsub, hsub, Function.update_of_ne (Fin.succ_ne_zero i), widen_mulVec_succ]
    exact Finset.sum_congr rfl fun j _ => by rw [Function.update_of_ne (Fin.succ_ne_zero j)]

theorem widen_single (E : Matrix (Fin n) (Fin n) K) (c : K) :
    widen E *ᵥ Pi.single 0 c = (Pi.single 0 c : State K n) := by
  funext i
  cases i using Fin.cases with
  | zero => rw [widen_mulVec_zero]
  | succ i =>
    rw [widen_mulVec_succ, Pi.single_eq_of_ne (Fin.succ_ne_zero i)]
    exact Finset.sum_eq_zero fun j _ => by rw [Pi.single_eq_of_ne (Fin.succ_ne_zero j), mul_zero]

/-! ## The faster form -/

/-- Layers whose matrices come from `M`: the state is `D` times that of the rounds. A full layer leaves no
matrix behind; one for the first element takes `M` into the sparse `N`. -/
inductive Chain (M : Mixing K n) : Matrix (Fin n) (Fin n) K → List (Layer K n) → Prop
  | done : Chain M 1 []
  | full {E : Matrix (Fin n) (Fin n) K} {c : State K n} {layers : List (Layer K n)}
      (h : Chain M E layers) : Chain M 1 (⟨true, c, widen E * M⟩ :: layers)
  | first {E E' : Matrix (Fin n) (Fin n) K} {c : K} {N : Mixing K n} {layers : List (Layer K n)}
      (hmul : widen E' * M = N * widen E) (h : Chain M E' layers) :
      Chain M E (⟨false, Pi.single 0 c, N⟩ :: layers)

/-- The layers, and the map and the matrix at the end, compute the rounds. -/
theorem Chain.layers_eq {σ : K → K} {M : Mixing K n} {E : Matrix (Fin n) (Fin n) K} {layers : List (Layer K n)}
    (h : Chain M E layers) (k x : State K n) :
    M *ᵥ substitute σ true (layers.foldl (fun x l => l.apply σ x) (widen E *ᵥ (x + k))) =
      permute σ M (rounds M k layers) x := by
  induction h generalizing k x with
  | done => rw [widen_one, one_mulVec]; rfl
  | @full E c layers _ ih =>
    rw [List.foldl_cons, rounds, permute, ← ih]
    congr 3
    rw [widen_one, one_mulVec, Layer.apply, ← mulVec_mulVec, mulVec_add]
  | @first E E' c N layers hmul _ ih =>
    rw [List.foldl_cons, rounds, permute, ← ih]
    congr 3
    have hconstants := widen_single E c
    generalize (Pi.single 0 c : State K n) = v at hconstants ⊢
    generalize x + k = y
    calc N *ᵥ (substitute σ false (widen E *ᵥ y) + v)
        = N *ᵥ (widen E *ᵥ (substitute σ false y + v)) := by
          rw [mulVec_add (widen E), widen_substitute, hconstants]
      _ = widen E' *ᵥ (M *ᵥ (substitute σ false y + v)) := by rw [mulVec_mulVec, mulVec_mulVec, hmul]
      _ = widen E' *ᵥ (M *ᵥ substitute σ false y + M *ᵥ v) := by rw [mulVec_add M]

theorem Chain.fulls {M : Mixing K n} {layers : List (Layer K n)} (c : Nat → State K n)
    (k : Nat) (h : Chain M 1 layers) : Chain M 1 ((List.range k).map (fun i => ⟨true, c i, M⟩) ++ layers) := by
  induction k generalizing layers with
  | zero => exact h
  | succ k ih =>
    rw [List.range_succ, List.map_append, List.append_assoc]
    have hlast := Chain.full (c := c k) h
    rw [widen_one, one_mul] at hlast
    exact ih hlast

/-- A matrix that copies every element but the first, and adds a multiple of the first to it. -/
theorem sparse_mul {M N : Mixing K n} {E : Matrix (Fin n) (Fin n) K} (hcorner : N 0 0 = M 0 0)
    (hrow : ∀ j : Fin n, ∑ l, N 0 l.succ * (E * tail M) l j = M 0 j.succ)
    (hcolumn : ∀ i : Fin n, N i.succ 0 = ∑ l, E i l * M l.succ 0)
    (hcopy : ∀ i j : Fin n, N i.succ j.succ = if i = j then 1 else 0) :
    widen E * M = N * widen (E * tail M) := by
  ext i j
  rw [mul_apply, mul_apply, Fin.sum_univ_succ, Fin.sum_univ_succ]
  cases i using Fin.cases with
  | zero =>
    cases j using Fin.cases with
    | zero => simp [hcorner]
    | succ j => simp [hrow]
  | succ i =>
    cases j using Fin.cases with
    | zero => simp [hcolumn]
    | succ j => simp [hcopy, mul_apply]

/-! ## Bijectivity -/

omit [Field K] in
theorem substitute_bijective {σ : K → K} (hσ : Function.Bijective σ) (isFull : Bool) :
    Function.Bijective (substitute σ isFull : State K n → State K n) := by
  cases isFull with
  | true => exact (Equiv.piCongrRight fun _ => Equiv.ofBijective σ hσ).bijective
  | false =>
    let e := Equiv.ofBijective σ hσ
    refine Function.bijective_iff_has_inverse.mpr ⟨fun y => Function.update y 0 (e.symm (y 0)), ?_, ?_⟩
    · intro x
      simp [substitute, show σ (x 0) = e (x 0) from rfl]
    · intro y
      simp [substitute, show ∀ z, σ z = e z from fun _ => rfl]

/-- With an invertible matrix and a bijective map, the rounds are a bijection. -/
theorem permute_bijective {σ : K → K} {M : Mixing K n} (hσ : Function.Bijective σ) (hM : IsUnit M.det)
    (rounds : List (Bool × State K n)) : Function.Bijective (permute σ M rounds) := by
  have hunit := (isUnit_iff_isUnit_det M).mpr hM
  have hmix : Function.Bijective (fun x : State K n => M *ᵥ x) :=
    ⟨mulVec_injective_iff_isUnit.mpr hunit, mulVec_surjective_iff_isUnit.mpr hunit⟩
  induction rounds with
  | nil => exact Function.bijective_id
  | cons round rounds ih =>
    exact ih.comp (hmix.comp ((substitute_bijective hσ round.1).comp (Equiv.addRight round.2).bijective))

/-- A power is a bijection where another power undoes it. -/
theorem pow_bijective [Fintype K] {e d : Nat} (h : e * d % (Fintype.card K - 1) = 1) (hpos : 0 < e * d) :
    Function.Bijective fun x : K => x ^ e := by
  refine Finite.injective_iff_bijective.mp (Function.LeftInverse.injective (g := fun y => y ^ d) fun x => ?_)
  change (x ^ e) ^ d = x
  rcases eq_or_ne x 0 with rfl | hx
  · rw [← pow_mul, zero_pow hpos.ne']
  · rw [← pow_mul, ← Nat.div_add_mod (e * d) (Fintype.card K - 1), h, pow_add, pow_mul,
      FiniteField.pow_card_sub_one_eq_one x hx, one_pow, one_mul, pow_one]

end Lib.Hades
