import Mathlib.LinearAlgebra.Lagrange

/-!
# Secret sharing

The shares of a secret are the values of a polynomial with the secret as its constant term. As many of them
as it has coefficients give the secret back.
-/

open Polynomial

namespace Lib

variable {F : Type*} [Field F]

/-- The value at `x`, by Horner's rule. -/
def horner (coeffs : List F) (x : F) : F := coeffs.foldr (fun c y => y * x + c) 0

noncomputable def sharePoly : List F → F[X]
  | [] => 0
  | c :: coeffs => C c + X * sharePoly coeffs

theorem eval_sharePoly (coeffs : List F) (x : F) : (sharePoly coeffs).eval x = horner coeffs x := by
  induction coeffs with
  | nil => simp [sharePoly, horner]
  | cons c coeffs ih =>
    simp only [sharePoly, eval_add, eval_C, eval_mul, eval_X, ih]
    unfold horner
    rw [List.foldr_cons]
    ring

theorem degree_sharePoly (coeffs : List F) : (sharePoly coeffs).degree < coeffs.length := by
  induction coeffs with
  | nil => simp [sharePoly]
  | cons c coeffs ih =>
    unfold sharePoly
    apply lt_of_le_of_lt (degree_add_le _ _)
    rw [max_lt_iff]
    constructor
    · apply lt_of_le_of_lt degree_C_le
      exact_mod_cast Nat.succ_pos _
    · rw [mul_comm, degree_mul_X, List.length_cons, Nat.cast_add, Nat.cast_one]
      exact (WithBot.add_lt_add_iff_right WithBot.one_ne_bot).mpr ih

/-- The weight of the share at `i` among those at `others`. -/
def lagrangeWeight (i : F) (others : List F) : F :=
  (others.map fun j => 0 - j).prod * (others.map fun j => i - j).prod⁻¹

theorem eval_basis_zero {s : Finset ℕ} (v : ℕ → F) (i : ℕ) :
    (Lagrange.basis s v i).eval 0 = ∏ j ∈ s.erase i, (0 - v j) * (v i - v j)⁻¹ := by
  unfold Lagrange.basis Lagrange.basisDivisor
  rw [eval_prod]
  apply Finset.prod_congr rfl
  intro j _
  simp only [eval_mul, eval_C, eval_sub, eval_X]
  ring

theorem lagrangeWeight_eq (indices : List ℕ) (hnodup : indices.Nodup) (v : ℕ → F) (i : ℕ) :
    lagrangeWeight (v i) ((indices.filter (· ≠ i)).map v) =
      ∏ j ∈ indices.toFinset.erase i, (0 - v j) * (v i - v j)⁻¹ := by
  have hset : indices.toFinset.erase i = (indices.filter (· ≠ i)).toFinset := by
    ext j
    simp [and_comm]
  rw [hset, Finset.prod_mul_distrib, List.prod_toFinset _ (hnodup.filter _), List.prod_toFinset _ (hnodup.filter _)]
  unfold lagrangeWeight
  simp only [List.map_map]
  congr 1
  generalize indices.filter (· ≠ i) = others
  induction others with
  | nil => simp
  | cons j others ih =>
    simp only [List.map_cons, List.prod_cons, mul_inv, ih, Function.comp]

theorem reconstruct (coeffs : List F) (indices : List ℕ) (v : ℕ → F) (hnodup : indices.Nodup)
    (hinj : ∀ i ∈ indices, ∀ j ∈ indices, v i = v j → i = j) (hlength : coeffs.length ≤ indices.length) :
    (indices.map fun i => lagrangeWeight (v i) ((indices.filter (· ≠ i)).map v) * horner coeffs (v i)).sum =
      horner coeffs 0 := by
  have hcard : indices.toFinset.card = indices.length := List.toFinset_card_of_nodup hnodup
  have hdegree : (sharePoly coeffs).degree < indices.toFinset.card := by
    apply lt_of_lt_of_le (degree_sharePoly coeffs)
    rw [hcard]
    exact_mod_cast hlength
  have hinjOn : Set.InjOn v indices.toFinset := by
    intro i hi j hj
    exact hinj i (by simpa using hi) j (by simpa using hj)
  have hpoly := Lagrange.eq_interpolate hinjOn hdegree
  have heval := congrArg (eval 0) hpoly
  rw [eval_sharePoly, Lagrange.interpolate_apply, eval_finsetSum] at heval
  rw [heval, ← List.sum_toFinset _ hnodup]
  apply Finset.sum_congr rfl
  intro i _
  rw [eval_mul, eval_C, eval_sharePoly, eval_basis_zero, lagrangeWeight_eq indices hnodup]
  ring

end Lib
