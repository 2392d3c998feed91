import Mathlib.Data.Nat.Bitwise
import Mathlib.LinearAlgebra.Lagrange
import Mathlib.RingTheory.RootsOfUnity.PrimitiveRoots
import Mathlib.Tactic.FieldSimp
import Mathlib.Tactic.Ring
import ZkVote.Lib.Runs

/-!
# Bits in reverse

The reversal of the low bits of a number, and counting upwards on reversed numbers: the carry runs from
the top bit down.
-/

namespace Lib

/-- The lowest `k` bits of `n` in reverse. -/
def reverseBits : Nat → Nat → Nat
  | 0, _ => 0
  | k + 1, n => 2 ^ k * (n % 2) + reverseBits k (n / 2)

theorem reverseBits_succ (k n : Nat) : reverseBits (k + 1) n = 2 ^ k * (n % 2) + reverseBits k (n / 2) := rfl

theorem reverseBits_even (k n : Nat) : reverseBits (k + 1) (2 * n) = reverseBits k n := by
  rw [reverseBits_succ, Nat.mul_mod_right, Nat.mul_zero, Nat.zero_add, Nat.mul_div_cancel_left n (by decide)]

theorem reverseBits_odd (k n : Nat) : reverseBits (k + 1) (2 * n + 1) = 2 ^ k + reverseBits k n := by
  have hmod : (2 * n + 1) % 2 = 1 := by omega
  have hdiv : (2 * n + 1) / 2 = n := by omega
  rw [reverseBits_succ, hmod, hdiv, Nat.mul_one]

theorem reverseBits_lt (k n : Nat) : reverseBits k n < 2 ^ k := by
  induction k generalizing n with
  | zero => exact Nat.one_pos
  | succ k ih =>
    obtain ⟨m, rfl | rfl⟩ := n.even_or_odd'
    · rw [reverseBits_even, pow_succ]
      have hm := ih m
      omega
    · rw [reverseBits_odd, pow_succ]
      have hm := ih m
      omega

theorem reverseBits_zero (k : Nat) : reverseBits k 0 = 0 := by
  induction k with
  | zero => rfl
  | succ k ih => exact (reverseBits_even k 0).trans ih

/-- The top bit goes to the bottom. -/
theorem reverseBits_top (k : Nat) {t l : Nat} (hl : l < 2 ^ k) (ht : t < 2) :
    reverseBits (k + 1) (2 ^ k * t + l) = t + 2 * reverseBits k l := by
  induction k generalizing l with
  | zero =>
    have hzero : l = 0 := by omega
    subst hzero
    simp only [reverseBits]
    omega
  | succ k ih =>
    have hpow : 2 ^ (k + 1) * t = 2 * (2 ^ k * t) := by rw [pow_succ]; ring
    rw [pow_succ] at hl
    obtain ⟨m, rfl | rfl⟩ := l.even_or_odd'
    · have hsum : 2 ^ (k + 1) * t + 2 * m = 2 * (2 ^ k * t + m) := by rw [hpow]; ring
      rw [hsum, reverseBits_even, reverseBits_even, ih (by omega)]
    · have hsum : 2 ^ (k + 1) * t + (2 * m + 1) = 2 * (2 ^ k * t + m) + 1 := by rw [hpow]; ring
      rw [hsum, reverseBits_odd, reverseBits_odd, ih (by omega), pow_succ]
      ring

theorem reverseBits_reverseBits (k : Nat) {n : Nat} (h : n < 2 ^ k) : reverseBits k (reverseBits k n) = n := by
  induction k generalizing n with
  | zero =>
    have hzero : n = 0 := by omega
    subst hzero
    rfl
  | succ k ih =>
    rw [pow_succ] at h
    rw [reverseBits_succ k n, reverseBits_top k (reverseBits_lt k _) (Nat.mod_lt _ (by decide)), ih (by omega)]
    omega

/-! ## The carry -/

/-- Below twice a power of two its bit is set from the power on. -/
theorem and_two_pow_ne_zero {j d : Nat} (h : j < 2 ^ (d + 1)) : j &&& 2 ^ d ≠ 0 ↔ 2 ^ d ≤ j := by
  rw [Nat.and_two_pow]
  have htest : j.testBit d = decide (2 ^ d ≤ j) := by
    rw [Nat.testBit_eq_decide_div_mod_eq]
    rw [pow_succ] at h
    by_cases hle : 2 ^ d ≤ j
    · have hdiv : j / 2 ^ d = 1 := Nat.div_eq_of_lt_le (by omega) (by omega)
      simp [hdiv, hle]
    · have hdiv : j / 2 ^ d = 0 := Nat.div_eq_of_lt (by omega)
      simp [hdiv, hle]
  rw [htest]
  by_cases hle : 2 ^ d ≤ j
  · simp [hle]
  · simp [hle]

theorem xor_two_pow {j d : Nat} (h : j < 2 ^ d) : j ^^^ 2 ^ d = 2 ^ d + j := by
  have hor : 2 ^ d + j = 2 ^ d ||| j := by simpa using Nat.two_pow_add_eq_or_of_lt h 1
  rw [hor]
  apply Nat.eq_of_testBit_eq
  intro i
  rw [Nat.testBit_xor, Nat.testBit_or, Nat.testBit_two_pow]
  by_cases hi : d = i
  · subst hi
    simp [Nat.testBit_lt_two_pow h]
  · simp [hi]

theorem add_two_pow_xor {j d : Nat} (h : j < 2 ^ d) : (2 ^ d + j) ^^^ 2 ^ d = j := by
  rw [← xor_two_pow h, Nat.xor_assoc, Nat.xor_self, Nat.xor_zero]

/-- One on a reversed number: the bits that are set are cleared from the top, and the next is set. -/
def reverseIncrement (fuel j bit : Nat) : Nat :=
  let s := whileLoop (fun s : Nat × Nat => s.1 &&& s.2 != 0) (fun s => (s.1 ^^^ s.2, s.2 >>> 1)) fuel (j, bit)
  s.1 ^^^ s.2

theorem reverseIncrement_eq {d fuel m : Nat} (hfuel : d ≤ fuel) (hm : m + 1 < 2 ^ (d + 1)) :
    reverseIncrement fuel (reverseBits (d + 1) m) (2 ^ d) = reverseBits (d + 1) (m + 1) := by
  induction d generalizing fuel m with
  | zero =>
    have hzero : m = 0 := by omega
    subst hzero
    cases fuel <;> simp [reverseIncrement, whileLoop, reverseBits]
  | succ d ih =>
    have hlt := reverseBits_lt (d + 2) m
    obtain ⟨l, rfl | rfl⟩ := m.even_or_odd'
    · -- The top bit is free.
      have hclear : ¬ (reverseBits (d + 2) (2 * l) &&& 2 ^ (d + 1) ≠ 0) := by
        rw [and_two_pow_ne_zero hlt, reverseBits_even]
        have := reverseBits_lt (d + 1) l
        omega
      have hloop : reverseIncrement fuel (reverseBits (d + 2) (2 * l)) (2 ^ (d + 1)) =
          reverseBits (d + 2) (2 * l) ^^^ 2 ^ (d + 1) := by
        unfold reverseIncrement
        cases fuel with
        | zero => rfl
        | succ fuel =>
          unfold whileLoop
          rw [if_neg (by simpa using hclear)]
      rw [hloop, reverseBits_odd, reverseBits_even, xor_two_pow (reverseBits_lt _ _)]
    · -- It is set: the carry goes on below it.
      have hset : reverseBits (d + 2) (2 * l + 1) &&& 2 ^ (d + 1) ≠ 0 := by
        rw [and_two_pow_ne_zero hlt, reverseBits_odd]
        omega
      have hloop : reverseIncrement fuel (reverseBits (d + 2) (2 * l + 1)) (2 ^ (d + 1)) =
          reverseIncrement (fuel - 1) (reverseBits (d + 2) (2 * l + 1) ^^^ 2 ^ (d + 1)) (2 ^ (d + 1) >>> 1) := by
        unfold reverseIncrement
        cases fuel with
        | zero => omega
        | succ fuel =>
          rw [Nat.add_sub_cancel]
          simp only [whileLoop]
          rw [if_pos (by simpa using hset)]
      have hshift : 2 ^ (d + 1) >>> 1 = 2 ^ d := by
        rw [Nat.shiftRight_one, pow_succ]
        omega
      have hnext : 2 * l + 1 + 1 = 2 * (l + 1) := by ring
      rw [hloop, hshift, reverseBits_odd, add_two_pow_xor (reverseBits_lt _ _), hnext, reverseBits_even]
      apply ih (by omega)
      rw [pow_succ] at hm
      omega

end Lib

/-!
## Fourier transforms over a field

The transform of a power of two of values, put together from those of its parts, its inverse as
interpolation on the roots of unity, and polynomials that vanish on the even ones.
-/

open Finset Polynomial

namespace Lib.Fourier

variable {F : Type} [Field F]

/-- The transform of the first `n` values. -/
def dft (a : Nat → F) (n : Nat) (ω : F) (j : Nat) : F := ∑ i ∈ range n, a i * ω ^ (i * j)

theorem dft_congr {a b : Nat → F} {n : Nat} (h : ∀ i < n, a i = b i) (ω : F) (j : Nat) :
    dft a n ω j = dft b n ω j := by
  unfold dft
  apply sum_congr rfl
  intro i hi
  rw [h i (mem_range.mp hi)]

theorem sum_range_two_mul (f : Nat → F) (n : Nat) :
    ∑ t ∈ range (2 * n), f t = ∑ t ∈ range n, f (2 * t) + ∑ t ∈ range n, f (2 * t + 1) := by
  induction n with
  | zero => simp
  | succ n ih =>
    rw [Nat.mul_succ, sum_range_succ, sum_range_succ, sum_range_succ, sum_range_succ, ih]
    ring

/-! ### Blocks -/

/-- The transform of every `2 ^ m`-th value, from the one on that block `b` starts with. -/
def blockDft (a : Nat → F) (ω : F) (m s b j : Nat) : F :=
  ∑ t ∈ range (2 ^ s), a (t * 2 ^ m + reverseBits m b) * (ω ^ 2 ^ m) ^ (t * j)

variable {a : Nat → F} {ω : F}

theorem blockDft_single (m b : Nat) : blockDft a ω m 0 b 0 = a (reverseBits m b) := by
  simp [blockDft]

theorem blockDft_whole (s j : Nat) : blockDft a ω 0 s 0 j = dft a (2 ^ s) ω j := by
  simp [blockDft, dft, reverseBits]

/-- A block is its even part and its odd part. -/
theorem blockDft_succ (m s b j : Nat) :
    blockDft a ω m (s + 1) b j =
      blockDft a ω (m + 1) s (2 * b) j + blockDft a ω (m + 1) s (2 * b + 1) j * (ω ^ 2 ^ m) ^ j := by
  have hsquare : ω ^ 2 ^ (m + 1) = (ω ^ 2 ^ m) ^ 2 := by rw [← pow_mul, pow_succ]
  unfold blockDft
  rw [pow_succ', sum_range_two_mul, reverseBits_even, reverseBits_odd, hsquare, sum_mul]
  congr 1
  · apply sum_congr rfl
    intro t _
    have hindex : 2 * t * 2 ^ m = t * 2 ^ (m + 1) := by rw [pow_succ]; ring
    have hpower : 2 * t * j = 2 * (t * j) := by ring
    rw [hindex, hpower, pow_mul (ω ^ 2 ^ m)]
  · apply sum_congr rfl
    intro t _
    have hindex : (2 * t + 1) * 2 ^ m + reverseBits m b = t * 2 ^ (m + 1) + (2 ^ m + reverseBits m b) := by
      rw [pow_succ]
      ring
    have hpower : (2 * t + 1) * j = 2 * (t * j) + j := by ring
    rw [hindex, hpower, pow_add (ω ^ 2 ^ m), pow_mul (ω ^ 2 ^ m), mul_assoc]

/-- In the upper half the odd part counts against the even one. -/
theorem blockDft_succ_upper {m s : Nat} (hω : ω ^ 2 ^ (m + s) = -1) (b j : Nat) :
    blockDft a ω m (s + 1) b (j + 2 ^ s) =
      blockDft a ω (m + 1) s (2 * b) j - blockDft a ω (m + 1) s (2 * b + 1) j * (ω ^ 2 ^ m) ^ j := by
  have hhalf : (ω ^ 2 ^ m) ^ 2 ^ s = -1 := by rw [← pow_mul, ← pow_add, hω]
  have hperiod : ∀ c, blockDft a ω (m + 1) s c (j + 2 ^ s) = blockDft a ω (m + 1) s c j := by
    intro c
    have hwhole : (ω ^ 2 ^ (m + 1)) ^ 2 ^ s = 1 := by
      rw [pow_succ, pow_mul, ← pow_mul, mul_comm, pow_mul, hhalf]
      norm_num
    unfold blockDft
    apply sum_congr rfl
    intro t _
    have hpower : t * (j + 2 ^ s) = 2 ^ s * t + t * j := by ring
    rw [hpower, pow_add (ω ^ 2 ^ (m + 1)), pow_mul (ω ^ 2 ^ (m + 1)), hwhole, one_pow, one_mul]
  rw [blockDft_succ, hperiod, hperiod, pow_add (ω ^ 2 ^ m), hhalf]
  ring

/-! ### The inverse -/

/-- The coefficients that the values on the roots of unity come from. -/
def coefficients (a : Nat → F) (n : Nat) (ω : F) (i : Nat) : F := dft a n ω⁻¹ i * (n : F)⁻¹

/-- The powers of a root of unity sum to zero, unless it is one. -/
theorem sum_pow_roots {n : Nat} (hω : IsPrimitiveRoot ω n) {i j : Nat} (hi : i < n) (hj : j < n) :
    ∑ t ∈ range n, (ω ^ i * ω⁻¹ ^ j) ^ t = if i = j then (n : F) else 0 := by
  have hne : ω ≠ 0 := hω.ne_zero (by omega)
  split
  · next heq =>
    subst heq
    have hone : ω ^ i * ω⁻¹ ^ i = 1 := by rw [← mul_pow, mul_inv_cancel₀ hne, one_pow]
    simp only [hone, one_pow, sum_const, card_range, nsmul_eq_mul, mul_one]
  · next hdistinct =>
    have hnotOne : ω ^ i * ω⁻¹ ^ j ≠ 1 := by
      intro hone
      apply hdistinct
      apply hω.pow_inj hi hj
      rw [inv_pow] at hone
      exact eq_of_mul_inv_eq_one hone
    have hroot : (ω ^ i * ω⁻¹ ^ j) ^ n = 1 := by
      rw [mul_pow, ← pow_mul, ← pow_mul, mul_comm i, mul_comm j, pow_mul, pow_mul, inv_pow, hω.pow_eq_one]
      simp
    have hsum := mul_neg_geom_sum (ω ^ i * ω⁻¹ ^ j) n
    rw [hroot, sub_self] at hsum
    exact (mul_eq_zero.mp hsum).resolve_left (sub_ne_zero.mpr hnotOne.symm)

theorem dft_coefficients {n : Nat} (hn : (n : F) ≠ 0) (hω : IsPrimitiveRoot ω n) {j : Nat} (hj : j < n) :
    dft (coefficients a n ω) n ω j = a j := by
  have hswap : dft (coefficients a n ω) n ω j =
      ∑ i ∈ range n, a i * (n : F)⁻¹ * ∑ t ∈ range n, (ω ^ j * ω⁻¹ ^ i) ^ t := by
    unfold dft coefficients dft
    simp only [sum_mul, mul_sum]
    rw [sum_comm]
    apply sum_congr rfl
    intro i _
    apply sum_congr rfl
    intro t _
    rw [mul_pow, ← pow_mul, ← pow_mul, mul_comm t j]
    ring
  rw [hswap, sum_eq_single j]
  · rw [sum_pow_roots hω hj hj, if_pos rfl, mul_assoc, inv_mul_cancel₀ hn, mul_one]
  · intro i hi hne
    rw [sum_pow_roots hω hj (mem_range.mp hi), if_neg hne.symm, mul_zero]
  · intro hout
    exact absurd (mem_range.mpr hj) hout

theorem coefficients_dft {n : Nat} (hn : (n : F) ≠ 0) (hω : IsPrimitiveRoot ω n) {j : Nat} (hj : j < n) :
    coefficients (dft a n ω) n ω j = a j := by
  have hinverse := dft_coefficients (a := a) hn hω.inv hj
  rw [← hinverse]
  unfold coefficients dft
  rw [inv_inv, sum_mul]
  apply sum_congr rfl
  intro i _
  ring

/-! ### Interpolation -/

/-- The polynomial with the values `a` on the powers of `ω`. -/
noncomputable def interpolant (a : Nat → F) (n : Nat) (ω : F) : F[X] :=
  Lagrange.interpolate (range n) (fun i => ω ^ i) a

variable {n : Nat}

theorem injOn_pow (hω : IsPrimitiveRoot ω n) : Set.InjOn (fun i => ω ^ i) (range n : Set Nat) := by
  intro i hi j hj h
  exact hω.pow_inj (mem_range.mp hi) (mem_range.mp hj) h

theorem degree_interpolant (hω : IsPrimitiveRoot ω n) : (interpolant a n ω).degree < n := by
  have hdegree := Lagrange.degree_interpolate_lt a (injOn_pow hω)
  rw [card_range] at hdegree
  exact hdegree

theorem eval_interpolant_root (hω : IsPrimitiveRoot ω n) {i : Nat} (hi : i < n) :
    (interpolant a n ω).eval (ω ^ i) = a i :=
  Lagrange.eval_interpolate_at_node a (injOn_pow hω) (mem_range.mpr hi)

theorem eval_interpolant (a : Nat → F) (n : Nat) (ω x : F) :
    (interpolant a n ω).eval x =
      ∑ i ∈ range n, a i * (Lagrange.basis (range n) (fun i => ω ^ i) i).eval x := by
  unfold interpolant
  rw [Lagrange.interpolate_apply, eval_finsetSum]
  simp only [eval_mul, eval_C]

/-- Its coefficients are those of the inverse transform. -/
theorem sum_coefficients (hn : (n : F) ≠ 0) (hω : IsPrimitiveRoot ω n) (x : F) :
    ∑ i ∈ range n, coefficients a n ω i * x ^ i = (interpolant a n ω).eval x := by
  have hpoly : ∀ y, (∑ i ∈ range n, C (coefficients a n ω i) * X ^ i).eval y =
      ∑ i ∈ range n, coefficients a n ω i * y ^ i := by
    intro y
    rw [eval_finsetSum]
    simp only [eval_mul, eval_C, eval_pow, eval_X]
  have hdegree : (∑ i ∈ range n, C (coefficients a n ω i) * X ^ i).degree < ((#(range n) : Nat) : WithBot Nat) := by
    rw [card_range]
    apply lt_of_le_of_lt (degree_sum_le _ _)
    apply (Finset.sup_lt_iff (WithBot.bot_lt_coe n)).mpr
    intro i hi
    exact lt_of_le_of_lt (degree_C_mul_X_pow_le _ _) (WithBot.coe_lt_coe.mpr (mem_range.mp hi))
  have heq : ∑ i ∈ range n, C (coefficients a n ω i) * X ^ i = interpolant a n ω := by
    apply Lagrange.eq_interpolate_of_eval_eq a (injOn_pow hω) hdegree
    intro j hj
    rw [hpoly, ← dft_coefficients (a := a) hn hω (mem_range.mp hj)]
    unfold dft
    apply sum_congr rfl
    intro i _
    rw [← pow_mul, mul_comm j i]
  rw [← heq, hpoly]

theorem degree_mul_lt {p q : F[X]} (hp : p.degree < n) (hq : q.degree < n) : (p * q).degree < (2 * n : Nat) := by
  by_cases hzero : p * q = 0
  · rw [hzero, degree_zero]
    exact WithBot.bot_lt_coe _
  · rw [degree_eq_natDegree (left_ne_zero_of_mul hzero), Nat.cast_lt] at hp
    rw [degree_eq_natDegree (right_ne_zero_of_mul hzero), Nat.cast_lt] at hq
    rw [degree_eq_natDegree hzero, Nat.cast_lt]
    have hsum := natDegree_mul_le (p := p) (q := q)
    omega

/-- A polynomial below twice the size that vanishes on the even powers is known by its values on the
odd ones. -/
theorem eval_eq_odd_sum {ζ : F} (hζ : IsPrimitiveRoot ζ (2 * n)) {p : F[X]} (hdegree : p.degree < (2 * n : Nat))
    (heven : ∀ i < n, p.eval (ζ ^ (2 * i)) = 0) (x : F) :
    p.eval x =
      ∑ i ∈ range n, p.eval (ζ ^ (2 * i + 1)) *
        (Lagrange.basis (range (2 * n)) (fun i => ζ ^ i) (2 * i + 1)).eval x := by
  have hinterpolate : p = interpolant (fun i => p.eval (ζ ^ i)) (2 * n) ζ := by
    apply Lagrange.eq_interpolate (injOn_pow hζ)
    rw [card_range]
    exact hdegree
  have heval := congrArg (eval x) hinterpolate
  rw [eval_interpolant, sum_range_two_mul] at heval
  rw [heval]
  have hzero : ∑ i ∈ range n, p.eval (ζ ^ (2 * i)) *
      (Lagrange.basis (range (2 * n)) (fun i => ζ ^ i) (2 * i)).eval x = 0 := by
    apply sum_eq_zero
    intro i hi
    rw [heven i (mem_range.mp hi), zero_mul]
  rw [hzero, zero_add]

/-- Where `c` is the product of `a` and `b`, the product of their polynomials exceeds that of `c` by
what the odd powers show. -/
theorem product_eq_odd_sum {ζ : F} (hζ : IsPrimitiveRoot ζ (2 * n)) (hω : ω = ζ ^ 2) (hpos : 0 < n)
    {a b c : Nat → F} (hc : ∀ i < n, a i * b i = c i) (x : F) :
    (interpolant a n ω).eval x * (interpolant b n ω).eval x - (interpolant c n ω).eval x =
      ∑ i ∈ range n,
        ((interpolant a n ω).eval (ζ ^ (2 * i + 1)) * (interpolant b n ω).eval (ζ ^ (2 * i + 1)) -
          (interpolant c n ω).eval (ζ ^ (2 * i + 1))) *
        (Lagrange.basis (range (2 * n)) (fun i => ζ ^ i) (2 * i + 1)).eval x := by
  have hroot : IsPrimitiveRoot ω n := by
    rw [hω]
    exact hζ.pow (by omega) rfl
  have hdegree : (interpolant a n ω * interpolant b n ω - interpolant c n ω).degree < (2 * n : Nat) := by
    apply lt_of_le_of_lt (degree_sub_le _ _)
    rw [max_lt_iff]
    constructor
    · exact degree_mul_lt (degree_interpolant hroot) (degree_interpolant hroot)
    · exact (degree_interpolant hroot).trans (Nat.cast_lt.mpr (by omega))
  have heven : ∀ i < n, (interpolant a n ω * interpolant b n ω - interpolant c n ω).eval (ζ ^ (2 * i)) = 0 := by
    intro i hi
    rw [pow_mul, ← hω, eval_sub, eval_mul, eval_interpolant_root hroot hi, eval_interpolant_root hroot hi,
      eval_interpolant_root hroot hi, hc i hi, sub_self]
  have hsum := eval_eq_odd_sum hζ hdegree heven x
  simp only [eval_sub, eval_mul] at hsum
  exact hsum

end Lib.Fourier
