import Mathlib.Tactic.LinearCombination
import ZkVote.Lib.Fourier
import ZkVote.Lib.Runs
import ZkVote.Prover.Field

/-!
# The transforms of the prover

`zkvote-prover/src/fft.rs`, and what its loops compute.
-/

open Lib Lib.Fourier

namespace ZkVote.Prover

/-! ## Roots of unity -/

/-- Of 32 bits. -/
def trailing_zeros (n : Nat) : Nat :=
  (whileLoop (fun s : Nat × Nat => s.1 % 2 == 0) (fun s => (s.1 / 2, s.2 + 1)) 32 (n, 0)).2

/-- The smallest quadratic non-residue from two on. -/
def smallestNqr : Nat :=
  whileLoop (fun nqr => powMod SCALAR_MODULUS nqr ((SCALAR_MODULUS - 1) / 2) == 1) (· + 1) SCALAR_MODULUS 2

def roots (domain_size : Nat) : Fr × Fr :=
  let r_minus_1 := SCALAR_MODULUS - 1
  let nqr := smallestNqr
  let power := trailing_zeros domain_size
  let root_pow := r_minus_1 >>> power
  let inc_pow := r_minus_1 >>> (power + 1)
  let omega := bigint_to_fr (powMod SCALAR_MODULUS nqr root_pow)
  let inc := bigint_to_fr (powMod SCALAR_MODULUS nqr inc_pow)
  (omega, inc)

/-! ## Loops over arrays -/

/-- `a[i]`; the loops stay within the array. -/
def elem (a : List Fr) (i : Nat) : Fr := a.getD i 0

def swap (a : List Fr) (i j : Nat) : List Fr := (a.set i (elem a j)).set j (elem a i)

def bit_reverse_permute (a : List Fr) : List Fr :=
  let n := a.length
  let s := (List.range (n - 1)).foldl (fun (s : List Fr × Nat) k =>
    let i := k + 1
    let j := reverseIncrement n s.2 (n >>> 1)
    (if i < j then swap s.1 i j else s.1, j)) (a, 0)
  s.1

/-- The loop over `k`, on the array and `w`. -/
def butterflies (wlen : Fr) (i half : Nat) (a : List Fr) : List Fr × Fr :=
  (List.range half).foldl (fun (s : List Fr × Fr) k =>
    let u := elem s.1 (i + k)
    let v := elem s.1 (i + k + half) * s.2
    ((s.1.set (i + k) (u + v)).set (i + k + half) (u - v), s.2 * wlen)) (a, 1)

/-- The loop over `i`. -/
def stage (wlen : Fr) (len : Nat) (a : List Fr) : List Fr :=
  let s := whileLoop (fun s : List Fr × Nat => decide (s.2 < a.length))
    (fun s => ((butterflies wlen s.2 (len / 2) s.1).1, s.2 + len)) a.length (a, 0)
  s.1

/-- Where the length is no power of two a stage runs over the end of the array and panics. -/
def fft (a : List Fr) (omega : Fr) : Option (List Fr) :=
  let n := a.length
  if n ≤ 1 then some a
  else if 2 ^ n.log2 = n then
    let s := whileLoop (fun s : List Fr × Nat => decide (s.2 ≤ n))
      (fun s => (stage (omega ^ (n / s.2)) s.2 s.1, s.2 <<< 1)) n (bit_reverse_permute a, 2)
    some s.1
  else none

def inverse (x : Fr) : Option Fr := if x = 0 then none else some x⁻¹

def ifft (a : List Fr) (omega : Fr) : Option (List Fr) := do
  let omega_inv ← inverse omega
  let a' ← fft a omega_inv
  let n_inv ← inverse a.length
  return a'.map fun x => x * n_inv

/-- Multiplies element `i` by `inc ^ i`. -/
def batch_apply_key (a : List Fr) (inc : Fr) : List Fr :=
  let s := a.foldl (fun (s : List Fr × Fr) x => (s.1 ++ [x * s.2], s.2 * inc)) ([], 1)
  s.1

/-- Elementwise `a[i] * b[i] - c[i]`. -/
def join_abc (a b c : List Fr) : List Fr := ((a.zip b).zip c).map fun x => x.1.1 * x.1.2 - x.2

def zero_vec (domain_size : Nat) : List Fr := List.replicate domain_size 0

/-! ## Elements -/

variable {a : List Fr} {i j n : Nat} {x : Fr}

theorem elem_set (hi : i < a.length) : elem (a.set i x) j = if i = j then x else elem a j := by
  unfold elem
  rw [List.getD_eq_getElem?_getD, List.getElem?_set, if_pos hi]
  split
  · rfl
  · rw [List.getD_eq_getElem?_getD]

theorem elem_swap (hi : i < a.length) (hj : j < a.length) (k : Nat) :
    elem (swap a i j) k = if j = k then elem a i else if i = k then elem a j else elem a k := by
  unfold swap
  rw [elem_set (by rw [List.length_set]; exact hj), elem_set hi]

theorem length_swap : (swap a i j).length = a.length := by simp [swap]

theorem ext_elem {b : List Fr} (hlength : a.length = b.length) (h : ∀ i < a.length, elem a i = elem b i) : a = b := by
  apply List.ext_getElem hlength
  intro i hi hi'
  have hi'' := h i hi
  unfold elem at hi''
  rwa [List.getD_eq_getElem?_getD, List.getD_eq_getElem?_getD, List.getElem?_eq_getElem hi,
    List.getElem?_eq_getElem hi'] at hi''

/-! ## The permutation -/

/-- Before index `m` every element that is to change places with an earlier one has done so. -/
def PermutedTo (a : List Fr) (k m : Nat) (s : List Fr × Nat) : Prop :=
  s.1.length = 2 ^ k ∧ s.2 = reverseBits k m ∧
    ∀ x < 2 ^ k, elem s.1 x = if x ≤ m ∨ reverseBits k x ≤ m then elem a (reverseBits k x) else elem a x

theorem permutedTo_start (k : Nat) (hlength : a.length = 2 ^ k) : PermutedTo a k 0 (a, 0) := by
  refine ⟨hlength, (reverseBits_zero k).symm, ?_⟩
  intro x hx
  split
  · next hzero =>
    have hfixed : reverseBits k x = x := by
      obtain hx0 | hr0 := hzero
      · have hx0' : x = 0 := by omega
        rw [hx0', reverseBits_zero]
      · have hr0' : reverseBits k x = 0 := by omega
        have hback := reverseBits_reverseBits k hx
        rw [hr0', reverseBits_zero] at hback
        rw [← hback, reverseBits_zero]
    rw [hfixed]
  · rfl

theorem permutedTo_step {d m : Nat} {s : List Fr × Nat} (hm : m + 1 < 2 ^ (d + 1)) (h : PermutedTo a (d + 1) m s) :
    PermutedTo a (d + 1) (m + 1)
      (if m + 1 < reverseBits (d + 1) (m + 1) then swap s.1 (m + 1) (reverseBits (d + 1) (m + 1)) else s.1,
        reverseBits (d + 1) (m + 1)) := by
  obtain ⟨hlength, -, helem⟩ := h
  have hj := reverseBits_lt (d + 1) (m + 1)
  have hback := reverseBits_reverseBits (d + 1) hm
  refine ⟨?_, rfl, ?_⟩
  · split
    · simp only [length_swap, hlength]
    · exact hlength
  intro x hx
  have hxback := reverseBits_reverseBits (d + 1) hx
  simp only
  split
  · next hlt =>
    rw [elem_swap (by omega) (by omega)]
    by_cases hxj : reverseBits (d + 1) (m + 1) = x
    · rw [if_pos hxj, helem _ hm, if_neg (by omega), ← hxj, hback, if_pos (by omega)]
    · rw [if_neg hxj]
      by_cases hxi : m + 1 = x
      · subst hxi
        rw [if_pos rfl, helem _ hj, hback, if_neg (by omega), if_pos (by omega)]
      · rw [if_neg hxi, helem x hx]
        have hother : reverseBits (d + 1) x ≠ m + 1 := by
          intro heq
          rw [heq] at hxback
          exact hxj hxback
        have hsame : (x ≤ m ∨ reverseBits (d + 1) x ≤ m) ↔ (x ≤ m + 1 ∨ reverseBits (d + 1) x ≤ m + 1) := by omega
        simp only [hsame]
  · next hge =>
    rw [helem x hx]
    by_cases hxi : x = m + 1
    · subst hxi
      rw [if_pos (show m + 1 ≤ m + 1 ∨ _ from .inl (le_refl _))]
      split
      · rfl
      · have hfixed : reverseBits (d + 1) (m + 1) = m + 1 := by omega
        rw [hfixed]
    · by_cases hother : reverseBits (d + 1) x = m + 1
      · rw [hother] at hxback
        rw [if_pos (by omega), if_pos (by omega)]
      · have hsame : (x ≤ m ∨ reverseBits (d + 1) x ≤ m) ↔ (x ≤ m + 1 ∨ reverseBits (d + 1) x ≤ m + 1) := by omega
        simp only [hsame]

theorem bit_reverse_permute_spec {k : Nat} (hlength : a.length = 2 ^ k) :
    (bit_reverse_permute a).length = 2 ^ k ∧
      ∀ x < 2 ^ k, elem (bit_reverse_permute a) x = elem a (reverseBits k x) := by
  cases k with
  | zero =>
    unfold bit_reverse_permute
    rw [hlength]
    refine ⟨hlength, ?_⟩
    intro x hx
    have hzero : x = 0 := by omega
    rw [hzero]
    rfl
  | succ d =>
    unfold bit_reverse_permute
    simp only [hlength]
    have hhalf : 2 ^ (d + 1) >>> 1 = 2 ^ d := by
      rw [Nat.shiftRight_one, pow_succ]
      omega
    have hfuel : d ≤ 2 ^ (d + 1) := (Nat.lt_two_pow_self.trans (Nat.pow_lt_pow_right (by decide) (Nat.lt_succ_self d))).le
    have hfold : PermutedTo a (d + 1) (2 ^ (d + 1) - 1) ((List.range (2 ^ (d + 1) - 1)).foldl (fun s k =>
        (if k + 1 < reverseIncrement (2 ^ (d + 1)) s.2 (2 ^ (d + 1) >>> 1) then
            swap s.1 (k + 1) (reverseIncrement (2 ^ (d + 1)) s.2 (2 ^ (d + 1) >>> 1)) else s.1,
          reverseIncrement (2 ^ (d + 1)) s.2 (2 ^ (d + 1) >>> 1))) (a, 0)) := by
      apply foldl_range_rule (PermutedTo a (d + 1)) (permutedTo_start (d + 1) hlength)
      intro m s hm hs
      rw [hs.2.1, hhalf, reverseIncrement_eq hfuel (by omega)]
      exact permutedTo_step (by omega) hs
    obtain ⟨hlen, -, helem⟩ := hfold
    refine ⟨hlen, ?_⟩
    intro x hx
    rw [helem x hx, if_pos (by omega)]

/-! ## A stage -/

/-- What the first `m` rounds over a block at `i` leave. -/
structure Butterflied (a : List Fr) (wlen : Fr) (i half m : Nat) (s : List Fr × Fr) : Prop where
  length : s.1.length = a.length
  weight : s.2 = wlen ^ m
  lower : ∀ j < m, elem s.1 (i + j) = elem a (i + j) + elem a (i + j + half) * wlen ^ j
  upper : ∀ j < m, elem s.1 (i + j + half) = elem a (i + j) - elem a (i + j + half) * wlen ^ j
  others : ∀ x, (∀ j < m, x ≠ i + j ∧ x ≠ i + j + half) → elem s.1 x = elem a x

variable {wlen : Fr} {half m : Nat}

theorem butterflied_step {s : List Fr × Fr} (hm : m < half) (hfits : i + 2 * half ≤ a.length)
    (h : Butterflied a wlen i half m s) :
    Butterflied a wlen i half (m + 1)
      ((s.1.set (i + m) (elem s.1 (i + m) + elem s.1 (i + m + half) * s.2)).set (i + m + half)
        (elem s.1 (i + m) - elem s.1 (i + m + half) * s.2), s.2 * wlen) := by
  have hlength := h.length
  have hu : elem s.1 (i + m) = elem a (i + m) := by
    apply h.others
    intro j hj
    omega
  have hv : elem s.1 (i + m + half) = elem a (i + m + half) := by
    apply h.others
    intro j hj
    omega
  rw [hu, hv, h.weight]
  have hset : ∀ (u v : Fr) (x : Nat), elem ((s.1.set (i + m) u).set (i + m + half) v) x =
      if i + m + half = x then v else if i + m = x then u else elem s.1 x := by
    intro u v x
    rw [elem_set (by rw [List.length_set]; omega), elem_set (by omega)]
  refine ⟨?_, (pow_succ wlen m).symm, ?_, ?_, ?_⟩
  · simp only [List.length_set, hlength]
  · intro j hj
    rw [hset, if_neg (by omega)]
    by_cases hlast : j = m
    · rw [hlast, if_pos rfl]
    · rw [if_neg (by omega)]
      exact h.lower j (by omega)
  · intro j hj
    rw [hset]
    by_cases hlast : j = m
    · rw [hlast, if_pos rfl]
    · rw [if_neg (by omega), if_neg (by omega)]
      exact h.upper j (by omega)
  · intro x hx
    have hxm := hx m (Nat.lt_succ_self m)
    rw [hset, if_neg (Ne.symm hxm.2), if_neg (Ne.symm hxm.1)]
    exact h.others x fun j hj => hx j (Nat.lt_succ_of_lt hj)

theorem butterflies_spec (hfits : i + 2 * half ≤ a.length) :
    Butterflied a wlen i half half (butterflies wlen i half a) := by
  unfold butterflies
  apply foldl_range_rule (Butterflied a wlen i half)
  · exact ⟨rfl, (pow_zero wlen).symm, by simp, by simp, fun _ _ => rfl⟩
  · intro m s hm hs
    exact butterflied_step hm hfits hs

/-- What the first `b` blocks of a stage leave. -/
structure Staged (a : List Fr) (wlen : Fr) (half b : Nat) (s : List Fr × Nat) : Prop where
  length : s.1.length = a.length
  position : s.2 = b * (2 * half)
  lower : ∀ c < b, ∀ j < half, elem s.1 (c * (2 * half) + j) =
    elem a (c * (2 * half) + j) + elem a (c * (2 * half) + j + half) * wlen ^ j
  upper : ∀ c < b, ∀ j < half, elem s.1 (c * (2 * half) + j + half) =
    elem a (c * (2 * half) + j) - elem a (c * (2 * half) + j + half) * wlen ^ j
  rest : ∀ x, b * (2 * half) ≤ x → elem s.1 x = elem a x

variable {b : Nat}

theorem staged_step {s : List Fr × Nat} (hfits : (b + 1) * (2 * half) ≤ a.length) (h : Staged a wlen half b s) :
    Staged a wlen half (b + 1) ((butterflies wlen s.2 half s.1).1, s.2 + 2 * half) := by
  have hnext : (b + 1) * (2 * half) = b * (2 * half) + 2 * half := Nat.succ_mul _ _
  have hblock : Butterflied s.1 wlen (b * (2 * half)) half half (butterflies wlen (b * (2 * half)) half s.1) := by
    apply butterflies_spec
    rw [h.length]
    omega
  have hearlier : ∀ c < b, c * (2 * half) + 2 * half ≤ b * (2 * half) := by
    intro c hc
    rw [← Nat.succ_mul]
    exact Nat.mul_le_mul_right _ hc
  rw [h.position]
  refine ⟨hblock.length.trans h.length, hnext.symm, ?_, ?_, ?_⟩
  · intro c hc j hj
    by_cases hlast : c = b
    · subst hlast
      rw [hblock.lower j hj, h.rest _ (by omega), h.rest _ (by omega)]
    · have hbefore := hearlier c (by omega)
      rw [hblock.others _ (by intro k hk; omega)]
      exact h.lower c (by omega) j hj
  · intro c hc j hj
    by_cases hlast : c = b
    · subst hlast
      rw [hblock.upper j hj, h.rest _ (by omega), h.rest _ (by omega)]
    · have hbefore := hearlier c (by omega)
      rw [hblock.others _ (by intro k hk; omega)]
      exact h.upper c (by omega) j hj
  · intro x hx
    rw [hblock.others x (by intro k hk; omega)]
    exact h.rest x (by omega)

theorem stage_spec (wlen : Fr) {blocks : Nat} (hhalf : 0 < half) (hlength : a.length = blocks * (2 * half)) :
    Staged a wlen half blocks (stage wlen (2 * half) a, blocks * (2 * half)) := by
  have hwhole : 2 * half / 2 = half := by omega
  have hblocks : blocks ≤ a.length := by
    rw [hlength]
    exact Nat.le_mul_of_pos_right _ (by omega)
  have hrun : Staged a wlen half blocks (whileLoop (fun s : List Fr × Nat => decide (s.2 < a.length))
      (fun s => ((butterflies wlen s.2 half s.1).1, s.2 + 2 * half)) a.length (a, 0)) := by
    apply whileLoop_rule (Staged a wlen half) _ hblocks
    · intro b s hb hs
      have hfits : (b + 1) * (2 * half) ≤ blocks * (2 * half) := Nat.mul_le_mul_right _ hb
      refine ⟨?_, staged_step (by omega) hs⟩
      rw [decide_eq_true_eq, hs.position, hlength]
      exact Nat.mul_lt_mul_of_pos_right hb (by omega)
    · intro s hs
      rw [decide_eq_false_iff_not, hs.position, hlength]
      omega
    · exact ⟨rfl, (Nat.zero_mul _).symm, by simp, by simp, fun _ _ => rfl⟩
  unfold stage
  rw [hwhole]
  exact ⟨hrun.length, rfl, hrun.lower, hrun.upper, hrun.rest⟩

/-! ## The transform -/

/-- After `s` stages every block of `2 ^ s` elements is the transform of the values it is made of. -/
structure Transformed (a : List Fr) (omega : Fr) (k s : Nat) (st : List Fr × Nat) : Prop where
  length : st.1.length = 2 ^ k
  len : st.2 = 2 ^ (s + 1)
  blocks : ∀ b < 2 ^ (k - s), ∀ j < 2 ^ s, elem st.1 (b * 2 ^ s + j) = blockDft (elem a) omega (k - s) s b j

variable {omega : Fr} {k : Nat}

theorem transformed_start (hlength : a.length = 2 ^ k) : Transformed a omega k 0 (bit_reverse_permute a, 2) := by
  obtain ⟨hlen, helem⟩ := bit_reverse_permute_spec hlength
  refine ⟨hlen, rfl, ?_⟩
  intro b hb j hj
  have hzero : j = 0 := by omega
  rw [hzero, blockDft_single]
  have hindex : b * 2 ^ 0 + 0 = b := by omega
  rw [hindex]
  exact helem b hb

theorem transformed_step {m s : Nat} {st : List Fr × Nat} (hω : omega ^ 2 ^ (m + s) = -1)
    (h : Transformed a omega (m + s + 1) s st) :
    Transformed a omega (m + s + 1) (s + 1) (stage (omega ^ (2 ^ (m + s + 1) / st.2)) st.2 st.1, st.2 <<< 1) := by
  obtain ⟨hlength, hlen, hblocks⟩ := h
  have hbefore : m + s + 1 - s = m + 1 := by omega
  have hafter : m + s + 1 - (s + 1) = m := by omega
  have hquotient : 2 ^ (m + s + 1) / 2 ^ (s + 1) = 2 ^ m := by
    rw [Nat.pow_div (by omega) (by decide)]
    congr 1
  have hdouble : 2 ^ (s + 1) = 2 * 2 ^ s := by rw [pow_succ, mul_comm]
  have hfits : st.1.length = 2 ^ m * (2 * 2 ^ s) := by
    rw [hlength, ← hdouble, ← pow_add]
    congr 1
  have hstage := stage_spec (omega ^ 2 ^ m) (Nat.two_pow_pos s) hfits
  rw [hbefore] at hblocks
  rw [hlen, hquotient]
  have hpair : ∀ b < 2 ^ m, ∀ j < 2 ^ s,
      elem st.1 (b * (2 * 2 ^ s) + j) = blockDft (elem a) omega (m + 1) s (2 * b) j ∧
        elem st.1 (b * (2 * 2 ^ s) + j + 2 ^ s) = blockDft (elem a) omega (m + 1) s (2 * b + 1) j := by
    intro b hb j hj
    have heven : b * (2 * 2 ^ s) + j = 2 * b * 2 ^ s + j := by ring
    have hodd : b * (2 * 2 ^ s) + j + 2 ^ s = (2 * b + 1) * 2 ^ s + j := by ring
    rw [heven, hblocks (2 * b) (by rw [pow_succ]; omega) j hj, ← heven, hodd,
      hblocks (2 * b + 1) (by rw [pow_succ]; omega) j hj]
    exact ⟨rfl, rfl⟩
  refine ⟨?_, ?_, ?_⟩
  · rw [hdouble]
    exact hstage.length.trans hlength
  · rw [Nat.shiftLeft_eq, pow_one, pow_succ 2 (s + 1)]
  · intro b hb j hj
    rw [hafter] at hb ⊢
    rw [hdouble] at hj ⊢
    by_cases hlow : j < 2 ^ s
    · obtain ⟨heven, hodd⟩ := hpair b hb j hlow
      rw [hstage.lower b hb j hlow, heven, hodd, blockDft_succ]
    · obtain ⟨i, rfl⟩ := Nat.exists_eq_add_of_le' (Nat.le_of_not_lt hlow)
      obtain ⟨heven, hodd⟩ := hpair b hb i (by omega)
      rw [← Nat.add_assoc, hstage.upper b hb i (by omega), heven, hodd, blockDft_succ_upper hω]

theorem fft_spec (hlength : a.length = 2 ^ k) (hω : 0 < k → omega ^ 2 ^ (k - 1) = -1) :
    ∃ out, fft a omega = some out ∧ out.length = 2 ^ k ∧
      ∀ j < 2 ^ k, elem out j = dft (elem a) (2 ^ k) omega j := by
  unfold fft
  simp only [hlength]
  cases k with
  | zero =>
    rw [if_pos (by decide)]
    refine ⟨a, rfl, hlength, ?_⟩
    intro j hj
    have hzero : j = 0 := by omega
    simp [hzero, dft]
  | succ d =>
    have hroot := hω (Nat.succ_pos d)
    rw [Nat.add_sub_cancel] at hroot
    have hmany : ¬ 2 ^ (d + 1) ≤ 1 := by
      have hpos := Nat.two_pow_pos d
      rw [pow_succ]
      omega
    rw [if_neg hmany, if_pos (by rw [Nat.log2_two_pow])]
    have hrun : Transformed a omega (d + 1) (d + 1) (whileLoop (fun s : List Fr × Nat => decide (s.2 ≤ 2 ^ (d + 1)))
        (fun s => (stage (omega ^ (2 ^ (d + 1) / s.2)) s.2 s.1, s.2 <<< 1)) (2 ^ (d + 1))
        (bit_reverse_permute a, 2)) := by
      apply whileLoop_rule (Transformed a omega (d + 1)) (transformed_start hlength) Nat.lt_two_pow_self.le
      · intro s st hs hst
        obtain ⟨m, rfl⟩ := Nat.exists_eq_add_of_le' (Nat.le_of_lt_succ hs)
        refine ⟨?_, transformed_step hroot hst⟩
        rw [decide_eq_true_eq, hst.len]
        exact Nat.pow_le_pow_right (by decide) (by omega)
      · intro st hst
        rw [decide_eq_false_iff_not, hst.len, Nat.not_le]
        exact Nat.pow_lt_pow_right (by decide) (by omega)
    refine ⟨_, rfl, hrun.length, ?_⟩
    intro j hj
    have hblock := hrun.blocks 0 (Nat.two_pow_pos _) j hj
    rw [Nat.sub_self, blockDft_whole, Nat.zero_mul, Nat.zero_add] at hblock
    exact hblock

theorem elem_map_mul (c : Fr) (i : Nat) : elem (a.map fun x => x * c) i = elem a i * c := by
  unfold elem
  rw [List.getD_eq_getElem?_getD, List.getD_eq_getElem?_getD, List.getElem?_map]
  cases a[i]? with
  | none => simp
  | some x => rfl

theorem inverse_spec {x : Fr} (hx : x ≠ 0) : inverse x = some x⁻¹ := if_neg hx

theorem two_pow_ne_zero_fr (k : Nat) : ((2 ^ k : Nat) : Fr) ≠ 0 := by
  rw [Nat.cast_pow]
  exact pow_ne_zero k two_ne_zero_fr

theorem ifft_spec (hlength : a.length = 2 ^ k) (hne : omega ≠ 0) (hω : 0 < k → omega ^ 2 ^ (k - 1) = -1) :
    ∃ out, ifft a omega = some out ∧ out.length = 2 ^ k ∧
      ∀ i < 2 ^ k, elem out i = coefficients (elem a) (2 ^ k) omega i := by
  have hinverse : 0 < k → omega⁻¹ ^ 2 ^ (k - 1) = -1 := by
    intro hpos
    rw [inv_pow, hω hpos, inv_neg, inv_one]
  obtain ⟨out, hout, hlen, helem⟩ := fft_spec hlength hinverse
  refine ⟨out.map fun x => x * ((2 ^ k : Nat) : Fr)⁻¹, ?_, ?_, ?_⟩
  · unfold ifft
    rw [inverse_spec hne, hlength, inverse_spec (two_pow_ne_zero_fr k)]
    simp only [Option.bind_eq_bind, Option.bind_some, hout]
    rfl
  · rw [List.length_map]
    exact hlen
  · intro i hi
    rw [elem_map_mul, helem i hi]
    rfl

/-! ## The coset -/

theorem batch_apply_key_spec (a : List Fr) (inc : Fr) :
    (batch_apply_key a inc).length = a.length ∧ ∀ i, elem (batch_apply_key a inc) i = elem a i * inc ^ i := by
  have hfold : ∀ a : List Fr,
      (a.foldl (fun (s : List Fr × Fr) x => (s.1 ++ [x * s.2], s.2 * inc)) ([], 1)).2 = inc ^ a.length ∧
        (batch_apply_key a inc).length = a.length ∧ ∀ i, elem (batch_apply_key a inc) i = elem a i * inc ^ i := by
    intro a
    induction a using List.reverseRecOn with
    | nil => exact ⟨rfl, rfl, fun i => by simp [batch_apply_key, elem]⟩
    | append_singleton a x ih =>
      obtain ⟨hweight, hlength, helem⟩ := ih
      unfold batch_apply_key at hlength helem ⊢
      rw [List.foldl_append]
      simp only [List.foldl_cons, List.foldl_nil, List.length_append, hlength, hweight]
      refine ⟨(pow_succ inc _).symm, rfl, ?_⟩
      intro i
      have hi := helem i
      unfold elem at hi ⊢
      obtain hlt | heq | hgt := lt_trichotomy i a.length
      · rw [List.getD_append _ _ _ _ (by simp only [hlength]; omega), List.getD_append _ _ _ _ hlt]
        exact hi
      · rw [List.getD_append_right _ _ _ _ (by simp only [hlength]; omega),
          List.getD_append_right _ _ _ _ heq.ge, hlength, heq, Nat.sub_self]
        rfl
      · rw [List.getD_eq_default _ _ (by simp [hlength]; omega), List.getD_eq_default _ _ (by simp; omega),
          zero_mul]
  exact (hfold a).2

theorem neg_one_of_primitive (hω : IsPrimitiveRoot omega (2 ^ k)) (hk : 0 < k) : omega ^ 2 ^ (k - 1) = -1 := by
  apply IsPrimitiveRoot.eq_neg_one_of_two_right
  apply hω.pow (Nat.two_pow_pos k)
  rw [← pow_succ]
  congr 1
  omega

/-- The values of the interpolating polynomial on the coset. -/
theorem coset_spec {inc : Fr} (hlength : a.length = 2 ^ k) (hinc : IsPrimitiveRoot inc (2 * 2 ^ k))
    (homega : omega = inc ^ 2) :
    ∃ coeffs out, ifft a omega = some coeffs ∧ fft (batch_apply_key coeffs inc) omega = some out ∧
      out.length = 2 ^ k ∧
        ∀ j < 2 ^ k, elem out j = (interpolant (elem a) (2 ^ k) omega).eval (inc ^ (2 * j + 1)) := by
  have hroot : IsPrimitiveRoot omega (2 ^ k) := by
    rw [homega]
    exact hinc.pow (by have hpos := Nat.two_pow_pos k; omega) rfl
  have hhalf := neg_one_of_primitive hroot
  obtain ⟨coeffs, hcoeffs, hlen, helem⟩ := ifft_spec hlength (hroot.ne_zero (Nat.two_pow_pos k).ne') hhalf
  obtain ⟨hlenKey, helemKey⟩ := batch_apply_key_spec coeffs inc
  obtain ⟨out, hout, hlenOut, helemOut⟩ := fft_spec (hlenKey.trans hlen) hhalf
  refine ⟨coeffs, out, hcoeffs, hout, hlenOut, ?_⟩
  intro j hj
  have hpoint : inc ^ (2 * j + 1) = inc * omega ^ j := by rw [homega, pow_succ', pow_mul]
  rw [helemOut j hj, ← sum_coefficients (two_pow_ne_zero_fr k) hroot, hpoint]
  unfold dft
  apply Finset.sum_congr rfl
  intro i hi
  rw [helemKey, helem i (Finset.mem_range.mp hi), mul_pow, ← pow_mul, mul_comm j i, mul_assoc]

/-! ## The roots that are used -/

/-- A primitive `2 ^ k`-th root of unity. -/
def rootOfUnity (k : Nat) : Fr := 5 ^ ((SCALAR_MODULUS - 1) / 2 ^ k)

theorem smallestNqr_eq : smallestNqr = 5 := by decide +kernel

theorem trailing_zeros_two_pow : ∀ k < 32, trailing_zeros (2 ^ k) = k := by decide

theorem roots_spec (hk : k < 32) : roots (2 ^ k) = (rootOfUnity k, rootOfUnity (k + 1)) := by
  have hread : ∀ e, bigint_to_fr (powMod SCALAR_MODULUS 5 e) = 5 ^ e := by
    intro e
    have hlt : powMod SCALAR_MODULUS 5 e < SCALAR_MODULUS := by
      rw [powMod_eq _ _ _ scalar_prime.pos]
      exact Nat.mod_lt _ scalar_prime.pos
    rw [bigint_to_fr_eq (by omega) (by exact_mod_cast hlt), Int.cast_natCast, powMod_eq _ _ _ scalar_prime.pos,
      ZMod.natCast_mod, Nat.cast_pow]
    rfl
  unfold roots rootOfUnity
  simp only [trailing_zeros_two_pow k hk, smallestNqr_eq, hread, Nat.shiftRight_eq_div_pow]

theorem rootOfUnity_half : rootOfUnity 1 = -1 := by
  have hpow := (powMod_eq_iff SCALAR_MODULUS 5 ((SCALAR_MODULUS - 1) / 2) (SCALAR_MODULUS - 1)
    scalar_prime.one_lt).mp (by decide +kernel)
  rw [Nat.cast_sub scalar_prime.one_lt.le, ZMod.natCast_self, Nat.cast_one, zero_sub] at hpow
  exact hpow

theorem rootOfUnity_pow {i j : Nat} (h : i + j ≤ 28) : rootOfUnity (i + j) ^ 2 ^ j = rootOfUnity i := by
  have hdvd : 2 ^ (i + j) ∣ SCALAR_MODULUS - 1 := (pow_dvd_pow 2 h).trans (by decide)
  obtain ⟨t, ht⟩ := hdvd
  unfold rootOfUnity
  rw [ht, ← pow_mul, Nat.mul_div_cancel_left _ (Nat.two_pow_pos _), pow_add, mul_assoc,
    Nat.mul_div_cancel_left _ (Nat.two_pow_pos _), mul_comm]

theorem rootOfUnity_primitive (hk : k ≤ 28) : IsPrimitiveRoot (rootOfUnity k) (2 ^ k) := by
  cases k with
  | zero =>
    have hone : rootOfUnity 0 = 1 := by
      have hsquare := rootOfUnity_pow (show 0 + 1 ≤ 28 by omega)
      rw [← hsquare, rootOfUnity_half]
      norm_num
    rw [hone]
    exact IsPrimitiveRoot.one
  | succ d =>
    have hhalf : rootOfUnity (d + 1) ^ 2 ^ d = -1 := by
      rw [← rootOfUnity_half, Nat.add_comm d 1]
      exact rootOfUnity_pow (by omega)
    have horder : orderOf (rootOfUnity (d + 1)) = 2 ^ (d + 1) := by
      apply orderOf_eq_prime_pow
      · rw [hhalf]
        intro hone
        apply two_ne_zero_fr
        linear_combination (-1 : Fr) * hone
      · rw [pow_succ, pow_mul, hhalf]
        norm_num
    rw [← horder]
    exact IsPrimitiveRoot.orderOf _

/-! ## Evaluation and interpolation -/

/-- The polynomial with the coefficients `a`. -/
noncomputable def polynomial (a : List Fr) : Polynomial Fr :=
  ∑ i ∈ Finset.range a.length, Polynomial.C (elem a i) * Polynomial.X ^ i

theorem eval_polynomial (a : List Fr) (x : Fr) :
    (polynomial a).eval x = ∑ i ∈ Finset.range a.length, elem a i * x ^ i := by
  unfold polynomial
  rw [Polynomial.eval_finsetSum]
  simp only [Polynomial.eval_mul, Polynomial.eval_C, Polynomial.eval_pow, Polynomial.eval_X]

/-- What the prover takes its roots from. -/
theorem roots_primitive (hk : k ≤ 27) : (roots (2 ^ k)).1 = (roots (2 ^ k)).2 ^ 2 ∧
    IsPrimitiveRoot (roots (2 ^ k)).1 (2 ^ k) ∧ IsPrimitiveRoot (roots (2 ^ k)).2 (2 * 2 ^ k) := by
  rw [roots_spec (by omega)]
  refine ⟨?_, rootOfUnity_primitive (by omega), ?_⟩
  · exact (rootOfUnity_pow (show k + 1 ≤ 28 by omega)).symm
  · rw [mul_comm, ← pow_succ]
    exact rootOfUnity_primitive (by omega)

theorem ifft_fft (hlength : a.length = 2 ^ k) (hω : IsPrimitiveRoot omega (2 ^ k)) :
    ∃ out, fft a omega = some out ∧ ifft out omega = some a := by
  obtain ⟨out, hout, hlen, helem⟩ := fft_spec hlength (neg_one_of_primitive hω)
  obtain ⟨back, hback, hlenBack, helemBack⟩ :=
    ifft_spec hlen (hω.ne_zero (Nat.two_pow_pos k).ne') (neg_one_of_primitive hω)
  refine ⟨out, hout, ?_⟩
  rw [hback, ext_elem (hlenBack.trans hlength.symm)]
  intro i hi
  have hi' : i < 2 ^ k := by omega
  rw [helemBack i hi', ← coefficients_dft (a := elem a) (two_pow_ne_zero_fr k) hω hi']
  unfold coefficients
  rw [dft_congr helem]

theorem fft_ifft (hlength : a.length = 2 ^ k) (hω : IsPrimitiveRoot omega (2 ^ k)) :
    ∃ out, ifft a omega = some out ∧ fft out omega = some a := by
  obtain ⟨out, hout, hlen, helem⟩ :=
    ifft_spec hlength (hω.ne_zero (Nat.two_pow_pos k).ne') (neg_one_of_primitive hω)
  obtain ⟨back, hback, hlenBack, helemBack⟩ := fft_spec hlen (neg_one_of_primitive hω)
  refine ⟨out, hout, ?_⟩
  rw [hback, ext_elem (hlenBack.trans hlength.symm)]
  intro i hi
  have hi' : i < 2 ^ k := by omega
  rw [helemBack i hi', ← dft_coefficients (a := elem a) (two_pow_ne_zero_fr k) hω hi', dft_congr helem]

/-- A point of the coset is no root. -/
theorem coset_apart {inc : Fr} (hinc : IsPrimitiveRoot inc (2 * 2 ^ k)) (homega : omega = inc ^ 2) (i j : Nat) :
    inc * omega ^ i ≠ omega ^ j := by
  intro heq
  have hwhole : omega ^ 2 ^ k = 1 := by rw [homega, ← pow_mul, hinc.pow_eq_one]
  have hpower := congrArg (fun x => x ^ 2 ^ k) heq
  simp only [mul_pow, ← pow_mul] at hpower
  rw [mul_comm i, mul_comm j, pow_mul, pow_mul, hwhole, one_pow, one_pow, mul_one] at hpower
  have hdvd := (hinc.pow_eq_one_iff_dvd (2 ^ k)).mp hpower
  have hpos := Nat.two_pow_pos k
  exact absurd (Nat.le_of_dvd hpos hdvd) (by omega)

theorem transforms_evaluate (hk : k ≤ 27) (hlength : a.length = 2 ^ k) :
    (∃ out, fft a (roots (2 ^ k)).1 = some out ∧ out.length = 2 ^ k ∧
        (∀ j < 2 ^ k, elem out j = (polynomial a).eval ((roots (2 ^ k)).1 ^ j)) ∧
        ifft out (roots (2 ^ k)).1 = some a) ∧
      (∃ coeffs out, ifft a (roots (2 ^ k)).1 = some coeffs ∧ fft coeffs (roots (2 ^ k)).1 = some a ∧
        fft (batch_apply_key coeffs (roots (2 ^ k)).2) (roots (2 ^ k)).1 = some out ∧ out.length = 2 ^ k ∧
        ∃ p : Polynomial Fr, p.degree < (2 ^ k : Nat) ∧
          (∀ i < 2 ^ k, p.eval ((roots (2 ^ k)).1 ^ i) = elem a i) ∧
          ∀ i < 2 ^ k, elem out i = p.eval ((roots (2 ^ k)).2 * (roots (2 ^ k)).1 ^ i)) ∧
      ∀ i j, (roots (2 ^ k)).2 * (roots (2 ^ k)).1 ^ i ≠ (roots (2 ^ k)).1 ^ j := by
  obtain ⟨homega, hω, hinc⟩ := roots_primitive hk
  generalize (roots (2 ^ k)).1 = ω at homega hω ⊢
  generalize (roots (2 ^ k)).2 = inc at homega hinc ⊢
  refine ⟨?_, ?_, coset_apart hinc homega⟩
  · obtain ⟨out, hout, hback⟩ := ifft_fft hlength hω
    obtain ⟨out', hout', hlen, helem⟩ := fft_spec hlength (neg_one_of_primitive hω)
    obtain rfl : out' = out := Option.some_injective _ (hout'.symm.trans hout)
    refine ⟨out', hout, hlen, ?_, hback⟩
    intro j hj
    rw [helem j hj, eval_polynomial, hlength]
    unfold dft
    apply Finset.sum_congr rfl
    intro i _
    rw [← pow_mul, mul_comm j i]
  · obtain ⟨coeffs, hcoeffs, hback⟩ := fft_ifft hlength hω
    obtain ⟨coeffs', out, hcoeffs', hout, hlen, helem⟩ := coset_spec hlength hinc homega
    obtain rfl : coeffs' = coeffs := Option.some_injective _ (hcoeffs'.symm.trans hcoeffs)
    refine ⟨coeffs', out, hcoeffs, hback, hout, hlen, interpolant (elem a) (2 ^ k) ω, degree_interpolant hω,
      fun i hi => eval_interpolant_root hω hi, ?_⟩
    intro i hi
    rw [helem i hi, homega, ← pow_mul, pow_succ, mul_comm]

theorem transforms_evaluate_two_values :
    (∃ out, fft [1, 2] (roots (2 ^ 1)).1 = some out ∧ out.length = 2 ^ 1 ∧
        (∀ j < 2 ^ 1, elem out j = (polynomial [1, 2]).eval ((roots (2 ^ 1)).1 ^ j)) ∧
        ifft out (roots (2 ^ 1)).1 = some [1, 2]) ∧
      ∀ i j, (roots (2 ^ 1)).2 * (roots (2 ^ 1)).1 ^ i ≠ (roots (2 ^ 1)).1 ^ j := by
  obtain ⟨htransform, -, hapart⟩ := transforms_evaluate (show 1 ≤ 27 by decide)
    (show [(1 : Fr), 2].length = 2 ^ 1 from rfl)
  exact ⟨htransform, hapart⟩

end ZkVote.Prover
