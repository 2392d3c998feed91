import ZkVote.Backend.EncryptedTally
import ZkVote.Lib.Primes
import ZkVote.Lib.Shamir

/-!
# Decryption by shares

What the group arithmetic of `elgamal.ts` computes.
-/

open Lib

namespace ZkVote.ElGamal

/-! ## The order of the subgroup -/

def suborderLines : List PrimeLine :=
  [⟨2069, 2, [2, 2, 11, 47]⟩, ⟨4139, 2, [2, 2069]⟩, ⟨2837, 2, [2, 2, 709]⟩, ⟨295049, 3, [2, 2, 2, 13, 2837]⟩,
    ⟨43189, 2, [2, 2, 3, 59, 61]⟩, ⟨25485742523, 2, [2, 43189, 295049]⟩,
    ⟨202795150404015601, 7, [2, 2, 2, 2, 3, 5, 5, 19, 349, 25485742523]⟩,
    ⟨431548080059745198929, 3, [2, 2, 2, 2, 7, 19, 202795150404015601]⟩,
    ⟨32151195060611136810608359, 3, [2, 3, 3, 4139, 431548080059745198929]⟩, ⟨6323, 2, [2, 29, 109]⟩,
    ⟨33409, 7, [2, 2, 2, 2, 2, 2, 2, 3, 3, 29]⟩, ⟨1061, 2, [2, 2, 5, 53]⟩,
    ⟨10206821, 2, [2, 2, 5, 13, 37, 1061]⟩, ⟨81654569, 3, [2, 2, 2, 10206821]⟩,
    ⟨128437, 5, [2, 2, 3, 7, 11, 139]⟩, ⟨513749, 2, [2, 2, 128437]⟩, ⟨27743, 5, [2, 11, 13, 97]⟩,
    ⟨27892051421815855583579, 2, [2, 23, 521, 27743, 513749, 81654569]⟩,
    ⟨1863691091902891838383581623, 5, [2, 33409, 27892051421815855583579]⟩, ⟨336157, 2, [2, 2, 3, 109, 257]⟩,
    ⟨178259130663561045147472537592047227885001, 14,
      [2, 2, 2, 3, 3, 5, 5, 5, 5, 6323, 336157, 1863691091902891838383581623]⟩,
    ⟨2736030358979909402780800718157159386076813972158567259200215660948447373041, 31,
      [2, 2, 2, 2, 3, 5, 11, 11, 17, 967, 32151195060611136810608359, 178259130663561045147472537592047227885001]⟩]

theorem suborder_prime : BABYJUB_SUBORDER.Prime :=
  prime_of_certificate (by decide +kernel : linesHold [] suborderLines = true) (by decide +kernel)

instance : Fact BABYJUB_SUBORDER.Prime := ⟨suborder_prime⟩

/-! ## Lagrange coefficients -/

theorem timesMod_eq (acc x : Int) : timesMod acc x = acc * x % BABYJUB_SUBORDER :=
  tmod_add_tmod _ (by decide)

theorem timesMod_nonneg (acc x : Int) : 0 ≤ timesMod acc x := by
  rw [timesMod_eq]
  exact Int.emod_nonneg _ (by decide)

theorem cast_timesMod (acc x : Int) : (timesMod acc x : ZMod BABYJUB_SUBORDER) = acc * x := by
  rw [timesMod_eq, ZMod.intCast_mod]
  push_cast
  rfl

theorem cast_foldl_timesMod (f : Nat → Int) (l : List Nat) (acc : Int) :
    ((l.foldl (fun acc j => timesMod acc (f j)) acc : Int) : ZMod BABYJUB_SUBORDER) =
      acc * (l.map fun j => (f j : ZMod BABYJUB_SUBORDER)).prod := by
  induction l generalizing acc with
  | nil => simp
  | cons j l ih =>
    rw [List.foldl_cons, ih, cast_timesMod, List.map_cons, List.prod_cons]
    ring

theorem modInv_ok {a : Int} (ha : (a : ZMod BABYJUB_SUBORDER) ≠ 0) :
    ∃ b, modInv a BABYJUB_SUBORDER = .ok b ∧ (b : ZMod BABYJUB_SUBORDER) = (a : ZMod BABYJUB_SUBORDER)⁻¹ := by
  have hpos : (0 : Int) < BABYJUB_SUBORDER := by decide
  have hnot : ¬ (BABYJUB_SUBORDER : Int) ∣ a % BABYJUB_SUBORDER := by
    rw [← ZMod.intCast_zmod_eq_zero_iff_dvd, ZMod.intCast_mod]
    exact ha
  have hspec := euclid_spec (m := BABYJUB_SUBORDER) (a := a)
    ((BABYJUB_SUBORDER : Int).toNat + 1) (a % BABYJUB_SUBORDER) BABYJUB_SUBORDER 1 0
    (Int.emod_nonneg a hpos.ne') hpos.le (by omega) (by simp [ZMod.intCast_mod]) (by simp)
  have hover : ((euclid ((BABYJUB_SUBORDER : Int).toNat + 1) (a % BABYJUB_SUBORDER) BABYJUB_SUBORDER 1 0).1 :
      ZMod BABYJUB_SUBORDER) =
      (euclid ((BABYJUB_SUBORDER : Int).toNat + 1) (a % BABYJUB_SUBORDER) BABYJUB_SUBORDER 1 0).2 *
        ((a % BABYJUB_SUBORDER : Int) : ZMod BABYJUB_SUBORDER) := by
    rw [hspec.2, ZMod.intCast_mod]
  obtain ⟨hone, hinverse⟩ := euclid_prime suborder_prime hnot hspec.1 hover
  unfold modInv
  rw [tmod_add_tmod a hpos]
  simp only [hone, if_true]
  refine ⟨_, rfl, ?_⟩
  rw [tmod_add_tmod _ hpos, ZMod.intCast_mod]
  rw [ZMod.intCast_mod] at hinverse
  exact eq_inv_of_mul_eq_one_left hinverse

/-- Two indices that an array can have are apart modulo the order. -/
theorem index_injective {i j : Nat} (hi : i ≤ 2 ^ 32) (hj : j ≤ 2 ^ 32)
    (h : (i : ZMod BABYJUB_SUBORDER) = j) : i = j := by
  have hbound : 2 ^ 32 < BABYJUB_SUBORDER := by decide
  rw [ZMod.natCast_eq_natCast_iff'] at h
  rwa [Nat.mod_eq_of_lt (by omega), Nat.mod_eq_of_lt (by omega)] at h

theorem lagrangeAtZero_ok {index : Nat} {indices : List Nat} (hindex : index ≤ 2 ^ 32)
    (hindices : ∀ j ∈ indices, j ≤ 2 ^ 32) :
    ∃ lambda, lagrangeAtZero index indices = .ok lambda ∧ 0 ≤ lambda ∧
      (lambda : ZMod BABYJUB_SUBORDER) =
        lagrangeWeight (index : ZMod BABYJUB_SUBORDER) ((indices.filter (· ≠ index)).map Nat.cast) := by
  have hden := cast_foldl_timesMod (fun j => index - j) (indices.filter (· ≠ index)) 1
  have hnum := cast_foldl_timesMod (fun j => 0 - j) (indices.filter (· ≠ index)) 1
  push_cast at hden hnum
  have hne : (((indices.filter (· ≠ index)).foldl (fun acc (j : Nat) => timesMod acc (index - j)) 1 : Int) :
      ZMod BABYJUB_SUBORDER) ≠ 0 := by
    rw [hden, one_mul]
    apply List.prod_ne_zero
    intro hzero
    obtain ⟨j, hj, hsub⟩ := List.mem_map.mp hzero
    rw [List.mem_filter] at hj
    have heq := index_injective hindex (hindices j hj.1) (sub_eq_zero.mp hsub)
    simp [heq] at hj
  obtain ⟨inv, hinv, hvalue⟩ := modInv_ok hne
  unfold lagrangeAtZero
  simp only [hinv]
  refine ⟨_, rfl, timesMod_nonneg _ _, ?_⟩
  rw [cast_timesMod, hnum, hvalue, hden]
  unfold lagrangeWeight
  simp [List.map_map, Function.comp_def]

/-! ## Combined shares -/

variable {P : Type} [AddCommGroup P] {G : P}

/-- Multiples of a point of the subgroup go by the scalar modulo the order. -/
theorem smul_congr {Q : P} (hQ : BABYJUB_SUBORDER • Q = 0) {m n : Nat}
    (h : (m : ZMod BABYJUB_SUBORDER) = n) : m • Q = n • Q := by
  have hdvd : addOrderOf Q ∣ BABYJUB_SUBORDER := addOrderOf_dvd_of_nsmul_eq_zero hQ
  rw [ZMod.natCast_eq_natCast_iff] at h
  exact nsmul_eq_nsmul_iff_modEq.mpr (h.of_dvd hdvd)

theorem evalShare_eq (coeffs : List Nat) (x : Nat) :
    (evalShare coeffs x : ZMod BABYJUB_SUBORDER) =
      horner (coeffs.map Nat.cast) (x : ZMod BABYJUB_SUBORDER) := by
  unfold evalShare horner
  induction coeffs with
  | nil => simp
  | cons c coeffs ih =>
    rw [List.foldr_cons, List.map_cons, List.foldr_cons, ZMod.natCast_mod]
    push_cast
    rw [ih]

/-- A share of the decryption of `Q`, for each share of the key. -/
def shareOf (Q : P) (key : Nat → Nat) (index : Nat) : Share P := { index := index, value := key index • Q }

theorem addShares_ok {Q : P} (key : Nat → Nat) (indices : List Nat)
    (hindices : ∀ j ∈ indices, j ≤ 2 ^ 32) (todo : List Nat) (htodo : ∀ j ∈ todo, j ≤ 2 ^ 32) (start : P) :
    ∃ n : Nat, addShares indices (todo.map (shareOf Q key)) start = .ok (start + n • Q) ∧
      (n : ZMod BABYJUB_SUBORDER) =
        (todo.map fun (i : Nat) => lagrangeWeight (i : ZMod BABYJUB_SUBORDER) ((indices.filter (· ≠ i)).map Nat.cast) *
          (key i : ZMod BABYJUB_SUBORDER)).sum := by
  induction todo generalizing start with
  | nil => exact ⟨0, by simp [addShares], by simp⟩
  | cons i todo ih =>
    rw [List.forall_mem_cons] at htodo
    obtain ⟨lambda, hlambda, hpos, hweight⟩ := lagrangeAtZero_ok htodo.1 hindices
    obtain ⟨n, hrest, hn⟩ := ih htodo.2 (addPoints start (lambda.toNat • key i • Q))
    refine ⟨lambda.toNat * key i + n, ?_, ?_⟩
    · simp only [List.map_cons, addShares, shareOf, hlambda]
      change addShares indices (todo.map (shareOf Q key)) _ = _
      rw [hrest]
      unfold addPoints
      rw [add_smul, mul_smul, add_assoc]
    · have hcast : ((lambda.toNat : Nat) : ZMod BABYJUB_SUBORDER) = (lambda : ZMod BABYJUB_SUBORDER) := by
        rw [← Int.cast_natCast, Int.toNat_of_nonneg hpos]
      push_cast
      rw [hcast, hweight, hn, List.map_cons, List.sum_cons]

theorem createShares_ok {secret threshold total : Nat} {randoms : Nat → Nat} {shares : List (Share Nat)}
    (h : createShares secret threshold total randoms = .ok shares) :
    1 ≤ threshold ∧ total < 2 ^ 32 ∧
      shares = (List.range total).map fun i =>
        { index := i + 1
          value := evalShare (secret :: (List.range (threshold - 1)).map randoms) (i + 1) } := by
  unfold createShares at h
  split at h
  · cases h
  next hthreshold =>
  split at h
  · cases h
  next htotal =>
  cases h
  exact ⟨by omega, by omega, rfl⟩

/-- Shares of the key for enough indices combine to the key's multiple. -/
theorem combine_ok {Q : P} (hQ : BABYJUB_SUBORDER • Q = 0) (secret : Nat) (randoms : Nat → Nat) {threshold : Nat}
    (hthreshold : 1 ≤ threshold) {indices : List Nat} (hnodup : indices.Nodup)
    (hindices : ∀ j ∈ indices, j ≤ 2 ^ 32) (henough : threshold ≤ indices.length) :
    combineDecryptionShares (indices.map
      (shareOf Q (evalShare (secret :: (List.range (threshold - 1)).map randoms)))) = .ok (secret • Q) := by
  have hne : indices ≠ [] := by
    intro hnil
    rw [hnil] at henough
    simp at henough
    omega
  obtain ⟨n, hadd, hn⟩ := addShares_ok (Q := Q) (evalShare (secret :: (List.range (threshold - 1)).map randoms))
    indices hindices indices hindices 0
  have hreconstruct := reconstruct ((secret :: (List.range (threshold - 1)).map randoms).map
    (Nat.cast : Nat → ZMod BABYJUB_SUBORDER)) indices Nat.cast hnodup
    (fun i hi j hj => index_injective (hindices i hi) (hindices j hj)) (by simp; omega)
  simp only [evalShare_eq] at hn
  rw [hreconstruct] at hn
  have hsecret : (n : ZMod BABYJUB_SUBORDER) = secret := by
    rw [hn]
    simp [horner]
  unfold combineDecryptionShares
  rw [if_neg (by simpa using hne), List.map_map]
  change addShares (indices.map fun i => i) _ 0 = _
  rw [List.map_id', hadd, zero_add, smul_congr hQ hsecret]

/-! ## Discrete logarithms -/

theorem le_ceilSqrt (max : Nat) : max ≤ ceilSqrt max * ceilSqrt max := by
  have hlt := Nat.lt_succ_sqrt max
  unfold ceilSqrt
  split
  · omega
  · exact hlt.le

theorem ceilSqrt_pred (max : Nat) :
    (ceilSqrt max - 1) * (ceilSqrt max - 1) ≤ max := by
  have hle := Nat.sqrt_le max
  have hpred : ceilSqrt max - 1 ≤ Nat.sqrt max := by
    unfold ceilSqrt
    split <;> omega
  exact (Nat.mul_le_mul hpred hpred).trans hle

theorem babySteps_eq (G : P) (n j : Nat) (table : List (P × Nat)) :
    babySteps G n j (j • G) table = ((List.range' j n).map fun i => (i • G, i)).reverse ++ table := by
  induction n generalizing j table with
  | zero => simp [babySteps]
  | succ n ih =>
    unfold babySteps
    rw [← succ_nsmul, ih, List.range'_succ]
    simp

variable [DecidableEq P]

theorem lookup_eq_some {l : List Nat} {p : P} {j : Nat}
    (h : (l.map fun i => (i • G, i)).lookup p = some j) : j ∈ l ∧ p = j • G := by
  induction l with
  | nil => simp at h
  | cons i l ih =>
    rw [List.map_cons, List.lookup_cons] at h
    split at h
    · next heq =>
      cases h
      exact ⟨List.mem_cons_self, by simpa using heq⟩
    · obtain ⟨hmem, heq⟩ := ih h
      exact ⟨List.mem_cons_of_mem _ hmem, heq⟩

theorem lookup_ne_none {l : List Nat} {j : Nat} (hj : j ∈ l) :
    (l.map fun i => (i • G, i)).lookup (j • G) ≠ none := by
  induction l with
  | nil => cases hj
  | cons i l ih =>
    rw [List.map_cons, List.lookup_cons]
    split
    · simp
    · next hne =>
      rcases List.mem_cons.mp hj with rfl | hj
      · simp at hne
      · exact ih hj

/-- The table of the first `m` multiples. -/
def babyTable (G : P) (m : Nat) : List (P × Nat) := ((List.range m).reverse.map fun i => (i • G, i))

omit [DecidableEq P] in
theorem babySteps_zero (G : P) (m : Nat) : babySteps G m 0 0 [] = babyTable G m := by
  have h := babySteps_eq G m 0 []
  rw [zero_nsmul] at h
  rw [h, babyTable, List.append_nil, List.range_eq_range', List.map_reverse]

theorem babyTable_some {m j : Nat} {p : P} (h : (babyTable G m).lookup p = some j) : j < m ∧ p = j • G := by
  obtain ⟨hmem, heq⟩ := lookup_eq_some h
  rw [List.mem_reverse, List.mem_range] at hmem
  exact ⟨hmem, heq⟩

theorem babyTable_ne_none {m j : Nat} (h : j < m) : (babyTable G m).lookup (j • G) ≠ none :=
  lookup_ne_none (by simpa using h)

/-- The search stops at the first giant step that meets the table. -/
theorem giantSteps_some {m n i : Nat} {step gamma : P} {table : List (P × Nat)} {x : Nat}
    (h : giantSteps m step table n i gamma = some x) :
    ∃ k j, k < n ∧ table.lookup (gamma + k • step) = some j ∧ x = (i + k) * m + j ∧
      ∀ k' < k, table.lookup (gamma + k' • step) = none := by
  induction n generalizing i gamma with
  | zero => simp [giantSteps] at h
  | succ n ih =>
    unfold giantSteps at h
    split at h
    · next j hj =>
      cases h
      exact ⟨0, j, by omega, by simpa using hj, rfl, by simp⟩
    · next hnone =>
      obtain ⟨k, j, hk, hlookup, hx, hbefore⟩ := ih h
      refine ⟨k + 1, j, by omega, ?_, by rw [hx]; ring, ?_⟩
      · rw [succ_nsmul', ← add_assoc]
        exact hlookup
      · intro k' hk'
        cases k' with
        | zero => simpa using hnone
        | succ k' =>
          rw [succ_nsmul', ← add_assoc]
          exact hbefore k' (by omega)

theorem giantSteps_none {m n i : Nat} {step gamma : P} {table : List (P × Nat)}
    (h : giantSteps m step table n i gamma = none) {k : Nat} (hk : k < n) :
    table.lookup (gamma + k • step) = none := by
  induction n generalizing i gamma k with
  | zero => omega
  | succ n ih =>
    unfold giantSteps at h
    split at h
    · cases h
    · next hnone =>
      cases k with
      | zero => simpa using hnone
      | succ k =>
        rw [succ_nsmul', ← add_assoc]
        exact ih h (by omega)

omit [DecidableEq P] in
theorem giant_step_back (x : P) (m k j : Nat) (G : P) (h : x + k • (m • -G) = j • G) : x = (k * m + j) • G := by
  have hx : x = j • G + (k * m) • G := by
    rw [← h, smul_smul, smul_neg, add_assoc]
    simp
  rw [hx, ← add_smul, add_comm]

omit [DecidableEq P] in
theorem giant_step_on (m k j : Nat) (G : P) : (k * m + j) • G + k • (m • -G) = j • G := by
  rw [smul_smul, smul_neg, add_smul, add_comm ((k * m) • G)]
  simp

theorem discreteLog_ok {point : P} {max n : Nat} (h : discreteLog G point max = .ok n) : point = n • G := by
  unfold discreteLog at h
  simp only [babySteps_zero] at h
  split at h
  · next x hx =>
    cases h
    obtain ⟨k, j, hk, hlookup, rfl, -⟩ := giantSteps_some hx
    rw [Nat.zero_add]
    exact giant_step_back point _ k j G (babyTable_some hlookup).2
  · cases h

/-- Below the order of `G` the search finds the least logarithm. -/
theorem discreteLog_least {point : P} {max n y : Nat} (h : discreteLog G point max = .ok n)
    (hm : ceilSqrt max ≤ addOrderOf G) (hy : point = y • G) : n ≤ y := by
  unfold discreteLog at h
  simp only [babySteps_zero] at h
  split at h
  · next x hx =>
    cases h
    obtain ⟨k, j, hk, hlookup, rfl, hbefore⟩ := giantSteps_some hx
    obtain ⟨hj, hpoint⟩ := babyTable_some hlookup
    have hmpos : 0 < ceilSqrt max := by omega
    by_contra hlt
    rw [Nat.zero_add] at hlt
    -- The quotient of a smaller logarithm is an earlier step, or the same one with a smaller remainder.
    have hdiv : y / ceilSqrt max * ceilSqrt max + y % ceilSqrt max = y := Nat.div_add_mod' y _
    have hmod : y % ceilSqrt max < ceilSqrt max := Nat.mod_lt _ hmpos
    have hmeets : point + (y / ceilSqrt max) • (ceilSqrt max • -G) = (y % ceilSqrt max) • G := by
      have hon := giant_step_on (ceilSqrt max) (y / ceilSqrt max) (y % ceilSqrt max) G
      rwa [hdiv, ← hy] at hon
    have hle : y / ceilSqrt max ≤ k := by
      have hy' : y < (k + 1) * ceilSqrt max := by
        rw [Nat.succ_mul]
        omega
      exact Nat.lt_succ_iff.mp ((Nat.div_lt_iff_lt_mul hmpos).mpr hy')
    rcases Nat.lt_or_eq_of_le hle with hearlier | hsame
    · have hnone := hbefore _ hearlier
      rw [hmeets] at hnone
      exact babyTable_ne_none hmod hnone
    · rw [hsame] at hmeets hdiv
      have hremainder : y % ceilSqrt max = j :=
        nsmul_injOn_Iio_addOrderOf (Set.mem_Iio.mpr (hmod.trans_le hm)) (Set.mem_Iio.mpr (hj.trans_le hm))
          (hmeets.symm.trans hpoint)
      omega
  · cases h

/-- A table that holds the whole subgroup answers at once. -/
theorem discreteLog_lt {point : P} {max n y : Nat} (h : discreteLog G point max = .ok n)
    (hm : addOrderOf G ≤ ceilSqrt max) (horder : 0 < addOrderOf G) (hy : point = y • G) : n < ceilSqrt max := by
  unfold discreteLog at h
  simp only [babySteps_zero] at h
  split at h
  · next x hx =>
    cases h
    obtain ⟨k, j, hk, hlookup, rfl, hbefore⟩ := giantSteps_some hx
    have hj := (babyTable_some hlookup).1
    have hfirst : k = 0 := by
      by_contra hne
      have hnone := hbefore 0 (by omega)
      rw [zero_nsmul, add_zero, hy, ← mod_addOrderOf_nsmul] at hnone
      exact babyTable_ne_none ((Nat.mod_lt y horder).trans_le hm) hnone
    rw [hfirst]
    omega
  · cases h

theorem discreteLog_complete {max y : Nat} (hmax : 0 < max) (hy : y ≤ max) : ∃ n, discreteLog G (y • G) max = .ok n := by
  unfold discreteLog
  simp only [babySteps_zero]
  split
  · next n hn => exact ⟨n, rfl⟩
  · next hnone =>
    have hbound := hy.trans (le_ceilSqrt max)
    have hmpos : 0 < ceilSqrt max := by
      have hle := le_ceilSqrt max
      by_contra hzero
      simp only [Nat.not_lt, Nat.le_zero] at hzero
      rw [hzero] at hle
      omega
    have hquot : y / ceilSqrt max < ceilSqrt max + 1 := by
      apply Nat.lt_succ_of_le
      exact Nat.div_le_of_le_mul hbound
    have hmiss := giantSteps_none hnone hquot
    have hon := giant_step_on (ceilSqrt max) (y / ceilSqrt max) (y % ceilSqrt max) G
    rw [Nat.div_add_mod'] at hon
    rw [hon] at hmiss
    exact absurd hmiss (babyTable_ne_none (Nat.mod_lt _ hmpos))

end ZkVote.ElGamal
