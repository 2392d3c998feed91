import ZkVote.Groth16.Verifier
import ZkVote.Lib.Bytes

/-!
# Canonical proofs

`contracts/zkvote-groth16/src/proof_canonicalization.rs`, on BN254. A point is its coordinates, each a word of 32
bytes, most significant first.
-/

open Lib

namespace ZkVote.Groth16

open Prover (Fr)
open Voting (VerificationKey Proof)

def BN254_P_MODULUS_BE : Bytes :=
  [0x30, 0x64, 0x4e, 0x72, 0xe1, 0x31, 0xa0, 0x29, 0xb8, 0x50, 0x45, 0xb6, 0x81, 0x81, 0x58, 0x5d,
    0x97, 0x81, 0x6a, 0x91, 0x68, 0x71, 0xca, 0x8d, 0x3c, 0x20, 0x8c, 0x16, 0xd8, 0x7c, 0xfd, 0x47]

def BN254_P_MINUS_1_DIV_2_BE : Bytes :=
  [0x18, 0x32, 0x27, 0x39, 0x70, 0x98, 0xd0, 0x14, 0xdc, 0x28, 0x22, 0xdb, 0x40, 0xc0, 0xac, 0x2e,
    0xcb, 0xc0, 0xb5, 0x48, 0xb4, 0x38, 0xe5, 0x46, 0x9e, 0x10, 0x46, 0x0b, 0x6c, 0x3e, 0x7e, 0xa3]

def p : Nat := fromBeBytes BN254_P_MODULUS_BE

def p_half : Nat := fromBeBytes BN254_P_MINUS_1_DIV_2_BE

/-- `U256::sub`, which traps below zero. -/
def sub (x y : Nat) : Option U256 := if y ≤ x then some (x - y) else none

def is_g1_point_canonical_bn254 (point : BytesN 64) : Bool := fromBeBytes (word 32 point.toList 1) ≤ p_half

def is_proof_canonical_bn254 (proof : Proof) : Bool := is_g1_point_canonical_bn254 proof.a

def canonicalize_g1_point_bn254 (point : BytesN 64) : Option (BytesN 64) :=
  if is_g1_point_canonical_bn254 point then some point
  else do
    let x_bytes := word 32 point.toList 0
    let y := fromBeBytes (word 32 point.toList 1)
    let y_neg ← sub p y
    return padTo 64 (x_bytes ++ toBeBytes 32 y_neg)

def negate_g2_point_bn254 (point : BytesN 128) : Option (BytesN 128) := do
  let x_c1 := word 32 point.toList 0
  let x_c0 := word 32 point.toList 1
  let y_c1 := fromBeBytes (word 32 point.toList 2)
  let y_c0 := fromBeBytes (word 32 point.toList 3)
  let y_c1_neg ← sub p y_c1
  let y_c0_neg ← sub p y_c0
  return padTo 128 (x_c1 ++ x_c0 ++ toBeBytes 32 y_c1_neg ++ toBeBytes 32 y_c0_neg)

def canonicalize_proof_bn254 (proof : Proof) : Option Proof :=
  if is_proof_canonical_bn254 proof then some proof
  else do
    let a_canon ← canonicalize_g1_point_bn254 proof.a
    let b_canon ← negate_g2_point_bn254 proof.b
    return { a := a_canon, b := b_canon, c := proof.c }

/-! ## Points by their coordinates -/

def coordinate {n : Nat} (point : BytesN n) (i : Nat) : Nat := fromBeBytes (word 32 point.toList i)

def coordinates (proof : Proof) : List Nat :=
  (List.range 2).map (coordinate proof.a) ++ (List.range 4).map (coordinate proof.b) ++
    (List.range 2).map (coordinate proof.c)

def BelowModulus (proof : Proof) : Prop := ∀ x ∈ coordinates proof, x < p

instance (proof : Proof) : Decidable (BelowModulus proof) := by
  unfold BelowModulus
  infer_instance

/-- The point of G1 or G2 with these coordinates. -/
def ofCoordinates (n : Nat) (coordinates : List Nat) : BytesN n := padTo n (ofWords 32 coordinates)

theorem p_eq : p = 2 * p_half + 1 := by decide

def IsWord (x : Nat) : Prop := x < 256 ^ 32

theorem isWord_of_le {x : Nat} (h : x ≤ p) : IsWord x := lt_of_le_of_lt h (by decide)

theorem word_ofCoordinates {n : Nat} {coordinates : List Nat} {i : Nat} (hi : i < coordinates.length)
    (hn : n = 32 * coordinates.length) :
    word 32 (ofCoordinates n coordinates).toList i = toBeBytes 32 coordinates[i] := by
  unfold ofCoordinates
  rw [toList_padTo (by rw [length_ofWords, hn]), word_ofWords 32 coordinates i hi]

theorem ofCoordinates_injective {n : Nat} {xs ys : List Nat} (hxs : n = 32 * xs.length) (hys : n = 32 * ys.length)
    (hx : ∀ x ∈ xs, IsWord x) (hy : ∀ y ∈ ys, IsWord y) (h : ofCoordinates n xs = ofCoordinates n ys) :
    xs = ys := by
  apply List.ext_getElem
  · omega
  · intro i hix hiy
    have hword : toBeBytes 32 xs[i] = toBeBytes 32 ys[i] := by
      rw [← word_ofCoordinates hix hxs, ← word_ofCoordinates hiy hys, h]
    have hmod := mod_of_toBeBytes hword
    rw [Nat.mod_eq_of_lt (hx _ (List.getElem_mem hix)), Nat.mod_eq_of_lt (hy _ (List.getElem_mem hiy))] at hmod
    exact hmod

theorem exists_coordinates {n : Nat} (k : Nat) (hn : n = 32 * k) (point : BytesN n) :
    ∃ xs : List Nat, xs.length = k ∧ (∀ x ∈ xs, IsWord x) ∧ point = ofCoordinates n xs := by
  obtain ⟨xs, hlength, hsmall, hbytes⟩ := exists_words (point.length_toList.trans hn)
  refine ⟨xs, hlength, hsmall, ?_⟩
  unfold ofCoordinates
  rw [← hbytes, padTo_toList]

theorem coordinates_ofCoordinates {n : Nat} (xs : List Nat) (hn : n = 32 * xs.length)
    (hsmall : ∀ x ∈ xs, IsWord x) : (List.range xs.length).map (coordinate (ofCoordinates n xs)) = xs := by
  apply List.ext_getElem
  · simp
  · intro i hi hi'
    rw [List.getElem_map, List.getElem_range]
    unfold coordinate
    rw [word_ofCoordinates hi' hn, fromBeBytes_toBeBytes, Nat.mod_eq_of_lt (hsmall _ (List.getElem_mem hi'))]

theorem exists_g1 (point : BytesN 64) : ∃ x y, IsWord x ∧ IsWord y ∧ point = ofCoordinates 64 [x, y] := by
  obtain ⟨xs, hlength, hsmall, hpoint⟩ := exists_coordinates 2 rfl point
  obtain ⟨x, y, rfl⟩ := List.length_eq_two.mp hlength
  exact ⟨x, y, hsmall x (by simp), hsmall y (by simp), hpoint⟩

theorem exists_g2 (point : BytesN 128) :
    ∃ x1 x0 y1 y0, IsWord x1 ∧ IsWord x0 ∧ IsWord y1 ∧ IsWord y0 ∧
      point = ofCoordinates 128 [x1, x0, y1, y0] := by
  obtain ⟨xs, hlength, hsmall, hpoint⟩ := exists_coordinates 4 rfl point
  obtain ⟨x1, x0, y1, y0, rfl⟩ := List.length_eq_four.mp hlength
  exact ⟨x1, x0, y1, y0, hsmall x1 (by simp), hsmall x0 (by simp), hsmall y1 (by simp), hsmall y0 (by simp), hpoint⟩

/-- A proof whose first two points have these coordinates. -/
def ofPoints (x y x1 x0 y1 y0 : Nat) (c : BytesN 64) : Proof where
  a := ofCoordinates 64 [x, y]
  b := ofCoordinates 128 [x1, x0, y1, y0]
  c := c

theorem exists_ofPoints (proof : Proof) :
    ∃ x y x1 x0 y1 y0 c, IsWord x ∧ IsWord y ∧ IsWord x1 ∧ IsWord x0 ∧ IsWord y1 ∧
      IsWord y0 ∧ proof = ofPoints x y x1 x0 y1 y0 c := by
  obtain ⟨x, y, hx, hy, ha⟩ := exists_g1 proof.a
  obtain ⟨x1, x0, y1, y0, hx1, hx0, hy1, hy0, hb⟩ := exists_g2 proof.b
  refine ⟨x, y, x1, x0, y1, y0, proof.c, hx, hy, hx1, hx0, hy1, hy0, ?_⟩
  unfold ofPoints
  rw [← ha, ← hb]

/-! ## The other proof of the same statement -/

/-- The negative in the field. -/
def negated (y : Nat) : Nat := (p - y) % p

def neg_g1 (point : BytesN 64) : BytesN 64 := ofCoordinates 64 [coordinate point 0, negated (coordinate point 1)]

def neg_g2 (point : BytesN 128) : BytesN 128 :=
  ofCoordinates 128
    [coordinate point 0, coordinate point 1, negated (coordinate point 2), negated (coordinate point 3)]

/-- `(-A, -B, C)`. -/
def variant (proof : Proof) : Proof where
  a := neg_g1 proof.a
  b := neg_g2 proof.b
  c := proof.c

theorem negated_zero : negated 0 = 0 := by decide

theorem negated_of_pos {y : Nat} (hy : 0 < y) (hp : y < p) : negated y = p - y := by
  unfold negated
  exact Nat.mod_eq_of_lt (by omega)

theorem negated_eq_self {y : Nat} (hp : y < p) : negated y = y ↔ y = 0 := by
  rcases Nat.eq_zero_or_pos y with rfl | hy
  · simp [negated_zero]
  · rw [negated_of_pos hy hp]
    have hodd := p_eq
    omega

section

variable {x y x1 x0 y1 y0 : Nat} {c : BytesN 64}

theorem coordinates_a (hx : IsWord x) (hy : IsWord y) :
    coordinate (ofCoordinates 64 [x, y]) 0 = x ∧ coordinate (ofCoordinates 64 [x, y]) 1 = y := by
  have h := coordinates_ofCoordinates [x, y] (n := 64) rfl (by simp [hx, hy])
  simpa [List.range_succ] using h

theorem coordinates_b (hx1 : IsWord x1) (hx0 : IsWord x0) (hy1 : IsWord y1) (hy0 : IsWord y0) :
    coordinate (ofCoordinates 128 [x1, x0, y1, y0]) 0 = x1 ∧ coordinate (ofCoordinates 128 [x1, x0, y1, y0]) 1 = x0 ∧
      coordinate (ofCoordinates 128 [x1, x0, y1, y0]) 2 = y1 ∧
      coordinate (ofCoordinates 128 [x1, x0, y1, y0]) 3 = y0 := by
  have h := coordinates_ofCoordinates [x1, x0, y1, y0] (n := 128) rfl (by simp [hx1, hx0, hy1, hy0])
  simpa [List.range_succ] using h

theorem belowModulus_ofPoints (hx : IsWord x) (hy : IsWord y) (hx1 : IsWord x1) (hx0 : IsWord x0) (hy1 : IsWord y1)
    (hy0 : IsWord y0) :
    BelowModulus (ofPoints x y x1 x0 y1 y0 c) ↔
      (x < p ∧ y < p) ∧ (x1 < p ∧ x0 < p ∧ y1 < p ∧ y0 < p) ∧ coordinate c 0 < p ∧ coordinate c 1 < p := by
  obtain ⟨ha0, ha1⟩ := coordinates_a hx hy
  obtain ⟨hb0, hb1, hb2, hb3⟩ := coordinates_b hx1 hx0 hy1 hy0
  unfold BelowModulus coordinates ofPoints
  simp [List.range_succ, ha0, ha1, hb0, hb1, hb2, hb3, and_assoc]

theorem variant_ofPoints (hx : IsWord x) (hy : IsWord y) (hx1 : IsWord x1) (hx0 : IsWord x0) (hy1 : IsWord y1)
    (hy0 : IsWord y0) :
    variant (ofPoints x y x1 x0 y1 y0 c) = ofPoints x (negated y) x1 x0 (negated y1) (negated y0) c := by
  obtain ⟨ha0, ha1⟩ := coordinates_a hx hy
  obtain ⟨hb0, hb1, hb2, hb3⟩ := coordinates_b hx1 hx0 hy1 hy0
  unfold variant neg_g1 neg_g2 ofPoints
  rw [ha0, ha1, hb0, hb1, hb2, hb3]

theorem is_proof_canonical_ofPoints (hx : IsWord x) (hy : IsWord y) :
    is_proof_canonical_bn254 (ofPoints x y x1 x0 y1 y0 c) = decide (y ≤ p_half) := by
  have hy1 := (coordinates_a hx hy).2
  unfold coordinate at hy1
  unfold is_proof_canonical_bn254 is_g1_point_canonical_bn254 ofPoints
  rw [hy1]

theorem canonicalize_of_le (hx : IsWord x) (hy : IsWord y) (hle : y ≤ p_half) :
    canonicalize_proof_bn254 (ofPoints x y x1 x0 y1 y0 c) = some (ofPoints x y x1 x0 y1 y0 c) := by
  unfold canonicalize_proof_bn254
  rw [is_proof_canonical_ofPoints hx hy, if_pos (decide_eq_true hle)]

theorem word_toBeBytes {n i : Nat} (xs : List Nat) (hn : n = 32 * xs.length) {x : Nat} (hx : xs[i]? = some x) :
    word 32 (ofCoordinates n xs).toList i = toBeBytes 32 x := by
  obtain ⟨hi, rfl⟩ := List.getElem?_eq_some_iff.mp hx
  exact word_ofCoordinates hi hn

theorem sub_spec {a b : Nat} (hb : b ≤ a) : sub a b = some (a - b) := by
  unfold sub
  rw [if_pos hb]

theorem canonicalize_g1_point_spec (hx : IsWord x) (hy : y ≤ p) (hgt : p_half < y) :
    canonicalize_g1_point_bn254 (ofCoordinates 64 [x, y]) = some (ofCoordinates 64 [x, p - y]) := by
  have hcanonical : is_g1_point_canonical_bn254 (ofCoordinates 64 [x, y]) = false := by
    have h : is_proof_canonical_bn254 (ofPoints x y 0 0 0 0 (padTo 64 [])) = decide (y ≤ p_half) :=
      is_proof_canonical_ofPoints hx (isWord_of_le hy)
    rwa [decide_eq_false (by omega)] at h
  have hread : fromBeBytes (word 32 (ofCoordinates 64 [x, y]).toList 1) = y := (coordinates_a hx (isWord_of_le hy)).2
  unfold canonicalize_g1_point_bn254
  rw [hcanonical, if_neg (by simp), hread]
  simp only
  rw [sub_spec hy, word_toBeBytes [x, y] (n := 64) (i := 0) rfl rfl]
  simp [ofCoordinates, ofWords]

theorem negate_g2_point_spec (hx1 : IsWord x1) (hx0 : IsWord x0) (hy1 : y1 ≤ p) (hy0 : y0 ≤ p) :
    negate_g2_point_bn254 (ofCoordinates 128 [x1, x0, y1, y0]) =
      some (ofCoordinates 128 [x1, x0, p - y1, p - y0]) := by
  obtain ⟨-, -, hread1, hread0⟩ := coordinates_b hx1 hx0 (isWord_of_le hy1) (isWord_of_le hy0)
  unfold coordinate at hread1 hread0
  unfold negate_g2_point_bn254
  rw [hread1, hread0]
  simp only
  rw [sub_spec hy1, sub_spec hy0, word_toBeBytes [x1, x0, y1, y0] (n := 128) (i := 0) rfl rfl,
    word_toBeBytes [x1, x0, y1, y0] (n := 128) (i := 1) rfl rfl]
  simp [ofCoordinates, ofWords]

theorem canonicalize_of_gt (hx : IsWord x) (hx1 : IsWord x1) (hx0 : IsWord x0) (hy : y ≤ p) (hgt : p_half < y)
    (hy1 : y1 ≤ p) (hy0 : y0 ≤ p) :
    canonicalize_proof_bn254 (ofPoints x y x1 x0 y1 y0 c) = some (ofPoints x (p - y) x1 x0 (p - y1) (p - y0) c) := by
  unfold canonicalize_proof_bn254
  rw [is_proof_canonical_ofPoints hx (isWord_of_le hy), decide_eq_false (by omega), if_neg (by simp)]
  unfold ofPoints
  rw [canonicalize_g1_point_spec hx hy hgt, negate_g2_point_spec hx1 hx0 hy1 hy0]
  rfl

end

/-! ## Canonicalisation -/

section

variable {G1 G2 GT : Type} [AddCommGroup G1] [Module Fr G1] [AddCommGroup G2] [Module Fr G2] [AddCommGroup GT]
  [Module Fr GT]

/-- The negative of a point has the negative of its y. -/
structure Groth16Curve.Negates (curve : Groth16Curve G1 G2 GT) : Prop where
  g1 : ∀ x y, x < p → y < p →
    curve.g1_from_bytes (ofCoordinates 64 [x, negated y]) = -curve.g1_from_bytes (ofCoordinates 64 [x, y])
  g2 : ∀ x1 x0 y1 y0, x1 < p → x0 < p → y1 < p → y0 < p →
    curve.g2_from_bytes (ofCoordinates 128 [x1, x0, negated y1, negated y0]) =
      -curve.g2_from_bytes (ofCoordinates 128 [x1, x0, y1, y0])

/-- The proof has a canonical form, which its other variant has too. -/
def Canonicalises (curve : Groth16Curve G1 G2 GT) (proof : Proof) : Prop :=
  ∃ canon, canonicalize_proof_bn254 proof = some canon ∧ BelowModulus canon ∧
    (∀ vk pub_signals, equation curve vk canon pub_signals = equation curve vk proof pub_signals) ∧
    is_proof_canonical_bn254 canon = true ∧ canonicalize_proof_bn254 canon = some canon ∧
    canonicalize_proof_bn254 (variant proof) = some canon

/-- The y of `A` and both parts of that of `B`. -/
def ys (proof : Proof) : List Nat := [coordinate proof.a 1, coordinate proof.b 2, coordinate proof.b 3]

theorem equation_variant {curve : Groth16Curve G1 G2 GT} (hcurve : curve.Negates) {x y x1 x0 y1 y0 : Nat}
    {c : BytesN 64} (hx : x < p) (hy : y < p) (hx1 : x1 < p) (hx0 : x0 < p) (hy1 : y1 < p) (hy0 : y0 < p)
    (vk : VerificationKey) (pub_signals : List U256) :
    equation curve vk (ofPoints x (negated y) x1 x0 (negated y1) (negated y0) c) pub_signals =
      equation curve vk (ofPoints x y x1 x0 y1 y0 c) pub_signals := by
  unfold equation ofPoints
  simp only [hcurve.g1 x y hx hy, hcurve.g2 x1 x0 y1 y0 hx1 hx0 hy1 hy0, neg_neg, map_neg, LinearMap.neg_apply]

theorem ys_ofPoints {x y x1 x0 y1 y0 : Nat} {c : BytesN 64} (hx : IsWord x) (hy : IsWord y) (hx1 : IsWord x1)
    (hx0 : IsWord x0) (hy1 : IsWord y1) (hy0 : IsWord y0) : ys (ofPoints x y x1 x0 y1 y0 c) = [y, y1, y0] := by
  obtain ⟨-, ha⟩ := coordinates_a hx hy
  obtain ⟨-, -, hb1, hb0⟩ := coordinates_b hx1 hx0 hy1 hy0
  unfold ys ofPoints
  rw [ha, hb1, hb0]

theorem ofPoints_inj {x y x1 x0 y1 y0 z1 z0 : Nat} {c : BytesN 64} (hx1 : IsWord x1) (hx0 : IsWord x0)
    (hy1 : IsWord y1) (hy0 : IsWord y0) (hz1 : IsWord z1) (hz0 : IsWord z0) :
    ofPoints x y x1 x0 y1 y0 c = ofPoints x y x1 x0 z1 z0 c ↔ y1 = z1 ∧ y0 = z0 := by
  constructor
  · intro h
    unfold ofPoints at h
    rw [Proof.mk.injEq] at h
    have hlist := ofCoordinates_injective (n := 128) rfl rfl (by simp [hx1, hx0, hy1, hy0])
      (by simp [hx1, hx0, hz1, hz0]) h.2.1
    simpa using hlist
  · rintro ⟨rfl, rfl⟩
    rfl

theorem canonicalises_of_le {curve : Groth16Curve G1 G2 GT} {proof : Proof}
    (hcanonical : is_proof_canonical_bn254 proof = true) (hself : canonicalize_proof_bn254 proof = some proof)
    (h : BelowModulus proof) :
    Canonicalises curve proof ↔ canonicalize_proof_bn254 (variant proof) = some proof := by
  constructor
  · rintro ⟨canon, hcanon, -, -, -, -, hvariant⟩
    rw [hself, Option.some_inj] at hcanon
    rw [hvariant, hcanon]
  · intro hvariant
    exact ⟨proof, hself, h, fun _ _ => rfl, hcanonical, hself, hvariant⟩

/-- The other variant of a canonical proof has the same canonical form. -/
theorem variant_canonicalises_iff {x y x1 x0 y1 y0 : Nat} {c : BytesN 64} (hx : x < p) (hy : y < p) (hx1 : x1 < p)
    (hx0 : x0 < p) (hy1 : y1 < p) (hy0 : y0 < p) (hle : y ≤ p_half) :
    canonicalize_proof_bn254 (ofPoints x (negated y) x1 x0 (negated y1) (negated y0) c) =
        some (ofPoints x y x1 x0 y1 y0 c) ↔
      (y = 0 ∧ y1 = 0 ∧ y0 = 0) ∨ (y ≠ 0 ∧ y1 ≠ 0 ∧ y0 ≠ 0) := by
  have hodd := p_eq
  have hword : ∀ {v}, v < p → IsWord v := fun h => isWord_of_le (Nat.le_of_lt h)
  have hn : ∀ v, negated v < p := fun v => Nat.mod_lt _ (by omega)
  rcases Nat.eq_zero_or_pos y with rfl | hpos
  · rw [negated_zero, canonicalize_of_le (hword hx) (hword hy) hle, Option.some_inj,
      ofPoints_inj (hword hx1) (hword hx0) (hword (hn y1)) (hword (hn y0)) (hword hy1) (hword hy0),
      negated_eq_self hy1, negated_eq_self hy0]
    simp
  · have hback : ∀ v, v < p → (p - negated v = v ↔ v ≠ 0) := by
      intro v hv
      rcases Nat.eq_zero_or_pos v with rfl | hvpos
      · rw [negated_zero]
        omega
      · rw [negated_of_pos hvpos hv]
        omega
    have hny := negated_of_pos hpos hy
    rw [canonicalize_of_gt (hword hx) (hword hx1) (hword hx0) (Nat.le_of_lt (hn y)) (by omega)
      (Nat.le_of_lt (hn y1)) (Nat.le_of_lt (hn y0)), (hback y hy).mpr (by omega), Option.some_inj,
      ofPoints_inj (hword hx1) (hword hx0) (isWord_of_le (Nat.sub_le _ _)) (isWord_of_le (Nat.sub_le _ _))
        (hword hy1) (hword hy0), hback y1 hy1, hback y0 hy0]
    omega

theorem canonicalises_of_gt {curve : Groth16Curve G1 G2 GT} (hcurve : curve.Negates) {x y x1 x0 y1 y0 : Nat}
    {c : BytesN 64} (hx : x < p) (hy : y < p) (hx1 : x1 < p) (hx0 : x0 < p) (hy1 : y1 < p) (hy0 : y0 < p)
    (hc : coordinate c 0 < p ∧ coordinate c 1 < p) (hgt : p_half < y) :
    Canonicalises curve (ofPoints x y x1 x0 y1 y0 c) ↔ y1 ≠ 0 ∧ y0 ≠ 0 := by
  have hodd := p_eq
  have hword : ∀ {v}, v < p → IsWord v := fun h => isWord_of_le (Nat.le_of_lt h)
  have hsub : ∀ v, IsWord (p - v) := fun v => isWord_of_le (Nat.sub_le _ _)
  have hcanon := canonicalize_of_gt (c := c) (hword hx) (hword hx1) (hword hx0) (Nat.le_of_lt hy) hgt
    (Nat.le_of_lt hy1) (Nat.le_of_lt hy0)
  have hbelow := belowModulus_ofPoints (c := c) (hword hx) (hsub y) (hword hx1) (hword hx0) (hsub y1) (hsub y0)
  constructor
  · rintro ⟨canon, hcanon', hsmall, -⟩
    rw [hcanon, Option.some_inj] at hcanon'
    subst hcanon'
    obtain ⟨-, ⟨-, -, h1, h0⟩, -⟩ := hbelow.mp hsmall
    omega
  · rintro ⟨h1, h0⟩
    have hny := negated_of_pos (Nat.lt_of_le_of_lt (Nat.zero_le _) hgt) hy
    have hny1 := negated_of_pos (Nat.pos_of_ne_zero h1) hy1
    have hny0 := negated_of_pos (Nat.pos_of_ne_zero h0) hy0
    have hle : p - y ≤ p_half := by omega
    have hself : canonicalize_proof_bn254 (ofPoints x (p - y) x1 x0 (p - y1) (p - y0) c) =
        some (ofPoints x (p - y) x1 x0 (p - y1) (p - y0) c) := canonicalize_of_le (hword hx) (hsub y) hle
    refine ⟨_, hcanon, hbelow.mpr (by omega), ?_, ?_, hself, ?_⟩
    · intro vk pub_signals
      rw [← hny, ← hny1, ← hny0]
      exact equation_variant hcurve hx hy hx1 hx0 hy1 hy0 vk pub_signals
    · rw [is_proof_canonical_ofPoints (hword hx) (hsub y), decide_eq_true hle]
    · rw [variant_ofPoints (hword hx) (hword hy) (hword hx1) (hword hx0) (hword hy1) (hword hy0), hny, hny1, hny0]
      exact hself

/-- The parts of the claim hold of a proof whose y are all there or all zero, and of no other. -/
theorem canonical_form_iff {curve : Groth16Curve G1 G2 GT} (hcurve : curve.Negates) (proof : Proof)
    (h : BelowModulus proof) :
    Canonicalises curve proof ↔ (∀ y ∈ ys proof, y = 0) ∨ (∀ y ∈ ys proof, y ≠ 0) := by
  obtain ⟨x, y, x1, x0, y1, y0, c, wx, wy, wx1, wx0, wy1, wy0, rfl⟩ := exists_ofPoints proof
  obtain ⟨⟨hx, hy⟩, ⟨hx1, hx0, hy1, hy0⟩, hc⟩ := (belowModulus_ofPoints wx wy wx1 wx0 wy1 wy0).mp h
  rw [ys_ofPoints wx wy wx1 wx0 wy1 wy0]
  by_cases hle : y ≤ p_half
  · have hcanonical : is_proof_canonical_bn254 (ofPoints x y x1 x0 y1 y0 c) = decide (y ≤ p_half) :=
      is_proof_canonical_ofPoints wx wy
    rw [decide_eq_true hle] at hcanonical
    rw [canonicalises_of_le hcanonical (canonicalize_of_le wx wy hle) h, variant_ofPoints wx wy wx1 wx0 wy1 wy0,
      variant_canonicalises_iff hx hy hx1 hx0 hy1 hy0 hle]
    simp
  · rw [canonicalises_of_gt hcurve hx hy hx1 hx0 hy1 hy0 hc (Nat.lt_of_not_le hle)]
    have hpos : y ≠ 0 := by omega
    simp [hpos]

end

/-! ## A run on the generators -/

theorem negated_eq_iff {y k : Nat} (hy : y < p) (hk : 0 < k) (hkp : k < p) : negated y = k ↔ y = p - k := by
  rcases Nat.eq_zero_or_pos y with rfl | hpos
  · rw [negated_zero]
    omega
  · rw [negated_of_pos hpos hy]
    omega

/-- The generator of G2. -/
def generator_x1 : Nat := 11559732032986387107991004021392285783925812861821192530917403151452391805634
def generator_x0 : Nat := 10857046999023057135944570762232829481370756359578518086990519993285655852781
def generator_y1 : Nat := 4082367875863433681332203403145435568316851327593401208105741076214120093531
def generator_y0 : Nat := 8495653923123431417604973247489272438418190587263600148770280649306958101930

/-- A generator, its negative, and anything else taken for infinity. -/
def signOf (isGenerator isNegative : Bool) : Fr := if isGenerator then 1 else if isNegative then -1 else 0

/-- The generators, their negatives and infinity. -/
def generatorCurve : Groth16Curve Fr Fr Fr where
  g1_from_bytes point :=
    signOf (coordinate point 0 == 1 && coordinate point 1 == 2) (coordinate point 0 == 1 && coordinate point 1 == p - 2)
  g2_from_bytes point :=
    signOf
      (coordinate point 0 == generator_x1 && coordinate point 1 == generator_x0 &&
        coordinate point 2 == generator_y1 && coordinate point 3 == generator_y0)
      (coordinate point 0 == generator_x1 && coordinate point 1 == generator_x0 &&
        coordinate point 2 == p - generator_y1 && coordinate point 3 == p - generator_y0)
  pairing := LinearMap.mul Fr Fr

theorem signOf_swap {g n : Bool} (hapart : ¬(g = true ∧ n = true)) : signOf n g = -signOf g n := by
  cases g <;> cases n <;> simp [signOf] at hapart ⊢

theorem beq_congr {a b c d : Nat} (h : a = b ↔ c = d) : (a == b) = (c == d) := by
  rw [Bool.eq_iff_iff, beq_iff_eq, beq_iff_eq, h]

theorem generators_small :
    (2 < p ∧ 2 ≠ p - 2) ∧ (0 < generator_y1 ∧ generator_y1 < p ∧ generator_y1 ≠ p - generator_y1) ∧
      0 < generator_y0 ∧ generator_y0 < p := by
  decide

theorem generatorCurve_negates : generatorCurve.Negates := by
  have hword : ∀ {v}, v < p → IsWord v := fun h => isWord_of_le (Nat.le_of_lt h)
  have hn : ∀ v, IsWord (negated v) := fun v => hword (Nat.mod_lt _ (by decide))
  obtain ⟨⟨h2, h2'⟩, ⟨hpos1, hlt1, hne1⟩, hpos0, hlt0⟩ := generators_small
  have hback : ∀ {v k}, v < p → 0 < k → k < p → (negated v = p - k ↔ v = k) := by
    intro v k hv hk hkp
    rw [negated_eq_iff hv (by omega) (by omega)]
    omega
  constructor
  · intro x y hx hy
    obtain ⟨ha0, ha1⟩ := coordinates_a (hword hx) (hword hy)
    obtain ⟨hn0, hn1⟩ := coordinates_a (hword hx) (hn y)
    unfold generatorCurve
    simp only
    rw [ha0, ha1, hn0, hn1, beq_congr (negated_eq_iff hy (by omega) h2), beq_congr (hback hy (by omega) h2)]
    apply signOf_swap
    simp only [Bool.and_eq_true, beq_iff_eq]
    omega
  · intro x1 x0 y1 y0 hx1 hx0 hy1 hy0
    obtain ⟨hb0, hb1, hb2, hb3⟩ := coordinates_b (hword hx1) (hword hx0) (hword hy1) (hword hy0)
    obtain ⟨hn0, hn1, hn2, hn3⟩ := coordinates_b (hword hx1) (hword hx0) (hn y1) (hn y0)
    unfold generatorCurve
    simp only
    rw [hb0, hb1, hb2, hb3, hn0, hn1, hn2, hn3, beq_congr (negated_eq_iff hy1 hpos1 hlt1),
      beq_congr (negated_eq_iff hy0 hpos0 hlt0), beq_congr (hback hy1 hpos1 hlt1), beq_congr (hback hy0 hpos0 hlt0)]
    apply signOf_swap
    simp only [Bool.and_eq_true, beq_iff_eq]
    omega

/-- `(-G, H, G)`. -/
def generatorProof : Proof :=
  ofPoints 1 (p - 2) generator_x1 generator_x0 generator_y1 generator_y0 (ofCoordinates 64 [1, 2])

theorem canonical_form_iff_for_generators : Canonicalises generatorCurve generatorProof :=
  (canonical_form_iff generatorCurve_negates generatorProof (by decide +kernel)).mpr (Or.inr (by decide +kernel))

/-- `B` at infinity gets `p` for its coordinates. -/
theorem infinity_leaves_the_field :
    BelowModulus (ofPoints 1 (p - 2) 0 0 0 0 (ofCoordinates 64 [1, 2])) ∧
      ¬Canonicalises generatorCurve (ofPoints 1 (p - 2) 0 0 0 0 (ofCoordinates 64 [1, 2])) := by
  have hsmall : (1 < p ∧ p - 2 < p) ∧ 0 < p := by decide +kernel
  obtain ⟨⟨h1, h2⟩, h0⟩ := hsmall
  refine ⟨by decide +kernel, ?_⟩
  intro h
  have hy := (canonicalises_of_gt generatorCurve_negates h1 h2 h0 h0 h0 h0 (by decide +kernel)
    (by decide +kernel)).mp h
  exact hy.1 rfl

end ZkVote.Groth16
