import Mathlib.Algebra.Module.LinearMap.Basic
import Mathlib.LinearAlgebra.BilinearMap
import ZkVote.Lib.Bytes
import ZkVote.Lib.Reading
import ZkVote.Prover.Field
import ZkVote.Voting.State

/-!
# Verifying a proof

`contracts/zkvote-groth16/src/lib.rs`, on BN254. The groups of the curve are modules over the scalar field, and
the pairing of the host is bilinear. `none` is a panic.
-/

open Lib

namespace ZkVote.Groth16

open Prover (Fr)
open Voting (VerificationKey Proof BN254_FR_MODULUS)

def GROTH16_PAIRING_TERMS : Nat := 4

/-- `Groth16Curve`. -/
structure Groth16Curve (G1 G2 GT : Type) [AddCommGroup G1] [Module Fr G1] [AddCommGroup G2] [Module Fr G2]
    [AddCommGroup GT] [Module Fr GT] where
  g1_from_bytes : BytesN 64 → G1
  g2_from_bytes : BytesN 128 → G2
  pairing : G1 →ₗ[Fr] G2 →ₗ[Fr] GT

/-- The construction reduces. -/
def fr_from_u256 (value : U256) : Fr := value

def is_in_field (value : U256) : Bool := value < BN254_FR_MODULUS

def constant_time_eq (a b : Bytes) : Bool :=
  (a.zip b).foldl (fun result xy => result ||| (xy.1 ^^^ xy.2)) 0 == 0

def is_identity_bn254_g1 (bytes : BytesN 64) : Bool := constant_time_eq bytes.toList (List.replicate 64 0)

def is_identity_bn254_g2 (bytes : BytesN 128) : Bool := constant_time_eq bytes.toList (List.replicate 128 0)

/-- A component of the proof is the point at infinity. -/
def has_identity (proof : Proof) : Bool :=
  is_identity_bn254_g1 proof.a || is_identity_bn254_g2 proof.b || is_identity_bn254_g1 proof.c

section

variable {G1 G2 GT : Type} [AddCommGroup G1] [Module Fr G1] [AddCommGroup G2] [Module Fr G2] [AddCommGroup GT]
  [Module Fr GT]

namespace Groth16Curve

/-- The product of the pairings. -/
def product (curve : Groth16Curve G1 G2 GT) (g1 : List G1) (g2 : List G2) : GT :=
  (List.zipWith (fun x y => curve.pairing x y) g1 g2).sum

def pairing_check [DecidableEq GT] (curve : Groth16Curve G1 G2 GT) (g1 : List G1) (g2 : List G2) : Bool :=
  if g1.length ≠ GROTH16_PAIRING_TERMS ∨ g2.length ≠ GROTH16_PAIRING_TERMS ∨ g1.length ≠ g2.length then false
  else decide (curve.product g1 g2 = 0)

end Groth16Curve

def compute_vk_x (curve : Groth16Curve G1 G2 GT) (vk : VerificationKey) (pub_signals : List U256) : Option G1 := do
  let ic0 ← vk.ic[0]?
  (List.range pub_signals.length).foldlM (fun vk_x i => do
    let signal ← pub_signals[i]?
    let ic_point_bytes ← vk.ic[i + 1]?
    return vk_x + fr_from_u256 signal • curve.g1_from_bytes ic_point_bytes) (curve.g1_from_bytes ic0)

/-- `verify_groth16_impl`, in a build without the stub. -/
def verify_groth16 [DecidableEq GT] (curve : Groth16Curve G1 G2 GT) (vk : VerificationKey) (proof : Proof)
    (pub_signals : List U256) : Option Bool :=
  if pub_signals.length + 1 ≠ vk.ic.length then return false
  else if has_identity proof then return false
  else do
    let vk_x ← compute_vk_x curve vk pub_signals
    let neg_a := -curve.g1_from_bytes proof.a
    let g1_vec := [neg_a, curve.g1_from_bytes vk.alpha, vk_x, curve.g1_from_bytes proof.c]
    let g2_vec := [curve.g2_from_bytes proof.b, curve.g2_from_bytes vk.beta, curve.g2_from_bytes vk.gamma,
      curve.g2_from_bytes vk.delta]
    return curve.pairing_check g1_vec g2_vec

/-! ## The equation of one proof -/

/-- `IC[0]` and the signals' multiples of the points after it. -/
def vk_x (curve : Groth16Curve G1 G2 GT) (vk : VerificationKey) (pub_signals : List U256) : G1 :=
  (vk.ic.map curve.g1_from_bytes).headD 0 +
    (List.zipWith (fun signal point => fr_from_u256 signal • curve.g1_from_bytes point) pub_signals vk.ic.tail).sum

/-- The left side of the pairing equation, in which a proof that is right gives the identity. -/
def equation (curve : Groth16Curve G1 G2 GT) (vk : VerificationKey) (proof : Proof) (pub_signals : List U256) : GT :=
  curve.pairing (-curve.g1_from_bytes proof.a) (curve.g2_from_bytes proof.b) +
    curve.pairing (curve.g1_from_bytes vk.alpha) (curve.g2_from_bytes vk.beta) +
    curve.pairing (vk_x curve vk pub_signals) (curve.g2_from_bytes vk.gamma) +
    curve.pairing (curve.g1_from_bytes proof.c) (curve.g2_from_bytes vk.delta)

/-- A loop over indices that adds up what a list and the points hold there. -/
theorem foldlM_add_points {M : Type} [AddCommMonoid M] (term : U256 → BytesN 64 → M) (signals : List U256)
    (points : List (BytesN 64)) (hlength : signals.length = points.length) (start : M) :
    (List.range signals.length).foldlM (fun acc i => do
      let signal ← signals[i]?
      let point ← points[i]?
      return acc + term signal point) start =
      some (start + (List.zipWith term signals points).sum) := by
  induction signals generalizing points start with
  | nil => simp
  | cons signal signals ih =>
    cases points with
    | nil => simp at hlength
    | cons point points =>
      have htail := ih points (by simpa using hlength) (start + term signal point)
      rw [List.length_cons, List.range_succ_eq_map, List.foldlM_cons]
      simp only [List.foldlM_map, List.getElem?_cons_zero, Nat.succ_eq_add_one, List.getElem?_cons_succ,
        Option.bind_eq_bind, Option.bind_some, Option.pure_def] at htail ⊢
      rw [htail, List.zipWith_cons_cons, List.sum_cons, add_assoc]

theorem compute_vk_x_spec (curve : Groth16Curve G1 G2 GT) {vk : VerificationKey} {pub_signals : List U256}
    (hlength : pub_signals.length + 1 = vk.ic.length) :
    compute_vk_x curve vk pub_signals = some (vk_x curve vk pub_signals) := by
  unfold compute_vk_x vk_x
  cases hic : vk.ic with
  | nil => simp [hic] at hlength
  | cons point points =>
    have hpoints : pub_signals.length = points.length := by simpa [hic] using hlength
    exact foldlM_add_points (fun signal point => fr_from_u256 signal • curve.g1_from_bytes point) pub_signals points
      hpoints (curve.g1_from_bytes point)

theorem verify_groth16_spec [DecidableEq GT] (curve : Groth16Curve G1 G2 GT) {vk : VerificationKey} (proof : Proof)
    {pub_signals : List U256} (hlength : pub_signals.length + 1 = vk.ic.length) :
    verify_groth16 curve vk proof pub_signals =
      some (!has_identity proof && decide (equation curve vk proof pub_signals = 0)) := by
  unfold verify_groth16
  rw [if_neg (not_not.mpr hlength), compute_vk_x_spec curve hlength]
  cases has_identity proof with
  | true => rfl
  | false =>
    simp [Groth16Curve.pairing_check, Groth16Curve.product, GROTH16_PAIRING_TERMS, equation, add_assoc]

end

end ZkVote.Groth16

/-!
## The ZKV1 format

`contracts/zkvote-groth16/src/serialization.rs`. An `Err` of the source is a panic with that code here.
-/

open Lib Lib.Outcome

namespace ZkVote.Groth16

open Voting (Proof CurveId)

inductive Groth16Error where
  | IcLengthMismatch | SignalNotInField | InvalidNullifier | InvalidProofFormat
  | InvalidInput | EligibilityFailed | ProofInvalid | AlreadySubmitted | WindowClosed | InsufficientFunds | ConfigError
  deriving DecidableEq, Repr

def PROOF_FORMAT_VERSION : UInt8 := 1
def G1_LEN : Nat := 64
def G2_LEN : Nat := 128
def SERIALIZED_PROOF_LEN : Nat := 1 + 1 + G1_LEN + G2_LEN + G1_LEN

def curve_id_to_byte : CurveId → UInt8
  | .Bn254 => 0
  | .Bls12381 => 1

def curve_id_from_byte (byte : UInt8) : Outcome Groth16Error CurveId :=
  if byte = 0 then .ok .Bn254
  else if byte = 1 then .ok .Bls12381
  else fail .InvalidProofFormat

def serialize_proof (proof : Proof) (curve : CurveId) : Bytes :=
  [PROOF_FORMAT_VERSION] ++ [curve_id_to_byte curve] ++ proof.a.toList ++ proof.b.toList ++ proof.c.toList

def deserialize_proof (bytes : Bytes) : Outcome Groth16Error (Proof × CurveId) := do
  require (bytes.length = SERIALIZED_PROOF_LEN) .InvalidProofFormat
  let version ← orPanic bytes[0]? .InvalidProofFormat
  require (version = PROOF_FORMAT_VERSION) .InvalidProofFormat
  let curve_byte ← orPanic bytes[1]? .InvalidProofFormat
  let curve ← curve_id_from_byte curve_byte
  let a_start := 2
  let b_start := a_start + G1_LEN
  let c_start := b_start + G2_LEN
  let stop := c_start + G1_LEN
  let a_bytes ← expect (slice bytes a_start b_start)
  let b_bytes ← expect (slice bytes b_start c_start)
  let c_bytes ← expect (slice bytes c_start stop)
  let a ← orPanic (toBytesN 64 a_bytes) .InvalidProofFormat
  let b ← orPanic (toBytesN 128 b_bytes) .InvalidProofFormat
  let c ← orPanic (toBytesN 64 c_bytes) .InvalidProofFormat
  return ({ a, b, c }, curve)

/-! ### Both ways -/

@[simp] theorem curve_id_from_byte_eq_ok {byte : UInt8} {curve : CurveId} :
    curve_id_from_byte byte = .ok curve ↔ byte = curve_id_to_byte curve := by
  unfold curve_id_from_byte curve_id_to_byte
  cases curve <;> grind [fail]

/-- A string of the right length is two tags and three parts. -/
theorem exists_parts {bytes : Bytes} (hlength : bytes.length = SERIALIZED_PROOF_LEN) :
    ∃ (version curve_byte : UInt8) (a : BytesN 64) (b : BytesN 128) (c : BytesN 64),
      bytes = version :: curve_byte :: (a.toList ++ (b.toList ++ c.toList)) := by
  unfold SERIALIZED_PROOF_LEN G1_LEN G2_LEN at hlength
  match bytes, hlength with
  | version :: curve_byte :: rest, hlength =>
    have hrest : rest.length = 256 := by simpa using hlength
    have ha : (rest.take 64).length = 64 := by simp [hrest]
    have hb : ((rest.drop 64).take 128).length = 128 := by simp [hrest]
    have hc : ((rest.drop 64).drop 128).length = 64 := by simp [hrest]
    refine ⟨version, curve_byte, padTo 64 (rest.take 64), padTo 128 ((rest.drop 64).take 128),
      padTo 64 ((rest.drop 64).drop 128), ?_⟩
    rw [toList_padTo ha, toList_padTo hb, toList_padTo hc, List.take_append_drop, List.take_append_drop]

theorem length_parts (version curve_byte : UInt8) (a : BytesN 64) (b : BytesN 128) (c : BytesN 64) :
    (version :: curve_byte :: (a.toList ++ (b.toList ++ c.toList))).length = SERIALIZED_PROOF_LEN := by
  simp [SERIALIZED_PROOF_LEN, G1_LEN, G2_LEN]

theorem slice_a (version curve_byte : UInt8) (a : BytesN 64) (b : BytesN 128) (c : BytesN 64) :
    slice (version :: curve_byte :: (a.toList ++ (b.toList ++ c.toList))) 2 66 = some a.toList :=
  slice_append [version, curve_byte] _ rfl rfl (by simp)

theorem slice_b (version curve_byte : UInt8) (a : BytesN 64) (b : BytesN 128) (c : BytesN 64) :
    slice (version :: curve_byte :: (a.toList ++ (b.toList ++ c.toList))) 66 194 = some b.toList :=
  slice_append ([version, curve_byte] ++ a.toList) c.toList (by simp) (by simp) (by simp)

theorem slice_c (version curve_byte : UInt8) (a : BytesN 64) (b : BytesN 128) (c : BytesN 64) :
    slice (version :: curve_byte :: (a.toList ++ (b.toList ++ c.toList))) 194 258 = some c.toList :=
  slice_append ([version, curve_byte] ++ a.toList ++ b.toList) [] (by simp) (by simp) (by simp)

theorem deserialize_parts (version curve_byte : UInt8) (a : BytesN 64) (b : BytesN 128) (c : BytesN 64) :
    deserialize_proof (version :: curve_byte :: (a.toList ++ (b.toList ++ c.toList))) = (do
      require (version = PROOF_FORMAT_VERSION) .InvalidProofFormat
      let curve ← curve_id_from_byte curve_byte
      return ({ a, b, c }, curve)) := by
  have hlength := length_parts version curve_byte a b c
  have ha := slice_a version curve_byte a b c
  have hb := slice_b version curve_byte a b c
  have hc := slice_c version curve_byte a b c
  unfold deserialize_proof G1_LEN G2_LEN
  rw [require, if_pos hlength]
  simp only [ha, hb, hc, expect, toBytesN_toList, orPanic, ok_bind, List.getElem?_cons_zero, List.getElem?_cons_succ]

theorem deserialize_proof_eq_ok {bytes : Bytes} {proof : Proof} {curve : CurveId} :
    deserialize_proof bytes = .ok (proof, curve) ↔ bytes = serialize_proof proof curve := by
  constructor
  · intro h
    have hlength : bytes.length = SERIALIZED_PROOF_LEN := by
      unfold deserialize_proof at h
      simp only [bind_eq_ok, require_eq_ok] at h
      exact h.choose_spec.1
    obtain ⟨version, curve_byte, a, b, c, rfl⟩ := exists_parts hlength
    rw [deserialize_parts] at h
    simp only [bind_eq_ok, require_eq_ok, curve_id_from_byte_eq_ok, pure_eq_ok, Prod.mk.injEq] at h
    obtain ⟨-, rfl, curve', rfl, rfl, rfl⟩ := h
    simp [serialize_proof]
  · rintro rfl
    have hparts : serialize_proof proof curve =
        PROOF_FORMAT_VERSION :: curve_id_to_byte curve :: (proof.a.toList ++ (proof.b.toList ++ proof.c.toList)) := by
      simp [serialize_proof]
    rw [hparts, deserialize_parts]
    simp

end ZkVote.Groth16
