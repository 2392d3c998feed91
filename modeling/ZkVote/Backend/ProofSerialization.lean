import ZkVote.Groth16.Verifier

/-!
# The ZKV1 format in the backend

`backend/src/services/proofSerialization.ts`, with `hexToBytes` and `isAllZeros` of `stellar.ts`. What is thrown is
a panic with that error. The backend's enumeration of the curves has the members of the contract's.
-/

open Lib Lib.Outcome

namespace ZkVote.ProofSerialization

open Groth16 (G1_LEN G2_LEN SERIALIZED_PROOF_LEN serialize_proof deserialize_proof curve_id_to_byte)
open Voting (Proof CurveId)

inductive Thrown where
  | Error (message : String)
  | ProofFormatError (message : String)
  deriving DecidableEq, Repr

/-- The points in hex. -/
structure Groth16Proof where
  a : String
  b : String
  c : String
  deriving DecidableEq, Repr

def PROOF_FORMAT_VERSION : Nat := 1

/-- Without a leading `0x`. -/
def cleanHex (hex : String) : List Char :=
  match hex.toList with
  | '0' :: 'x' :: cs => cs
  | cs => cs

def isHexDigit (c : Char) : Bool := (hexValue c).isSome

/-- `Buffer.from(_, "hex")` stops at the first pair that is no byte. -/
def hexToBytes (hex : String) (expectedLength : Nat) : Outcome Thrown Bytes := do
  let cleanHex := cleanHex hex
  require (cleanHex.all isHexDigit = true) (.Error "Invalid hex string: contains non-hexadecimal characters")
  require (¬(cleanHex.length % 2 ≠ 0 ∧ cleanHex.length > 0))
    (.Error s!"Invalid hex string: odd length ({cleanHex.length})")
  require (cleanHex.length ≤ expectedLength * 2)
    (.Error s!"Hex string too long: {cleanHex.length} chars, max {expectedLength * 2}")
  let padded := List.replicate (expectedLength * 2 - cleanHex.length) '0' ++ cleanHex
  let bytes := readHex padded
  require (bytes.length = expectedLength) (.Error s!"Expected {expectedLength} bytes, got {bytes.length}")
  return bytes

def isAllZeros (bytes : Bytes) : Bool := bytes.all fun byte => byte == 0

def missingFields : Thrown := .ProofFormatError "Invalid proof: missing a, b, or c fields"

def pointAtInfinity : Thrown :=
  .ProofFormatError "Invalid proof: proof components cannot be point at infinity (all zeros)"

def serializeProof (proof : Groth16Proof) (curve : CurveId) : Outcome Thrown Bytes := do
  require (¬(proof.a = "" ∨ proof.b = "" ∨ proof.c = "")) missingFields
  let aBytes ← hexToBytes proof.a G1_LEN
  let bBytes ← hexToBytes proof.b G2_LEN
  let cBytes ← hexToBytes proof.c G1_LEN
  require (¬(isAllZeros aBytes = true ∨ isAllZeros bBytes = true ∨ isAllZeros cBytes = true)) pointAtInfinity
  return [UInt8.ofNat PROOF_FORMAT_VERSION] ++ [curve_id_to_byte curve] ++ aBytes ++ bBytes ++ cBytes

def subarray (bytes : Bytes) (start stop : Nat) : Bytes := (bytes.drop start).take (stop - start)

def deserializeProof (bytes : Bytes) : Outcome Thrown (Groth16Proof × CurveId) := do
  require (bytes.length = SERIALIZED_PROOF_LEN)
    (.ProofFormatError s!"Invalid proof length: expected {SERIALIZED_PROOF_LEN} bytes, got {bytes.length}")
  let version := (bytes.getD 0 0).toNat
  require (version = PROOF_FORMAT_VERSION)
    (.ProofFormatError s!"Unsupported proof format version: {version} (expected {PROOF_FORMAT_VERSION})")
  let curveByte := bytes.getD 1 0
  require (curveByte = curve_id_to_byte .Bn254 ∨ curveByte = curve_id_to_byte .Bls12381)
    (.ProofFormatError s!"Unknown curve id: {curveByte.toNat}")
  let curve := if curveByte = curve_id_to_byte .Bn254 then CurveId.Bn254 else CurveId.Bls12381
  let offset := 2
  let aBytes := subarray bytes offset (offset + G1_LEN)
  let offset := offset + G1_LEN
  let bBytes := subarray bytes offset (offset + G2_LEN)
  let offset := offset + G2_LEN
  let cBytes := subarray bytes offset (offset + G1_LEN)
  let proof : Groth16Proof :=
    { a := "0x" ++ toHex aBytes, b := "0x" ++ toHex bBytes, c := "0x" ++ toHex cBytes }
  return (proof, curve)

def deserializeProofFromHex (hex : String) : Outcome Thrown (Groth16Proof × CurveId) :=
  deserializeProof (readHex (cleanHex hex))

/-! ## Hex -/

/-- The digits of the bytes, each of any case. -/
def Digits : List Char → Bytes → Prop
  | [], [] => True
  | high :: low :: cs, b :: bs =>
    (∃ h l, hexValue high = some h ∧ hexValue low = some l ∧ b.toNat = 16 * h + l) ∧ Digits cs bs
  | _, _ => False

/-- With or without `0x`. -/
def Spells (hex : String) (bytes : Bytes) : Prop :=
  ∃ cs, Digits cs bytes ∧ (hex.toList = cs ∨ hex.toList = '0' :: 'x' :: cs)

theorem readHex_of_digits {cs : List Char} {bs : Bytes} (h : Digits cs bs) : readHex cs = bs := by
  induction cs, bs using Digits.induct with
  | case1 => rfl
  | case2 high low cs b bs ih =>
    obtain ⟨⟨hi, lo, hhigh, hlow, hvalue⟩, hrest⟩ := h
    unfold readHex
    rw [hhigh, hlow]
    simp only
    rw [← hvalue, ih hrest, UInt8.ofNat_toNat]
  | case3 cs bs h1 h2 => exact absurd h (by unfold Digits; simp)

theorem cleanHex_prefixed {hex : String} {cs : List Char} (h : hex.toList = '0' :: 'x' :: cs) : cleanHex hex = cs := by
  unfold cleanHex
  rw [h]
  rfl

theorem cleanHex_plain {hex : String} (h : ∀ cs, hex.toList ≠ '0' :: 'x' :: cs) : cleanHex hex = hex.toList := by
  unfold cleanHex
  split
  · next cs hcs => exact absurd hcs (h cs)
  · rfl

theorem cleanHex_of_spells {hex : String} {bytes : Bytes} (h : Spells hex bytes) : readHex (cleanHex hex) = bytes := by
  obtain ⟨cs, hdigits, hplain | hprefixed⟩ := h
  · rw [cleanHex_plain, hplain, readHex_of_digits hdigits]
    intro cs' hcs'
    rw [hplain] at hcs'
    subst hcs'
    cases bytes with
    | nil => exact hdigits
    | cons b bs =>
      obtain ⟨⟨h, l, -, hx, -⟩, -⟩ := hdigits
      simp [hexValue] at hx
  · rw [cleanHex_prefixed hprefixed, readHex_of_digits hdigits]

theorem all_hexChars (bs : Bytes) : (hexChars bs).all isHexDigit = true := by
  induction bs with
  | nil => rfl
  | cons b bs ih =>
    have hb : b.toNat < 256 := b.toNat_lt
    have hdigit : ∀ n, n < 16 → isHexDigit (hexDigit n) = true := by
      intro n hn
      unfold isHexDigit
      rw [hexValue_hexDigit hn]
      rfl
    unfold hexChars
    rw [List.all_cons, List.all_cons, hdigit _ (by omega), hdigit _ (by omega), ih]
    rfl

theorem length_hexChars (bs : Bytes) : (hexChars bs).length = 2 * bs.length := by
  induction bs with
  | nil => rfl
  | cons b bs ih =>
    unfold hexChars
    rw [List.length_cons, List.length_cons, ih, List.length_cons]
    omega

theorem cleanHex_toHex (bs : Bytes) : cleanHex ("0x" ++ toHex bs) = hexChars bs := by
  apply cleanHex_prefixed
  unfold toHex
  simp [String.toList_append]

theorem hexToBytes_toHex {n : Nat} (v : BytesN n) : hexToBytes ("0x" ++ toHex v.toList) n = .ok v.toList := by
  have hlength : (hexChars v.toList).length = n * 2 := by
    rw [length_hexChars, v.length_toList, Nat.mul_comm]
  unfold hexToBytes
  simp only [cleanHex_toHex, all_hexChars, hlength, Nat.sub_self, List.replicate_zero, List.nil_append,
    readHex_hexChars, bind_eq_ok, require_eq_ok, pure_eq_ok]
  simp

theorem exists_of_hexToBytes {hex : String} {n : Nat} {bytes : Bytes} (h : hexToBytes hex n = .ok bytes) :
    ∃ v : BytesN n, bytes = v.toList := by
  unfold hexToBytes at h
  simp only [bind_eq_ok, require_eq_ok, pure_eq_ok] at h
  obtain ⟨-, -, -, -, -, -, -, hlength, rfl⟩ := h
  exact ⟨_, (toList_padTo hlength).symm⟩

/-! ## Proofs -/

/-- The proof in small digits. -/
def spelling (proof : Proof) : Groth16Proof where
  a := "0x" ++ toHex proof.a.toList
  b := "0x" ++ toHex proof.b.toList
  c := "0x" ++ toHex proof.c.toList

/-- The components of the one in hex are those of the other. -/
def Reads (hexProof : Groth16Proof) (proof : Proof) : Prop :=
  hexToBytes hexProof.a G1_LEN = .ok proof.a.toList ∧ hexToBytes hexProof.b G2_LEN = .ok proof.b.toList ∧
    hexToBytes hexProof.c G1_LEN = .ok proof.c.toList

def hasZeros (proof : Proof) : Bool :=
  isAllZeros proof.a.toList || isAllZeros proof.b.toList || isAllZeros proof.c.toList

theorem reads_spelling (proof : Proof) : Reads (spelling proof) proof :=
  ⟨hexToBytes_toHex proof.a, hexToBytes_toHex proof.b, hexToBytes_toHex proof.c⟩

theorem readHex_zeros (n : Nat) : readHex (List.replicate (n * 2) '0') = List.replicate n 0 := by
  induction n with
  | zero => rfl
  | succ n ih =>
    rw [Nat.succ_mul, List.replicate_succ, List.replicate_succ, List.replicate_succ, ← ih]
    rfl

theorem isAllZeros_of_empty {n : Nat} {bytes : Bytes} (h : hexToBytes "" n = .ok bytes) :
    isAllZeros bytes = true := by
  have hclean : cleanHex "" = [] := rfl
  unfold hexToBytes at h
  simp only [bind_eq_ok, require_eq_ok, pure_eq_ok, hclean] at h
  obtain ⟨-, -, -, -, -, -, -, -, rfl⟩ := h
  simp [readHex_zeros, isAllZeros]

theorem hasZeros_eq_false {proof : Proof} :
    hasZeros proof = false ↔
      ¬(isAllZeros proof.a.toList = true ∨ isAllZeros proof.b.toList = true ∨ isAllZeros proof.c.toList = true) := by
  unfold hasZeros
  rw [← Bool.not_eq_true, Bool.or_eq_true, Bool.or_eq_true, or_assoc]

theorem serializeProof_eq_ok {hexProof : Groth16Proof} {curve : CurveId} {buffer : Bytes} :
    serializeProof hexProof curve = .ok buffer ↔
      ∃ proof, Reads hexProof proof ∧ hasZeros proof = false ∧ buffer = serialize_proof proof curve := by
  constructor
  · intro h
    unfold serializeProof at h
    simp only [bind_eq_ok, require_eq_ok, pure_eq_ok] at h
    obtain ⟨-, -, aBytes, ha, bBytes, hb, cBytes, hc, -, hzeros, rfl⟩ := h
    obtain ⟨a, rfl⟩ := exists_of_hexToBytes ha
    obtain ⟨b, rfl⟩ := exists_of_hexToBytes hb
    obtain ⟨c, rfl⟩ := exists_of_hexToBytes hc
    exact ⟨{ a, b, c }, ⟨ha, hb, hc⟩, hasZeros_eq_false.mpr hzeros, rfl⟩
  · rintro ⟨proof, ⟨ha, hb, hc⟩, hzeros, rfl⟩
    rw [hasZeros_eq_false] at hzeros
    have hfields : ¬(hexProof.a = "" ∨ hexProof.b = "" ∨ hexProof.c = "") := by
      rintro (hempty | hempty | hempty)
      · rw [hempty] at ha
        exact hzeros (Or.inl (isAllZeros_of_empty ha))
      · rw [hempty] at hb
        exact hzeros (Or.inr (Or.inl (isAllZeros_of_empty hb)))
      · rw [hempty] at hc
        exact hzeros (Or.inr (Or.inr (isAllZeros_of_empty hc)))
    unfold serializeProof
    simp only [bind_eq_ok, require_eq_ok, pure_eq_ok]
    exact ⟨(), hfields, _, ha, _, hb, _, hc, (), hzeros, rfl⟩

/-- A component that is all zero is refused. -/
theorem serializeProof_zeros {proof : Proof} (curve : CurveId) (h : hasZeros proof = true) :
    serializeProof (spelling proof) curve = fail pointAtInfinity := by
  obtain ⟨ha, hb, hc⟩ := reads_spelling proof
  have hzeros : ¬¬(isAllZeros proof.a.toList = true ∨ isAllZeros proof.b.toList = true ∨
      isAllZeros proof.c.toList = true) := by
    rw [← hasZeros_eq_false, h]
    simp
  have hfields : ¬((spelling proof).a = "" ∨ (spelling proof).b = "" ∨ (spelling proof).c = "") := by
    simp [spelling]
  unfold serializeProof
  rw [ha, hb, hc, require_of hfields]
  simp only [ok_bind]
  rw [require_of_not hzeros]
  rfl

theorem deserializeProof_parts (version curve_byte : UInt8) (a : BytesN 64) (b : BytesN 128) (c : BytesN 64)
    (p : Groth16Proof) (curve : CurveId) :
    deserializeProof (version :: curve_byte :: (a.toList ++ (b.toList ++ c.toList))) = .ok (p, curve) ↔
      version = Groth16.PROOF_FORMAT_VERSION ∧ curve_byte = curve_id_to_byte curve ∧ p = spelling { a, b, c } := by
  have hlength := Groth16.length_parts version curve_byte a b c
  obtain ⟨-, ha⟩ := slice_eq_some.mp (Groth16.slice_a version curve_byte a b c)
  obtain ⟨-, hb⟩ := slice_eq_some.mp (Groth16.slice_b version curve_byte a b c)
  obtain ⟨-, hc⟩ := slice_eq_some.mp (Groth16.slice_c version curve_byte a b c)
  unfold deserializeProof subarray G1_LEN G2_LEN
  simp only [Nat.reduceAdd, ha, hb, hc, require_of hlength, bind_eq_ok, require_eq_ok, pure_eq_ok,
    List.getD_cons_zero, List.getD_cons_succ, Prod.mk.injEq]
  constructor
  · rintro ⟨-, -, -, hversion, -, hcurve, rfl, rfl⟩
    refine ⟨UInt8.toNat_inj.mp hversion, ?_, rfl⟩
    rcases hcurve with rfl | rfl <;> rfl
  · rintro ⟨rfl, rfl, rfl⟩
    refine ⟨(), trivial, (), rfl, (), ?_, rfl, ?_⟩
    · cases curve <;> simp
    · cases curve <;> rfl

theorem deserializeProof_eq_ok {bytes : Bytes} {p : Groth16Proof} {curve : CurveId} :
    deserializeProof bytes = .ok (p, curve) ↔
      ∃ proof, bytes = serialize_proof proof curve ∧ p = spelling proof := by
  constructor
  · intro h
    have hlength : bytes.length = SERIALIZED_PROOF_LEN := by
      unfold deserializeProof at h
      simp only [bind_eq_ok, require_eq_ok] at h
      exact h.choose_spec.1
    obtain ⟨version, curve_byte, a, b, c, rfl⟩ := Groth16.exists_parts hlength
    obtain ⟨rfl, rfl, rfl⟩ := (deserializeProof_parts version curve_byte a b c p curve).mp h
    exact ⟨{ a, b, c }, by simp [serialize_proof], rfl⟩
  · rintro ⟨proof, rfl, rfl⟩
    have hparts : serialize_proof proof curve = Groth16.PROOF_FORMAT_VERSION :: curve_id_to_byte curve ::
        (proof.a.toList ++ (proof.b.toList ++ proof.c.toList)) := by
      simp [serialize_proof]
    rw [hparts, deserializeProof_parts]
    exact ⟨rfl, rfl, rfl⟩

/-- Both read the same strings, to the same components. -/
theorem deserialisers_agree (bytes : Bytes) :
    (deserializeProof bytes).toOption = (deserialize_proof bytes).toOption.map fun x => (spelling x.1, x.2) := by
  ext ⟨p, curve⟩
  simp only [toOption_eq_some, Option.map_eq_some_iff, Prod.exists, Prod.mk.injEq, deserializeProof_eq_ok,
    Groth16.deserialize_proof_eq_ok]
  constructor
  · rintro ⟨proof, rfl, rfl⟩
    exact ⟨proof, curve, rfl, rfl, rfl⟩
  · rintro ⟨proof, curve', rfl, rfl, rfl⟩
    exact ⟨proof, rfl, rfl⟩

theorem reads_unique {hexProof : Groth16Proof} {p q : Proof} (hp : Reads hexProof p) (hq : Reads hexProof q) :
    p = q := by
  obtain ⟨ha, hb, hc⟩ := hp
  obtain ⟨ha', hb', hc'⟩ := hq
  rw [ha, Except.ok.injEq, Vector.toList_inj] at ha'
  rw [hb, Except.ok.injEq, Vector.toList_inj] at hb'
  rw [hc, Except.ok.injEq, Vector.toList_inj] at hc'
  cases p
  cases q
  rw [Proof.mk.injEq]
  exact ⟨ha', hb', hc'⟩

/-- The format in the contract and in the backend, which does not write a component that is all zero. -/
theorem zkv1_format :
    (∀ proof curve, deserialize_proof (serialize_proof proof curve) = .ok (proof, curve)) ∧
    (∀ bytes proof curve, deserialize_proof bytes = .ok (proof, curve) → serialize_proof proof curve = bytes) ∧
    (∀ hexProof curve buffer, serializeProof hexProof curve = .ok buffer →
      ∃ proof, Reads hexProof proof ∧ deserializeProof buffer = .ok (spelling proof, curve)) ∧
    (∀ proof curve, hasZeros proof = false →
      ∃ buffer, serializeProof (spelling proof) curve = .ok buffer ∧
        deserializeProof buffer = .ok (spelling proof, curve)) ∧
    (∀ hexProof proof curve, Reads hexProof proof →
      ((∃ buffer, serializeProof hexProof curve = .ok buffer) ↔ hasZeros proof = false)) ∧
    (∀ bytes hexProof curve, deserializeProof bytes = .ok (hexProof, curve) →
      ∃ proof, hexProof = spelling proof ∧
        serializeProof hexProof curve = if hasZeros proof then fail pointAtInfinity else .ok bytes) ∧
    (∀ bytes, (deserializeProof bytes).toOption =
      (deserialize_proof bytes).toOption.map fun x => (spelling x.1, x.2)) ∧
    (∀ hex bytes, Spells hex bytes → deserializeProofFromHex hex = deserializeProof bytes) := by
  refine ⟨?_, ?_, ?_, ?_, ?_, ?_, deserialisers_agree, ?_⟩
  · intro proof curve
    exact Groth16.deserialize_proof_eq_ok.mpr rfl
  · intro bytes proof curve h
    exact (Groth16.deserialize_proof_eq_ok.mp h).symm
  · intro hexProof curve buffer h
    obtain ⟨proof, hreads, -, hbuffer⟩ := serializeProof_eq_ok.mp h
    exact ⟨proof, hreads, deserializeProof_eq_ok.mpr ⟨proof, hbuffer, rfl⟩⟩
  · intro proof curve hzeros
    exact ⟨_, serializeProof_eq_ok.mpr ⟨proof, reads_spelling proof, hzeros, rfl⟩,
      deserializeProof_eq_ok.mpr ⟨proof, rfl, rfl⟩⟩
  · intro hexProof proof curve hreads
    constructor
    · rintro ⟨buffer, h⟩
      obtain ⟨proof', hreads', hzeros, -⟩ := serializeProof_eq_ok.mp h
      rwa [reads_unique hreads hreads']
    · intro hzeros
      exact ⟨_, serializeProof_eq_ok.mpr ⟨proof, hreads, hzeros, rfl⟩⟩
  · intro bytes hexProof curve h
    obtain ⟨proof, rfl, rfl⟩ := deserializeProof_eq_ok.mp h
    refine ⟨proof, rfl, ?_⟩
    split
    · next hzeros => exact serializeProof_zeros curve hzeros
    · next hzeros =>
      exact serializeProof_eq_ok.mpr ⟨proof, reads_spelling proof, by simpa using hzeros, rfl⟩
  · intro hex bytes h
    unfold deserializeProofFromHex
    rw [cleanHex_of_spells h]

/-- The zero components that `deserializeProof` takes and `serializeProof` refuses. -/
theorem infinity_is_read_and_not_written :
    deserializeProof ([1, 0] ++ List.replicate 256 0) =
        .ok (spelling { a := padTo 64 [], b := padTo 128 [], c := padTo 64 [] }, .Bn254) ∧
      serializeProof (spelling { a := padTo 64 [], b := padTo 128 [], c := padTo 64 [] }) .Bn254 =
        fail pointAtInfinity := by
  constructor
  · exact deserializeProof_eq_ok.mpr ⟨_, by decide +kernel, rfl⟩
  · exact serializeProof_zeros .Bn254 (by decide +kernel)

end ZkVote.ProofSerialization
