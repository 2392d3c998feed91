import ZkVote.Lib.Euclid
import ZkVote.Lib.Primes

/-!
# Blind signatures

`services/blindSignature.ts`: the arithmetic of RSA blind signatures. `%` and `/` of a bigint round
towards zero, and throw where the divisor is zero.
-/

open Lib

namespace ZkVote.BlindSignature

/-- `((a % m) + m) % m`. -/
def residue (a m : Int) : Int := (a.tmod m + m).tmod m

def divisionByZero : String := "Division by zero"

/-! ## Powers and inverses -/

/-- The loop over the bits of the exponent. -/
def modPowLoop (modulus : Int) : Nat → Int → Int → Int → Int
  | 0, result, _, _ => result
  | fuel + 1, result, b, e =>
    if 0 < e then
      modPowLoop modulus fuel (if e % 2 = 1 then (result * b).tmod modulus else result) ((b * b).tmod modulus) (e / 2)
    else result

def modPow (base exp modulus : Int) : Except String Int :=
  if modulus = 1 then .ok 0
  else if modulus = 0 then .error divisionByZero
  else .ok (modPowLoop modulus exp.toNat 1 (residue base modulus) exp)

/-- The last divisor and its two multipliers. -/
def egcd : Nat → Int → Int → Int × Int × Int
  | 0, a, _ => (a, 1, 0)
  | fuel + 1, a, b =>
    if b = 0 then (a, 1, 0)
    else
      let (g, x, y) := egcd fuel b (a.tmod b)
      (g, y, x - a.tdiv b * y)

def notCoprimeError : String := "modular inverse does not exist (not coprime)"

def modInverse (a m : Int) : Except String Int :=
  if m = 0 then .error divisionByZero
  else
    let (g, x, _) := egcd (m.natAbs + 1) (residue a m) m
    if g ≠ 1 then .error notCoprimeError else .ok (residue x m)

def gcdLoop : Nat → Int → Int → Int
  | 0, a, _ => a
  | fuel + 1, a, b => if b = 0 then a else gcdLoop fuel b (a.tmod b)

def gcd (a b : Int) : Int := gcdLoop (b.natAbs + 1) a b

/-! ## Keys and signatures -/

structure RsaBlindPublicKey where
  n : Int
  e : Int

structure RsaBlindKeyPair extends RsaBlindPublicKey where
  d : Int

structure BlindedRequest where
  blinded : Int
  r : Int

def messageRangeError : String := "message must satisfy 0 <= message < n"

def blindedRangeError : String := "blinded value out of range"

/-- The message under the blinding factor `r`. -/
def blindWith (message r : Int) (pub : RsaBlindPublicKey) : Except String Int :=
  if message < 0 ∨ pub.n ≤ message then .error messageRangeError
  else do
    let rPowE ← modPow r pub.e pub.n
    return (message * rPowE).tmod pub.n

/-- The first of the numbers drawn below `n` that is coprime to it is the blinding factor; nothing where the
draws run out. -/
def blind (message : Int) (pub : RsaBlindPublicKey) (draws : List Int) : Except String (Option BlindedRequest) :=
  if message < 0 ∨ pub.n ≤ message then .error messageRangeError
  else
    match draws.find? fun r => gcd r pub.n = 1 with
    | none => .ok none
    | some r => do
      let blinded ← blindWith message r pub
      return some ⟨blinded, r⟩

def signBlinded (blinded : Int) (key : RsaBlindKeyPair) : Except String Int :=
  if blinded < 0 ∨ key.n ≤ blinded then .error blindedRangeError else modPow blinded key.d key.n

def unblind (blindSig r : Int) (pub : RsaBlindPublicKey) : Except String Int := do
  let rInv ← modInverse r pub.n
  return (blindSig * rInv).tmod pub.n

def verify (message signature : Int) (pub : RsaBlindPublicKey) : Except String Bool :=
  if signature < 0 ∨ pub.n ≤ signature then .ok false
  else do
    let power ← modPow signature pub.e pub.n
    return power = residue message pub.n

/-! ## What the arithmetic computes -/

section
variable {m a b x r result base : Int} {fuel k : Nat}

theorem residue_eq (hm : 0 < m) : residue a m = a % m := tmod_add_tmod a hm

theorem modPowLoop_eq (hm : 0 < m) (hresult : 0 ≤ result) (hb : 0 ≤ b) (hfuel : k < 2 ^ fuel) :
    modPowLoop m fuel result b k % m = result * b ^ k % m ∧ 0 ≤ modPowLoop m fuel result b k ∧
      (result < m → modPowLoop m fuel result b k < m) := by
  induction fuel generalizing result b k with
  | zero =>
    have hk : k = 0 := by omega
    subst hk
    simp [modPowLoop, hresult]
  | succ fuel ih =>
    unfold modPowLoop
    split
    · next hpos =>
      have hsquare : 0 ≤ (b * b).tmod m := Int.tmod_nonneg m (mul_nonneg hb hb)
      have hhalf : ((k : Int) / 2) = ((k / 2 : Nat) : Int) := by simp
      have hpower : b ^ k = (b * b) ^ (k / 2) * b ^ (k % 2) := by
        rw [← pow_two, ← pow_mul, ← pow_add, Nat.div_add_mod]
      have hsmall : k / 2 < 2 ^ fuel := by
        rw [pow_succ] at hfuel
        omega
      rw [hhalf, Int.tmod_eq_emod_of_nonneg (mul_nonneg hb hb)]
      rw [Int.tmod_eq_emod_of_nonneg (mul_nonneg hb hb)] at hsquare
      split
      · next hodd =>
        have hproduct := mul_nonneg hresult hb
        rw [Int.tmod_eq_emod_of_nonneg hproduct]
        obtain ⟨hvalue, hnonneg, hlt⟩ := ih (Int.emod_nonneg (result * b) hm.ne') hsquare hsmall
        refine ⟨?_, hnonneg, fun _ => hlt (Int.emod_lt_of_pos _ hm)⟩
        rw [hvalue, hpower, show k % 2 = 1 by omega, pow_one]
        apply Int.ModEq.trans ((Int.mod_modEq (result * b) m).mul ((Int.mod_modEq (b * b) m).pow _))
        ring_nf
        rfl
      · next heven =>
        obtain ⟨hvalue, hnonneg, hlt⟩ := ih hresult hsquare hsmall
        refine ⟨?_, hnonneg, hlt⟩
        rw [hvalue, hpower, show k % 2 = 0 by omega, pow_zero, mul_one]
        exact (Int.ModEq.refl result).mul ((Int.mod_modEq (b * b) m).pow _)
    · next hzero =>
      have hk : k = 0 := by omega
      subst hk
      simp [hresult]

theorem modPow_eq (hm : 0 < m) (k : Nat) : modPow base k m = .ok (base ^ k % m) := by
  unfold modPow
  split
  · next hone =>
    rw [hone, Int.emod_one]
  · next hne =>
    have hone : (1 : Int) < m := by omega
    rw [if_neg hm.ne', residue_eq hm, Int.toNat_natCast]
    have hfuel : k < 2 ^ k := Nat.lt_two_pow_self
    obtain ⟨hvalue, hnonneg, hlt⟩ := modPowLoop_eq hm zero_le_one (Int.emod_nonneg base hm.ne') hfuel
    rw [one_mul] at hvalue
    rw [← Int.emod_eq_of_lt hnonneg (hlt hone), hvalue]
    exact congrArg Except.ok ((Int.mod_modEq base m).pow k)

/-- Bézout's identity, by the recursion. -/
theorem egcd_spec (ha : 0 ≤ a) (hb : 0 ≤ b) (hfuel : b < fuel) :
    (egcd fuel a b).1 = Int.gcd a b ∧ a * (egcd fuel a b).2.1 + b * (egcd fuel a b).2.2 = (egcd fuel a b).1 := by
  induction fuel generalizing a b with
  | zero => omega
  | succ fuel ih =>
    unfold egcd
    split
    · next hzero =>
      subst hzero
      simp [abs_of_nonneg ha]
    · next hne =>
      have hpos : 0 < b := by omega
      rw [Int.tmod_eq_emod_of_nonneg ha, Int.tdiv_eq_ediv_of_nonneg ha]
      have hlt := Int.emod_lt_of_pos a hpos
      obtain ⟨hgcd, hbezout⟩ := ih hb (Int.emod_nonneg a hne) (by omega)
      refine ⟨?_, ?_⟩
      · dsimp only
        rw [hgcd, Int.gcd_comm b, Int.gcd_emod]
      · dsimp only
        rw [← hbezout, Int.emod_def]
        ring

theorem gcdLoop_eq (ha : 0 ≤ a) (hb : 0 ≤ b) (hfuel : b < fuel) : gcdLoop fuel a b = Int.gcd a b := by
  induction fuel generalizing a b with
  | zero => omega
  | succ fuel ih =>
    unfold gcdLoop
    split
    · next hzero =>
      subst hzero
      simp [abs_of_nonneg ha]
    · next hne =>
      have hlt := Int.emod_lt_of_pos a (show 0 < b by omega)
      rw [Int.tmod_eq_emod_of_nonneg ha, ih hb (Int.emod_nonneg a hne) (by omega), Int.gcd_comm b, Int.gcd_emod]

theorem gcd_eq (ha : 0 ≤ a) (hb : 0 ≤ b) : gcd a b = Int.gcd a b := gcdLoop_eq ha hb (by omega)

/-- The inverse of a number that has one. -/
theorem modInverse_spec (hm : 0 < m) (hcoprime : Int.gcd r m = 1) :
    ∃ inverse, modInverse r m = .ok inverse ∧ 0 ≤ inverse ∧ r * inverse ≡ 1 [ZMOD m] := by
  unfold modInverse
  rw [if_neg hm.ne', residue_eq hm]
  have hrest : Int.gcd (r % m) m = 1 := by rw [Int.gcd_emod, hcoprime]
  have hfuel : m < (m.natAbs + 1 : Nat) := by omega
  obtain ⟨hgcd, hbezout⟩ := egcd_spec (Int.emod_nonneg r hm.ne') hm.le hfuel
  rw [hrest, Nat.cast_one] at hgcd
  rw [hgcd] at hbezout
  dsimp only
  rw [if_neg (not_not.mpr hgcd), residue_eq hm]
  refine ⟨_, rfl, Int.emod_nonneg _ hm.ne', ?_⟩
  have hone : r * (egcd (m.natAbs + 1) (r % m) m).2.1 ≡ 1 [ZMOD m] := by
    apply ((Int.mod_modEq r m).symm.mul_right _).trans
    conv_rhs => rw [← hbezout]
    exact Int.modEq_add_fac_self.symm
  exact ((Int.ModEq.refl r).mul (Int.mod_modEq _ m)).trans hone

end

/-! ## Blinding -/

/-- The key of two primes and two exponents. -/
def rsaKey (p q e d : Nat) : RsaBlindKeyPair where
  n := (p * q : Nat)
  e := e
  d := d

section
variable {p q e d : Nat} {message r signature : Int}

theorem modulus_pos (hp : p.Prime) (hq : q.Prime) : (0 : Int) < (p * q : Nat) := by
  exact_mod_cast Nat.mul_pos hp.pos hq.pos

theorem blindWith_eq (hn : (0 : Int) < (p * q : Nat)) (hlow : 0 ≤ message) (hlt : message < (p * q : Nat)) :
    blindWith message r (rsaKey p q e d).toRsaBlindPublicKey = .ok (message * r ^ e % (p * q : Nat)) := by
  have hpower : (r ^ e % (p * q : Nat) : Int) ≥ 0 := Int.emod_nonneg _ hn.ne'
  unfold blindWith
  simp only [rsaKey, modPow_eq hn]
  rw [if_neg (not_or.mpr ⟨not_lt.mpr hlow, not_le.mpr hlt⟩)]
  change Except.ok _ = Except.ok _
  rw [Int.tmod_eq_emod_of_nonneg (mul_nonneg hlow hpower), Int.mul_emod, Int.emod_emod, ← Int.mul_emod]

theorem blind_spec {draws : List Int} {request : BlindedRequest} (hn : (0 : Int) < (p * q : Nat))
    (hdraws : ∀ r ∈ draws, 0 ≤ r)
    (h : blind message (rsaKey p q e d).toRsaBlindPublicKey draws = .ok (some request)) :
    0 ≤ message ∧ message < (p * q : Nat) ∧ Int.gcd request.r (p * q : Nat) = 1 ∧
      request.blinded = message * request.r ^ e % (p * q : Nat) := by
  unfold blind at h
  split at h
  · cases h
  · next hrange =>
    rw [not_or, not_lt, not_le] at hrange
    split at h
    · cases h
    · next r hfind =>
      have hcoprime : gcd r (p * q : Nat) = 1 :=
        of_decide_eq_true (List.find?_some (p := fun r => decide (gcd r (rsaKey p q e d).n = 1)) hfind)
      rw [gcd_eq (hdraws r (List.mem_of_find?_eq_some hfind)) hn.le] at hcoprime
      rw [blindWith_eq hn hrange.1 hrange.2] at h
      cases h
      exact ⟨hrange.1, hrange.2, by exact_mod_cast hcoprime, rfl⟩

theorem signBlinded_eq (hn : (0 : Int) < (p * q : Nat)) (b : Int) :
    signBlinded (b % (p * q : Nat)) (rsaKey p q e d) = .ok (b ^ d % (p * q : Nat)) := by
  have hlow := Int.emod_nonneg b hn.ne'
  have hlt := Int.emod_lt_of_pos b hn
  unfold signBlinded
  simp only [rsaKey, modPow_eq hn]
  rw [if_neg (not_or.mpr ⟨not_lt.mpr hlow, not_le.mpr hlt⟩)]
  exact congrArg Except.ok ((Int.mod_modEq b _).pow d)

theorem unblind_eq (hp : p.Prime) (hq : q.Prime) (hne : p ≠ q) (hed : e * d ≡ 1 [MOD (p - 1).lcm (q - 1)])
    (hr : Int.gcd r (p * q : Nat) = 1) :
    unblind ((message * r ^ e) ^ d % (p * q : Nat)) r (rsaKey p q e d).toRsaBlindPublicKey =
      .ok (message ^ d % (p * q : Nat)) := by
  have hn := modulus_pos hp hq
  obtain ⟨inverse, hinverse, hnonneg, hone⟩ := modInverse_spec hn hr
  unfold unblind
  simp only [rsaKey, hinverse]
  change Except.ok _ = Except.ok _
  rw [Int.tmod_eq_emod_of_nonneg (mul_nonneg (Int.emod_nonneg _ hn.ne') hnonneg)]
  congr 1
  change _ ≡ _ [ZMOD _]
  rw [← ZMod.intCast_eq_intCast_iff] at hone ⊢
  simp only [Int.cast_mul, Int.cast_pow, Int.cast_one, ZMod.intCast_mod] at hone ⊢
  rw [mul_pow, ← pow_mul, Rsa.pow_eq_self hp hq hne hed, mul_assoc, hone, mul_one]

theorem verify_eq (hp : p.Prime) (hq : q.Prime) (hne : p ≠ q) (hed : e * d ≡ 1 [MOD (p - 1).lcm (q - 1)]) :
    verify message (message ^ d % (p * q : Nat)) (rsaKey p q e d).toRsaBlindPublicKey = .ok true := by
  have hn := modulus_pos hp hq
  have hlow := Int.emod_nonneg (message ^ d) hn.ne'
  have hlt := Int.emod_lt_of_pos (message ^ d) hn
  have hpower : (message ^ d % (p * q : Nat)) ^ e % (p * q : Nat) = message % (p * q : Nat) := by
    change _ ≡ _ [ZMOD _]
    rw [← ZMod.intCast_eq_intCast_iff]
    simp only [Int.cast_pow, ZMod.intCast_mod]
    rw [← pow_mul, mul_comm d e, Rsa.pow_eq_self hp hq hne hed]
  unfold verify
  simp only [rsaKey, modPow_eq hn, residue_eq hn]
  rw [if_neg (not_or.mpr ⟨not_lt.mpr hlow, not_le.mpr hlt⟩), hpower]
  simp [pure, Except.pure, bind, Except.bind]

/-- One residue takes a message to a given blinded value. -/
theorem existsUnique_blinding (hp : p.Prime) (hq : q.Prime) (hne : p ≠ q)
    (hed : e * d ≡ 1 [MOD (p - 1).lcm (q - 1)]) (hm : Int.gcd message (p * q : Nat) = 1) (b : Int) :
    ∃! r : Int, (0 ≤ r ∧ r < (p * q : Nat)) ∧ message * r ^ e ≡ b [ZMOD (p * q : Nat)] := by
  have hn := modulus_pos hp hq
  have : NeZero (p * q) := ⟨by exact_mod_cast hn.ne'⟩
  obtain ⟨inverse, -, -, hone⟩ := modInverse_spec hn hm
  have hunit : (message : ZMod (p * q)) * inverse = 1 := by
    rw [← ZMod.intCast_eq_intCast_iff] at hone
    exact_mod_cast hone
  obtain ⟨root, hroot, huniq⟩ := Rsa.existsUnique_root hp hq hne hed ((inverse : ZMod (p * q)) * b)
  refine ⟨root.val, ⟨⟨by omega, by exact_mod_cast root.val_lt⟩, ?_⟩, ?_⟩
  · rw [← ZMod.intCast_eq_intCast_iff]
    push_cast
    rw [ZMod.natCast_zmod_val, hroot, ← mul_assoc, hunit, one_mul]
  · rintro r ⟨⟨hlow, hlt⟩, hr⟩
    rw [← ZMod.intCast_eq_intCast_iff] at hr
    push_cast at hr
    have hrroot : (r : ZMod (p * q)) = root := by
      apply huniq
      rw [← hr, ← mul_assoc, mul_comm (inverse : ZMod (p * q)), hunit, one_mul]
    rw [← hrroot, ZMod.val_intCast, Int.emod_eq_of_lt hlow hlt]

end

end ZkVote.BlindSignature
