import ZkVote.Lib.Decimal
import ZkVote.Lib.Euclid
import ZkVote.Lib.Primes
import ZkVote.Lib.Reading

/-!
# Field elements of the prover

`zkvote-prover/src/field.rs`: from the bytes of a key, and from decimal texts, to the scalar field.
-/

open Lib

namespace ZkVote.Prover

def SCALAR_MODULUS : Nat := 21888242871839275222246405745257275088548364400416034343698204186575808495617

def scalarLines : List PrimeLine :=
  [⟨20963, 2, [2, 47, 223]⟩, ⟨41927, 5, [2, 20963]⟩, ⟨1593227, 2, [2, 19, 41927]⟩, ⟨1637, 2, [2, 2, 409]⟩,
    ⟨639533339, 2, [2, 229, 853, 1637]⟩, ⟨65865678001877903, 5, [2, 83, 379, 1637, 639533339]⟩,
    ⟨13818364434197438864469338081, 3, [2, 2, 2, 2, 2, 5, 823, 1593227, 65865678001877903]⟩,
    ⟨237073, 15, [2, 2, 2, 2, 3, 11, 449]⟩, ⟨93001, 14, [2, 2, 2, 3, 5, 5, 5, 31]⟩,
    ⟨12048837557, 2, [2, 2, 7, 7, 661, 93001]⟩, ⟨5156902474397, 2, [2, 2, 107, 12048837557]⟩,
    ⟨1670836401704629, 2, [2, 2, 3, 3, 3, 3, 5156902474397]⟩, ⟨5501, 2, [2, 2, 5, 5, 5, 11]⟩,
    ⟨11003, 2, [2, 5501]⟩, ⟨3691, 2, [2, 3, 3, 5, 41]⟩, ⟨4999, 3, [2, 3, 7, 7, 17]⟩,
    ⟨405928799, 22, [2, 11, 3691, 4999]⟩,
    ⟨21888242871839275222246405745257275088548364400416034343698204186575808495617, 5,
      List.replicate 28 2 ++
        [3, 3, 13, 29, 983, 11003, 237073, 405928799, 1670836401704629, 13818364434197438864469338081]⟩]

theorem scalar_prime : SCALAR_MODULUS.Prime :=
  prime_of_certificate (by decide +kernel : linesHold [] scalarLines = true) (by decide +kernel)

instance : Fact SCALAR_MODULUS.Prime := ⟨scalar_prime⟩

abbrev Fr := ZMod SCALAR_MODULUS

instance {M : Type} [AddCommGroup M] [Module Fr M] : SMulCommClass Fr Fr M := smulCommClass_self Fr M

def scalar_q : Int := SCALAR_MODULUS

/-! ## Integers -/

/-- The loop ends with the inverse or with it less `m`. -/
def modinv (a m : Int) : Int :=
  let newr := a.tmod m
  let newr := if newr < 0 then newr + m else newr
  let t := (euclid (newr.toNat + 1) m newr 0 1).2
  if t < 0 then t + m else t

def pow2_mod (bits : Nat) (q : Int) : Int := (List.range bits).foldl (fun r _ => (r * 2).tmod q) 1

/-- The radices that are cached in the source are these. -/
def inverse_radix (bits : Nat) (q : Int) : Int := modinv (pow2_mod bits q) q

def mont_to_int_bits (bytes_le : Bytes) (q : Int) (bits : Nat) : Int :=
  (fromLe bytes_le * inverse_radix bits q).tmod q

/-! ## Field elements -/

/-- `from_be_bytes_mod_order` of the lowest 32 bytes. -/
def bigint_to_fr (v : Int) : Fr :=
  let tmp := if v < 0 then v + scalar_q else v
  let be := toBeBytes 32 (tmp % 2 ^ 256).toNat
  (fromBeBytes be : Fr)

def fr_to_bigint (x : Fr) : Int := x.val

/-- Bit 255 is a sign. A slice of another length panics. -/
def decode_fr_zk_coef (bytes_le : Bytes) : Option Fr :=
  if bytes_le.length = 32 then
    let last := bytes_le.getD 31 0
    let sign := last &&& 0x80
    let buf := bytes_le.set 31 (last &&& 0x7f)
    let v := mont_to_int_bits buf scalar_q 504
    let f := bigint_to_fr v
    some (if sign ≠ 0 then -f else f)
  else none

/-- `trim`. -/
def trim (cs : List Char) : List Char :=
  ((cs.dropWhile Char.isWhitespace).reverse.dropWhile Char.isWhitespace).reverse

def fr_from_decimal (s : String) : Option Fr := (readInt (trim s.toList)).map bigint_to_fr

def decode_fr_canonical (bytes_le : Bytes) : Fr := bigint_to_fr (fromLe bytes_le)

/-! ## The base field -/

def BASE_MODULUS : Nat := 21888242871839275222246405745257275088696311157297823662689037894645226208583

abbrev Fq := ZMod BASE_MODULUS

def base_q : Int := BASE_MODULUS

def bigint_to_fq (v : Int) : Fq :=
  let tmp := if v < 0 then v + base_q else v
  let be := toBeBytes 32 (tmp % 2 ^ 256).toNat
  (fromBeBytes be : Fq)

def decode_fq (bytes_le : Bytes) : Fq := bigint_to_fq (mont_to_int_bits bytes_le base_q 256)

/-! ## Montgomery's radix comes off -/

theorem pow2_mod_spec (bits : Nat) {q : Nat} (hq : 1 < q) :
    0 ≤ pow2_mod bits q ∧ pow2_mod bits q < q ∧ ((pow2_mod bits q : Int) : ZMod q) = 2 ^ bits := by
  induction bits with
  | zero =>
    have hone : pow2_mod 0 q = 1 := rfl
    rw [hone]
    exact ⟨by omega, by omega, by simp⟩
  | succ bits ih =>
    have hstep : pow2_mod (bits + 1) q = (pow2_mod bits q * 2).tmod q := by
      unfold pow2_mod
      rw [List.range_succ, List.foldl_append]
      rfl
    obtain ⟨hnonneg, -, hpow⟩ := ih
    have hmod : pow2_mod (bits + 1) q = (pow2_mod bits q * 2) % q := by
      rw [hstep, Int.tmod_eq_emod_of_nonneg (by omega)]
    rw [hmod]
    refine ⟨Int.emod_nonneg _ (by omega), Int.emod_lt_of_pos _ (by omega), ?_⟩
    rw [ZMod.intCast_mod, Int.cast_mul, hpow, pow_succ]
    norm_cast

theorem modinv_spec {q : Nat} (hq : q.Prime) {a : Int} (hnonneg : 0 ≤ a) (hlt : a < q) (hne : a ≠ 0) :
    ((modinv a q : Int) : ZMod q) * a = 1 := by
  have hmod : a.tmod q = a := by
    rw [Int.tmod_eq_emod_of_nonneg hnonneg, Int.emod_eq_of_lt hnonneg hlt]
  have hpos := hq.pos
  obtain ⟨hgcd, hover⟩ :=
    euclid_spec (a := ((a : Int) : ZMod q)) (a.toNat + 1) q a 0 1 (by omega) hnonneg (by omega) (by simp) (by simp)
  have hdvd : ¬ (q : Int) ∣ a := by
    intro hdvd
    exact absurd (Int.le_of_dvd (by omega) hdvd) (by omega)
  rw [Int.gcd_comm] at hgcd
  obtain ⟨-, hinverse⟩ := euclid_prime hq hdvd hgcd hover
  unfold modinv
  simp only [hmod, if_neg (show ¬ a < 0 by omega)]
  split
  · rw [Int.cast_add, Int.cast_natCast, ZMod.natCast_self, add_zero]
    exact hinverse
  · exact hinverse

theorem two_ne_zero_fr : (2 : Fr) ≠ 0 := by
  intro h
  have hdvd := (ZMod.natCast_eq_zero_iff 2 SCALAR_MODULUS).mp (by exact_mod_cast h)
  exact absurd hdvd (by decide)

theorem inverse_radix_spec (bits : Nat) : ((inverse_radix bits scalar_q : Int) : Fr) * 2 ^ bits = 1 := by
  obtain ⟨hnonneg, hlt, hpow⟩ := pow2_mod_spec bits scalar_prime.one_lt
  have hne : pow2_mod bits SCALAR_MODULUS ≠ 0 := by
    intro hzero
    rw [hzero, Int.cast_zero] at hpow
    exact pow_ne_zero bits two_ne_zero_fr hpow.symm
  have hinverse := modinv_spec scalar_prime hnonneg hlt hne
  rw [hpow] at hinverse
  exact hinverse

theorem cast_tmod (a : Int) (q : Nat) : ((a.tmod q : Int) : ZMod q) = a := by
  have hsplit := congrArg (fun x : Int => (x : ZMod q)) (Int.tmod_add_mul_tdiv a q)
  simp only [Int.cast_add, Int.cast_mul, Int.cast_natCast, ZMod.natCast_self, zero_mul, add_zero] at hsplit
  exact hsplit

theorem bigint_to_fr_eq {v : Int} (hlow : -(SCALAR_MODULUS : Int) ≤ v) (hhigh : v < SCALAR_MODULUS) :
    bigint_to_fr v = v := by
  have hbound : (SCALAR_MODULUS : Int) < 2 ^ 256 := by decide
  have hcast : ((if v < 0 then v + scalar_q else v : Int) : Fr) = v := by
    split
    · rw [Int.cast_add, scalar_q, Int.cast_natCast, ZMod.natCast_self, add_zero]
    · rfl
  have hrange : 0 ≤ (if v < 0 then v + scalar_q else v : Int) ∧
      (if v < 0 then v + scalar_q else v : Int) < 2 ^ 256 := by
    unfold scalar_q
    split <;> omega
  unfold bigint_to_fr
  simp only
  rw [← hcast]
  generalize (if v < 0 then v + scalar_q else v : Int) = tmp at hrange ⊢
  obtain ⟨n, rfl⟩ := Int.eq_ofNat_of_zero_le hrange.1
  have hn : n < 256 ^ 32 := by
    have hlt := hrange.2
    norm_num at hlt ⊢
    omega
  rw [Int.emod_eq_of_lt hrange.1 hrange.2, Int.toNat_natCast, fromBeBytes_toBeBytes, Nat.mod_eq_of_lt hn,
    Int.cast_natCast]

/-! ## Stored values -/

/-- 32 bytes, the lowest first. -/
def storedFr (x : Fr) : Bytes := (toBeBytes 32 x.val).reverse

theorem fromLe_storedFr (x : Fr) : fromLe (storedFr x) = x.val := by
  have hlt : x.val < 256 ^ 32 := (ZMod.val_lt x).trans (by decide)
  unfold fromLe storedFr
  rw [List.reverse_reverse, fromBeBytes_toBeBytes, Nat.mod_eq_of_lt hlt]

theorem getD_storedFr (x : Fr) : (storedFr x).getD 31 0 &&& 0x80 = 0 ∧
    (storedFr x).getD 31 0 &&& 0x7f = (storedFr x).getD 31 0 := by
  have hsmall : x.val / 256 ^ 31 < 64 := by
    have hlt := ZMod.val_lt x
    have hbound : SCALAR_MODULUS ≤ 64 * 256 ^ 31 := by decide
    exact Nat.div_lt_of_lt_mul (by omega)
  have htop : (storedFr x).getD 31 0 = UInt8.ofNat (x.val / 256 ^ 31) := by
    unfold storedFr
    rw [toBeBytes_succ, List.reverse_cons, Nat.mod_eq_of_lt (by omega)]
    simp
  rw [htop]
  generalize x.val / 256 ^ 31 = b at hsmall
  revert b
  decide

theorem decode_stored (x : Fr) : decode_fr_zk_coef (storedFr x) = some (x * (2 ^ 504)⁻¹) := by
  obtain ⟨hsign, hlast⟩ := getD_storedFr x
  have hlength : (storedFr x).length = 32 := by simp [storedFr]
  have hset : (storedFr x).set 31 ((storedFr x).getD 31 0) = storedFr x := by
    apply List.ext_getElem (List.length_set)
    intro i hi _
    rw [List.getElem_set]
    split
    · next heq =>
      subst heq
      simp [List.getD_eq_getElem?_getD, hlength]
    · rfl
  have hradix := inverse_radix_spec 504
  unfold decode_fr_zk_coef
  rw [if_pos hlength]
  simp only [hsign, hlast, hset]
  rw [if_neg (by simp)]
  unfold mont_to_int_bits
  rw [fromLe_storedFr]
  have hpos : 0 < scalar_q := by decide
  have hlow := Int.lt_tmod_of_pos (x.val * inverse_radix 504 scalar_q) hpos
  have hhigh := Int.tmod_lt_of_pos (x.val * inverse_radix 504 scalar_q) hpos
  have hcast := cast_tmod (x.val * inverse_radix 504 scalar_q) SCALAR_MODULUS
  rw [Int.cast_mul, Int.cast_natCast, ZMod.natCast_zmod_val, eq_inv_of_mul_eq_one_left hradix] at hcast
  rw [bigint_to_fr_eq hlow.le hhigh]
  exact congrArg some hcast

/-! ## Decimal texts -/

theorem trim_digits {cs : List Char} (h : ∀ c ∈ cs, c.isWhitespace = false) : trim cs = cs := by
  have hnone : ∀ l : List Char, (∀ c ∈ l, c.isWhitespace = false) → l.dropWhile Char.isWhitespace = l := by
    intro l hl
    cases l with
    | nil => rfl
    | cons c l => rw [List.dropWhile_cons_of_neg (by simp [hl c List.mem_cons_self])]
  unfold trim
  rw [hnone cs h, hnone cs.reverse (by simpa using h), List.reverse_reverse]

theorem not_isWhitespace_of_isDigit {c : Char} (h : c.isDigit = true) : c.isWhitespace = false := by
  rw [Bool.eq_false_iff]
  intro hspace
  simp only [Char.isWhitespace, Bool.or_eq_true, decide_eq_true_eq] at hspace
  rcases hspace with ((rfl | rfl) | rfl) | rfl <;> cases h

theorem fr_from_decimal_repr (x : Fr) : fr_from_decimal x.val.repr = some x := by
  have htrim : trim x.val.repr.toList = x.val.repr.toList :=
    trim_digits fun c hc => not_isWhitespace_of_isDigit (isDigit_of_mem_repr hc)
  have hlt : (x.val : Int) < SCALAR_MODULUS := by exact_mod_cast ZMod.val_lt x
  unfold fr_from_decimal
  rw [htrim, readInt_repr, Option.map_some, bigint_to_fr_eq (by omega) hlt, Int.cast_natCast, ZMod.natCast_zmod_val]

end ZkVote.Prover
