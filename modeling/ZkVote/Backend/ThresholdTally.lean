import ZkVote.Backend.ThresholdElGamal
import ZkVote.Lib.Shamir
import ZkVote.Prover.Field

/-!
# The tally by shares

Shares from enough authorities give the number of ones, unless there is none: the generator is not multiplied by
zero. What is accepted beside a proof is any tally with the share that goes with it.
-/

open Lib

namespace ZkVote.ThresholdElGamal

variable {Q P : Type} [AddCommGroup P]

/-- The points of the library are those of a group of prime order; what it does with other points is left open. -/
structure G1Laws (lib : G1 Q) (of : P → Q) (G : P) : Prop where
  base : lib.BASE = of G
  zero : lib.ZERO = of 0
  order : addOrderOf G = BN254_FR_MODULUS
  generates : ∀ p : P, ∃ k : Nat, p = k • G
  add : ∀ p q, lib.add (of p) (of q) = of (p + q)
  negate : ∀ p, lib.negate (of p) = of (-p)
  equals : ∀ p q, lib.equals (of p) (of q) = true ↔ p = q
  multiply : ∀ p (k : Nat), 0 < k → k < BN254_FR_MODULUS → lib.multiply (of p) k = some (of (k • p))
  rejects : ∀ q (k : Int), ¬(0 < k ∧ k < BN254_FR_MODULUS) → lib.multiply q k = none
  coordinates : ∀ q, (lib.toAffine q).1 < 2 ^ 256 ∧ (lib.toAffine q).2 < 2 ^ 256
  affine : ∀ p, p ≠ 0 → lib.new (lib.toAffine (of p)).1 (lib.toAffine (of p)).2 = some (of p)

/-! ## Arithmetic -/

theorem modulus_prime : BN254_FR_MODULUS.Prime := Prover.scalar_prime

instance : Fact BN254_FR_MODULUS.Prime := ⟨modulus_prime⟩

theorem mod_eq (a : Int) : mod a = a % BN254_FR_MODULUS := tmod_add_tmod a (by decide)

theorem cast_tmod (a : Int) : ((a.tmod BN254_FR_MODULUS : Int) : ZMod BN254_FR_MODULUS) = a := by
  rw [Int.tmod_def]
  push_cast
  rw [CharP.cast_eq_zero, zero_mul, sub_zero]

theorem modInverse_ok {a : Int} (ha : (a : ZMod BN254_FR_MODULUS) ≠ 0) :
    ∃ b, modInverse a BN254_FR_MODULUS = some b ∧ (b : ZMod BN254_FR_MODULUS) = (a : ZMod BN254_FR_MODULUS)⁻¹ := by
  have hpos : (0 : Int) < BN254_FR_MODULUS := by decide
  have hnot : ¬ (BN254_FR_MODULUS : Int) ∣ a % BN254_FR_MODULUS := by
    rw [← ZMod.intCast_zmod_eq_zero_iff_dvd, ZMod.intCast_mod]
    exact ha
  have hspec := euclid_spec (m := BN254_FR_MODULUS) (a := a) ((BN254_FR_MODULUS : Int).toNat + 1) BN254_FR_MODULUS
    (a % BN254_FR_MODULUS) 0 1 hpos.le (Int.emod_nonneg a hpos.ne')
    ((Int.emod_lt_of_pos a hpos).trans (by decide)) (by simp) (by simp [ZMod.intCast_mod])
  have hover : ((euclid ((BN254_FR_MODULUS : Int).toNat + 1) BN254_FR_MODULUS (a % BN254_FR_MODULUS) 0 1).1 :
      ZMod BN254_FR_MODULUS) =
      (euclid ((BN254_FR_MODULUS : Int).toNat + 1) BN254_FR_MODULUS (a % BN254_FR_MODULUS) 0 1).2 *
        ((a % BN254_FR_MODULUS : Int) : ZMod BN254_FR_MODULUS) := by
    rw [hspec.2, ZMod.intCast_mod]
  obtain ⟨hone, hinverse⟩ := euclid_prime modulus_prime hnot (hspec.1.trans (by rw [Int.gcd_comm])) hover
  unfold modInverse
  rw [tmod_add_tmod a hpos]
  simp only [hone, lt_irrefl, if_false]
  refine ⟨_, rfl, ?_⟩
  rw [tmod_add_tmod _ hpos, ZMod.intCast_mod]
  rw [ZMod.intCast_mod] at hinverse
  exact eq_inv_of_mul_eq_one_left hinverse

theorem cast_foldl_tmod (f : Nat → Int) (l : List Nat) (acc : Int) :
    ((l.foldl (fun acc j => (acc * f j).tmod BN254_FR_MODULUS) acc : Int) : ZMod BN254_FR_MODULUS) =
      acc * (l.map fun j => (f j : ZMod BN254_FR_MODULUS)).prod := by
  induction l generalizing acc with
  | nil => simp
  | cons j l ih =>
    rw [List.foldl_cons, ih, cast_tmod, List.map_cons, List.prod_cons]
    push_cast
    ring

/-- The place of an authority's share. -/
def place (index : Nat) : ZMod BN254_FR_MODULUS := (index : ZMod BN254_FR_MODULUS) + 1

/-- Two indices that an array can have are apart modulo the order. -/
theorem place_injective {i j : Nat} (hi : i < 2 ^ 32) (hj : j < 2 ^ 32) (h : place i = place j) : i = j := by
  have hbound : 2 ^ 32 < BN254_FR_MODULUS := by decide
  rw [place, place, add_left_inj, ZMod.natCast_eq_natCast_iff'] at h
  rwa [Nat.mod_eq_of_lt (by omega), Nat.mod_eq_of_lt (by omega)] at h

theorem place_ne_zero {i : Nat} (hi : i < 2 ^ 32) : place i ≠ 0 := by
  have hbound : 2 ^ 32 < BN254_FR_MODULUS := by decide
  intro h
  have hcast : ((i + 1 : Nat) : ZMod BN254_FR_MODULUS) = 0 := by push_cast; exact h
  rw [ZMod.natCast_eq_zero_iff] at hcast
  exact absurd (Nat.le_of_dvd (Nat.succ_pos i) hcast) (by omega)

/-- The coefficient of a share among others, a scalar that the library multiplies by. -/
theorem lagrangeCoefficientAtZero_ok {index : Nat} {indices : List Nat} (hindex : index < 2 ^ 32)
    (hindices : ∀ j ∈ indices, j < 2 ^ 32) :
    ∃ lambda : Nat, lagrangeCoefficientAtZero index indices = some (lambda : Int) ∧ 0 < lambda ∧
      lambda < BN254_FR_MODULUS ∧ (lambda : ZMod BN254_FR_MODULUS) =
        lagrangeWeight (place index) ((indices.filter (· ≠ index)).map place) := by
  have hnumerator := cast_foldl_tmod (fun j => 0 - ((j : Int) + 1)) (indices.filter (· ≠ index)) 1
  have hdenominator := cast_foldl_tmod (fun j => ((index : Int) + 1) - (j + 1)) (indices.filter (· ≠ index)) 1
  push_cast at hnumerator hdenominator
  have hne : (((indices.filter (· ≠ index)).foldl
      (fun acc (j : Nat) => (acc * (((index : Int) + 1) - (j + 1))).tmod BN254_FR_MODULUS) 1 : Int) :
        ZMod BN254_FR_MODULUS) ≠ 0 := by
    rw [hdenominator, one_mul]
    apply List.prod_ne_zero
    intro hzero
    obtain ⟨j, hj, hsub⟩ := List.mem_map.mp hzero
    rw [List.mem_filter] at hj
    have heq := place_injective hindex (hindices j hj.1) (sub_eq_zero.mp hsub)
    simp [heq] at hj
  obtain ⟨inverse, hinverse, hvalue⟩ := modInverse_ok hne
  unfold lagrangeCoefficientAtZero
  simp only [hinverse, Option.bind_eq_bind, Option.bind_some, Option.pure_def]
  have hweight : ((mod (((indices.filter (· ≠ index)).foldl
      (fun acc (j : Nat) => (acc * (0 - ((j : Int) + 1))).tmod BN254_FR_MODULUS) 1) * inverse) : Int) :
        ZMod BN254_FR_MODULUS) = lagrangeWeight (place index) ((indices.filter (· ≠ index)).map place) := by
    rw [mod_eq, ZMod.intCast_mod]
    push_cast
    rw [hnumerator, hvalue, hdenominator]
    unfold lagrangeWeight place
    simp [List.map_map, Function.comp_def]
  have hnonzero : lagrangeWeight (place index) ((indices.filter (· ≠ index)).map place) ≠ 0 := by
    refine mul_ne_zero (List.prod_ne_zero fun hzero => ?_) (inv_ne_zero (List.prod_ne_zero fun hzero => ?_))
    · rw [List.map_map] at hzero
      obtain ⟨j, hj, hsub⟩ := List.mem_map.mp hzero
      rw [List.mem_filter] at hj
      exact place_ne_zero (hindices j hj.1) (sub_eq_zero.mp hsub).symm
    · rw [List.map_map] at hzero
      obtain ⟨j, hj, hsub⟩ := List.mem_map.mp hzero
      rw [List.mem_filter] at hj
      exact of_decide_eq_true hj.2 (place_injective hindex (hindices j hj.1) (sub_eq_zero.mp hsub)).symm
  rw [mod_eq] at hweight ⊢
  generalize (List.foldl _ 1 (indices.filter (· ≠ index))) * inverse = product at hweight ⊢
  have hnonneg : 0 ≤ product % BN254_FR_MODULUS := Int.emod_nonneg _ (by decide)
  have hlt : product % BN254_FR_MODULUS < BN254_FR_MODULUS := Int.emod_lt_of_pos _ (by decide)
  refine ⟨(product % BN254_FR_MODULUS).toNat, ?_, ?_, by omega, ?_⟩
  · rw [Int.toNat_of_nonneg hnonneg]
  · rw [Nat.pos_iff_ne_zero]
    intro hzero
    have hproduct : product % BN254_FR_MODULUS = 0 := by omega
    rw [hproduct, Int.cast_zero] at hweight
    exact hnonzero hweight.symm
  · rw [← hweight, ← Int.cast_natCast, Int.toNat_of_nonneg hnonneg]

theorem evaluatePolynomial_eq (coeffs : List Nat) (x : Nat) :
    (evaluatePolynomial coeffs x : ZMod BN254_FR_MODULUS) =
      horner (coeffs.map Nat.cast) (x : ZMod BN254_FR_MODULUS) := by
  unfold evaluatePolynomial horner
  induction coeffs with
  | nil => simp
  | cons c coeffs ih =>
    rw [List.foldr_cons, List.map_cons, List.foldr_cons, ZMod.natCast_mod]
    push_cast
    rw [ih]

theorem sumShares_eq (shares : List Nat) :
    (sumShares shares : ZMod BN254_FR_MODULUS) = (shares.map (Nat.cast : Nat → ZMod BN254_FR_MODULUS)).sum := by
  have hfold : ∀ acc : Nat, ((shares.foldl (fun acc value => (acc + value) % BN254_FR_MODULUS) acc : Nat) :
      ZMod BN254_FR_MODULUS) = acc + (shares.map (Nat.cast : Nat → ZMod BN254_FR_MODULUS)).sum := by
    induction shares with
    | nil => simp
    | cons share shares ih =>
      intro acc
      rw [List.foldl_cons, ih, ZMod.natCast_mod, List.map_cons, List.sum_cons]
      push_cast
      ring
  unfold sumShares
  rw [hfold, Nat.cast_zero, zero_add]

theorem sumShares_lt (shares : List Nat) : sumShares shares < BN254_FR_MODULUS := by
  have hfold : ∀ acc < BN254_FR_MODULUS,
      shares.foldl (fun acc value => (acc + value) % BN254_FR_MODULUS) acc < BN254_FR_MODULUS := by
    induction shares with
    | nil => exact fun _ h => h
    | cons share shares ih => exact fun acc _ => ih _ (Nat.mod_lt _ (by decide))
  exact hfold 0 (by decide)

/-! ## Points -/

section
variable {lib : G1 Q} {of : P → Q} {G : P}

theorem G1Laws.smul_congr (laws : G1Laws lib of G) (p : P) {k l : Nat} (h : (k : ZMod BN254_FR_MODULUS) = l) :
    k • p = l • p := by
  obtain ⟨m, rfl⟩ := laws.generates p
  have hdvd : addOrderOf (m • G) ∣ BN254_FR_MODULUS := by
    rw [← laws.order]
    exact addOrderOf_smul_dvd m
  rw [ZMod.natCast_eq_natCast_iff] at h
  exact nsmul_eq_nsmul_iff_modEq.mpr (h.of_dvd hdvd)

theorem G1Laws.smul_eq_zero (laws : G1Laws lib of G) {p : P} (hp : p ≠ 0) {k : Nat} :
    k • p = 0 ↔ (k : ZMod BN254_FR_MODULUS) = 0 := by
  obtain ⟨m, rfl⟩ := laws.generates p
  have hzero : ∀ n : Nat, n • G = 0 ↔ (n : ZMod BN254_FR_MODULUS) = 0 := by
    intro n
    rw [← addOrderOf_dvd_iff_nsmul_eq_zero, laws.order, ZMod.natCast_eq_zero_iff]
  rw [← mul_smul, hzero]
  rw [Ne, hzero] at hp
  push_cast
  rw [mul_eq_zero]
  exact or_iff_left hp

theorem length_word {x : Nat} (hx : x < 2 ^ 256) : (word x).length = 64 := by
  have hword : word x = hexDigits 64 x := padStart_toDigits (w := 63) (by norm_num at hx ⊢; exact hx)
  rw [hword]
  simp [hexDigits]

theorem readWord_word {x : Nat} (hx : x < 2 ^ 256) : readWord (word x) = some x := by
  have hlt : x < 16 ^ 64 := by norm_num at hx ⊢; exact hx
  have hword : word x = hexDigits 64 x := padStart_toDigits (w := 63) hlt
  unfold readWord
  rw [hword, readBigInt_hexDigits (by decide) hlt]
  rfl

theorem padStart_of_le {width : Nat} {fill : Char} {cs : List Char} (h : width ≤ cs.length) :
    padStart width fill cs = cs := by
  unfold padStart
  rw [Nat.sub_eq_zero_of_le h, List.replicate_zero, List.nil_append]

/-- Only the first 128 characters of a text are read. -/
theorem hexToG1_append {hex : String} (hlength : hex.toList.length = 128) (rest : String) :
    hexToG1 lib (hex ++ rest) = hexToG1 lib hex := by
  unfold hexToG1
  rw [String.toList_append, padStart_of_le (by rw [List.length_append]; omega), padStart_of_le hlength.ge]
  dsimp only
  rw [List.take_append_of_le_length (by omega), List.drop_append_of_le_length (by omega),
    List.take_append_of_le_length (by rw [List.length_drop]; omega)]

theorem length_g1ToHex (laws : G1Laws lib of G) (q : Q) : (g1ToHex lib q).toList.length = 128 := by
  unfold g1ToHex
  rw [String.toList_ofList, List.length_append, length_word (laws.coordinates q).1, length_word (laws.coordinates q).2]

/-- A point that is not the identity is read back from its text. -/
theorem hexToG1_of (laws : G1Laws lib of G) {p : P} (hp : p ≠ 0) : hexToG1 lib (g1ToHex lib (of p)) = some (of p) := by
  have hx := (laws.coordinates (of p)).1
  have hy := (laws.coordinates (of p)).2
  unfold hexToG1
  rw [padStart_of_le (length_g1ToHex laws (of p)).ge]
  unfold g1ToHex
  rw [String.toList_ofList]
  dsimp only
  rw [List.take_left' (length_word hx), List.drop_left' (length_word hx),
    List.take_of_length_le (length_word hy).le, readWord_word hx, readWord_word hy]
  exact laws.affine p hp

/-! ## Multiples of the generator -/

/-- The multiple of the generator by `k`. -/
def point (of : P → Q) (G : P) (k : Nat) : Q := of (k • G)

theorem G1Laws.point_congr (laws : G1Laws lib of G) {k l : Nat} (h : (k : ZMod BN254_FR_MODULUS) = l) :
    point of G k = point of G l := congrArg of (laws.smul_congr G h)

theorem G1Laws.zero_eq (laws : G1Laws lib of G) : lib.ZERO = point of G 0 := by
  rw [laws.zero, point, zero_nsmul]

theorem G1Laws.base_eq (laws : G1Laws lib of G) : lib.BASE = point of G 1 := by
  rw [laws.base, point, one_nsmul]

theorem G1Laws.add_eq (laws : G1Laws lib of G) (k l : Nat) :
    lib.add (point of G k) (point of G l) = point of G (k + l) := by
  unfold point
  rw [laws.add, add_nsmul]

theorem G1Laws.multiply_eq (laws : G1Laws lib of G) (k : Nat) {m : Nat} (hpos : 0 < m) (hlt : m < BN254_FR_MODULUS) :
    lib.multiply (point of G k) m = some (point of G (m * k)) := by
  unfold point
  rw [laws.multiply _ m hpos hlt, mul_smul]

theorem G1Laws.sub_eq (laws : G1Laws lib of G) {k l m : Nat} (h : ((m + l : Nat) : ZMod BN254_FR_MODULUS) = k) :
    lib.add (point of G k) (lib.negate (point of G l)) = point of G m := by
  unfold point
  rw [laws.negate, laws.add, ← laws.smul_congr G h, add_nsmul, add_neg_cancel_right]

theorem G1Laws.ne_zero (laws : G1Laws lib of G) : G ≠ 0 := by
  intro hzero
  have hone : addOrderOf G = 1 := by rw [hzero, addOrderOf_zero]
  rw [laws.order] at hone
  exact absurd hone (by decide)

theorem G1Laws.equals_iff (laws : G1Laws lib of G) (k l : Nat) :
    lib.equals (point of G k) (point of G l) = true ↔ (k : ZMod BN254_FR_MODULUS) = l := by
  rw [point, point, laws.equals]
  constructor
  · intro h
    rw [ZMod.natCast_eq_natCast_iff, ← laws.order]
    exact nsmul_eq_nsmul_iff_modEq.mp h
  · exact laws.smul_congr G

def hexOf (lib : G1 Q) (of : P → Q) (G : P) (k : Nat) : String := g1ToHex lib (point of G k)

theorem G1Laws.hexToG1_eq (laws : G1Laws lib of G) {k : Nat} (hk : (k : ZMod BN254_FR_MODULUS) ≠ 0) :
    hexToG1 lib (hexOf lib of G k) = some (point of G k) :=
  hexToG1_of laws ((laws.smul_eq_zero laws.ne_zero).not.mpr hk)

theorem cast_scalar_ne_zero (r : Scalar) : (r.value : ZMod BN254_FR_MODULUS) ≠ 0 := by
  rw [Ne, ZMod.natCast_eq_zero_iff]
  exact Nat.not_dvd_of_pos_of_lt r.value_pos r.value_lt

/-! ## The key ceremony -/

theorem generateVSSCommitments_ok (laws : G1Laws lib of G) (coeffs : List Scalar) :
    generateVSSCommitments lib (coeffs.map Scalar.value) = some (coeffs.map fun c => hexOf lib of G c.value) := by
  have hone : ∀ c : Scalar, (lib.multiply lib.BASE c.value).map (g1ToHex lib) = some (hexOf lib of G c.value) := by
    intro c
    rw [laws.base_eq, laws.multiply_eq 1 c.value_pos c.value_lt, mul_one]
    rfl
  unfold generateVSSCommitments
  induction coeffs with
  | nil => rfl
  | cons c coeffs ih =>
    rw [List.map_cons, List.mapM_cons, ih, hone]
    rfl

/-- The scalars of the polynomial. -/
def Dealer.scalars (d : Dealer) (t : Nat) : List Scalar := d.secret :: (List.range (t - 1)).map d.randoms

theorem Dealer.coeffs_eq (d : Dealer) (t : Nat) : d.coeffs t = (d.scalars t).map Scalar.value := by
  unfold Dealer.coeffs generatePolynomial Dealer.scalars
  rw [List.map_cons, List.map_map]
  rfl

/-- What the authority deals. -/
def Dealer.dealing (lib : G1 Q) (of : P → Q) (G : P) (t n : Nat) (d : Dealer) : Dealing where
  shares := (List.range n).map fun i => evaluatePolynomial (d.coeffs t) (i + 1)
  commitments := (d.scalars t).map fun c => hexOf lib of G c.value

theorem generateDKGShares_ok (laws : G1Laws lib of G) {t n : Nat} (hn : n < 2 ^ 32) (d : Dealer) :
    generateDKGShares lib t n d.secret d.randoms = some (d.dealing lib of G t n) := by
  have hcommitments := generateVSSCommitments_ok laws (d.scalars t)
  rw [← Dealer.coeffs_eq] at hcommitments
  unfold generateDKGShares
  change (generateVSSCommitments lib (d.coeffs t)).bind _ = _
  rw [hcommitments, Option.bind_some, if_neg (by omega)]
  rfl

def authority (lib : G1 Q) (of : P → Q) (G : P) (t n : Nat) (i : Nat) (d : Dealer) : AuthorityInfo where
  index := i
  address := d.address
  vssCommitments := (d.dealing lib of G t n).commitments

theorem register_ok (laws : G1Laws lib of G) {t n : Nat} (hn : n < 2 ^ 32) (dealers : List Dealer)
    (authorities : List AuthorityInfo) (dealings : List Dealing) (s : ProtocolState)
    (hround : s.round = some { thresholdN := n, thresholdT := t, authorities := authorities }) :
    dealers.foldlM (register lib) (s, dealings) = some
      ({ s with
        round := some
          { thresholdN := n, thresholdT := t
            authorities := authorities ++
              dealers.mapIdx fun i d => authority lib of G t n (authorities.length + i) d } },
        dealings ++ dealers.map (Dealer.dealing lib of G t n)) := by
  induction dealers generalizing authorities dealings s with
  | nil => simp [← hround]
  | cons d dealers ih =>
    have hregistered : register lib (s, dealings) d = some
        ({ s with
          round := some
            { thresholdN := n, thresholdT := t
              authorities := authorities ++ [authority lib of G t n authorities.length d] } },
          dealings ++ [d.dealing lib of G t n]) := by
      unfold register ProtocolState.registerAuthority ProtocolState.getOrCreateRound
      simp only [hround, Option.getD_some, generateDKGShares_ok laws hn d, Option.bind_eq_bind, Option.bind_some,
        Option.pure_def]
      rfl
    rw [List.foldlM_cons, hregistered, Option.bind_eq_bind, Option.bind_some, ih _ _ _ rfl, List.map_cons,
      List.mapIdx_cons, List.append_assoc, List.append_assoc, List.length_append]
    simp only [List.length_singleton, List.singleton_append, Nat.add_zero, Nat.add_assoc, Nat.add_comm 1]

/-- The sum of the secrets. -/
def jointSecret (dealers : List Dealer) : Nat := (dealers.map fun d => d.secret.value).sum

theorem computeJointPublicKey_ok (laws : G1Laws lib of G) (t n : Nat) (dealers : List Dealer) :
    computeJointPublicKey lib (dealers.map fun d => (d.dealing lib of G t n).commitments) =
      some (hexOf lib of G (jointSecret dealers)) := by
  have hfold : ∀ start : Nat,
      (dealers.map fun d => (d.dealing lib of G t n).commitments).foldlM (addKey lib) (point of G start) =
        some (point of G (start + jointSecret dealers)) := by
    induction dealers with
    | nil => intro start; rfl
    | cons d dealers ih =>
      intro start
      have hkey : addKey lib (point of G start) (d.dealing lib of G t n).commitments =
          some (point of G (start + d.secret.value)) := by
        unfold addKey Dealer.dealing Dealer.scalars
        rw [List.map_cons]
        dsimp only
        rw [laws.hexToG1_eq (cast_scalar_ne_zero d.secret), Option.map_some, laws.add_eq]
      rw [List.map_cons, List.foldlM_cons, hkey, Option.bind_eq_bind, Option.bind_some, ih, Nat.add_assoc]
      rfl
  unfold computeJointPublicKey
  rw [laws.zero_eq, hfold, Nat.zero_add]
  rfl

theorem map_vssCommitments (t n m : Nat) (dealers : List Dealer) :
    (dealers.mapIdx fun i d => authority lib of G t n (m + i) d).map AuthorityInfo.vssCommitments =
      dealers.map fun d => (d.dealing lib of G t n).commitments := by
  refine List.ext_getElem? fun i => ?_
  rw [List.getElem?_map, List.getElem?_map, List.getElem?_mapIdx, Option.map_map]
  rfl

/-! ## Votes -/

def bit (v : Bool × Scalar) : Nat := if v.1 = true then 1 else 0

/-- The exponent of a vote's second part, under a key with the secret. -/
def masked (secret : Nat) (v : Bool × Scalar) : Nat := v.2.value * secret + bit v

def cipher (lib : G1 Q) (of : P → Q) (G : P) (secret : Nat) (v : Bool × Scalar) : Ciphertext where
  c1 := hexOf lib of G v.2.value
  c2 := hexOf lib of G (masked secret v)

theorem encryptVote_ok (laws : G1Laws lib of G) {secret : Nat} (hsecret : (secret : ZMod BN254_FR_MODULUS) ≠ 0)
    (v : Bool × Scalar) :
    encryptVote lib (hexOf lib of G secret) (if v.1 = true then 1 else 0) v.2 = some (cipher lib of G secret v) := by
  have hvote : scalarMulG1 lib (if v.1 = true then 1 else 0) = some (point of G (bit v)) := by
    unfold scalarMulG1 bit
    cases v.1 with
    | false => exact congrArg some laws.zero_eq
    | true =>
      have hone : lib.multiply lib.BASE (1 : Nat) = some (point of G 1) := by
        rw [laws.base_eq]
        exact laws.multiply_eq 1 Nat.one_pos modulus_prime.one_lt
      exact hone
  unfold encryptVote
  rw [laws.hexToG1_eq hsecret, laws.base_eq, laws.multiply_eq 1 v.2.value_pos v.2.value_lt, hvote]
  simp only [Option.bind_eq_bind, Option.bind_some, laws.multiply_eq secret v.2.value_pos v.2.value_lt, laws.add_eq,
    Option.pure_def, mul_one]
  rfl

theorem hexOf_ne_empty (laws : G1Laws lib of G) (k : Nat) : hexOf lib of G k ≠ "" := by
  intro h
  have hlength := length_g1ToHex laws (point of G k)
  rw [show g1ToHex lib (point of G k) = "" from h] at hlength
  cases hlength

theorem votes_ok (laws : G1Laws lib of G) {secret : Nat} (hsecret : (secret : ZMod BN254_FR_MODULUS) ≠ 0)
    (votes : List (Bool × Scalar)) (s : ProtocolState) {round : DkgRound} (hround : s.round = some round)
    (hkey : round.jointPublicKey = hexOf lib of G secret) :
    votes.foldlM (fun s v => s.encryptAndSubmitVote lib (if v.1 = true then 1 else 0) v.2) s =
      some { s with encryptedVotes := s.encryptedVotes ++ votes.map (cipher lib of G secret) } := by
  induction votes generalizing s with
  | nil => simp
  | cons v votes ih =>
    have hsubmitted : s.encryptAndSubmitVote lib (if v.1 = true then 1 else 0) v.2 =
        some { s with encryptedVotes := s.encryptedVotes ++ [cipher lib of G secret v] } := by
      unfold ProtocolState.encryptAndSubmitVote
      simp only [hround, hkey, hexOf_ne_empty laws, if_false, encryptVote_ok laws hsecret v, Option.bind_eq_bind,
        Option.bind_some, Option.pure_def]
    rw [List.foldlM_cons, hsubmitted, Option.bind_eq_bind, Option.bind_some,
      ih { s with encryptedVotes := s.encryptedVotes ++ [cipher lib of G secret v] } hround, List.map_cons]
    simp only [List.append_assoc, List.singleton_append]

/-! ## The encrypted tally -/

def randomness (votes : List (Bool × Scalar)) : Nat := (votes.map fun v => v.2.value).sum

def blinded (secret : Nat) (votes : List (Bool × Scalar)) : Nat := (votes.map (masked secret)).sum

theorem homomorphicAdd_ok (laws : G1Laws lib of G) {a b a' b' : Nat} (ha : (a : ZMod BN254_FR_MODULUS) ≠ 0)
    (hb : (b : ZMod BN254_FR_MODULUS) ≠ 0) (ha' : (a' : ZMod BN254_FR_MODULUS) ≠ 0)
    (hb' : (b' : ZMod BN254_FR_MODULUS) ≠ 0) :
    homomorphicAdd lib ⟨hexOf lib of G a, hexOf lib of G b⟩ ⟨hexOf lib of G a', hexOf lib of G b'⟩ =
      some ⟨hexOf lib of G (a + a'), hexOf lib of G (b + b')⟩ := by
  unfold homomorphicAdd
  simp only [laws.hexToG1_eq ha, laws.hexToG1_eq hb, laws.hexToG1_eq ha', laws.hexToG1_eq hb', laws.add_eq,
    Option.bind_eq_bind, Option.bind_some, Option.pure_def]
  rfl

theorem foldlM_homomorphicAdd (laws : G1Laws lib of G) {secret : Nat} (votes : List (Bool × Scalar))
    (hvotes : ∀ v ∈ votes, (masked secret v : ZMod BN254_FR_MODULUS) ≠ 0) (a b : Nat)
    (hsums : ∀ i < votes.length, ((a + randomness (votes.take i) : Nat) : ZMod BN254_FR_MODULUS) ≠ 0 ∧
      ((b + blinded secret (votes.take i) : Nat) : ZMod BN254_FR_MODULUS) ≠ 0) :
    (votes.map (cipher lib of G secret)).foldlM (homomorphicAdd lib) ⟨hexOf lib of G a, hexOf lib of G b⟩ =
      some ⟨hexOf lib of G (a + randomness votes), hexOf lib of G (b + blinded secret votes)⟩ := by
  induction votes generalizing a b with
  | nil => rfl
  | cons v votes ih =>
    have hstart : (a : ZMod BN254_FR_MODULUS) ≠ 0 ∧ (b : ZMod BN254_FR_MODULUS) ≠ 0 := hsums 0 (Nat.succ_pos _)
    have hadded : homomorphicAdd lib ⟨hexOf lib of G a, hexOf lib of G b⟩ (cipher lib of G secret v) =
        some ⟨hexOf lib of G (a + v.2.value), hexOf lib of G (b + masked secret v)⟩ :=
      homomorphicAdd_ok laws hstart.1 hstart.2 (cast_scalar_ne_zero v.2) (hvotes v List.mem_cons_self)
    rw [List.map_cons, List.foldlM_cons, hadded, Option.bind_eq_bind, Option.bind_some]
    rw [ih (fun v hv => hvotes v (List.mem_cons_of_mem _ hv)) (a + v.2.value) (b + masked secret v) fun i hi => ?_]
    · simp only [randomness, blinded, List.map_cons, List.sum_cons, Nat.add_assoc]
    · have hnext := hsums (i + 1) (Nat.succ_lt_succ hi)
      simp only [randomness, blinded, List.take_succ_cons, List.map_cons, List.sum_cons, ← Nat.add_assoc] at hnext
      exact hnext

/-! ## Decryption shares -/

/-- The key share of an authority. -/
def jointShare (dealers : List Dealer) (t : Nat) (j : Nat) : Nat :=
  sumShares (dealers.map fun d => evaluatePolynomial (d.coeffs t) (j + 1))

theorem keyShare_eq (dealers : List Dealer) (t : Nat) {n j : Nat} (hj : j < n) :
    keyShare (dealers.map (Dealer.dealing lib of G t n)) j = jointShare dealers t j := by
  unfold keyShare jointShare
  rw [List.map_map]
  congr 1
  refine List.map_congr_left fun d _ => ?_
  unfold Dealer.dealing
  rw [Function.comp_apply]
  dsimp only
  rw [List.getD_eq_getElem?_getD, List.getElem?_map, List.getElem?_range hj]
  rfl

/-- A share of the decryption of a first part with the exponent. -/
def shareOf (lib : G1 Q) (of : P → Q) (G : P) (exponent : Nat) (key : Nat → Nat) (j : Nat) : DecryptionShare where
  authorityIndex := j
  shareHex := hexOf lib of G (key j * exponent)

theorem generateDecryptionShare_ok (laws : G1Laws lib of G) {exponent : Nat}
    (hexponent : (exponent : ZMod BN254_FR_MODULUS) ≠ 0) {c2 : String} {x : Nat} (hpos : 0 < x)
    (hlt : x < BN254_FR_MODULUS) :
    generateDecryptionShare lib ⟨hexOf lib of G exponent, c2⟩ x = some (hexOf lib of G (x * exponent)) := by
  unfold generateDecryptionShare
  simp only [laws.hexToG1_eq hexponent, Option.bind_eq_bind, Option.bind_some, laws.multiply_eq exponent hpos hlt,
    Option.map_some]
  rfl

theorem find_authority (t n m : Nat) (dealers : List Dealer) (hnodup : (dealers.map Dealer.address).Nodup) {j : Nat}
    {d : Dealer} (hj : dealers[j]? = some d) :
    (dealers.mapIdx fun i d => authority lib of G t n (m + i) d).find? (fun a => a.address = d.address) =
      some (authority lib of G t n (m + j) d) := by
  induction dealers generalizing m j with
  | nil => cases hj
  | cons d' dealers ih =>
    rw [List.map_cons, List.nodup_cons] at hnodup
    rw [List.mapIdx_cons]
    cases j with
    | zero =>
      cases hj
      exact List.find?_cons_of_pos (decide_eq_true rfl)
    | succ j =>
      have hmem : d ∈ dealers := List.mem_of_getElem? hj
      have hother : d'.address ≠ d.address := fun heq => hnodup.1 (heq ▸ List.mem_map_of_mem hmem)
      rw [List.find?_cons_of_neg (by rw [decide_eq_true_eq]; exact hother)]
      have hnext := ih (m + 1) hnodup.2 hj
      simp only [Nat.add_assoc, Nat.add_comm 1] at hnext
      exact hnext

theorem addDecryptionShare_new {s : ProtocolState} {share : DecryptionShare}
    (hnew : ∀ old ∈ s.decryptionShares, old.authorityIndex ≠ share.authorityIndex) :
    s.addDecryptionShare share = { s with decryptionShares := s.decryptionShares ++ [share] } := by
  unfold ProtocolState.addDecryptionShare
  rw [if_neg]
  rw [List.any_eq_true]
  rintro ⟨old, hold, heq⟩
  exact hnew old hold (of_decide_eq_true heq)

/-- The shares of the holders that have made theirs, and of those that follow. -/
theorem shares_ok (laws : G1Laws lib of G) (e : Election) {exponent : Nat}
    (hexponent : (exponent : ZMod BN254_FR_MODULUS) ≠ 0) {c2 : String} {round : DkgRound}
    (hauthorities : round.authorities = e.dealers.mapIdx fun i d => authority lib of G e.t e.n (0 + i) d)
    (holders done : List Nat) (hnodup : (done ++ holders).Nodup) (hlt : ∀ j ∈ holders, j < e.n)
    (hkeys : ∀ j ∈ holders, 0 < jointShare e.dealers e.t j) (s : ProtocolState) (hround : s.round = some round)
    (hdone : s.decryptionShares = done.map (shareOf lib of G exponent (jointShare e.dealers e.t))) :
    holders.foldlM (e.share lib (e.dealers.map (Dealer.dealing lib of G e.t e.n)) ⟨hexOf lib of G exponent, c2⟩) s =
      some { s with
        decryptionShares := (done ++ holders).map (shareOf lib of G exponent (jointShare e.dealers e.t)) } := by
  induction holders generalizing done s with
  | nil =>
    rw [List.append_nil, ← hdone]
    rfl
  | cons j holders ih =>
    rw [List.forall_mem_cons] at hlt hkeys
    obtain ⟨d, hd⟩ : ∃ d, e.dealers[j]? = some d := by
      have hj : j < e.dealers.length := by
        rw [e.length_dealers]
        exact hlt.1
      exact ⟨_, List.getElem?_eq_getElem hj⟩
    have hfresh : ∀ old ∈ s.decryptionShares, old.authorityIndex ≠ j := by
      rw [hdone]
      intro old hold
      obtain ⟨i, hi, rfl⟩ := List.mem_map.mp hold
      exact (List.nodup_append.mp hnodup).2.2 i hi j List.mem_cons_self
    have hshare : e.share lib (e.dealers.map (Dealer.dealing lib of G e.t e.n)) ⟨hexOf lib of G exponent, c2⟩ s j =
        some { s with
          decryptionShares :=
            s.decryptionShares ++ [shareOf lib of G exponent (jointShare e.dealers e.t) j] } := by
      have hfound : (e.dealers.mapIdx fun i d => authority lib of G e.t e.n (0 + i) d).find?
          (fun a => a.address = d.address) = some (authority lib of G e.t e.n (0 + j) d) :=
        find_authority e.t e.n 0 e.dealers e.addresses_nodup hd
      have hadded : s.addDecryptionShare (shareOf lib of G exponent (jointShare e.dealers e.t) j) =
          { s with
            decryptionShares :=
              s.decryptionShares ++ [shareOf lib of G exponent (jointShare e.dealers e.t) j] } :=
        addDecryptionShare_new hfresh
      unfold Election.share ProtocolState.generateAuthorityDecryptionShare
      simp only [hd, keyShare_eq e.dealers e.t hlt.1, Option.bind_eq_bind, Option.bind_some,
        generateDecryptionShare_ok laws hexponent hkeys.1 (sumShares_lt _), hround, hauthorities, hfound,
        Option.pure_def]
      rw [← hround, ← hadded, Nat.zero_add]
      rfl
    rw [List.foldlM_cons, hshare, Option.bind_eq_bind, Option.bind_some]
    rw [ih (done ++ [j]) (by rw [List.append_assoc]; exact hnodup) hlt.2 hkeys.2
      { s with
        decryptionShares := s.decryptionShares ++ [shareOf lib of G exponent (jointShare e.dealers e.t) j] }
      hround (by rw [hdone, List.map_append]; rfl)]
    rw [List.append_assoc, List.singleton_append]

theorem jointShare_eq (dealers : List Dealer) (t j : Nat) :
    (jointShare dealers t j : ZMod BN254_FR_MODULUS) =
      (dealers.map fun d => horner ((d.coeffs t).map Nat.cast) (place j)).sum := by
  unfold jointShare
  rw [sumShares_eq, List.map_map]
  congr 1
  refine List.map_congr_left fun d _ => ?_
  rw [Function.comp_apply, evaluatePolynomial_eq]
  unfold place
  push_cast
  rfl

theorem length_coeffs (d : Dealer) {t : Nat} (ht : 1 ≤ t) : (d.coeffs t).length = t := by
  unfold Dealer.coeffs generatePolynomial
  rw [List.length_cons, List.length_map, List.length_range]
  omega

/-- Enough key shares, weighted, are the sum of the secrets. -/
theorem weighted_jointShares (dealers : List Dealer) {t : Nat} (ht : 1 ≤ t) {holders : List Nat}
    (hnodup : holders.Nodup) (hlt : ∀ j ∈ holders, j < 2 ^ 32) (henough : t ≤ holders.length) :
    (holders.map fun j => lagrangeWeight (place j) ((holders.filter (· ≠ j)).map place) *
      (jointShare dealers t j : ZMod BN254_FR_MODULUS)).sum = jointSecret dealers := by
  simp only [jointShare_eq]
  unfold jointSecret
  induction dealers with
  | nil => simp
  | cons d dealers ih =>
    have hreconstruct := reconstruct ((d.coeffs t).map (Nat.cast : Nat → ZMod BN254_FR_MODULUS)) holders place hnodup
      (fun i hi j hj => place_injective (hlt i hi) (hlt j hj))
      (by rw [List.length_map, length_coeffs d ht]; exact henough)
    simp only [List.map_cons, List.sum_cons, mul_add, List.sum_map_add]
    rw [hreconstruct, ih]
    unfold Dealer.coeffs generatePolynomial
    push_cast
    simp [horner]

theorem addShares_ok (laws : G1Laws lib of G) {exponent : Nat} (hexponent : (exponent : ZMod BN254_FR_MODULUS) ≠ 0)
    {key : Nat → Nat} {indices : List Nat} (hindices : ∀ j ∈ indices, j < 2 ^ 32) (todo : List Nat)
    (htodo : ∀ j ∈ todo, j < 2 ^ 32) (hkeys : ∀ j ∈ todo, (key j : ZMod BN254_FR_MODULUS) ≠ 0) (start : Nat) :
    ∃ m : Nat, (todo.map (shareOf lib of G exponent key)).foldlM (addShare lib indices) (point of G start) =
        some (point of G (start + m)) ∧
      (m : ZMod BN254_FR_MODULUS) =
        (todo.map fun j => lagrangeWeight (place j) ((indices.filter (· ≠ j)).map place) *
          (key j : ZMod BN254_FR_MODULUS)).sum * exponent := by
  induction todo generalizing start with
  | nil => exact ⟨0, rfl, by simp⟩
  | cons j todo ih =>
    rw [List.forall_mem_cons] at htodo hkeys
    obtain ⟨lambda, hlambda, hpos, hlt, hweight⟩ := lagrangeCoefficientAtZero_ok htodo.1 hindices
    have hshare : ((key j * exponent : Nat) : ZMod BN254_FR_MODULUS) ≠ 0 := by
      push_cast
      exact mul_ne_zero hkeys.1 hexponent
    have hadded : addShare lib indices (point of G start) (shareOf lib of G exponent key j) =
        some (point of G (start + lambda * (key j * exponent))) := by
      unfold addShare shareOf
      simp only [hlambda, laws.hexToG1_eq hshare, Option.bind_eq_bind, Option.bind_some,
        laws.multiply_eq _ hpos hlt, Option.map_some, laws.add_eq]
    obtain ⟨m, hrest, hm⟩ := ih htodo.2 hkeys.2 (start + lambda * (key j * exponent))
    refine ⟨lambda * (key j * exponent) + m, ?_, ?_⟩
    · rw [List.map_cons, List.foldlM_cons, hadded, Option.bind_eq_bind, Option.bind_some, hrest, Nat.add_assoc]
    · push_cast
      rw [hm, hweight, List.map_cons, List.sum_cons]
      ring

theorem combineDecryptionShares_ok (laws : G1Laws lib of G) {exponent : Nat}
    (hexponent : (exponent : ZMod BN254_FR_MODULUS) ≠ 0) (dealers : List Dealer) {t : Nat} (ht : 1 ≤ t)
    {holders : List Nat} (hnodup : holders.Nodup) (hlt : ∀ j ∈ holders, j < 2 ^ 32) (henough : t ≤ holders.length)
    (hkeys : ∀ j ∈ holders, (jointShare dealers t j : ZMod BN254_FR_MODULUS) ≠ 0) :
    combineDecryptionShares lib (holders.map (shareOf lib of G exponent (jointShare dealers t))) =
      some (hexOf lib of G (jointSecret dealers * exponent)) := by
  obtain ⟨m, hadded, hm⟩ := addShares_ok laws hexponent hlt holders hlt hkeys 0
  rw [weighted_jointShares dealers ht hnodup hlt henough] at hm
  unfold combineDecryptionShares
  rw [List.map_map]
  change ((holders.map (shareOf lib of G exponent (jointShare dealers t))).foldlM
    (addShare lib (holders.map fun j => j)) lib.ZERO).map _ = _
  rw [List.map_id', laws.zero_eq, hadded, Option.map_some, Nat.zero_add]
  unfold hexOf
  rw [laws.point_congr (l := jointSecret dealers * exponent) (by push_cast; exact hm)]

/-! ## The tally -/

theorem cast_ne_cast {i g : Nat} (hi : i < BN254_FR_MODULUS) (hg : g < BN254_FR_MODULUS) (hne : i ≠ g) :
    (i : ZMod BN254_FR_MODULUS) ≠ g := by
  rw [Ne, ZMod.natCast_eq_natCast_iff', Nat.mod_eq_of_lt hi, Nat.mod_eq_of_lt hg]
  exact hne

theorem searchTally_ok (laws : G1Laws lib of G) {g : Nat} (rounds i : Nat) (hle : i ≤ g) (hlt : g < i + rounds)
    (hsmall : i + rounds ≤ BN254_FR_MODULUS) :
    searchTally lib (point of G g) rounds i (point of G i) = some g := by
  induction rounds generalizing i with
  | zero => omega
  | succ rounds ih =>
    unfold searchTally
    by_cases heq : i = g
    · rw [if_pos ((laws.equals_iff i g).mpr (congrArg _ heq)), heq]
    · rw [if_neg ((laws.equals_iff i g).not.mpr (cast_ne_cast (by omega) (by omega) heq)), laws.base_eq, laws.add_eq]
      exact ih (i + 1) (by omega) (by omega) (by omega)

theorem decryptTally_ok (laws : G1Laws lib of G) {c1 : String} {ones c2 combined : Nat} (hones : ones < 100000)
    (hc2 : (c2 : ZMod BN254_FR_MODULUS) ≠ 0) (hcombined : (combined : ZMod BN254_FR_MODULUS) ≠ 0)
    (hdiff : ((ones + combined : Nat) : ZMod BN254_FR_MODULUS) = c2) :
    decryptTally lib ⟨c1, hexOf lib of G c2⟩ (hexOf lib of G combined) = some ones := by
  have hbound : 100000 < BN254_FR_MODULUS := by decide
  unfold decryptTally
  simp only [laws.hexToG1_eq hc2, laws.hexToG1_eq hcombined, Option.bind_eq_bind, Option.bind_some, laws.sub_eq hdiff]
  rw [laws.zero_eq]
  by_cases hzero : ones = 0
  · rw [if_pos ((laws.equals_iff ones 0).mpr (congrArg _ hzero)), hzero]
  · rw [if_neg ((laws.equals_iff ones 0).not.mpr (cast_ne_cast (by omega) (by omega) hzero)), laws.base_eq]
    exact searchTally_ok laws 99999 1 (by omega) (by omega) (by omega)

/-- What is accepted: any tally that can be multiplied by, with the point that goes with it. -/
theorem tallyMatches_iff (laws : G1Laws lib of G) {c1 : String} {c2 : Nat} (hc2 : (c2 : ZMod BN254_FR_MODULUS) ≠ 0)
    {share : P} (hshare : share ≠ 0) (tally : Int) :
    tallyMatches lib ⟨c1, hexOf lib of G c2⟩ (g1ToHex lib (of share)) tally = some true ↔
      0 < tally ∧ tally < BN254_FR_MODULUS ∧ c2 • G = share + tally.toNat • G := by
  unfold tallyMatches
  by_cases hrange : 0 < tally ∧ tally < BN254_FR_MODULUS
  · obtain ⟨k, rfl⟩ := Int.eq_ofNat_of_zero_le hrange.1.le
    have hmultiplied := laws.multiply G k (by omega) (by omega)
    rw [← laws.base] at hmultiplied
    simp only [hmultiplied, hexToG1_of laws hshare, laws.hexToG1_eq hc2, Option.bind_eq_bind, Option.bind_some,
      Option.pure_def, Option.some.injEq, point, laws.add, laws.equals, Int.toNat_natCast]
    exact ⟨fun h => ⟨hrange.1, hrange.2, h⟩, fun h => h.2.2⟩
  · rw [laws.rejects _ _ hrange]
    exact iff_of_false (fun h => nomatch h) fun h => hrange ⟨h.1, h.2.1⟩

theorem hexToBytes_ok (laws : G1Laws lib of G) (k : Nat) : ∃ bytes, hexToBytes (hexOf lib of G k) = some bytes := by
  have hdigit : ∀ d < 16, (hexValue (Nat.digitChar d)).isSome = true := by decide
  have hword : ∀ x < 2 ^ 256, ∀ c ∈ word x, (hexValue c).isSome = true := by
    intro x hx c hc
    have heq : word x = hexDigits 64 x := padStart_toDigits (w := 63) (by norm_num at hx ⊢; exact hx)
    rw [heq] at hc
    obtain ⟨i, _, rfl⟩ := List.mem_map.mp hc
    exact hdigit _ (Nat.mod_lt _ (by decide))
  unfold hexToBytes
  rw [if_pos]
  · exact ⟨_, rfl⟩
  · refine ⟨?_, List.all_eq_true.mpr fun c hc => ?_⟩
    · unfold hexOf
      rw [length_g1ToHex laws]
    · unfold hexOf g1ToHex at hc
      rw [String.toList_ofList] at hc
      rcases List.mem_append.mp hc with hc | hc
      · exact hword _ (laws.coordinates _).1 c hc
      · exact hword _ (laws.coordinates _).2 c hc

theorem generateTallyProof_ok (laws : G1Laws lib of G) {c1 c2 combined : Nat} {tally : Int}
    (hc1 : (c1 : ZMod BN254_FR_MODULUS) ≠ 0) (k : Scalar)
    (hmatches : tallyMatches lib ⟨hexOf lib of G c1, hexOf lib of G c2⟩ (hexOf lib of G combined) tally = some true) :
    ∃ proof, generateTallyProof lib ⟨hexOf lib of G c1, hexOf lib of G c2⟩ (hexOf lib of G combined) tally 0 k =
      some proof := by
  obtain ⟨first, hfirst⟩ := hexToBytes_ok laws (k.value * c1)
  obtain ⟨second, hsecond⟩ := hexToBytes_ok laws c1
  obtain ⟨third, hthird⟩ := hexToBytes_ok laws combined
  unfold hexOf at hfirst
  unfold generateTallyProof
  simp only [hmatches, laws.hexToG1_eq hc1, Option.bind_eq_bind, Option.bind_some,
    laws.multiply_eq c1 k.value_pos k.value_lt, hfirst, hsecond, hthird, Option.pure_def]
  exact ⟨_, rfl⟩

end

/-! ## Elections -/

namespace Election
variable (e : Election)

/-- No identity comes up where a point is written down, and no key share is zero. -/
structure Generic : Prop where
  key : ¬ BN254_FR_MODULUS ∣ jointSecret e.dealers
  votes : ∀ v ∈ e.votes, ¬ BN254_FR_MODULUS ∣ masked (jointSecret e.dealers) v
  sums : ∀ i < e.votes.length, ¬ BN254_FR_MODULUS ∣ randomness (e.votes.take (i + 1)) ∧
    ¬ BN254_FR_MODULUS ∣ blinded (jointSecret e.dealers) (e.votes.take (i + 1))
  shares : ∀ j ∈ e.holders, 0 < jointShare e.dealers e.t j

/-- The number of ones is returned, with a proof that is accepted. -/
def Completes (lib : G1 Q) : Prop :=
  ∃ encryptedTally result, e.run lib = some (encryptedTally, result) ∧ result.tally = e.ones ∧
    verifyTallyProof lib encryptedTally result.combinedShare result.tally result.proof = some true

/-- And no other tally, and no other combined share, is accepted for the encrypted tally. -/
def Delivers (lib : G1 Q) : Prop :=
  ∃ encryptedTally result, e.run lib = some (encryptedTally, result) ∧ result.tally = e.ones ∧
    verifyTallyProof lib encryptedTally result.combinedShare result.tally result.proof = some true ∧
    ∀ combinedShare tally proof, verifyTallyProof lib encryptedTally combinedShare tally proof = some true →
      tally = result.tally ∧ combinedShare = result.combinedShare

end Election

section
variable {lib : G1 Q} {of : P → Q} {G : P} {e : Election}

theorem cast_ne_zero_iff {k : Nat} : (k : ZMod BN254_FR_MODULUS) ≠ 0 ↔ ¬ BN254_FR_MODULUS ∣ k :=
  (ZMod.natCast_eq_zero_iff k BN254_FR_MODULUS).not

theorem blinded_eq (secret : Nat) (votes : List (Bool × Scalar)) :
    blinded secret votes = votes.countP (fun v => v.1) + secret * randomness votes := by
  unfold blinded randomness
  induction votes with
  | nil => rfl
  | cons v votes ih =>
    rw [List.map_cons, List.sum_cons, ih, List.map_cons, List.sum_cons, List.countP_cons]
    unfold masked bit
    ring

/-- The encrypted tally of an election in which no identity comes up. -/
def encryptedTally (lib : G1 Q) (of : P → Q) (G : P) (e : Election) : Ciphertext where
  c1 := hexOf lib of G (randomness e.votes)
  c2 := hexOf lib of G (blinded (jointSecret e.dealers) e.votes)

theorem sums_ne_zero (h : e.Generic) : (randomness e.votes : ZMod BN254_FR_MODULUS) ≠ 0 ∧
    (blinded (jointSecret e.dealers) e.votes : ZMod BN254_FR_MODULUS) ≠ 0 := by
  have hpos : 0 < e.votes.length := List.length_pos_iff.mpr e.votes_ne_nil
  have hlast := h.sums (e.votes.length - 1) (by omega)
  rw [show e.votes.length - 1 + 1 = e.votes.length by omega, List.take_length] at hlast
  exact ⟨cast_ne_zero_iff.mpr hlast.1, cast_ne_zero_iff.mpr hlast.2⟩

theorem computeEncryptedTally_ok (laws : G1Laws lib of G) (h : e.Generic) :
    aggregateTally lib (e.votes.map (cipher lib of G (jointSecret e.dealers))) = some (encryptedTally lib of G e) := by
  obtain ⟨v, votes, hvotes⟩ := List.exists_cons_of_ne_nil e.votes_ne_nil
  have hmasked : ∀ v' ∈ votes, (masked (jointSecret e.dealers) v' : ZMod BN254_FR_MODULUS) ≠ 0 := fun v' hv' =>
    cast_ne_zero_iff.mpr (h.votes v' (hvotes ▸ List.mem_cons_of_mem v hv'))
  have hsums : ∀ i < votes.length, ((v.2.value + randomness (votes.take i) : Nat) : ZMod BN254_FR_MODULUS) ≠ 0 ∧
      ((masked (jointSecret e.dealers) v + blinded (jointSecret e.dealers) (votes.take i) : Nat) :
        ZMod BN254_FR_MODULUS) ≠ 0 := by
    intro i hi
    have hprefix := h.sums i (by rw [hvotes, List.length_cons]; omega)
    rw [hvotes, List.take_succ_cons] at hprefix
    exact ⟨cast_ne_zero_iff.mpr hprefix.1, cast_ne_zero_iff.mpr hprefix.2⟩
  unfold encryptedTally
  rw [hvotes]
  exact foldlM_homomorphicAdd laws votes hmasked _ _ hsums

/-- All authorities have registered. -/
def registered (lib : G1 Q) (of : P → Q) (G : P) (e : Election) : DkgRound where
  thresholdN := e.n
  thresholdT := e.t
  authorities := e.dealers.mapIdx fun i d => authority lib of G e.t e.n (0 + i) d

def finalized (lib : G1 Q) (of : P → Q) (G : P) (e : Election) : DkgRound :=
  { registered lib of G e with jointPublicKey := hexOf lib of G (jointSecret e.dealers) }

def voted (lib : G1 Q) (of : P → Q) (G : P) (e : Election) : ProtocolState where
  round := some (finalized lib of G e)
  encryptedVotes := e.votes.map (cipher lib of G (jointSecret e.dealers))

def shared (lib : G1 Q) (of : P → Q) (G : P) (e : Election) : ProtocolState :=
  { voted lib of G e with
    decryptionShares := e.holders.map (shareOf lib of G (randomness e.votes) (jointShare e.dealers e.t)) }

/-- All that is left to an election in which no identity comes up is the combination of its shares. -/
theorem run_eq (laws : G1Laws lib of G) (h : e.Generic) :
    e.run lib = ((shared lib of G e).computeFinalTally lib (encryptedTally lib of G e) e.k).map fun result =>
      (encryptedTally lib of G e, result) := by
  have hregistered : e.dealers.foldlM (register lib) (({} : ProtocolState).initializeDKG e.n e.t, []) =
      some ({ round := some (registered lib of G e) }, e.dealers.map (Dealer.dealing lib of G e.t e.n)) :=
    register_ok laws e.n_lt e.dealers [] [] _ rfl
  have hfinalized : ({ round := some (registered lib of G e) } : ProtocolState).finalizeDKG lib =
      some { round := some (finalized lib of G e) } := by
    unfold ProtocolState.finalizeDKG
    simp only [Option.bind_eq_bind, Option.bind_some, registered, map_vssCommitments, computeJointPublicKey_ok laws,
      Option.pure_def]
    rfl
  have hvoted : e.votes.foldlM (fun s v => s.encryptAndSubmitVote lib (if v.1 = true then 1 else 0) v.2)
      { round := some (finalized lib of G e) } = some (voted lib of G e) :=
    votes_ok laws (cast_ne_zero_iff.mpr h.key) e.votes _ rfl rfl
  have htally : (voted lib of G e).computeEncryptedTally lib = some (encryptedTally lib of G e) :=
    computeEncryptedTally_ok laws h
  have hshared : e.holders.foldlM
      (e.share lib (e.dealers.map (Dealer.dealing lib of G e.t e.n)) (encryptedTally lib of G e))
      (voted lib of G e) = some (shared lib of G e) :=
    shares_ok laws e (sums_ne_zero h).1 rfl e.holders [] e.holders_nodup e.holders_lt h.shares _ rfl rfl
  unfold Election.run
  simp only [hregistered, hfinalized, hvoted, htally, hshared, Option.bind_eq_bind, Option.bind_some,
    Option.map_eq_bind]
  rfl

theorem cast_blinded (secret : Nat) (votes : List (Bool × Scalar)) :
    ((votes.countP (fun v => v.1) + secret * randomness votes : Nat) : ZMod BN254_FR_MODULUS) =
      blinded secret votes := by rw [blinded_eq]

theorem combined_ne_zero (h : e.Generic) :
    ((jointSecret e.dealers * randomness e.votes : Nat) : ZMod BN254_FR_MODULUS) ≠ 0 := by
  push_cast
  exact mul_ne_zero (cast_ne_zero_iff.mpr h.key) (sums_ne_zero h).1

theorem accepted_iff (laws : G1Laws lib of G) (h : e.Generic) {share : P} (hshare : share ≠ 0) (tally : Int)
    (proof : String) :
    verifyTallyProof lib (encryptedTally lib of G e) (g1ToHex lib (of share)) tally proof = some true ↔
      0 < tally ∧ tally < BN254_FR_MODULUS ∧
        blinded (jointSecret e.dealers) e.votes • G = share + tally.toNat • G :=
  tallyMatches_iff laws (sums_ne_zero h).2 hshare tally

theorem combined_accepted (laws : G1Laws lib of G) (h : e.Generic) (hones : 0 < e.ones) :
    tallyMatches lib (encryptedTally lib of G e)
      (hexOf lib of G (jointSecret e.dealers * randomness e.votes)) e.ones = some true := by
  have hlt : e.ones < 100000 := e.ones_lt
  have hbound : 100000 < BN254_FR_MODULUS := by decide
  refine (tallyMatches_iff laws (sums_ne_zero h).2
    ((laws.smul_eq_zero laws.ne_zero).not.mpr (combined_ne_zero h)) e.ones).mpr ⟨by omega, by omega, ?_⟩
  rw [Int.toNat_natCast, ← add_nsmul, blinded_eq, Nat.add_comm]
  rfl

theorem computeFinalTally_eq (laws : G1Laws lib of G) (h : e.Generic) :
    (shared lib of G e).computeFinalTally lib (encryptedTally lib of G e) e.k =
      (generateTallyProof lib (encryptedTally lib of G e)
        (hexOf lib of G (jointSecret e.dealers * randomness e.votes)) e.ones 0 e.k).map fun proof =>
          { tally := e.ones
            proof := proof
            combinedShare := hexOf lib of G (jointSecret e.dealers * randomness e.votes) } := by
  have hlt : ∀ j ∈ e.holders, j < 2 ^ 32 := fun j hj => (e.holders_lt j hj).trans e.n_lt
  have hkeys : ∀ j ∈ e.holders, (jointShare e.dealers e.t j : ZMod BN254_FR_MODULUS) ≠ 0 := fun j hj =>
    cast_ne_zero_iff.mpr (Nat.not_dvd_of_pos_of_lt (h.shares j hj) (sumShares_lt _))
  have hcombined := combineDecryptionShares_ok laws (sums_ne_zero h).1 e.dealers e.t_pos e.holders_nodup hlt e.enough
    hkeys
  have htally : decryptTally lib (encryptedTally lib of G e)
      (hexOf lib of G (jointSecret e.dealers * randomness e.votes)) = some e.ones :=
    decryptTally_ok laws e.ones_lt (sums_ne_zero h).2 (combined_ne_zero h) (cast_blinded _ _)
  have henough : ¬ (e.holders.map
      (shareOf lib of G (randomness e.votes) (jointShare e.dealers e.t))).length < e.t := by
    rw [List.length_map]
    exact Nat.not_lt.mpr e.enough
  unfold ProtocolState.computeFinalTally shared voted finalized registered
  simp only [Option.bind_eq_bind, Option.bind_some, if_neg henough, hcombined, htally, Option.pure_def]
  cases generateTallyProof lib (encryptedTally lib of G e)
    (hexOf lib of G (jointSecret e.dealers * randomness e.votes)) e.ones 0 e.k with
  | none => rfl
  | some proof => rfl

/-- The tally is zero where the generator is to be multiplied by it. -/
theorem completes_iff (laws : G1Laws lib of G) (h : e.Generic) : e.Completes lib ↔ 0 < e.ones := by
  constructor
  · rintro ⟨tally, result, hrun, -, -⟩
    rw [Nat.pos_iff_ne_zero]
    intro hzero
    have hnone : tallyMatches lib (encryptedTally lib of G e)
        (hexOf lib of G (jointSecret e.dealers * randomness e.votes)) e.ones = none := by
      unfold tallyMatches
      rw [laws.rejects _ _ (by rw [hzero]; decide)]
      rfl
    rw [run_eq laws h, computeFinalTally_eq laws h] at hrun
    unfold generateTallyProof at hrun
    rw [hnone] at hrun
    cases hrun
  · intro hones
    have hmatches := combined_accepted laws h hones
    obtain ⟨proof, hproof⟩ := generateTallyProof_ok laws (sums_ne_zero h).1 e.k hmatches
    refine ⟨encryptedTally lib of G e, { tally := e.ones, proof := proof, combinedShare := _ }, ?_, rfl, hmatches⟩
    have hgenerated : generateTallyProof lib (encryptedTally lib of G e)
        (hexOf lib of G (jointSecret e.dealers * randomness e.votes)) e.ones 0 e.k = some proof := hproof
    rw [run_eq laws h, computeFinalTally_eq laws h, hgenerated]
    rfl

/-! ## What is promised -/

theorem combinedShare_of_run {tally : Ciphertext} {result : ProtocolState.TallyResult}
    (hrun : e.run lib = some (tally, result)) : ∃ q, result.combinedShare = g1ToHex lib q := by
  unfold Election.run at hrun
  simp only [Option.bind_eq_bind, Option.bind_eq_some_iff, Option.pure_def, Option.some.injEq, Prod.mk.injEq] at hrun
  obtain ⟨_, _, _, _, _, _, _, _, _, _, _, hfinal, _, rfl⟩ := hrun
  unfold ProtocolState.computeFinalTally at hfinal
  simp only [Option.bind_eq_bind, Option.bind_eq_some_iff, Option.pure_def] at hfinal
  obtain ⟨_, _, hfinal⟩ := hfinal
  split at hfinal
  · simp at hfinal
  · simp only [Option.bind_eq_some_iff, Option.some.injEq] at hfinal
    obtain ⟨combined, hcombined, _, _, _, _, rfl⟩ := hfinal
    obtain ⟨q, _, rfl⟩ := Option.map_eq_some_iff.mp hcombined
    exact ⟨q, rfl⟩

/-- What stands behind the 128 characters of a share is not read. -/
theorem not_delivers (laws : G1Laws lib of G) (e : Election) : ¬ e.Delivers lib := by
  rintro ⟨tally, result, hrun, -, haccepted, honly⟩
  obtain ⟨q, hq⟩ := combinedShare_of_run hrun
  have hlength : result.combinedShare.toList.length = 128 := by
    rw [hq]
    exact length_g1ToHex laws q
  have hlonger : verifyTallyProof lib tally (result.combinedShare ++ "0") result.tally result.proof = some true := by
    unfold verifyTallyProof tallyMatches at haccepted ⊢
    rw [hexToG1_append hlength]
    exact haccepted
  have hsame := congrArg (fun s => s.toList.length) (honly _ _ _ hlonger).2
  rw [String.toList_append, List.length_append] at hsame
  exact absurd hsame (by simp)

/-- The honest share is accepted with its tally if there is a one, and so is any other tally with a share of its own. -/
theorem threshold_tally_never (laws : G1Laws lib of G) (e : Election) :
    ¬ e.Delivers lib ∧ (e.Generic → (e.Completes lib ↔ 0 < e.ones) ∧
      ∀ share tally proof, share ≠ 0 →
        (verifyTallyProof lib (encryptedTally lib of G e) (g1ToHex lib (of share)) tally proof = some true ↔
          0 < tally ∧ tally < BN254_FR_MODULUS ∧
            blinded (jointSecret e.dealers) e.votes • G = share + tally.toNat • G)) :=
  ⟨not_delivers laws e, fun h =>
    ⟨completes_iff laws h, fun _ tally proof hshare => accepted_iff laws h hshare tally proof⟩⟩

end

/-! ## On inputs -/

/-- The exponents themselves, with a second coordinate that tells the identity. -/
def exponents : G1 (ZMod BN254_FR_MODULUS) where
  ZERO := 0
  BASE := 1
  add p q := p + q
  negate p := -p
  equals p q := decide (p = q)
  multiply p k := if 0 < k ∧ k < BN254_FR_MODULUS then some (k • p) else none
  toAffine p := (p.val, if p = 0 then 0 else 1)
  new x y := if y = 1 then some x else none

theorem exponents_laws : G1Laws exponents id (1 : ZMod BN254_FR_MODULUS) where
  base := rfl
  zero := rfl
  order := ZMod.addOrderOf_one BN254_FR_MODULUS
  generates p := ⟨p.val, by rw [nsmul_one, ZMod.natCast_zmod_val]⟩
  add _ _ := rfl
  negate _ := rfl
  equals _ _ := decide_eq_true_iff
  multiply p k hpos hlt := by
    unfold exponents
    dsimp only
    rw [if_pos (by omega), natCast_zsmul]
    rfl
  rejects _ _ h := if_neg h
  coordinates p := by
    have hbound : BN254_FR_MODULUS < 2 ^ 256 := by decide
    refine ⟨(ZMod.val_lt p).trans hbound, ?_⟩
    unfold exponents
    dsimp only
    split
    · decide
    · decide
  affine p hp := by
    unfold exponents
    dsimp only [id]
    rw [if_neg hp, if_pos rfl, ZMod.natCast_zmod_val]

def scalar (value : Nat) (h : 0 < value ∧ value < BN254_FR_MODULUS) : Scalar := ⟨value, h.1, h.2⟩

/-- Three authorities of whom two are enough, and two ones among three votes. -/
theorem three_lt : 3 < 2 ^ 32 := by decide

def threeVotes : Election where
  n := 3
  t := 2
  dealers :=
    [{ address := "a", secret := scalar 5 (by decide), randoms := fun _ => scalar 3 (by decide) },
      { address := "b", secret := scalar 7 (by decide), randoms := fun _ => scalar 4 (by decide) },
      { address := "c", secret := scalar 11 (by decide), randoms := fun _ => scalar 6 (by decide) }]
  votes := [(true, scalar 2 (by decide)), (false, scalar 3 (by decide)), (true, scalar 4 (by decide))]
  holders := [0, 2]
  k := scalar 9 (by decide)
  t_pos := by decide
  t_le := by decide
  n_lt := three_lt
  length_dealers := rfl
  addresses_nodup := by decide
  votes_ne_nil := List.cons_ne_nil _ _
  holders_nodup := by decide
  holders_lt := by decide
  enough := by decide
  ones_lt := by decide

theorem threeVotes_generic : threeVotes.Generic where
  key := by decide
  votes := by decide
  sums := by decide
  shares := by decide

theorem threshold_tally_never_of_three_votes :
    ¬ threeVotes.Delivers exponents ∧ threeVotes.Completes exponents :=
  have h := threshold_tally_never exponents_laws threeVotes
  ⟨h.1, (h.2 threeVotes_generic).1.mpr (by decide)⟩

/-- The share that goes with a tally of three, for the same votes. -/
def forgedShare : ZMod BN254_FR_MODULUS := (blinded (jointSecret threeVotes.dealers) threeVotes.votes - 3 : Nat)

theorem another_tally_accepted :
    ¬∀ (Q P : Type) [AddCommGroup P] (lib : G1 Q) (of : P → Q) (G : P), G1Laws lib of G →
      ∀ e : Election, e.Delivers lib := by
  intro h
  obtain ⟨tally, result, hrun, htally, -, honly⟩ := h _ _ exponents id 1 exponents_laws threeVotes
  rw [run_eq exponents_laws threeVotes_generic] at hrun
  obtain ⟨_, -, hpair⟩ := Option.map_eq_some_iff.mp hrun
  obtain ⟨rfl, -⟩ := Prod.mk.inj hpair
  have hforged : verifyTallyProof exponents (encryptedTally exponents id 1 threeVotes)
      (g1ToHex exponents (id forgedShare)) 3 "" = some true :=
    (accepted_iff exponents_laws threeVotes_generic (by decide +kernel) 3 "").mpr
      ⟨by decide, by decide, by decide +kernel⟩
  have hthree := (honly _ _ _ hforged).1
  rw [htally] at hthree
  exact absurd hthree (by decide)

end ZkVote.ThresholdElGamal
