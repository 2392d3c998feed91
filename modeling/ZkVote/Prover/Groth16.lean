import Mathlib.Algebra.Module.LinearMap.Basic
import Mathlib.LinearAlgebra.BilinearMap
import ZkVote.Prover.BinFile
import ZkVote.Prover.Fft
import ZkVote.Prover.Field

/-!
# Keys and witnesses as files

`zkvote-prover/src/zkey.rs` and `wtns.rs`. In what only panics `none` is a panic. The points of the curves and
the checks of their constructors are those of a library, here `Curves`.
-/

open Lib Lib.Outcome

namespace ZkVote.Prover

structure Coef where
  /-- 0 = A, 1 = B, 2 = C. -/
  matrix : Nat
  constraint : Nat
  signal : Nat
  value : Fr

structure ProvingKey (G1 G2 : Type) where
  n_vars : Nat
  n_public : Nat
  domain_size : Nat
  r_mod : Nat
  vk_alpha_1 : G1
  vk_beta_1 : G1
  vk_beta_2 : G2
  vk_gamma_2 : G2
  vk_delta_1 : G1
  vk_delta_2 : G2
  ic : List G1
  a : List G1
  b1 : List G1
  b2 : List G2
  c : List G1
  h : List G1
  coefs : List Coef

/-- `new1` and `new2` fail on coordinates that are not those of a point. -/
structure Curves (G1 G2 : Type) where
  identity1 : G1
  new1 : Fq → Fq → Option G1
  identity2 : G2
  new2 : Fq × Fq → Fq × Fq → Option G2

variable {G1 G2 : Type} (K : Curves G1 G2)

/-! ## Points -/

/-- The origin stands for the point at infinity. -/
def point1 (x y : Fq) : Option G1 := if x = 0 ∧ y = 0 then some K.identity1 else K.new1 x y

def point2 (xc0 xc1 yc0 yc1 : Fq) : Option G2 :=
  if xc0 = 0 ∧ xc1 = 0 ∧ yc0 = 0 ∧ yc1 = 0 then some K.identity2 else K.new2 (xc0, xc1) (yc0, yc1)

def read_g1 (bytes : Bytes) : Option G1 := do
  let x ← (slice bytes 0 32).map decode_fq
  let y ← (slice bytes 32 64).map decode_fq
  point1 K x y

def read_g2 (bytes : Bytes) : Option G2 := do
  let xc0 ← (slice bytes 0 32).map decode_fq
  let xc1 ← (slice bytes 32 64).map decode_fq
  let yc0 ← (slice bytes 64 96).map decode_fq
  let yc1 ← (slice bytes 96 128).map decode_fq
  point2 K xc0 xc1 yc0 yc1

/-- `read_g1_slice` of what is left from `off` on. -/
def read_g1_slice (b : Bytes) (off : Nat) : Option G1 := do
  let rest ← slice b off b.length
  let bytes ← slice rest 0 64
  read_g1 K bytes

def read_g2_slice (b : Bytes) (off : Nat) : Option G2 := do
  let rest ← slice b off b.length
  let bytes ← slice rest 0 128
  read_g2 K bytes

def read_g1_vec (b : Bytes) (n : Nat) : Option (List G1) :=
  (List.range n).mapM fun i => read_g1_slice K b (i * 64)

def read_g2_vec (b : Bytes) (n : Nat) : Option (List G2) :=
  (List.range n).mapM fun i => read_g2_slice K b (i * 128)

/-! ## Keys -/

/-- What section 2 holds. -/
structure Header (G1 G2 : Type) where
  n8r : Nat
  r_mod : Nat
  n_vars : Nat
  n_public : Nat
  domain_size : Nat
  vk_alpha_1 : G1
  vk_beta_1 : G1
  vk_beta_2 : G2
  vk_gamma_2 : G2
  vk_delta_1 : G1
  vk_delta_2 : G2

def parse_header (s2 : Bytes) : Option (Header G1 G2) := do
  let n8q ← read_u32 s2 0
  let _q ← (slice s2 4 (4 + n8q)).map fromLe
  let off_r := 4 + n8q
  let n8r ← read_u32 s2 off_r
  let r_mod ← (slice s2 (off_r + 4) (off_r + 4 + n8r)).map fromLe
  let off_vars := off_r + 4 + n8r
  let n_vars ← read_u32 s2 off_vars
  let n_public ← read_u32 s2 (off_vars + 4)
  let domain_size ← read_u32 s2 (off_vars + 8)
  let p := off_vars + 12
  let vk_alpha_1 ← read_g1_slice K s2 p
  let p := p + 64
  let vk_beta_1 ← read_g1_slice K s2 p
  let p := p + 64
  let vk_beta_2 ← read_g2_slice K s2 p
  let p := p + 128
  let vk_gamma_2 ← read_g2_slice K s2 p
  let p := p + 128
  let vk_delta_1 ← read_g1_slice K s2 p
  let p := p + 64
  let vk_delta_2 ← read_g2_slice K s2 p
  return {
    n8r, r_mod, n_vars, n_public, domain_size, vk_alpha_1, vk_beta_1, vk_beta_2, vk_gamma_2, vk_delta_1, vk_delta_2
  }

def parse_coef (s4 : Bytes) (n8r i : Nat) : Option Coef := do
  let s_coef := 12 + n8r
  let base := 4 + i * s_coef
  let m ← read_u32 s4 base
  let c ← read_u32 s4 (base + 4)
  let s ← read_u32 s4 (base + 8)
  let raw_coef ← slice s4 (base + 12) (base + 12 + n8r)
  let coef_val ← decode_fr_zk_coef raw_coef
  return { matrix := m % 2 ^ 8, constraint := c, signal := s, value := coef_val }

/-- Section 4. -/
def parse_coefs (s4 : Bytes) (n8r : Nat) : Option (List Coef) := do
  let n_coef ← read_u32 s4 0
  (List.range n_coef).mapM (parse_coef s4 n8r)

/-- `bf.section(id).ok_or(missing)?`. -/
def sectionOr (bf : BinFile) (id : Nat) (missing : String) : Outcome String Bytes := do
  let found ← expect (bf.section id)
  orPanic found missing

def zkeyMagic : Bytes := [0x7a, 0x6b, 0x65, 0x79]

/-- `n_vars as usize - n_public as usize - 1`. -/
def privateCount (n_vars n_public : Nat) : Option Nat :=
  if n_public + 1 ≤ n_vars then some (n_vars - n_public - 1) else none

def parse_zkey (w : Nat) (buf : Bytes) : Outcome String (ProvingKey G1 G2) := do
  let bf ← BinFile.parse w buf zkeyMagic
  let s1 ← sectionOr bf 1 "missing protocol section"
  let protocol_id ← expect (read_u32 s1 0)
  require (protocol_id = 1) ("unsupported protocol id " ++ protocol_id.repr)
  let s2 ← sectionOr bf 2 "missing header section"
  let hd ← expect (parse_header K s2)
  let s3 ← sectionOr bf 3 "missing IC section"
  let ic ← expect (read_g1_vec K s3 (hd.n_public + 1))
  let s4 ← sectionOr bf 4 "missing coeffs section"
  let coefs ← expect (parse_coefs s4 hd.n8r)
  let s5 ← sectionOr bf 5 "missing A section"
  let a ← expect (read_g1_vec K s5 hd.n_vars)
  let s6 ← sectionOr bf 6 "missing B1 section"
  let b1 ← expect (read_g1_vec K s6 hd.n_vars)
  let s7 ← sectionOr bf 7 "missing B2 section"
  let b2 ← expect (read_g2_vec K s7 hd.n_vars)
  let s8 ← sectionOr bf 8 "missing C section"
  let n_private ← expect (privateCount hd.n_vars hd.n_public)
  let c ← expect (read_g1_vec K s8 n_private)
  let s9 ← sectionOr bf 9 "missing H section"
  let h ← expect (read_g1_vec K s9 hd.domain_size)
  return {
    n_vars := hd.n_vars, n_public := hd.n_public, domain_size := hd.domain_size, r_mod := hd.r_mod,
    vk_alpha_1 := hd.vk_alpha_1, vk_beta_1 := hd.vk_beta_1, vk_beta_2 := hd.vk_beta_2,
    vk_gamma_2 := hd.vk_gamma_2, vk_delta_1 := hd.vk_delta_1, vk_delta_2 := hd.vk_delta_2,
    ic, a, b1, b2, c, h, coefs
  }

/-! ## Witnesses -/

structure Witness where
  n_vars : Nat
  values : List Fr

def wtnsMagic : Bytes := [0x77, 0x74, 0x6e, 0x73]

def parse_wtns (w : Nat) (buf : Bytes) : Outcome String Witness := do
  let bf ← BinFile.parse w buf wtnsMagic
  let s1 ← sectionOr bf 1 "missing wtns header"
  let n8 ← expect (read_u32 s1 0)
  let n_vars ← expect (read_u32 s1 (4 + n8))
  let s2 ← sectionOr bf 2 "missing wtns data"
  let values ← expect ((List.range n_vars).mapM fun i =>
    (slice s2 (i * n8) (i * n8 + n8)).map decode_fr_canonical)
  return { n_vars, values }

/-! ## What a file has to hold -/

variable {K}

/-- Section `id` of a file with these sections. -/
def sectionOf (sections : List (Nat × Bytes)) (id : Nat) : Option Bytes := sections.lookup id

/-- The coordinate in the 32 bytes from `off` on. -/
def fqAt (b : Bytes) (off : Nat) : Fq := decode_fq ((b.drop off).take 32)

/-- The bytes from `off` on begin with a point of the first group. -/
def Point1At (K : Curves G1 G2) (b : Bytes) (off : Nat) : Prop :=
  off + 64 ≤ b.length ∧ (point1 K (fqAt b off) (fqAt b (off + 32))).isSome

def Point2At (K : Curves G1 G2) (b : Bytes) (off : Nat) : Prop :=
  off + 128 ≤ b.length ∧ (point2 K (fqAt b off) (fqAt b (off + 32)) (fqAt b (off + 64)) (fqAt b (off + 96))).isSome

def Points1In (K : Curves G1 G2) (b : Bytes) (n : Nat) : Prop := ∀ i < n, Point1At K b (i * 64)

def Points2In (K : Curves G1 G2) (b : Bytes) (n : Nat) : Prop := ∀ i < n, Point2At K b (i * 128)

/-- `n8r` as section 2 announces it. -/
def n8rOf (s2 : Bytes) : Nat := u32At s2 (4 + u32At s2 0)

/-- Where the counts of section 2 begin. -/
def varsAt (s2 : Bytes) : Nat := 4 + u32At s2 0 + 4 + n8rOf s2

def nVarsOf (s2 : Bytes) : Nat := u32At s2 (varsAt s2)

def nPublicOf (s2 : Bytes) : Nat := u32At s2 (varsAt s2 + 4)

def domainSizeOf (s2 : Bytes) : Nat := u32At s2 (varsAt s2 + 8)

def HeaderIn (K : Curves G1 G2) (s2 : Bytes) : Prop :=
  Point1At K s2 (varsAt s2 + 12) ∧ Point1At K s2 (varsAt s2 + 76) ∧ Point2At K s2 (varsAt s2 + 140) ∧
    Point2At K s2 (varsAt s2 + 268) ∧ Point1At K s2 (varsAt s2 + 396) ∧ Point2At K s2 (varsAt s2 + 460)

/-- The coefficients, of 32 bytes each where there are any. -/
def CoefsIn (s4 : Bytes) (n8r : Nat) : Prop :=
  4 ≤ s4.length ∧ (0 < u32At s4 0 → n8r = 32 ∧ 4 + u32At s4 0 * 44 ≤ s4.length)

/-- Each section that is read holds what the counts say, up to the first one that is missing. -/
def KeyIn (K : Curves G1 G2) (sections : List (Nat × Bytes)) : Prop :=
  ∀ s1, sectionOf sections 1 = some s1 → 4 ≤ s1.length ∧ (u32At s1 0 = 1 →
  ∀ s2, sectionOf sections 2 = some s2 → HeaderIn K s2 ∧
  ∀ s3, sectionOf sections 3 = some s3 → Points1In K s3 (nPublicOf s2 + 1) ∧
  ∀ s4, sectionOf sections 4 = some s4 → CoefsIn s4 (n8rOf s2) ∧
  ∀ s5, sectionOf sections 5 = some s5 → Points1In K s5 (nVarsOf s2) ∧
  ∀ s6, sectionOf sections 6 = some s6 → Points1In K s6 (nVarsOf s2) ∧
  ∀ s7, sectionOf sections 7 = some s7 → Points2In K s7 (nVarsOf s2) ∧
  ∀ s8, sectionOf sections 8 = some s8 → nPublicOf s2 + 1 ≤ nVarsOf s2 ∧
    Points1In K s8 (nVarsOf s2 - nPublicOf s2 - 1) ∧
  ∀ s9, sectionOf sections 9 = some s9 → Points1In K s9 (domainSizeOf s2))

def WitnessIn (sections : List (Nat × Bytes)) : Prop :=
  ∀ s1, sectionOf sections 1 = some s1 → 8 + u32At s1 0 ≤ s1.length ∧
  ∀ s2, sectionOf sections 2 = some s2 → u32At s1 (4 + u32At s1 0) * u32At s1 0 ≤ s2.length

end ZkVote.Prover

/-!
## The Groth16 prover

`zkvote-prover/src/groth16.rs`. The groups are modules over the scalar field, the pairing is bilinear. `none` is
a panic.
-/

open Lib

namespace ZkVote.Prover

section

variable {G1 G2 GT : Type} [AddCommGroup G1] [Module Fr G1] [AddCommGroup G2] [Module Fr G2] [AddCommGroup GT]
  [Module Fr GT]

structure Proof (G1 G2 : Type) where
  pi_a : G1
  pi_b : G2
  pi_c : G1
  public_signals : List String

/-! ### Proving -/

/-- `msm_g1`, `msm_g2`. -/
def msm {G : Type} [AddCommGroup G] [Module Fr G] (bases : List G) (scalars : List Fr) : Option G :=
  if bases.length = scalars.length then some ((bases.zip scalars).map fun x => x.2 • x.1).sum else none

/-- `a[i] += term`. -/
def addAt (a : List Fr) (i : Nat) (term : Fr) : Option (List Fr) :=
  if i < a.length then some (a.set i (elem a i + term)) else none

def accumulate (witness : List Fr) (ab : List Fr × List Fr) (coef : Coef) : Option (List Fr × List Fr) := do
  let w ← witness[coef.signal]?
  let term := coef.value * w
  match coef.matrix with
  | 0 =>
    let a ← addAt ab.1 coef.constraint term
    return (a, ab.2)
  | 1 =>
    let b ← addAt ab.2 coef.constraint term
    return (ab.1, b)
  | _ => return ab

/-- From the values on the domain to those on the coset. -/
def toCoset (a : List Fr) (omega inc : Fr) : Option (List Fr) := do
  let a' ← ifft a omega
  fft (batch_apply_key a' inc) omega

def prove (pk : ProvingKey G1 G2) (witness : List Fr) (r s : Fr) : Option (Proof G1 G2) := do
  let (omega, inc) := roots pk.domain_size
  let (a, b) ← pk.coefs.foldlM (accumulate witness) (zero_vec pk.domain_size, zero_vec pk.domain_size)
  let c := (a.zip b).map fun x => x.1 * x.2
  let a ← toCoset a omega inc
  let b ← toCoset b omega inc
  let c ← toCoset c omega inc
  let p := join_abc a b c
  let inv2_16 ← inverse 65536
  let p := p.map fun x => x * inv2_16
  let acc_a ← msm pk.a witness
  let pi_a := acc_a + pk.vk_alpha_1 + r • pk.vk_delta_1
  let acc_b ← msm pk.b2 witness
  let pi_b := acc_b + pk.vk_beta_2 + s • pk.vk_delta_2
  let acc_b1 ← msm pk.b1 witness
  let pib1 := acc_b1 + pk.vk_beta_1 + s • pk.vk_delta_1
  let res_h ← msm pk.h p
  let rest ← if pk.n_public + 1 ≤ witness.length then some (witness.drop (pk.n_public + 1)) else none
  let acc_c ← msm pk.c rest
  let pi_c := acc_c + res_h + s • pi_a + r • pib1 - (r * s) • pk.vk_delta_1
  let public_signals := ((witness.take (pk.n_public + 1)).drop 1).map fun sig => (fr_to_bigint sig).repr
  return { pi_a, pi_b, pi_c, public_signals }

/-! ### Verifying -/

/-- The loop over the public signals, the next of which is that of index `i`. -/
def addSignals (ic : List G1) : Nat → G1 → List Fr → Option G1
  | _, vk_x, [] => some vk_x
  | i, vk_x, pub_i :: public_signals => do
    let point ← ic[i + 1]?
    addSignals ic (i + 1) (vk_x + pub_i • point) public_signals

def verify [DecidableEq GT] (pairing : G1 →ₗ[Fr] G2 →ₗ[Fr] GT) (pk : ProvingKey G1 G2) (proof : Proof G1 G2)
    (public_signals : List Fr) : Option Bool := do
  let ic0 ← pk.ic[0]?
  let vk_x ← addSignals pk.ic 0 ic0 public_signals
  let lhs := pairing proof.pi_a proof.pi_b
  let rhs := pairing pk.vk_alpha_1 pk.vk_beta_2 + pairing vk_x pk.vk_gamma_2 + pairing proof.pi_c pk.vk_delta_2
  return lhs == rhs

end

/-! ### Sums over lists -/

theorem map_elem_range (a : List Fr) : (List.range a.length).map (elem a) = a := by
  apply ext_elem
  · simp
  · intro i hi
    have hi' : i < a.length := by simpa using hi
    unfold elem
    simp [List.getD_eq_getElem?_getD, hi']

theorem sum_map_range {M : Type} [AddCommMonoid M] (f : Nat → M) (n : Nat) :
    ((List.range n).map f).sum = ∑ i ∈ Finset.range n, f i := by
  induction n with
  | zero => simp
  | succ n ih => rw [List.range_succ, List.map_append, List.sum_append, ih, Finset.sum_range_succ]; simp

section

variable {G : Type} [AddCommGroup G] [Module Fr G]

theorem msm_spec {n : Nat} (u : Nat → Fr) (g : G) {scalars : List Fr} (hlength : scalars.length = n) :
    msm ((List.range n).map fun i => u i • g) scalars =
      some ((∑ i ∈ Finset.range n, elem scalars i * u i) • g) := by
  subst hlength
  unfold msm
  rw [if_pos (by simp)]
  congr 1
  have hzip : ((List.range scalars.length).map fun i => u i • g).zip scalars =
      (List.range scalars.length).map fun i => (u i • g, elem scalars i) := by
    conv_lhs => rw [← map_elem_range scalars]
    rw [List.length_map, List.length_range, List.zip_map']
  rw [hzip, List.map_map, sum_map_range, Finset.sum_smul]
  apply Finset.sum_congr rfl
  intro i _
  simp only [Function.comp_apply, smul_smul]

theorem addSignals_spec {n : Nat} (u : Nat → Fr) (g : G) (signals : List Fr) (i : Nat) (x : Fr)
    (hfits : i + signals.length ≤ n) :
    addSignals ((List.range (n + 1)).map fun i => u i • g) i (x • g) signals =
      some ((x + ∑ j ∈ Finset.range signals.length, elem signals j * u (i + j + 1)) • g) := by
  induction signals generalizing i x with
  | nil => simp [addSignals]
  | cons signal signals ih =>
    rw [List.length_cons] at hfits
    have hi : i + 1 < n + 1 := by omega
    have hpoint : ((List.range (n + 1)).map fun i => u i • g)[i + 1]? = some (u (i + 1) • g) := by
      rw [List.getElem?_map, List.getElem?_range hi]
      rfl
    unfold addSignals
    rw [hpoint, Option.bind_eq_bind, Option.bind_some, smul_smul, ← add_smul, ih (i + 1) _ (by omega)]
    congr 2
    rw [List.length_cons, Finset.sum_range_succ']
    have hshift : ∀ j, i + 1 + j + 1 = i + (j + 1) + 1 := by intro j; omega
    simp only [hshift]
    have htail : ∀ j, elem (signal :: signals) (j + 1) = elem signals j := fun _ => rfl
    have hhead : elem (signal :: signals) 0 = signal := rfl
    simp only [htail, hhead]
    ring

end

end ZkVote.Prover
